/-
ScriptHooks.Hook.ScopePath — where in the hierarchy a script is defined or an
event fires.

A scope is a list of segments, from the least specific to the most specific; the
empty list is the root. A segment is a text that is not empty and has no points,
slashes, blanks or control characters. The type asks for it, so that every scope is
a valid one. Its text joins the segments with points, and is read again with blanks
around it left out (`parse?`). Scopes are ordered by their text.

The scopes above one are those that its first segments make, from the root down to
itself (`lineage`). Whether a scope is at or above another can also be told from
their texts (`isAtOrAbove`).

A `ScriptId` is a scope and a name: scripts of one name may be defined at several
scopes, and the more specific one prevails where both would run.
-/
import ScriptHooks.Text.CharClass

namespace ScriptHooks

def isSegmentChar (c : Char) : Bool :=
  !Text.isBlank c && c != '/' && c != '.' && !Text.isControl c

/-- Whether the characters are a segment: some, and all of them allowed. -/
def isSegment (segment : List Char) : Bool := !segment.isEmpty && segment.all isSegmentChar

/-- A position in the hierarchy, by its segments. -/
structure ScopePath where
  segments : List String
  valid : ∀ segment ∈ segments, isSegment segment.toList = true
  deriving DecidableEq

namespace ScopePath

def root : ScopePath := ⟨[], by simp⟩

instance : Inhabited ScopePath := ⟨root⟩

def text (scope : ScopePath) : String := ".".intercalate scope.segments

def isRoot (scope : ScopePath) : Bool := scope.segments.isEmpty

def depth (scope : ScopePath) : Nat := scope.segments.length

/-- The pieces between the points of a text; one more than there are points. -/
def splitPoints : List Char → List (List Char)
  | [] => [[]]
  | c :: rest =>
    match splitPoints rest with
    | [] => [[]]
    | piece :: pieces => if c = '.' then [] :: piece :: pieces else (c :: piece) :: pieces

def ofSegments? (segments : List String) : Option ScopePath :=
  if h : ∀ segment ∈ segments, isSegment segment.toList = true then some ⟨segments, h⟩ else none

/-- The scope that a text names; blanks around it do not count. -/
def parse? (raw : String) : Option ScopePath :=
  let trimmed := Text.trimBlanks raw
  if trimmed.isEmpty then some root
  else ofSegments? ((splitPoints trimmed.toList).map String.ofList)

/-- The scope made of the first `count` segments. -/
def take (scope : ScopePath) (count : Nat) : ScopePath :=
  ⟨scope.segments.take count, fun segment h => scope.valid segment (List.mem_of_mem_take h)⟩

/-- The scope and those above it, the root first and the scope itself last. -/
def lineage (scope : ScopePath) : List ScopePath :=
  (List.range (scope.depth + 1)).map scope.take

/-- Whether `scope` is `other` or above it, told by the texts: the text of the one
is empty, or the same, or continued by a point. -/
def isAtOrAbove (scope other : ScopePath) : Bool :=
  scope.isRoot || scope.text == other.text
    || (scope.text.toList ++ ['.']).isPrefixOf other.text.toList

end ScopePath

/-- The order of texts: by the code points from the left. -/
def compareText (a b : String) : Ordering :=
  if a < b then .lt else if a = b then .eq else .gt

/-- The identity of a script: where it is defined, and its name there. -/
structure ScriptId where
  scope : ScopePath
  name : String
  deriving DecidableEq

namespace ScriptId

/-- The scope and the name with a slash between them. -/
def text (id : ScriptId) : String := id.scope.text ++ "/" ++ id.name

/-- By scope, then by name. -/
def compare (a b : ScriptId) : Ordering :=
  (compareText a.scope.text b.scope.text).then (compareText a.name b.name)

end ScriptId

end ScriptHooks

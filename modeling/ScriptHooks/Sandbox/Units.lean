/-
ScriptHooks.Sandbox.Units — texts as scripts see them.

A script's text is a sequence of sixteen-bit units. A character beyond the first
65536 takes two of them, a leading and a trailing surrogate; scripts may take such
pairs apart, so a surrogate may also stand alone and then stands for no character.
`Units.ofString` writes a text in units, `Units.pieces` reads units as characters
and lone surrogates.

Between scripts and host a text must be one of characters. `Units.decode` gives the
text, or, where a surrogate stands alone, the number of bytes before it; what is
made from a text of the host always decodes to that text
(`ScriptHooks.Proofs.Sandbox.UnitTexts`).
-/

namespace ScriptHooks.Sandbox

/-- A text in sixteen-bit units. -/
structure Units where
  units : Array UInt16
  deriving DecidableEq

/-- A character, or a surrogate that stands alone. -/
inductive Piece
  | char (c : Char)
  | lone (unit : UInt16)
  deriving DecidableEq

def isLeading (unit : UInt16) : Bool := 0xd800 ≤ unit && unit < 0xdc00

def isTrailing (unit : UInt16) : Bool := 0xdc00 ≤ unit && unit < 0xe000

def unitsOfChar (c : Char) : List UInt16 :=
  if c.toNat < 0x10000 then [UInt16.ofNat c.toNat]
  else
    let n := c.toNat - 0x10000
    [UInt16.ofNat (0xd800 + n / 0x400), UInt16.ofNat (0xdc00 + n % 0x400)]

def charOfPair (leading trailing : UInt16) : Char :=
  Char.ofNat (0x10000 + (leading.toNat - 0xd800) * 0x400 + (trailing.toNat - 0xdc00))

/-- Units read as characters and lone surrogates. -/
def piecesOf : List UInt16 → List Piece
  | [] => []
  | [unit] => [if isLeading unit || isTrailing unit then .lone unit else .char (Char.ofNat unit.toNat)]
  | unit :: next :: rest =>
    if isLeading unit && isTrailing next then .char (charOfPair unit next) :: piecesOf rest
    else if isLeading unit || isTrailing unit then .lone unit :: piecesOf (next :: rest)
    else .char (Char.ofNat unit.toNat) :: piecesOf (next :: rest)

namespace Units

def empty : Units := ⟨#[]⟩

instance : Inhabited Units := ⟨empty⟩

def ofChars (chars : List Char) : Units := ⟨(chars.flatMap unitsOfChar).toArray⟩

def ofString (text : String) : Units := ofChars text.toList

instance : Coe String Units := ⟨ofString⟩

def size (text : Units) : Nat := text.units.size

def isEmpty (text : Units) : Bool := text.units.isEmpty

def append (a b : Units) : Units := ⟨a.units ++ b.units⟩

instance : Append Units := ⟨append⟩

def slice (text : Units) (start stop : Nat) : Units := ⟨text.units.extract start stop⟩

def at? (text : Units) (index : Nat) : Option Units := (text.units[index]?).map fun u => ⟨#[u]⟩

def pieces (text : Units) : List Piece := piecesOf text.units.toList

/-- The text with U+FFFD for each lone surrogate. -/
def toText (text : Units) : String :=
  String.ofList (text.pieces.map fun
    | .char c => c
    | .lone _ => '\uFFFD')

/-- The number of bytes before the first lone surrogate, counted in UTF-8. -/
def bytesBeforeLone : List Piece → Option Nat
  | [] => none
  | .lone _ :: _ => some 0
  | .char c :: rest => (bytesBeforeLone rest).map (· + c.utf8Size)

/-- The text, or the number of bytes before the first lone surrogate. -/
def decode (text : Units) : Except Nat String :=
  match bytesBeforeLone text.pieces with
  | none => .ok text.toText
  | some bytes => .error bytes

def join (separator : Units) : List Units → Units
  | [] => empty
  | [text] => text
  | text :: rest => rest.foldl (fun joined next => joined ++ separator ++ next) text

/-- Whether `part` stands in `text` at a place. -/
def occursAt (part text : Units) (start : Nat) : Bool :=
  start + part.size ≤ text.size && (text.slice start (start + part.size)).units == part.units

/-- The first place from `start` on, among the next `count`, where `part` stands. -/
def findFrom (part text : Units) (start : Nat) : Nat → Option Nat
  | 0 => none
  | count + 1 =>
    if part.occursAt text start then some start else findFrom part text (start + 1) count

/-- The first place from `start` on where `part` stands. -/
def find? (text part : Units) (start : Nat) : Option Nat :=
  if text.size < start + part.size then none
  else findFrom part text start (text.size - part.size - start + 1)

def less (a b : Units) : Bool := a.units.toList.map UInt16.toNat < b.units.toList.map UInt16.toNat

def replicate (text : Units) (count : Nat) : Units :=
  ⟨count.fold (fun _ _ units => units ++ text.units) (Array.mkEmpty (text.size * count))⟩

/-- The index that the text writes in decimal digits, if it is one below 2^32 - 1. -/
def index? (text : Units) : Option Nat :=
  if text.size = 0 || 10 < text.size then none
  else
    let digits := text.units.toList.map UInt16.toNat
    if digits.all fun d => 48 ≤ d && d ≤ 57 then
      match digits with
      | 48 :: _ :: _ => none
      | _ =>
        let n := digits.foldl (fun n d => n * 10 + (d - 48)) 0
        if n < 0xffffffff then some n else none
    else none

def ofNat (n : Nat) : Units := ofString (toString n)

end Units

end ScriptHooks.Sandbox

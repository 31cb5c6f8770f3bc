/-
ScriptHooks.Script.Issue — positions in a script and what is wrong there.

Positions count lines and characters from 1, and only a line feed starts a new
line. Line 0 means that an issue has no position.

A `ValidationError` lists the issues of a rejected script in the order of their
positions; issues at one position keep the order in which they were found, and those
without a position come first.

The summary names the first few issues (`shownIssues`) and says how many more there
are. It is what a caller sees who asked for something else, such as running a script.
-/

namespace ScriptHooks.Script

/-- A line and a column, both from 1; line 0 stands for no position. -/
structure Position where
  line : Nat
  column : Nat
  deriving Repr, DecidableEq, Inhabited

namespace Position

def start : Position := ⟨1, 1⟩

def absent : Position := ⟨0, 0⟩

def after (p : Position) (c : Char) : Position :=
  if c = '\n' then ⟨p.line + 1, 1⟩ else ⟨p.line, p.column + 1⟩

/-- The position after characters that start here. -/
def advance (p : Position) (chars : List Char) : Position := chars.foldl after p

/-- The order of the text. -/
def le (a b : Position) : Bool := a.line < b.line || (a.line == b.line && a.column ≤ b.column)

end Position

/-- What kind of rule an issue is about. -/
inductive IssueKind
  | badSyntax
  | disallowedConstruct
  | missingEntryPoint
  | metadata
  deriving Repr, DecidableEq

def IssueKind.name : IssueKind → String
  | badSyntax => "syntax"
  | disallowedConstruct => "disallowed_construct"
  | missingEntryPoint => "missing_entry_point"
  | metadata => "metadata"

/-- One thing that is wrong with a script. -/
structure Issue where
  kind : IssueKind
  message : String
  position : Position
  deriving Repr, DecidableEq

namespace Issue

def ofSyntax (message : String) (position : Position) : Issue :=
  ⟨.badSyntax, message, position⟩

/-- The message, after its position if it has one. -/
def render (issue : Issue) : String :=
  if issue.position.line = 0 then issue.message
  else toString issue.position.line ++ ":" ++ toString issue.position.column ++ ": "
    ++ issue.message

end Issue

/-- The issues of a rejected script. -/
structure ValidationError where
  issues : List Issue
  deriving Repr, DecidableEq

namespace ValidationError

def ofIssues (issues : List Issue) : ValidationError :=
  ⟨issues.mergeSort fun a b => a.position.le b.position⟩

def ofMetadata (message : String) : ValidationError :=
  ⟨[⟨.metadata, message, .absent⟩]⟩

def shownIssues : Nat := 5

def summary (error : ValidationError) : String :=
  let shown := "; ".intercalate ((error.issues.take shownIssues).map Issue.render)
  if shownIssues < error.issues.length then
    shown ++ " (and " ++ toString (error.issues.length - shownIssues) ++ " more)"
  else shown

end ValidationError

end ScriptHooks.Script

/-
ScriptHooks.Json.Complaint — what can be wrong with JSON text or with a value of
the wrong shape, and how it is said.

A complaint has a cause and, when it concerns text, the place where reading
stood: lines count from 1, columns count the bytes already read on the line.
-/
import ScriptHooks.Json.Writer

namespace ScriptHooks.Json

/-- A place in JSON text: a line, and the bytes before the place on that line. -/
structure Place where
  line : Nat
  column : Nat
  deriving Repr, DecidableEq

namespace Place

def start : Place := ⟨1, 0⟩

def after (p : Place) (c : Char) : Place :=
  if c = '\n' then ⟨p.line + 1, 0⟩ else ⟨p.line, p.column + c.utf8Size⟩

def afterByte (p : Place) (c : Char) : Place :=
  if c = '\n' then ⟨p.line + 1, 0⟩ else ⟨p.line, p.column + 1⟩

end Place

/-- Faults of the text itself. -/
inductive SyntaxFault
  | eofInList | eofInObject | eofInString | eofInValue
  | expectedColon | expectedListEnd | expectedObjectEnd | expectedIdent | expectedValue
  | invalidEscape | invalidNumber | numberOutOfRange | controlCharacter | keyNotString
  | loneSurrogate | trailingComma | trailingCharacters | unfinishedSurrogate | tooDeep
  deriving Repr, DecidableEq

def SyntaxFault.message : SyntaxFault → String
  | eofInList => "EOF while parsing a list"
  | eofInObject => "EOF while parsing an object"
  | eofInString => "EOF while parsing a string"
  | eofInValue => "EOF while parsing a value"
  | expectedColon => "expected \x60:\x60"
  | expectedListEnd => "expected \x60,\x60 or \x60]\x60"
  | expectedObjectEnd => "expected \x60,\x60 or \x60\x7d\x60"
  | expectedIdent => "expected ident"
  | expectedValue => "expected value"
  | invalidEscape => "invalid escape"
  | invalidNumber => "invalid number"
  | numberOutOfRange => "number out of range"
  | controlCharacter =>
    "control character (\\u0000-\\u001F) found while parsing a string"
  | keyNotString => "key must be a string"
  | loneSurrogate => "lone leading surrogate in hex escape"
  | trailingComma => "trailing comma"
  | trailingCharacters => "trailing characters"
  | unfinishedSurrogate => "unexpected end of hex escape"
  | tooDeep => "recursion limit exceeded"

/-- What stands where something else was expected. -/
inductive Found
  | null
  | bool (value : Bool)
  | int (value : Int)
  | float (value : Float)
  | string (value : String)
  | sequence
  | map

def ticked (name : String) : String := "\x60" ++ name ++ "\x60"

def Found.message : Found → String
  | null => "null"
  | bool value => "boolean " ++ ticked (if value then "true" else "false")
  | int value => "integer " ++ ticked (toString value)
  | float value => "floating point " ++ ticked (String.ofList (floatChars value))
  | string value => "string " ++ Text.quoted value
  | sequence => "sequence"
  | map => "map"

/-- Why a value was refused. -/
inductive Cause
  | fault (fault : SyntaxFault)
  | invalidType (found : Found) (expected : String)
  | invalidValue (found : Found) (expected : String)
  | invalidLength (length : Nat) (expected : String)
  | missingField (name : String)
  | duplicateField (name : String)
  | unknownVariant (found : String) (variants : List String)
  | custom (text : String)

/-- The choice among variants, as a complaint lists it. -/
def oneOf : List String → String
  | [] => "there are no variants"
  | [a] => "expected " ++ ticked a
  | [a, b] => "expected " ++ ticked a ++ " or " ++ ticked b
  | names => "expected one of " ++ ", ".intercalate (names.map ticked)

def Cause.message : Cause → String
  | fault f => f.message
  | invalidType found expected => "invalid type: " ++ found.message ++ ", expected " ++ expected
  | invalidValue found expected => "invalid value: " ++ found.message ++ ", expected " ++ expected
  | invalidLength length expected =>
    "invalid length " ++ toString length ++ ", expected " ++ expected
  | missingField name => "missing field " ++ ticked name
  | duplicateField name => "duplicate field " ++ ticked name
  | unknownVariant found variants =>
    "unknown variant " ++ ticked found ++ ", " ++ oneOf variants
  | custom text => text

/-- A cause, and where reading stood if the value came from text. -/
structure Complaint where
  cause : Cause
  place : Option Place

def Complaint.message (complaint : Complaint) : String :=
  match complaint.place with
  | none => complaint.cause.message
  | some place =>
    complaint.cause.message ++ " at line " ++ toString place.line
      ++ " column " ++ toString place.column

end ScriptHooks.Json

/-
ScriptHooks.Json.Writer — JSON text of a value.

`Json.compact` writes no blanks, `Json.pretty` indents by two spaces and leaves
empty containers on one line. Both are one function, `Json.chars`, with a flag for the
line breaks and the depth at which a value stands.

Doubles are written by `Json.floatStyle`: the fewest digits that read back, positional
from 1e-5 up to below 1e16, whole numbers with `.0`, by which they stay apart from
integers. Doubles that are no numbers have no JSON and are written as `null`.

`ScriptHooks.Proofs.Json.WrittenText` reads compact text back.
-/
import ScriptHooks.Json.Value
import ScriptHooks.Text.Quoted

namespace ScriptHooks.Json

/-- Doubles in JSON are positional from 1e-5 up to below 1e16, and whole numbers
keep `.0` so that they stay apart from integers. -/
def floatStyle : Numeric.FloatStyle := ⟨16, -4, true, true⟩

/-- One character of a string literal. Only what JSON forbids is escaped. -/
def escapeChar (c : Char) : List Char :=
  if c = '"' then ['\\', '"']
  else if c = '\\' then ['\\', '\\']
  else if c = '\n' then ['\\', 'n']
  else if c = '\r' then ['\\', 'r']
  else if c = '\t' then ['\\', 't']
  else if c = '\x08' then ['\\', 'b']
  else if c = '\x0c' then ['\\', 'f']
  else if c.toNat < 0x20 then
    ['\\', 'u', '0', '0'] ++ (if c.toNat < 0x10 then ['0'] else []) ++ Text.hexDigits c.toNat
  else [c]

def literalChars (text : List Char) : List Char :=
  '"' :: text.flatMap escapeChar ++ ['"']

/-- The text of a finite double; the others have none and are `null`. -/
def floatChars (x : Float) : List Char :=
  if Numeric.isFinite x then floatStyle.render x else "null".toList

def numberChars : JsonNumber → List Char
  | .int n _ => (toString n).toList
  | .float x => floatChars x

/-- What separates the parts of a container: nothing, or a new line indented by
the depth. -/
def breakLine (indented : Bool) (depth : Nat) : List Char :=
  if indented then '\n' :: List.replicate (2 * depth) ' ' else []

mutual

/-- The text of a value standing at the given depth. -/
def chars (indented : Bool) (depth : Nat) : Json → List Char
  | .null => "null".toList
  | .bool b => if b then "true".toList else "false".toList
  | .number n => numberChars n
  | .string s => literalChars s.toList
  | .array [] => ['[', ']']
  | .array (item :: items) =>
    '[' :: breakLine indented (depth + 1) ++ chars indented (depth + 1) item
      ++ itemsChars indented (depth + 1) items ++ breakLine indented depth ++ [']']
  | .object [] => ['\x7b', '\x7d']
  | .object ((key, value) :: fields) =>
    '\x7b' :: breakLine indented (depth + 1) ++ literalChars key.toList
      ++ (if indented then [':', ' '] else [':']) ++ chars indented (depth + 1) value
      ++ fieldsChars indented (depth + 1) fields ++ breakLine indented depth ++ ['\x7d']

/-- The items after the first, each after its comma. -/
def itemsChars (indented : Bool) (depth : Nat) : List Json → List Char
  | [] => []
  | item :: items =>
    ',' :: breakLine indented depth ++ chars indented depth item
      ++ itemsChars indented depth items

/-- The entries after the first, each after its comma. -/
def fieldsChars (indented : Bool) (depth : Nat) : List (String × Json) → List Char
  | [] => []
  | (key, value) :: fields =>
    ',' :: breakLine indented depth ++ literalChars key.toList
      ++ (if indented then [':', ' '] else [':']) ++ chars indented depth value
      ++ fieldsChars indented depth fields

end

def compact (value : Json) : String := String.ofList (value.chars false 0)

def pretty (value : Json) : String := String.ofList (value.chars true 0)

def quote (text : String) : String := String.ofList (literalChars text.toList)

end ScriptHooks.Json

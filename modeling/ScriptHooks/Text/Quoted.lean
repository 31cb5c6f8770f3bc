/-
ScriptHooks.Text.Quoted — text between double quotes, as error messages show it.

`quoted` writes a quote and a backslash with a backslash before them, the usual
control characters by their letters, and everything that cannot be shown as
itself (controls, unassigned code points, marks that would attach to the quote)
as its hexadecimal code point in braces.
-/
import ScriptHooks.Text.CharClass

namespace ScriptHooks.Text

/-- The digits of `n` in base sixteen, lower case, without leading zeros. -/
def hexDigits (n : Nat) : List Char := Nat.toDigits 16 n

def quotedChar (c : Char) : List Char :=
  if c = '"' then ['\\', '"']
  else if c = '\\' then ['\\', '\\']
  else if c = '\n' then ['\\', 'n']
  else if c = '\r' then ['\\', 'r']
  else if c = '\t' then ['\\', 't']
  else if c = '\x00' then ['\\', '0']
  else if extendsGrapheme c || !isPrintable c then
    ['\\', 'u', '\x7b'] ++ hexDigits c.toNat ++ ['\x7d']
  else [c]

def quoted (text : String) : String :=
  String.ofList ('"' :: text.toList.flatMap quotedChar ++ ['"'])

end ScriptHooks.Text

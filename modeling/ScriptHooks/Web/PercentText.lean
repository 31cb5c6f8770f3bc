/-
ScriptHooks.Web.PercentText — text in places where not every character may stand.

A character that may not stand in a place is written as its bytes, each a percent sign and
two hexadecimal digits. Controls, blanks and everything outside ASCII may stand nowhere; each
place bars a few characters more.
-/
import ScriptHooks.Digest.Bytes

namespace ScriptHooks.Web

/-- A character as its bytes, with capital digits. -/
def percentChars (c : Char) : List Char :=
  (Digest.utf8Bytes (String.singleton c)).flatMap fun byte =>
    '%' :: (Digest.hexChars [byte]).map Char.toUpper

/-- Whether a character may stand for itself where some are barred. -/
def isPlain (barred : List Char) (c : Char) : Bool :=
  0x20 < c.toNat && c.toNat < 0x7f && !barred.contains c

def percentText (barred text : List Char) : List Char :=
  text.flatMap fun c => if isPlain barred c then [c] else percentChars c

def fragmentBarred : List Char := "\"<>\x60".toList

def pathBarred : List Char := fragmentBarred ++ "#?\x7b\x7d".toList

def segmentBarred : List Char := pathBarred ++ "/%".toList

def queryBarred : List Char := "\"<>#'".toList

/-- A character of a form: letters, figures and a few marks stand for themselves, and a
blank is a plus sign. -/
def formChar (c : Char) : List Char :=
  if c.isAlphanum || "*-._".toList.contains c then [c]
  else if c = ' ' then ['+']
  else percentChars c

/-- The text of a form: names and values. -/
def formText (fields : List (String × String)) : String :=
  "&".intercalate (fields.map fun (name, value) =>
    String.ofList (name.toList.flatMap formChar) ++ "="
      ++ String.ofList (value.toList.flatMap formChar))

end ScriptHooks.Web

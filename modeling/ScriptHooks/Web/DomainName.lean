/-
ScriptHooks.Web.DomainName — the names of hosts, in the one form that is compared.

A name may be written with percent signs, in capitals, in wide characters, or in any
script. `DomainName.toAscii` undoes all that: small letters of ASCII, labels of other
scripts in punycode, or nothing if the text cannot be a name. Whether labels are empty
or too long does not matter here, and a dot at the end stays.
-/
import ScriptHooks.Text.CharClass
import ScriptHooks.Text.LetterCase
import ScriptHooks.Web.Punycode

namespace ScriptHooks.Web.DomainName

/-! ## Percent signs -/

def hexValue (c : Char) : Nat :=
  if c.isDigit then c.toNat - '0'.toNat else c.toLower.toNat - 'a'.toNat + 10

/-- The bytes that a text stands for: two hexadecimal digits after a percent sign are
one byte, anything else is itself. -/
def percentBytes : List Char → List UInt8
  | '%' :: a :: b :: rest =>
    if Text.isHexDigit a && Text.isHexDigit b then
      UInt8.ofNat (hexValue a * 16 + hexValue b) :: percentBytes rest
    else 37 :: percentBytes (a :: b :: rest)
  | c :: rest => (String.singleton c).toUTF8.toList ++ percentBytes rest
  | [] => []

/-- The characters that a text stands for, if its bytes are those of a text. -/
def percentDecoded (text : List Char) : Option (List Char) :=
  if text.all fun c => c != '%' then some text
  else (String.fromUTF8? ⟨(percentBytes text).toArray⟩).map String.toList

/-! ## Characters -/

/-- Characters that a name does not show. -/
def isIgnored (c : Char) : Bool :=
  let n := c.toNat
  n == 0xad || n == 0x34f || (0x180b ≤ n && n ≤ 0x180f) || n == 0x200b || n == 0x2060
    || n == 0x2064 || (0xfe00 ≤ n && n ≤ 0xfe0f) || n == 0xfeff
    || (0xe0100 ≤ n && n ≤ 0xe01ef)

/-- The character that stands for this one: wide characters are narrow, dots of any kind
are full stops, letters are small. -/
def mapped (c : Char) : Char :=
  let n := c.toNat
  if n == 0x3002 || n == 0xff61 then '.'
  else if 0xff01 ≤ n && n ≤ 0xff5e then (Char.ofNat (n - 0xfee0)).toLower
  else Text.lowerCase c

/-- The characters of ASCII that may not be in a name. -/
def isForbidden (c : Char) : Bool :=
  c.toNat ≤ 0x20 || c.toNat == 0x7f || "%#/:<>?@[\\]^\x60\x7b|\x7d".toList.contains c

def isLabelChar (c : Char) : Bool :=
  Text.isPrintable c && !Text.isBlank c && !isIgnored c && mapped c == c

def isLabel (label : List Char) : Bool :=
  label.all (fun c => c.toNat < 128 || isLabelChar c)
    && !(label.head?.any Text.extendsGrapheme)

/-! ## Labels and names -/

def punycodeMark : List Char := ['x', 'n', '-', '-']

def isPunycode (label : List Char) : Bool :=
  match Punycode.decode (label.drop punycodeMark.length) with
  | some decoded => decoded.any (fun c => 128 ≤ c.toNat) && isLabel decoded
  | none => false

def labelToAscii (label : List Char) : Option (List Char) :=
  if label.any fun c => 128 ≤ c.toNat then
    if isLabel label then some (punycodeMark ++ Punycode.encode label) else none
  else if punycodeMark.isPrefixOf label then
    if isPunycode label then some label else none
  else some label

/-- The pieces of a text between separators; there is always one. -/
def pieces (separator : Char) : List Char → List (List Char)
  | [] => [[]]
  | c :: rest =>
    if c = separator then [] :: pieces separator rest
    else
      match pieces separator rest with
      | first :: others => (c :: first) :: others
      | [] => [[c]]

def toAscii (text : List Char) : Option (List Char) := do
  let decoded ← percentDecoded text
  let name := (decoded.filter fun c => !isIgnored c).map mapped
  if name.any isForbidden then none
  else
    let labels ← (pieces '.' name).mapM labelToAscii
    pure (['.'].intercalate labels)

end ScriptHooks.Web.DomainName

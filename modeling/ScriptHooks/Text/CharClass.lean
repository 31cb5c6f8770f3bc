/-
ScriptHooks.Text.CharClass — character classes over all of Unicode.

Core's `Char.isAlpha` and its kin know ASCII only. The classes here follow the
Unicode properties: `isAlphabetic`, `isNumeric`, `isBlank` (White_Space),
`isControl` (category Cc), and the two that quoting needs, `isPrintable` and
`extendsGrapheme`.
-/
import ScriptHooks.Text.CharTables

namespace ScriptHooks.Text

def inRanges (table : Array (Nat × Nat)) (code : Nat) : Bool :=
  table.any fun range => range.1 ≤ code && code ≤ range.2

def isAlphabetic (c : Char) : Bool :=
  c.isAlpha || (128 ≤ c.toNat && inRanges CharTables.alphabetic c.toNat)

def isNumeric (c : Char) : Bool :=
  c.isDigit || (128 ≤ c.toNat && inRanges CharTables.numeric c.toNat)

def isAlphanumeric (c : Char) : Bool :=
  isAlphabetic c || isNumeric c

/-- The White_Space property, line breaks included. -/
def isBlank (c : Char) : Bool :=
  let n := c.toNat
  n == 0x20 || (9 ≤ n && n ≤ 13) || n == 0x85 || n == 0xa0 || n == 0x1680
    || (0x2000 ≤ n && n ≤ 0x200a) || n == 0x2028 || n == 0x2029 || n == 0x202f
    || n == 0x205f || n == 0x3000

def isControl (c : Char) : Bool :=
  c.toNat < 0x20 || (0x7f ≤ c.toNat && c.toNat < 0xa0)

/-- Characters that can be shown as themselves. -/
def isPrintable (c : Char) : Bool :=
  if c.toNat < 0x7f then 0x20 ≤ c.toNat else !inRanges CharTables.unprintable c.toNat

/-- Marks that attach to the character before them. -/
def extendsGrapheme (c : Char) : Bool :=
  0x300 ≤ c.toNat && inRanges CharTables.graphemeExtend c.toNat

/-- The hexadecimal digits of ASCII, either case. -/
def isHexDigit (c : Char) : Bool :=
  c.isDigit || ('a' ≤ c && c ≤ 'f') || ('A' ≤ c && c ≤ 'F')

def trimBlanks (text : String) : String :=
  String.ofList ((text.toList.dropWhile isBlank).reverse.dropWhile isBlank).reverse

end ScriptHooks.Text

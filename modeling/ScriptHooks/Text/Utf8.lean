/-
ScriptHooks.Text.Utf8 — bytes read as text, whatever they are.

Bytes that begin a character and are not the beginning of any text are replaced, all
together, by one U+FFFD. So every list of bytes has a text, and the bytes of a text have that
text.
-/

namespace ScriptHooks.Text

/-- What may follow the first byte of a character: how many bytes, the lowest and the
highest second byte, and the bits that the first byte gives. -/
def leadByte (byte : Nat) : Option (Nat × Nat × Nat × Nat) :=
  if byte < 0x80 then some (0, 0, 0, byte)
  else if 0xc2 ≤ byte && byte ≤ 0xdf then some (1, 0x80, 0xbf, byte % 0x20)
  else if 0xe0 ≤ byte && byte ≤ 0xef then
    some (2, if byte = 0xe0 then 0xa0 else 0x80, if byte = 0xed then 0x9f else 0xbf, byte % 0x10)
  else if 0xf0 ≤ byte && byte ≤ 0xf4 then
    some (3, if byte = 0xf0 then 0x90 else 0x80, if byte = 0xf4 then 0x8f else 0xbf, byte % 0x08)
  else none

/-- The number of a character whose further bytes come next, if they do, and what is behind
those that could be read. -/
def furtherBytes : Nat → Nat → Nat → Nat → List UInt8 → Option Nat × List UInt8
  | 0, _, _, value, rest => (some value, rest)
  | _ + 1, _, _, _, [] => (none, [])
  | more + 1, low, high, value, byte :: rest =>
    if low ≤ byte.toNat && byte.toNat ≤ high then
      furtherBytes more 0x80 0xbf (value * 0x40 + byte.toNat % 0x40) rest
    else (none, byte :: rest)

/-- The characters of at most so many bytes; what is no character is replaced. -/
def readBytes : Nat → List UInt8 → List Char
  | 0, _ | _, [] => []
  | fuel + 1, byte :: rest =>
    match leadByte byte.toNat with
    | none => '\uFFFD' :: readBytes fuel rest
    | some (more, low, high, value) =>
      match furtherBytes more low high value rest with
      | (some number, behind) => Char.ofNat number :: readBytes fuel behind
      | (none, behind) => '\uFFFD' :: readBytes fuel behind

def ofBytes (bytes : List UInt8) : String := String.ofList (readBytes bytes.length bytes)

end ScriptHooks.Text

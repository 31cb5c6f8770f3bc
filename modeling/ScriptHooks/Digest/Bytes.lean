/-
ScriptHooks.Digest.Bytes — bytes of texts, and their written forms.

Digests work on lists of bytes. A message is padded to a whole number of
64-byte blocks: one bit, zeros, and its length in bits.
-/

namespace ScriptHooks.Digest

def utf8Bytes (text : String) : List UInt8 := text.toUTF8.toList

/-- The hexadecimal digit of a number below sixteen, lower case. -/
def hexDigit (n : Nat) : Char := Nat.digitChar n

/-- Two hexadecimal digits for each byte, lower case. -/
def hexChars (bytes : List UInt8) : List Char :=
  bytes.flatMap fun b => [hexDigit (b.toNat / 16), hexDigit (b.toNat % 16)]

/-- Two hexadecimal digits for each byte, lower case. -/
def hex (bytes : List UInt8) : String := String.ofList (hexChars bytes)

/-- The four bytes of a word, the most significant first. -/
def bigEndian (w : UInt32) : List UInt8 :=
  [(w >>> 24).toUInt8, (w >>> 16).toUInt8, (w >>> 8).toUInt8, w.toUInt8]

/-- The four bytes of a word, the least significant first. -/
def littleEndian (w : UInt32) : List UInt8 := (bigEndian w).reverse

/-- The word of four bytes, the most significant first. -/
def word (a b c d : UInt8) : UInt32 :=
  a.toUInt32 <<< 24 ||| b.toUInt32 <<< 16 ||| c.toUInt32 <<< 8 ||| d.toUInt32

/-- The words of bytes taken four at a time, by `join`; a rest of fewer is left. -/
def words (join : UInt8 → UInt8 → UInt8 → UInt8 → UInt32) : List UInt8 → List UInt32
  | a :: b :: c :: d :: rest => join a b c d :: words join rest
  | _ => []

/-- The bytes between a message and its length: one bit, and zeros up to eight bytes
before the end of a block. -/
def padding (length : Nat) : List UInt8 :=
  0x80 :: List.replicate ((119 - length % 64) % 64) 0

/-- A list cut into pieces of sixteen; a shorter rest is left. -/
def blocks : Nat → List UInt32 → List (List UInt32)
  | 0, _ => []
  | fuel + 1, ws => if ws.length < 16 then [] else ws.take 16 :: blocks fuel (ws.drop 16)

def rotateLeft (w : UInt32) (n : UInt32) : UInt32 := w <<< n ||| w >>> (32 - n)

def rotateRight (w : UInt32) (n : UInt32) : UInt32 := w >>> n ||| w <<< (32 - n)

end ScriptHooks.Digest

/-
ScriptHooks.Digest.Md5 — the MD5 digest.
-/
import ScriptHooks.Digest.Bytes

namespace ScriptHooks.Digest

namespace Md5

/-- The constants of the sixty-four steps: sines of whole numbers. -/
def stepConstants : List UInt32 := [
  0xd76aa478, 0xe8c7b756, 0x242070db, 0xc1bdceee, 0xf57c0faf, 0x4787c62a, 0xa8304613, 0xfd469501,
  0x698098d8, 0x8b44f7af, 0xffff5bb1, 0x895cd7be, 0x6b901122, 0xfd987193, 0xa679438e, 0x49b40821,
  0xf61e2562, 0xc040b340, 0x265e5a51, 0xe9b6c7aa, 0xd62f105d, 0x02441453, 0xd8a1e681, 0xe7d3fbc8,
  0x21e1cde6, 0xc33707d6, 0xf4d50d87, 0x455a14ed, 0xa9e3e905, 0xfcefa3f8, 0x676f02d9, 0x8d2a4c8a,
  0xfffa3942, 0x8771f681, 0x6d9d6122, 0xfde5380c, 0xa4beea44, 0x4bdecfa9, 0xf6bb4b60, 0xbebfbc70,
  0x289b7ec6, 0xeaa127fa, 0xd4ef3085, 0x04881d05, 0xd9d4d039, 0xe6db99e5, 0x1fa27cf8, 0xc4ac5665,
  0xf4292244, 0x432aff97, 0xab9423a7, 0xfc93a039, 0x655b59c3, 0x8f0ccc92, 0xffeff47d, 0x85845dd1,
  0x6fa87e4f, 0xfe2ce6e0, 0xa3014314, 0x4e0811a1, 0xf7537e82, 0xbd3af235, 0x2ad7d2bb, 0xeb86d391]

/-- The rotations of the four rounds, four in turn. -/
def rotations : List (List UInt32) := [[7, 12, 17, 22], [5, 9, 14, 20], [4, 11, 16, 23], [6, 10, 15, 21]]

/-- The four words that a block is mixed into. -/
structure State where
  a : UInt32
  b : UInt32
  c : UInt32
  d : UInt32

/-- The words before the first block. -/
def initial : State := ⟨0x67452301, 0xefcdab89, 0x98badcfe, 0x10325476⟩

/-- The function of the round and the block word that a step uses. -/
def mix (s : State) (step : Nat) : UInt32 × Nat :=
  match step / 16 with
  | 0 => ((s.b &&& s.c) ||| (~~~s.b &&& s.d), step)
  | 1 => ((s.d &&& s.b) ||| (~~~s.d &&& s.c), (5 * step + 1) % 16)
  | 2 => (s.b ^^^ s.c ^^^ s.d, (3 * step + 5) % 16)
  | _ => (s.c ^^^ (s.b ||| ~~~s.d), (7 * step) % 16)

/-- One step: a block word and a constant, mixed in. -/
def step (block : Array UInt32) (s : State) (input : Nat × UInt32) : State :=
  let (f, index) := mix s input.1
  let sum := f + s.a + input.2 + block.getD index 0
  let rotation := ((rotations.getD (input.1 / 16) []).getD (input.1 % 4) 0)
  ⟨s.d, s.b + rotateLeft sum rotation, s.b, s.c⟩

def compress (s : State) (block : List UInt32) : State :=
  let t := ((List.range 64).zip stepConstants).foldl (step block.toArray) s
  ⟨s.a + t.a, s.b + t.b, s.c + t.c, s.d + t.d⟩

end Md5

/-- The MD5 digest, sixteen bytes. -/
def md5 (message : List UInt8) : List UInt8 :=
  let bits := message.length * 8
  let length := littleEndian bits.toUInt32 ++ littleEndian (bits / 0x100000000).toUInt32
  let ws := words (fun a b c d => word d c b a) (message ++ padding message.length ++ length)
  let s := (blocks ws.length ws).foldl Md5.compress Md5.initial
  [s.a, s.b, s.c, s.d].flatMap littleEndian

/-- The MD5 digest of a text, in hexadecimal digits. -/
def md5Hex (text : String) : String := hex (md5 (utf8Bytes text))

end ScriptHooks.Digest

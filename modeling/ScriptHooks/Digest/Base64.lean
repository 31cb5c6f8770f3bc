/-
ScriptHooks.Digest.Base64 — bytes in base 64, and back.

Two alphabets differ in their last two characters: the plain one has `+` and `/`,
the one that is safe in addresses `-` and `_`. Both are padded. Decoding follows
the plain alphabet and refuses what encoding would not write: `decodeBase64` says
what is wrong and at which byte.
-/
import ScriptHooks.Digest.Bytes

namespace ScriptHooks.Digest

/-- The first sixty-two characters of both alphabets. -/
def base64Common : List Char :=
  "ABCDEFGHIJKLMNOPQRSTUVWXYZabcdefghijklmnopqrstuvwxyz0123456789".toList

/-- The character of a number below sixty-four, given the last two. -/
def base64Char (last : Char × Char) (n : Nat) : Char :=
  if n = 62 then last.1 else if n = 63 then last.2 else base64Common.getD n 'A'

/-- Bytes in base 64, three at a time, padded. -/
def base64Chars (last : Char × Char) : List UInt8 → List Char
  | [] => []
  | [a] =>
    let n := a.toNat * 16
    [base64Char last (n / 64), base64Char last (n % 64), '=', '=']
  | [a, b] =>
    let n := (a.toNat * 256 + b.toNat) * 4
    [base64Char last (n / 4096), base64Char last (n / 64 % 64), base64Char last (n % 64), '=']
  | a :: b :: c :: rest =>
    let n := (a.toNat * 256 + b.toNat) * 256 + c.toNat
    base64Char last (n / 262144) :: base64Char last (n / 4096 % 64)
      :: base64Char last (n / 64 % 64) :: base64Char last (n % 64) :: base64Chars last rest

/-- Bytes in base 64 with the alphabet that is safe in addresses. -/
def base64UrlSafe (bytes : List UInt8) : String :=
  String.ofList (base64Chars ('-', '_') bytes)

/-- Bytes in base 64 with the plain alphabet. -/
def base64 (bytes : List UInt8) : String := String.ofList (base64Chars ('+', '/') bytes)

/-! ## Decoding -/

/-- Why a text is no base 64. -/
inductive Base64Fault
  | symbol (byte : UInt8) (offset : Nat)
  /-- The last symbol says more than there is room for. -/
  | lastSymbol (byte : UInt8) (offset : Nat)
  | length (count : Nat)
  | badPadding
  deriving DecidableEq, Repr

def Base64Fault.message : Base64Fault → String
  | symbol byte offset =>
    "Invalid symbol " ++ toString byte.toNat ++ ", offset " ++ toString offset ++ "."
  | lastSymbol byte offset =>
    "Invalid last symbol " ++ toString byte.toNat ++ ", offset " ++ toString offset ++ "."
  | length count => "Invalid input length: " ++ toString count
  | badPadding => "Invalid padding"

/-- The number of a symbol of the plain alphabet. -/
def base64Value? (byte : UInt8) : Option Nat :=
  let n := byte.toNat
  if 65 ≤ n && n ≤ 90 then some (n - 65)
  else if 97 ≤ n && n ≤ 122 then some (n - 71)
  else if 48 ≤ n && n ≤ 57 then some (n + 4)
  else if n = 43 then some 62
  else if n = 47 then some 63
  else none

/-- The numbers of symbols, the first of which stands at the offset. -/
def base64Values (offset : Nat) : List UInt8 → Except Base64Fault (List Nat)
  | [] => .ok []
  | byte :: rest =>
    match base64Value? byte with
    | some n => (base64Values (offset + 1) rest).map (n :: ·)
    | none => .error (.symbol byte offset)

def padByte : UInt8 := 61

/-- The bytes of the numbers of the last symbols, which may be fewer than four. -/
def lastBytes (offset : Nat) (symbols : List UInt8) (values : List Nat) :
    Except Base64Fault (List UInt8) :=
  let spill := Base64Fault.lastSymbol (symbols.getLastD 0) (offset + values.length - 1)
  match values with
  | [a, b] =>
    if b % 16 ≠ 0 then .error spill else .ok [UInt8.ofNat (a * 4 + b / 16)]
  | [a, b, c] =>
    if c % 4 ≠ 0 then .error spill
    else .ok [UInt8.ofNat (a * 4 + b / 16), UInt8.ofNat (b % 16 * 16 + c / 4)]
  | [a, b, c, d] =>
    .ok [UInt8.ofNat (a * 4 + b / 16), UInt8.ofNat (b % 16 * 16 + c / 4),
      UInt8.ofNat (c % 4 * 64 + d)]
  | _ => .error (.length (offset + values.length))

/-- The bytes of the last symbols. Padding may only follow two symbols or more, and must
fill the four. -/
def decodeLast (offset : Nat) (bytes : List UInt8) : Except Base64Fault (List UInt8) := do
  let symbols := bytes.takeWhile (· != padByte)
  let padding := bytes.dropWhile (· != padByte)
  let values ← base64Values offset symbols
  if !padding.isEmpty && symbols.length < 2 then
    throw (.symbol padByte (offset + symbols.length))
  if padding.any (· != padByte) then throw (.symbol padByte (offset + symbols.length))
  if values.length < 2 then throw (.length (offset + values.length))
  if (values.length + padding.length) % 4 ≠ 0 then throw .badPadding
  lastBytes offset symbols values

/-- The bytes of symbols, four at a time; the last four may be padded. -/
def decodeFours (offset : Nat) : List UInt8 → Except Base64Fault (List UInt8)
  | a :: b :: c :: d :: e :: rest => do
    let values ← base64Values offset [a, b, c, d]
    let bytes ← lastBytes offset [a, b, c, d] values
    pure (bytes ++ (← decodeFours (offset + 4) (e :: rest)))
  | last => decodeLast offset last

/-- The bytes that a text in base 64 stands for. A single byte too many is complained of
first if it is no symbol. -/
def decodeBase64 (text : String) : Except Base64Fault (List UInt8) :=
  let bytes := utf8Bytes text
  let stray := match bytes.getLast? with
    | some last =>
      if bytes.length % 4 = 1 && last != padByte && (base64Value? last).isNone then
        some (Base64Fault.symbol last (bytes.length - 1))
      else none
    | none => none
  match stray with
  | some fault => .error fault
  | none => if bytes.isEmpty then .ok [] else decodeFours 0 bytes

end ScriptHooks.Digest

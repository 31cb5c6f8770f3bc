/-
ScriptHooks.Web.IpAddress — the numbers of hosts, in every way they may be written.

The four bytes of a short address may be given by fewer numbers, the last of which then
stands for several bytes, and each number in base ten, eight or sixteen. The eight pieces
of a long address are in base sixteen, with one gap of zeros, and the last two may be
written like a short address.
-/
import ScriptHooks.Text.CharClass
import ScriptHooks.Web.DomainName

namespace ScriptHooks.Web

def digitsValue (base : Nat) (digits : List Char) : Nat :=
  digits.foldl (fun n c => n * base + DomainName.hexValue c) 0

/-! ## Short addresses -/

namespace Ipv4

/-- The number that a text writes: after `0x` in base sixteen, after `0` in base eight,
else in base ten. -/
def number? : List Char → Option Nat
  | [] => none
  | '0' :: x :: digits =>
    if x = 'x' ∨ x = 'X' then
      if digits.all Text.isHexDigit then some (digitsValue 16 digits) else none
    else if (x :: digits).all fun c => '0' ≤ c && c ≤ '7' then
      some (digitsValue 8 (x :: digits))
    else none
  | digits => if digits.all Char.isDigit then some (digitsValue 10 digits) else none

/-- The labels of a name; an empty one at its end does not count. -/
def labels (name : List Char) : List (List Char) :=
  let all := DomainName.pieces '.' name
  if all.getLast? = some [] then all.dropLast else all

/-- Whether a name ends like a number does. Such a name must be an address. -/
def endsInNumber (name : List Char) : Bool :=
  match (labels name).getLast? with
  | some last => (!last.isEmpty && last.all Char.isDigit) || (number? last).isSome
  | none => false

/-- The address of some numbers: one for each byte, and a last one for all the others. -/
def join : List Nat → Option Nat
  | [] => none
  | numbers =>
    let bytes := numbers.dropLast
    let rest := numbers.getLastD 0
    if 4 < numbers.length ∨ bytes.any (255 < ·) ∨ Nat.pow 256 (4 - bytes.length) ≤ rest then none
    else some (bytes.foldl (fun n b => n * 256 + b) 0 * Nat.pow 256 (4 - bytes.length) + rest)

def parse? (name : List Char) : Option Nat := do
  join (← (labels name).mapM number?)

def text (address : Nat) : String :=
  ".".intercalate ([0x1000000, 0x10000, 0x100, 1].map fun unit => toString (address / unit % 256))

end Ipv4

/-! ## Long addresses -/

namespace Ipv6

/-- The number below 256 that decimal digits write without leading zeros. -/
def byte? (digits : List Char) : Option Nat :=
  if digits.isEmpty || !digits.all Char.isDigit then none
  else if 1 < digits.length && digits.head? = some '0' then none
  else if 3 < digits.length || 255 < digitsValue 10 digits then none
  else some (digitsValue 10 digits)

def bytePieces? (text : List Char) : Option (List Nat) := do
  match ← (DomainName.pieces '.' text).mapM byte? with
  | [a, b, c, d] => pure [a * 256 + b, c * 256 + d]
  | _ => none

/-- Read the pieces of a text after those read so far; `gap` says how many of them are
before the gap. The fuel is the number of characters. -/
def readPieces : Nat → List Nat → Option Nat → List Char → Option (List Nat × Option Nat)
  | _, read, gap, [] => some (read, gap)
  | 0, _, _, _ => none
  | fuel + 1, read, gap, c :: rest =>
    if read.length = 8 then none
    else if c = ':' then
      if gap.isSome then none else readPieces fuel (read ++ [0]) (some (read.length + 1)) rest
    else
      let text := c :: rest
      let digits := (text.take 4).takeWhile Text.isHexDigit
      let read' := read ++ [digitsValue 16 digits]
      match text.drop digits.length with
      | [] => some (read', gap)
      | ':' :: rest => if rest.isEmpty then none else readPieces fuel read' gap rest
      | '.' :: _ =>
        if digits.isEmpty || 6 < read.length then none
        else (bytePieces? text).map fun last => (read ++ last, gap)
      | _ => none

def fillGap (read : List Nat) : Option Nat → Option (List Nat)
  | none => if read.length = 8 then some read else none
  | some gap => some (read.take gap ++ List.replicate (8 - read.length) 0 ++ read.drop gap)

/-- The eight pieces of the address that a text writes. -/
def parse? (text : List Char) : Option (List Nat) := do
  let (read, gap) ← match text with
    | [] | [_] => none
    | ':' :: ':' :: rest => readPieces rest.length [0] (some 1) rest
    | ':' :: _ => none
    | text => readPieces text.length [] none text
  fillGap read gap

def zeroRun (pieces : List Nat) : Nat := (pieces.takeWhile (· == 0)).length

/-- Where the longest run of zeros begins and how long it is; the first of several. -/
def longestRun : Nat → List Nat → Nat × Nat
  | _, [] => (0, 0)
  | place, piece :: rest =>
    let here := zeroRun (piece :: rest)
    let (start, length) := longestRun (place + 1) rest
    if length ≤ here then (place, here) else (start, length)

def colons (pieces : List Nat) : String :=
  ":".intercalate (pieces.map fun piece => String.ofList (Nat.toDigits 16 piece))

/-- An address in its shortest form: two colons for the longest run of several zeros. -/
def text (pieces : List Nat) : String :=
  let (start, length) := longestRun 0 pieces
  if length < 2 then colons pieces
  else colons (pieces.take start) ++ "::" ++ colons (pieces.drop (start + length))

end Ipv6

end ScriptHooks.Web

/-
ScriptHooks.Web.Punycode — labels of any script, written in ASCII.

The characters of ASCII come first, then what tells where the others belong: their code
points in rising order, each as the distance from the one before, in digits of base 36
whose weights adapt to the distances seen. `encode` and `decode` are the two directions.
-/

namespace ScriptHooks.Web.Punycode

/-- The character of a digit below 36: letters, then figures. -/
def digitChar (d : Nat) : Char :=
  if d < 26 then Char.ofNat ('a'.toNat + d) else Char.ofNat ('0'.toNat + (d - 26))

def digitValue? (c : Char) : Option Nat :=
  if c.isDigit then some (c.toNat - '0'.toNat + 26)
  else if c.isLower then some (c.toNat - 'a'.toNat)
  else if c.isUpper then some (c.toNat - 'A'.toNat)
  else none

/-- A digit below this one, at position `k`, is the last of its number. -/
def threshold (bias k : Nat) : Nat := min 26 (max 1 (k - bias))

theorem threshold_pos (bias k : Nat) : 1 ≤ threshold bias k := by
  simp only [threshold]; omega

/-- A distance scaled down, with 36 added to the bias each time. -/
def shrink (delta bias : Nat) : Nat × Nat :=
  if 455 < delta then shrink (delta / 35) (bias + 36) else (delta, bias)
termination_by delta
decreasing_by exact Nat.div_lt_self (by omega) (by omega)

/-- The bias after a distance, when so many characters are in place. -/
def adapt (delta placed : Nat) (first : Bool) : Nat :=
  let delta := if first then delta / 700 else delta / 2
  let (delta, bias) := shrink (delta + delta / placed) 0
  bias + 36 * delta / (delta + 38)

/-! ## Writing -/

def numberChars (bias k n : Nat) : List Char :=
  let t := threshold bias k
  if n < t then [digitChar n]
  else digitChar (t + (n - t) % (36 - t)) :: numberChars bias (k + 36) ((n - t) / (36 - t))
termination_by n
decreasing_by
  have h := threshold_pos bias k
  calc (n - threshold bias k) / (36 - threshold bias k)
      ≤ n - threshold bias k := Nat.div_le_self _ _
    _ < n := by omega

/-- What is known while writing: the distance so far, the bias, and how many characters
are in place. -/
structure Progress where
  delta : Nat
  bias : Nat
  placed : Nat

/-- One round over the label: every character of the code point `code` is written. -/
def writeRound (basic code : Nat) : List Char → Progress → List Char × Progress
  | [], progress => ([], progress)
  | c :: rest, progress =>
    if c.toNat < code then
      writeRound basic code rest { progress with delta := progress.delta + 1 }
    else if c.toNat = code then
      let digits := numberChars progress.bias 36 progress.delta
      let placed := progress.placed + 1
      let bias := adapt progress.delta placed (progress.placed == basic)
      let (more, progress) := writeRound basic code rest ⟨0, bias, placed⟩
      (digits ++ more, progress)
    else writeRound basic code rest progress

/-- The rounds for code points in rising order; `next` is the least that is left. -/
def writeRounds (label : List Char) (basic : Nat) : List Nat → Nat → Progress → List Char
  | [], _, _ => []
  | code :: codes, next, progress =>
    let delta := progress.delta + (code - next) * (progress.placed + 1)
    let (digits, progress) := writeRound basic code label { progress with delta := delta }
    digits ++ writeRounds label basic codes (code + 1)
      { progress with delta := progress.delta + 1 }

def basicPart (label : List Char) : List Char := label.filter fun c => c.toNat < 128

/-- The other code points, each once, in rising order. -/
def extendedCodes (label : List Char) : List Nat :=
  (((label.map Char.toNat).filter fun n => 128 ≤ n).mergeSort fun a b => a ≤ b).eraseDups

def encode (label : List Char) : List Char :=
  let basic := basicPart label
  basic ++ (if basic.isEmpty then [] else ['-'])
    ++ writeRounds label basic.length (extendedCodes label) 128 ⟨0, 72, basic.length⟩

/-! ## Reading -/

/-- A number and the characters after it; `weight` is that of the next digit, `sum` what
the digits before add up to. -/
def readNumber (bias k weight sum : Nat) : List Char → Option (Nat × List Char)
  | [] => none
  | c :: rest =>
    match digitValue? c with
    | none => none
    | some d =>
      let t := threshold bias k
      if d < t then some (sum + d * weight, rest)
      else readNumber bias (k + 36) (weight * (36 - t)) (sum + d * weight) rest

/-- Put the characters that the digits tell of in their places. The fuel is the number of
digits, each number takes one at least. -/
def readPlaces : Nat → Nat → Nat → Nat → List Char → List Char → Option (List Char)
  | _, _, _, _, label, [] => some label
  | 0, _, _, _, _, _ => none
  | fuel + 1, bias, code, index, label, digits =>
    match readNumber bias 36 1 index digits with
    | none => none
    | some (sum, rest) =>
      let placed := label.length + 1
      let code := code + sum / placed
      let place := sum % placed
      if code < 0xd800 || (0xdfff < code && code < 0x110000) then
        readPlaces fuel (adapt (sum - index) placed (index == 0)) code (place + 1)
          (label.take place ++ Char.ofNat code :: label.drop place) rest
      else none

/-- The two parts of a written label: what is before the last hyphen, and the digits. A
hyphen at the very start parts nothing. -/
def parts (text : List Char) : List Char × List Char :=
  let digits := (text.reverse.takeWhile (· != '-')).reverse
  let basic := text.take (text.length - digits.length - 1)
  if basic.isEmpty then ([], text) else (basic, digits)

/-- The label that a text in ASCII stands for, if it stands for any. -/
def decode (text : List Char) : Option (List Char) :=
  let (basic, digits) := parts text
  readPlaces digits.length 72 128 0 basic digits

end ScriptHooks.Web.Punycode

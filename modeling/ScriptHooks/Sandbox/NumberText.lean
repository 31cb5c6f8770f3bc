/-
ScriptHooks.Sandbox.NumberText — numbers written and read by scripts.

Scripts write a number with the fewest digits that read back, positionally from
1e-6 up to below 1e21. They read a number from a text that holds nothing else but
blanks around it.
-/
import ScriptHooks.Numeric.Integral
import ScriptHooks.Sandbox.Lexeme

namespace ScriptHooks.Sandbox

/-- Numbers in scripts are positional from 1e-6 up to below 1e21; whole numbers have
no point, and zero has no sign. -/
def numberStyle : Numeric.FloatStyle := ⟨21, -5, false, false⟩

def numberText (x : Float) : Units :=
  if Numeric.isNaN x then Units.ofString "NaN"
  else if !Numeric.isFinite x then
    Units.ofString (if Numeric.isNegative x then "-Infinity" else "Infinity")
  else Units.ofChars (numberStyle.render x)

def isScriptBlank (c : Char) : Bool := isGap c || isLineEnd c

/-- Characters without the blanks at either end. -/
def trimmed (chars : List Char) : List Char :=
  ((chars.dropWhile isScriptBlank).reverse.dropWhile isScriptBlank).reverse

def notANumber : Float := 0.0 / 0.0

def infinity : Float := 1.0 / 0.0

/-- The longest decimal number that the characters start with, without a sign, and
what follows it. -/
def decimalStart (chars : List Char) : Option (Float × List Char) :=
  if "Infinity".toList.isPrefixOf chars then some (infinity, chars.drop 8)
  else
    let whole := chars.takeWhile Char.isDigit
    let rest := chars.drop whole.length
    let places := match rest with
      | '.' :: after => after.takeWhile Char.isDigit
      | _ => []
    if whole.isEmpty && places.isEmpty then none
    else
      let rest := match rest with
        | '.' :: after => after.drop places.length
        | _ => rest
      let value := fun digits : List Char => digits.foldl (fun n c => n * 10 + (c.toNat - 48)) 0
      let digits := value (whole ++ places)
      let scale := -(places.length : Int)
      match rest with
      | e :: after =>
        let (sign, power) : Int × List Char := match after with
          | '-' :: after => (-1, after)
          | '+' :: after => (1, after)
          | _ => (1, after)
        let size := power.takeWhile Char.isDigit
        if (e == 'e' || e == 'E') && !size.isEmpty then
          some (decimalFloat digits (scale + sign * value size), power.drop size.length)
        else some (decimalFloat digits scale, rest)
      | [] => some (decimalFloat digits scale, rest)

def signedStart (chars : List Char) : Option (Float × List Char) :=
  match chars with
  | '-' :: rest => (decimalStart rest).map fun (x, after) => (-x, after)
  | '+' :: rest => decimalStart rest
  | _ => decimalStart chars

def baseDigits (base : Nat) : List Char → Nat → Nat → Nat × Nat
  | c :: rest, value, count =>
    let digit := if c.isDigit then some (c.toNat - 48)
      else if 'a' ≤ c && c ≤ 'z' then some (c.toNat - 87)
      else if 'A' ≤ c && c ≤ 'Z' then some (c.toNat - 55)
      else none
    match digit with
    | some d => if d < base then baseDigits base rest (value * base + d) (count + 1) else (value, count)
    | none => (value, count)
  | [], value, count => (value, count)

def numberOf (text : Units) : Float :=
  let chars := trimmed text.toText.toList
  let based := fun (base : Nat) (digits : List Char) =>
    let (value, count) := baseDigits base digits 0 0
    if count = digits.length && count ≠ 0 then decimalFloat value 0 else notANumber
  match chars with
  | [] => 0.0
  | '0' :: c :: rest =>
    if c = 'x' || c = 'X' then based 16 rest
    else if c = 'o' || c = 'O' then based 8 rest
    else if c = 'b' || c = 'B' then based 2 rest
    else whole chars
  | _ => whole chars
where
  /-- A number that nothing follows. -/
  whole (chars : List Char) : Float :=
    match signedStart chars with
    | some (x, []) => x
    | _ => notANumber

def leadingNumber (text : Units) : Float :=
  match signedStart (trimmed text.toText.toList) with
  | some (x, _) => x
  | none => notANumber

/-- The whole number of a base that a text starts with; base 0 means ten, or sixteen
after `0x`. -/
def leadingInteger (text : Units) (base : Int) : Float :=
  let chars := trimmed text.toText.toList
  let (negative, chars) := match chars with
    | '-' :: rest => (true, rest)
    | '+' :: rest => (false, rest)
    | _ => (false, chars)
  let (base, chars) : Int × List Char := match chars with
    | '0' :: x :: rest =>
      if (x == 'x' || x == 'X') && (base == 0 || base == 16) then (16, rest) else (base, chars)
    | _ => (base, chars)
  let base := if base = 0 then 10 else base
  if base < 2 || 36 < base then notANumber
  else
    let (value, count) := baseDigits base.toNat chars 0 0
    if count = 0 then notANumber
    else
      let x := decimalFloat value 0
      if negative then -x else x

/-- The whole number that a text writes, for large integers. -/
def integerOf? (text : Units) : Option Int :=
  match trimmed text.toText.toList with
  | [] => some 0
  | '-' :: digits => (natural digits).map fun n => -(n : Int)
  | digits => (natural digits).map Int.ofNat
where
  /-- Digits and nothing else. -/
  natural (digits : List Char) : Option Nat :=
    if !digits.isEmpty && digits.all Char.isDigit then
      some (digits.foldl (fun n c => n * 10 + (c.toNat - 48)) 0)
    else none

def baseDigit (n : Nat) : Char := if n < 10 then Char.ofNat (48 + n) else Char.ofNat (87 + n)

def naturalText (base n : Nat) : List Char := go n (Nat.log2 n + 1) []
where
  /-- The digits, from the last one on. -/
  go (n : Nat) : Nat → List Char → List Char
    | 0, digits => digits
    | fuel + 1, digits =>
      let digits := baseDigit (n % base) :: digits
      if n / base = 0 then digits else go (n / base) fuel digits

/-- The digits of a fraction `numerator / unit` in a base, at most so many. -/
def fractionText (base unit : Nat) : Nat → Nat → List Char
  | 0, _ => []
  | count + 1, numerator =>
    if numerator = 0 then []
    else baseDigit (numerator * base / unit) :: fractionText base unit count (numerator * base % unit)

/-- A finite number in the digits of a base other than ten. -/
def basedText (base : Nat) (x : Float) : List Char :=
  let b := Numeric.Binary.ofFloat x
  let sign := if Numeric.isNegative x && !Numeric.isZero x then ['-'] else []
  let unit := Nat.pow 2 (-b.exponent).toNat
  let whole := b.wholePart.1
  let fraction := if 0 ≤ b.exponent then [] else fractionText base unit 52 (b.mantissa % unit)
  sign ++ naturalText base whole ++ (if fraction.isEmpty then [] else '.' :: fraction)

/-- A finite number with so many places after the point; of two nearest, the greater
magnitude. -/
def fixedText (places : Nat) (x : Float) : List Char :=
  let b := Numeric.Binary.ofFloat x
  let unit := Nat.pow 2 (-b.exponent).toNat
  let scaled := b.mantissa * Nat.pow 2 b.exponent.toNat * Nat.pow 10 places
  let rounded := (2 * scaled + unit) / (2 * unit)
  let digits := Nat.toDigits 10 rounded
  let digits := List.replicate (places + 1 - digits.length) '0' ++ digits
  let whole := digits.take (digits.length - places)
  let sign := if Numeric.isNegative x && rounded ≠ 0 then ['-'] else []
  sign ++ whole ++ (if places = 0 then [] else '.' :: digits.drop whole.length)

end ScriptHooks.Sandbox

/-
ScriptHooks.Numeric.Shortest — the fewest decimal digits that read back.

A finite positive double is `m · 2^q` exactly, and the reals that round to it
form an interval around it, ends included iff `m` is even. `Binary.shortest`
tries one digit, two digits, … and takes the first decimal grid with a point in
that interval; of the two neighbours of the value on that grid it takes the
nearer, and the even one of two equally near. All arithmetic is on natural
numbers.

`FloatStyle` holds the decisions of a written form: which magnitudes are written
positionally, and whether a whole number keeps its `.0`.
-/

namespace ScriptHooks.Numeric

/-- A positive dyadic rational `mantissa · 2^exponent` that is a finite double.
`atPowerOfTwo` holds where the next smaller double is nearer than the next
larger one. -/
structure Binary where
  mantissa : Nat
  exponent : Int
  atPowerOfTwo : Bool
  deriving Repr, DecidableEq

def isNegative (x : Float) : Bool := x.toBits.toNat ≥ 0x8000000000000000

def exponentBits (x : Float) : Nat := x.toBits.toNat / 0x10000000000000 % 0x800

def fractionBits (x : Float) : Nat := x.toBits.toNat % 0x10000000000000

/-- Neither an infinity nor a NaN. -/
def isFinite (x : Float) : Bool := exponentBits x < 2047

def isZero (x : Float) : Bool := exponentBits x = 0 && fractionBits x = 0

/-- The magnitude of a finite double; zero has mantissa 0. -/
def Binary.ofFloat (x : Float) : Binary :=
  if exponentBits x = 0 then ⟨fractionBits x, -1074, false⟩
  else ⟨0x10000000000000 + fractionBits x, (exponentBits x : Int) - 1075,
    fractionBits x = 0 && 1 < exponentBits x⟩

/-- A decimal `digits · 10^scale`. -/
structure Decimal where
  digits : Nat
  scale : Int
  deriving Repr, DecidableEq

/-- How many decimal digits `n` has; one for zero. -/
def digitCount (n : Nat) : Nat := (Nat.toDigits 10 n).length

/-- The position of the decimal point: the least `k` with `n / d < 10^k`, for a
positive quotient. The digit counts give it up to one. -/
def pointPosition (n d : Nat) : Int :=
  let guess : Int := (digitCount n : Int) - digitCount d
  -- `10^(guess - 1) < n / d < 10^(guess + 1)`
  if 0 ≤ guess then
    if n < d * Nat.pow 10 guess.toNat then guess else guess + 1
  else
    if n * Nat.pow 10 (-guess).toNat < d then guess else guess + 1

/-- Whether a decimal grid point `point / unit` lies in the interval that rounds
to the value: `low` and `high` are its ends, all over the same denominator. -/
def inInterval (closed : Bool) (low high point : Nat) : Bool :=
  if closed then low ≤ point && point ≤ high else low < point && point < high

/-- The shortest decimal that reads back as `b`, with at most `fuel` further
digits after `count`. -/
def Binary.searchShortest (b : Binary) (value low high denominator : Nat) (point : Int) :
    Nat → Nat → Decimal
  | 0, _ => ⟨0, 0⟩
  | fuel + 1, count =>
    let scale := point - count
    -- the value in units of the grid, as `numerator / unit`
    let up := Nat.pow 10 (-scale).toNat
    let unit := denominator * Nat.pow 10 scale.toNat
    let below := value * up / unit
    let fits := fun n => inInterval (b.mantissa % 2 == 0) (low * up) (high * up) (n * unit)
    let excess := value * up - below * unit
    let preferUpper := excess * 2 > unit || (excess * 2 == unit && below % 2 == 1)
    match fits below, fits (below + 1) with
    | true, true => ⟨if preferUpper then below + 1 else below, scale⟩
    | true, false => ⟨below, scale⟩
    | false, true => ⟨below + 1, scale⟩
    | false, false => b.searchShortest value low high denominator point fuel (count + 1)

/-- The decimal without trailing zeros among its digits. -/
def Decimal.trim (fuel : Nat) (d : Decimal) : Decimal :=
  match fuel with
  | 0 => d
  | fuel + 1 =>
    if d.digits ≠ 0 && d.digits % 10 == 0 then
      Decimal.trim fuel ⟨d.digits / 10, d.scale + 1⟩
    else d

/-- The shortest decimal that reads back as the positive value `b`. Seventeen
digits always suffice. -/
def Binary.shortest (b : Binary) : Decimal :=
  let grow := Nat.pow 2 b.exponent.toNat
  let value := 4 * b.mantissa * grow
  let denominator := 4 * Nat.pow 2 (-b.exponent).toNat
  let low := value - (if b.atPowerOfTwo then 1 else 2) * grow
  let high := value + 2 * grow
  let point := pointPosition value denominator
  (b.searchShortest value low high denominator point 18 1).trim 20

/-- The decisions of a written form of doubles. -/
structure FloatStyle where
  /-- Positional while the point stands at most this many digits to the right. -/
  maxPoint : Int
  /-- Positional while the point stands at least here; zero or less is `0.00…`. -/
  minPoint : Int
  /-- Whole numbers end in `.0`. -/
  keepsPoint : Bool
  /-- The sign of zero is written. -/
  signsZero : Bool

def zeros (count : Nat) : List Char := List.replicate count '0'

def FloatStyle.layout (style : FloatStyle) (d : Decimal) : List Char :=
  let digits := Nat.toDigits 10 d.digits
  let point : Int := digits.length + d.scale
  if style.minPoint ≤ point && point ≤ style.maxPoint then
    if point ≤ 0 then ['0', '.'] ++ zeros (-point).toNat ++ digits
    else if digits.length ≤ point.toNat then
      digits ++ zeros (point.toNat - digits.length) ++ (if style.keepsPoint then ['.', '0'] else [])
    else digits.take point.toNat ++ '.' :: digits.drop point.toNat
  else
    let exponent := point - 1
    let sign := if exponent < 0 then '-' else '+'
    let fraction := match digits.drop 1 with
      | [] => []
      | rest => '.' :: rest
    digits.take 1 ++ fraction ++ 'e' :: sign :: Nat.toDigits 10 exponent.natAbs

def FloatStyle.render (style : FloatStyle) (x : Float) : List Char :=
  let sign := if isNegative x && (style.signsZero || !isZero x) then ['-'] else []
  if isZero x then sign ++ (if style.keepsPoint then ['0', '.', '0'] else ['0'])
  else sign ++ style.layout (Binary.ofFloat x).shortest

end ScriptHooks.Numeric

/-
ScriptHooks.Numeric.Integral — whole parts and remainders of doubles.

A finite double is a whole number times a power of two, so its whole part and its
remainders are computed on integers, exactly.
-/
import ScriptHooks.Numeric.Shortest

namespace ScriptHooks.Numeric

def isNaN (x : Float) : Bool := exponentBits x = 2047 && fractionBits x ≠ 0

def signed (x : Float) (magnitude : Nat) : Int :=
  if isNegative x then -(magnitude : Int) else magnitude

def Binary.wholePart (b : Binary) : Nat × Bool :=
  if 0 ≤ b.exponent then (b.mantissa * Nat.pow 2 b.exponent.toNat, true)
  else
    let unit := Nat.pow 2 (-b.exponent).toNat
    (b.mantissa / unit, b.mantissa % unit = 0)

/-- The whole part of a double, toward zero; nothing if it is not finite. -/
def truncate (x : Float) : Option Int :=
  if isFinite x then some (signed x (Binary.ofFloat x).wholePart.1) else none

def isIntegral (x : Float) : Bool := isFinite x && (Binary.ofFloat x).wholePart.2

/-- The double of a whole number, with the sign of zero kept. -/
def ofWhole (like : Float) (n : Int) : Float :=
  if n = 0 then (if isNegative like then -0.0 else 0.0) else Float.ofInt n

/-- The greatest whole number that is not greater. -/
def floor (x : Float) : Float :=
  if isIntegral x || !isFinite x then x
  else
    let whole := (Binary.ofFloat x).wholePart.1
    if isNegative x then Float.ofInt (-(whole : Int) - 1) else ofWhole x whole

/-- The least whole number that is not less. -/
def ceil (x : Float) : Float := -floor (-x)

/-- The whole part, toward zero. -/
def trunc (x : Float) : Float := if isNegative x then ceil x else floor x

/-- The nearest whole number; of two, the greater. -/
def round (x : Float) : Float :=
  if isIntegral x || !isFinite x then x
  else
    let below := floor x
    let nearest := if x - below < 0.5 then below else below + 1.0
    if isZero nearest && isNegative x then -0.0 else nearest

/-- A whole number in so many bits, without a sign. -/
def wrap (bits : Nat) (x : Float) : Nat := (((truncate x).getD 0) % (Nat.pow 2 bits : Nat)).toNat

/-- A whole number in thirty-two bits with a sign. -/
def wrapSigned (x : Float) : Int :=
  let n := wrap 32 x
  if n < 0x80000000 then n else (n : Int) - 0x100000000

def remainder (a b : Float) : Float :=
  if !isFinite a || isNaN b || isZero b then 0.0 / 0.0
  else if !isFinite b || isZero a then a
  else
    let p := Binary.ofFloat a
    let q := Binary.ofFloat b
    let exponent := min p.exponent q.exponent
    let left := p.mantissa * Nat.pow 2 (p.exponent - exponent).toNat
    let right := q.mantissa * Nat.pow 2 (q.exponent - exponent).toNat
    let rest := (Float.ofNat (left % right)).scaleB exponent
    if isNegative a then -rest else rest

end ScriptHooks.Numeric

/-
ScriptHooks.Sandbox.Operators — what the operators of scripts compute.

Each operator takes the values of its operands; that these are evaluated from left to
right, and whether the second one is evaluated at all, is the matter of
`Sandbox.Expressions`.

Most operators first make scalars of their operands, through `toPrimitive`, which may
run functions of the script. What then remains is a computation on scalars. Large
integers are exact and never mix with doubles: an arithmetic operator that gets one of
each throws a `TypeError`, while a comparison compares them.

There are four notions of being equal. `isSame` is `===`. `isEqual` is `==`, which
takes the operands as values of one kind before it compares them. `isSameItem` is how
maps and sets find their keys, and `isIdentical` also tells the two zeros apart.
-/
import ScriptHooks.Sandbox.Coercion

namespace ScriptHooks.Sandbox

namespace Run

/-! ## Equality -/

/-- Whether two values are the same; NaN is not itself, and the two zeros are. -/
def isSame : Value → Value → Bool
  | .undefined, .undefined => true
  | .null, .null => true
  | .bool a, .bool b => a == b
  | .number a, .number b => a == b
  | .bigint a, .bigint b => a == b
  | .text a, .text b => a == b
  | .symbol a, .symbol b => a == b
  | .object a, .object b => a == b
  | _, _ => false

/-- Whether two values cannot be told apart, except for the two zeros. -/
def isSameItem (a b : Value) : Bool :=
  match a, b with
  | .number x, .number y => x == y || (Numeric.isNaN x && Numeric.isNaN y)
  | _, _ => isSame a b

/-- Whether two values cannot be told apart. -/
def isIdentical (a b : Value) : Bool :=
  match a, b with
  | .number x, .number y =>
    (x == y && Numeric.isNegative x == Numeric.isNegative y) || (Numeric.isNaN x && Numeric.isNaN y)
  | _, _ => isSame a b

/-- Whether two values without parts are equal once they are of one kind. -/
def isEqualScalar (a b : Value) : Bool :=
  let asNumber : Value → Option Float := fun
    | .number x => some x
    | .bool b => some (if b then 1.0 else 0.0)
    | .text text => some (numberOf text)
    | _ => none
  let asInteger : Value → Option Int := fun
    | .bigint n => some n
    | .text text => integerOf? text
    | .bool b => some (if b then 1 else 0)
    | .number x => if Numeric.isIntegral x then Numeric.truncate x else none
    | _ => none
  match a, b with
  | .undefined, .null => true
  | .null, .undefined => true
  | .number _, .text _ | .text _, .number _ | .bool _, .number _ | .number _, .bool _
  | .bool _, .text _ | .text _, .bool _ =>
    match asNumber a, asNumber b with
    | some x, some y => x == y
    | _, _ => false
  | .bigint _, _ | _, .bigint _ =>
    match asInteger a, asInteger b with
    | some x, some y => x == y
    | _, _ => false
  | _, _ => isSame a b

/-- Whether two values are equal, whatever their kinds. -/
def isEqual (m : Machine) (a b : Value) : Run Bool := do
  match a, b with
  | .object x, .object y => pure (x == y)
  | .object _, other =>
    if other.isNullish then pure false
    else pure (isEqualScalar (← toPrimitive m none a) other)
  | other, .object _ =>
    if other.isNullish then pure false
    else pure (isEqualScalar other (← toPrimitive m none b))
  | _, _ => pure (isEqualScalar a b)

/-! ## Order -/

/-- Whether one is less; nothing where there is no order. -/
def compareScalars (a b : Value) : Run (Option Ordering) := do
  let order := fun x y : Float =>
    if x < y then some Ordering.lt else if y < x then some .gt else if x == y then some .eq else none
  match a, b with
  | .text x, .text y =>
    pure (some (if x.less y then .lt else if y.less x then .gt else .eq))
  | .bigint x, .bigint y => pure (some (compare x y))
  | .bigint x, other => do
    let y ← scalarNumber other
    pure (order (Float.ofInt x) y)
  | other, .bigint y => do
    let x ← scalarNumber other
    pure (order x (Float.ofInt y))
  | _, _ => do
    let x ← scalarNumber a
    let y ← scalarNumber b
    pure (order x y)

def compareValues (m : Machine) (a b : Value) : Run (Option Ordering) := do
  let x ← toPrimitive m (some .number) a
  let y ← toPrimitive m (some .number) b
  compareScalars x y

/-! ## Arithmetic -/

/-- A number as thirty-two bits with a sign. -/
def ofBits (n : Nat) : Float :=
  let n : Nat := n % 0x100000000
  Float.ofInt (if n < 0x80000000 then (n : Int) else (n : Int) - 0x100000000)

/-- A power. One to an infinite power is not a number. -/
def power (x y : Float) : Float :=
  if Numeric.isNaN y then notANumber
  else if Numeric.isZero y then 1.0
  else if (x == 1.0 || x == -1.0) && !Numeric.isFinite y then notANumber
  else Float.pow x y

def numberOp (op : BinaryOp) (x y : Float) : Float :=
  let shift := Numeric.wrap 32 y % 32
  match op with
  | .add => x + y
  | .sub => x - y
  | .mul => x * y
  | .div => x / y
  | .mod => Numeric.remainder x y
  | .pow => power x y
  | .shiftLeft => ofBits (Numeric.wrap 32 x <<< shift)
  | .shiftRight => Float.ofInt (Numeric.wrapSigned x >>> shift)
  | .shiftRightZero => Float.ofNat (Numeric.wrap 32 x >>> shift)
  | .bitAnd => ofBits (Numeric.wrap 32 x &&& Numeric.wrap 32 y)
  | .bitOr => ofBits (Numeric.wrap 32 x ||| Numeric.wrap 32 y)
  | .bitXor => ofBits (Numeric.wrap 32 x ^^^ Numeric.wrap 32 y)
  | _ => notANumber

/-- Bitwise operations on integers without bounds, by way of enough bits. -/
def bitwise (f : Nat → Nat → Nat) (x y : Int) : Int :=
  let bits := max (Nat.log2 x.natAbs) (Nat.log2 y.natAbs) + 2
  let n := f (x % (Nat.pow 2 bits : Nat)).toNat (y % (Nat.pow 2 bits : Nat)).toNat
  if n < Nat.pow 2 (bits - 1) then n else (n : Int) - Nat.pow 2 bits

def integerOp (op : BinaryOp) (x y : Int) : Run Int :=
  match op with
  | .add => pure (x + y)
  | .sub => pure (x - y)
  | .mul => pure (x * y)
  | .div => if y = 0 then rangeError "BigInt division by zero" else pure (Int.tdiv x y)
  | .mod => if y = 0 then rangeError "BigInt division by zero" else pure (Int.tmod x y)
  | .pow => if y < 0 then rangeError "BigInt negative exponent" else pure (x.pow y.toNat)
  | .shiftLeft => pure (if 0 ≤ y then x * Nat.pow 2 y.toNat else x >>> (-y).toNat)
  | .shiftRight => pure (if 0 ≤ y then x >>> y.toNat else x * Nat.pow 2 (-y).toNat)
  | .bitAnd => pure (bitwise (· &&& ·) x y)
  | .bitOr => pure (bitwise (· ||| ·) x y)
  | .bitXor => pure (bitwise (· ^^^ ·) x y)
  | _ => typeError "BigInt operator not supported"

def arithmetic (m : Machine) (op : BinaryOp) (a b : Value) : Run Value := do
  let x ← toNumeric m a
  let y ← toNumeric m b
  match x, y with
  | .number x, .number y => pure (.number (numberOp op x y))
  | .bigint x, .bigint y => pure (.bigint (← integerOp op x y))
  | _, _ => typeError "cannot mix BigInt with other types"

def sum (m : Machine) (a b : Value) : Run Value := do
  match a, b with
  | .number x, .number y => pure (.number (x + y))
  | _, _ =>
    let x ← toPrimitive m none a
    let y ← toPrimitive m none b
    match x, y with
    | .text s, other => do
      let t ← scalarText other
      grownText (s ++ t) (min s.size t.size)
    | other, .text t => do
      let s ← scalarText other
      grownText (s ++ t) (min s.size t.size)
    | _, _ => arithmetic m .add x y

/-! ## Objects -/

/-- Whether an object has another among its prototypes. -/
def inherits (from_ : Ref) : Nat → Option Ref → Run Bool
  | 0, _ => pure false
  | _, none => pure false
  | fuel + 1, some ref => do
    if ref = from_ then pure true else inherits from_ fuel (← object ref).proto

def isInstance (m : Machine) (value constructor : Value) : Run Bool := do
  match constructor with
  | .object ref =>
    if !(← object ref).isCallable then typeError "invalid 'instanceof' right operand"
    else
      let constructor := match (← object ref).kind with
        | .bound target _ _ => target
        | _ => constructor
      match value with
      | .object made =>
        match ← getValue m constructor "prototype" with
        | .object proto => inherits proto (← chainLength) (← object made).proto
        | _ => typeError "operand 'prototype' property is not an object"
      | _ => pure false
  | _ => typeError "invalid 'instanceof' right operand"

def isIn (m : Machine) (key container : Value) : Run Bool := do
  match container with
  | .object ref => hasProperty ref (← toKey m key)
  | _ => typeError "invalid 'in' operand"

def applyBinary (m : Machine) (op : BinaryOp) (a b : Value) : Run Value := do
  match op with
  | .add => sum m a b
  | .less => pure (.bool ((← compareValues m a b) == some .lt))
  | .greater => pure (.bool ((← compareValues m a b) == some .gt))
  | .lessEqual =>
    let order ← compareValues m a b
    pure (.bool (order == some .lt || order == some .eq))
  | .greaterEqual =>
    let order ← compareValues m a b
    pure (.bool (order == some .gt || order == some .eq))
  | .equal => pure (.bool (← isEqual m a b))
  | .notEqual => pure (.bool (!(← isEqual m a b)))
  | .same => pure (.bool (isSame a b))
  | .notSame => pure (.bool (!isSame a b))
  | .in_ => pure (.bool (← isIn m a b))
  | .instanceOf => pure (.bool (← isInstance m a b))
  | _ => arithmetic m op a b

def applyUnary (m : Machine) (op : UnaryOp) (value : Value) : Run Value := do
  match op with
  | .void => pure .undefined
  | .not => pure (.bool (!value.isTruthy))
  | .plus => pure (.number (← toNumber m value))
  | .minus =>
    match ← toNumeric m value with
    | .bigint n => pure (.bigint (-n))
    | .number x => pure (.number (-x))
    | other => pure other
  | .bitNot =>
    match ← toNumeric m value with
    | .bigint n => pure (.bigint (-n - 1))
    | .number x => pure (.number (Float.ofInt (-(Numeric.wrapSigned x) - 1)))
    | other => pure other

def stepBy (increment : Bool) : Value → Value
  | .number x => .number (if increment then x + 1.0 else x - 1.0)
  | .bigint n => .bigint (if increment then n + 1 else n - 1)
  | other => other

end Run

end ScriptHooks.Sandbox

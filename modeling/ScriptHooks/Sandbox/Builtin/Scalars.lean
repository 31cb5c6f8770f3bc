/-
ScriptHooks.Sandbox.Builtin.Scalars — the functions of numbers, truth values, symbols
and large integers, and those of mathematics.
-/
import ScriptHooks.Sandbox.Builtin.Lists

namespace ScriptHooks.Sandbox

namespace Run

/-- The value in the box that a function was called on, or the value itself. -/
def unboxed (this : Value) : Run Value := do
  match this with
  | .object ref =>
    match (← object ref).kind with
    | .boxed value => pure value
    | _ => pure this
  | other => pure other

def thisNumber (this : Value) : Run Float := do
  match ← unboxed this with
  | .number x => pure x
  | _ => typeError "not a number"

def numberInBase (m : Machine) (x : Float) (base : Value) : Run Value := do
  let base ← match base with
    | .undefined => pure 10
    | other => toInteger m other
  if base < 2 || 36 < base then rangeError "radix must be between 2 and 36"
  else if base = 10 || !Numeric.isFinite x then pure (.text (numberText x))
  else pure (.text (Units.ofChars (basedText base.toNat x)))

def numberFixed (m : Machine) (x : Float) (places : Value) : Run Value := do
  let places ← toInteger m places
  if places < 0 || 100 < places then rangeError "invalid number of digits"
  else if !Numeric.isFinite x || 1e21 ≤ x.abs then pure (.text (numberText x))
  else pure (.text (Units.ofChars (fixedText places.toNat x)))

/-- The greatest whole number below which all are told apart. -/
def maxSafe : Float := 9007199254740991.0

def numberQuestion (f : ScalarFunction) (x : Float) : Bool :=
  match f with
  | .isInteger => Numeric.isIntegral x
  | .isSafeInteger => Numeric.isIntegral x && x.abs ≤ maxSafe
  | .isFinite | .globalIsFinite => Numeric.isFinite x
  | _ => Numeric.isNaN x

def makeBigint (m : Machine) (value : Value) : Run Value := do
  match ← toPrimitive m (some .number) value with
  | .bigint n => pure (.bigint n)
  | .bool b => pure (.bigint (if b then 1 else 0))
  | .number x =>
    match Numeric.truncate x with
    | some n =>
      if Numeric.isIntegral x then pure (.bigint n)
      else rangeError "cannot convert to BigInt: not an integer"
    | none => rangeError "cannot convert NaN or Infinity to BigInt"
  | .text text =>
    match integerOf? text with
    | some n => pure (.bigint n)
    | none => fail .syntaxError "invalid BigInt literal"
  | _ => typeError "cannot convert to BigInt"

def newSymbol (description : Option Units) : Run Value :=
  modifyGet fun w =>
    (.symbol w.symbols.size, { w with symbols := w.symbols.push description })

def symbolFunction (m : Machine) (f : ScalarFunction) (this : Value) (arguments : List Value) :
    Run Value := do
  match f with
  | .symbol =>
    if hasArgument arguments 0 then
      let description ← toText m (argument arguments 0)
      newSymbol (some description)
    else newSymbol none
  | _ =>
    match ← unboxed this with
    | .symbol id =>
      let description := (← get).symbols.getD id none
      match f with
      | .symbolToText =>
        pure (.text (Units.ofString "Symbol(" ++ description.getD Units.empty
          ++ Units.ofString ")"))
      | .symbolDescription =>
        pure (match description with | some text => .text text | none => .undefined)
      | _ => pure (.symbol id)
    | _ => typeError "not a symbol"

def makeNumber (m : Machine) (arguments : List Value) : Run Value := do
  match arguments with
  | [] => pure (.number 0.0)
  | value :: _ =>
    match ← toNumeric m value with
    | .bigint n => pure (.number (Float.ofInt n))
    | other => pure other

def otherScalarFunction (m : Machine) (f : ScalarFunction) (this : Value)
    (arguments : List Value) : Run Value := do
  match f with
  | .bool => pure (.bool (argument arguments 0).isTruthy)
  | .bigint => makeBigint m (argument arguments 0)
  | _ =>
    match f, ← unboxed this with
    | .boolToText, .bool b => pure (.text (Units.ofString (if b then "true" else "false")))
    | .boolValue, .bool b => pure (.bool b)
    | .bigintToText, .bigint n => pure (.text (Units.ofString (toString n)))
    | .bigintValue, .bigint n => pure (.bigint n)
    | .boolToText, _ | .boolValue, _ => typeError "not a boolean"
    | _, _ => typeError "not a bigint"

/-- Functions of numbers, truth values, symbols and large integers. -/
def scalarFunction (m : Machine) (f : ScalarFunction) (this : Value) (arguments : List Value) :
    Run Value := do
  let first := argument arguments 0
  match f with
  | .number => makeNumber m arguments
  | .isInteger | .isSafeInteger | .isFinite | .isNaN =>
    match first with
    | .number x => pure (.bool (numberQuestion f x))
    | _ => pure (.bool false)
  | .globalIsFinite | .globalIsNaN => pure (.bool (numberQuestion f (← toNumber m first)))
  | .parseInt =>
    let text ← toText m first
    let base ← integerArgument m (argument arguments 1)
    pure (.number (leadingInteger text base))
  | .parseFloat => pure (.number (leadingNumber (← toText m first)))
  | .numberToText => numberInBase m (← thisNumber this) first
  | .numberToFixed => numberFixed m (← thisNumber this) first
  | .numberValue => pure (.number (← thisNumber this))
  | .symbol | .symbolToText | .symbolValue | .symbolDescription =>
    symbolFunction m f this arguments
  | .bool | .boolToText | .boolValue | .bigint | .bigintToText | .bigintValue =>
    otherScalarFunction m f this arguments
where
  /-- The base that an argument gives; none is zero. -/
  integerArgument (m : Machine) (value : Value) : Run Int := do
    match value with
    | .undefined => pure 0
    | other => toInteger m other

def extreme (greatest : Bool) (numbers : List Float) : Float :=
  numbers.foldl (fun best x =>
    if Numeric.isNaN best || Numeric.isNaN x then notANumber
    else if x == best then
      (if Numeric.isNegative x == greatest then best else x)
    else if (best < x) == greatest then x else best)
    (if greatest then -infinity else infinity)

def mathFunction (m : Machine) (f : MathFunction) (arguments : List Value) : Run Value := do
  let numbers ← arguments.mapM (toNumber m)
  let x := numbers.getD 0 notANumber
  let answer := match f with
    | .abs => x.abs
    | .ceil => Numeric.ceil x
    | .floor => Numeric.floor x
    | .round => Numeric.round x
    | .trunc => Numeric.trunc x
    | .sign => if 0.0 < x then 1.0 else if x < 0.0 then -1.0 else x
    | .sqrt => x.sqrt
    | .max => extreme true numbers
    | .min => extreme false numbers
    | .pow => power x (numbers.getD 1 notANumber)
  pure (.number answer)

end Run

end ScriptHooks.Sandbox

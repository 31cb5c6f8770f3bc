/-
ScriptHooks.Sandbox.Coercion — values taken as values of another kind.

An object is first asked for a value that is no object, by its own methods; what
then remains is taken as a text, a number, a key or a truth value.
-/
import ScriptHooks.Sandbox.NumberText
import ScriptHooks.Sandbox.Properties

namespace ScriptHooks.Sandbox

def Value.isTruthy : Value → Bool
  | .undefined => false
  | .null => false
  | .bool b => b
  | .number x => !(Numeric.isNaN x || Numeric.isZero x)
  | .bigint n => n ≠ 0
  | .text units => !units.isEmpty
  | .symbol _ => true
  | .object _ => true

/-- Whether a value is `undefined` or `null`. -/
def Value.isNullish : Value → Bool
  | .undefined => true
  | .null => true
  | _ => false

/-- The kind of value that an object is asked for first. -/
inductive Preference
  | text
  | number
  deriving DecidableEq

/-- The symbols that are known before a script starts. -/
inductive KnownSymbol
  | iterator
  | toPrimitive
  | hasInstance
  | toStringTag
  deriving DecidableEq

namespace KnownSymbol

def all : List KnownSymbol := [iterator, toPrimitive, hasInstance, toStringTag]

def id (symbol : KnownSymbol) : Nat := all.idxOf symbol

def name : KnownSymbol → String
  | iterator => "iterator"
  | toPrimitive => "toPrimitive"
  | hasInstance => "hasInstance"
  | toStringTag => "toStringTag"

def key (symbol : KnownSymbol) : Key := .symbol symbol.id

end KnownSymbol

namespace Run

/-- The answer of the first of an object's methods that gives a value that is no
object. -/
def firstAnswer (m : Machine) (value : Value) : List String → Run Value
  | [] => typeError "toPrimitive"
  | name :: names => do
    match ← getMethod m value name with
    | none => firstAnswer m value names
    | some method =>
      match ← m.call method value [] with
      | .object _ => firstAnswer m value names
      | answer => pure answer

def toPrimitive (m : Machine) (preference : Option Preference) (value : Value) : Run Value := do
  match value with
  | .object ref =>
    match ← getMethod m value KnownSymbol.toPrimitive.key with
    | some method =>
      let hint := match preference with
        | none => "default"
        | some .text => "string"
        | some .number => "number"
      match ← m.call method value [.text (Units.ofString hint)] with
      | .object _ => typeError "toPrimitive"
      | answer => pure answer
    | none =>
      let isDate := match (← object ref).kind with
        | .date _ => true
        | _ => false
      let textFirst := preference == some .text || (preference == none && isDate)
      firstAnswer m value (if textFirst then ["toString", "valueOf"] else ["valueOf", "toString"])
  | other => pure other

def scalarText : Value → Run Units
  | .undefined => pure (Units.ofString "undefined")
  | .null => pure (Units.ofString "null")
  | .bool b => pure (Units.ofString (if b then "true" else "false"))
  | .number x => pure (numberText x)
  | .bigint n => pure (Units.ofString (toString n))
  | .text text => pure text
  | .symbol _ => typeError "cannot convert symbol to string"
  | .object _ => typeError "toPrimitive"

def toText (m : Machine) (value : Value) : Run Units := do
  match value with
  | .text text => pure text
  | .object _ => scalarText (← toPrimitive m (some .text) value)
  | other => scalarText other

def scalarNumber : Value → Run Float
  | .undefined => pure notANumber
  | .null => pure 0.0
  | .bool b => pure (if b then 1.0 else 0.0)
  | .number x => pure x
  | .bigint _ => typeError "cannot convert bigint to number"
  | .text text => pure (numberOf text)
  | .symbol _ => typeError "cannot convert symbol to number"
  | .object _ => typeError "toPrimitive"

def toNumber (m : Machine) (value : Value) : Run Float := do
  match value with
  | .number x => pure x
  | .object _ => scalarNumber (← toPrimitive m (some .number) value)
  | other => scalarNumber other

/-- The whole number of a value, toward zero; the infinite ones are beyond all
others. -/
def toInteger (m : Machine) (value : Value) : Run Int := do
  let x ← toNumber m value
  pure (match Numeric.truncate x with
    | some n => n
    | none => if Numeric.isNaN x then 0 else Numeric.signed x 0x10000000000000000)

def toNumeric (m : Machine) (value : Value) : Run Value := do
  match ← toPrimitive m (some .number) value with
  | .bigint n => pure (.bigint n)
  | other => pure (.number (← scalarNumber other))

def toKey (m : Machine) (value : Value) : Run Key := do
  match value with
  | .text text => pure (.text text)
  | .symbol id => pure (.symbol id)
  | .number x => pure (.text (numberText x))
  | .object _ =>
    match ← toPrimitive m (some .text) value with
    | .symbol id => pure (.symbol id)
    | other => pure (.text (← scalarText other))
  | other => pure (.text (← scalarText other))

def toObject (value : Value) : Run Ref := do
  match value with
  | .object ref => pure ref
  | .undefined => typeError "Cannot convert undefined or null to object"
  | .null => typeError "Cannot convert undefined or null to object"
  | other => allocate { proto := some (lender other).ref, kind := .boxed other }

def lengthOf (m : Machine) (value : Value) : Run Nat := do
  match value with
  | .object ref =>
    match (← object ref).kind with
    | .array _ length _ => pure length
    | _ => pure (min (← toInteger m (← getValue m value "length")).toNat (0x1fffffffffffff))
  | .text text => pure text.size
  | _ => pure 0

def kindName (value : Value) : Run String := do
  match value with
  | .undefined => pure "undefined"
  | .null => pure "object"
  | .bool _ => pure "boolean"
  | .number _ => pure "number"
  | .bigint _ => pure "bigint"
  | .text _ => pure "string"
  | .symbol _ => pure "symbol"
  | .object ref => pure (if (← object ref).isCallable then "function" else "object")

def askedItems (m : Machine) (value : Value) (count : Nat) : Run (List Value) :=
  loop (fun (i, items) => do
    if i < count then pure (.error (i + 1, (← getValue m value (Key.ofNat i)) :: items))
    else pure (.ok items.reverse)) (0, ([] : List Value))

/-- The items of a value that has a length. Arrays without empty places give what they
hold; others are asked item by item. -/
def listItems (m : Machine) (value : Value) : Run (List Value) := do
  let count ← lengthOf m value
  match value with
  | .object ref =>
    match (← object ref).kind with
    | .array items _ _ =>
      let held := items.filterMap id
      if held.size = count then pure held.toList else askedItems m value count
    | _ => askedItems m value count
  | _ => askedItems m value count

/-! ## Lists of items to come -/

def characters (text : Units) : List Value :=
  text.pieces.map fun
    | .char c => .text (Units.ofChars [c])
    | .lone unit => .text ⟨#[unit]⟩

def knownItems (m : Machine) (value : Value) : Run (Option (List Value)) := do
  match value with
  | .text text => pure (some (characters text))
  | .object ref =>
    match (← object ref).kind with
    | .array _ _ _ => pure (some (← listItems m value))
    | .arguments => pure (some (← listItems m value))
    | .boxed (.text text) => pure (some (characters text))
    | .map entries =>
      pure (some (← entries.mapM fun entry => newList [entry.1, entry.2]))
    | .set items => pure (some items)
    | .items rest => pure (some rest)
    | _ => pure none
  | _ => pure none

def iteratorOf (m : Machine) (value : Value) : Run Value := do
  match ← getMethod m value KnownSymbol.iterator.key with
  | some method => m.call method value []
  | none => typeError "value is not iterable"

def nextItem (m : Machine) (iterator : Value) : Run (Option Value) := do
  let answer ← call m (← getValue m iterator "next") iterator []
  match answer with
  | .object _ =>
    if (← getValue m answer "done").isTruthy then pure none
    else pure (some (← getValue m answer "value"))
  | _ => typeError "iterator must return an object"

/-- All items of a value, in order; at most so many if a number is given. -/
def allItems (m : Machine) (value : Value) (limit : Option Nat) : Run (List Value) := do
  match ← knownItems m value with
  | some items => pure items
  | none =>
    let iterator ← iteratorOf m value
    loop (fun (items, left) => do
      if left == some 0 then pure (.ok items.reverse)
      else
        match ← nextItem m iterator with
        | none => pure (.ok items.reverse)
        | some item => pure (.error (item :: items, left.map (· - 1)))) (([] : List Value), limit)

end Run

end ScriptHooks.Sandbox

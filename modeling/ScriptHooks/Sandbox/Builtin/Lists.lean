/-
ScriptHooks.Sandbox.Builtin.Lists — the functions of arrays.

Most of them work on any object with a length. What walks over the places of a list
looks at each place when it comes to it, so a function called on the way may change
the list; every place is a step of the budget.

The functions that call a function of the script for each item are given the `Machine`
of the level below, as everything here is that may call on the script.
-/
import ScriptHooks.Sandbox.Operators

namespace ScriptHooks.Sandbox

namespace Run

/-- One of the arguments; `undefined` if there are fewer. -/
def argument (arguments : List Value) (index : Nat) : Value := arguments.getD index .undefined

/-- Whether there is such an argument, and it is not `undefined`. -/
def hasArgument (arguments : List Value) (index : Nat) : Bool :=
  match argument arguments index with
  | .undefined => false
  | _ => true

/-- A place counted from the start, or from the end if negative, within a length. -/
def placeFrom (length : Nat) (index : Int) : Nat :=
  if index < 0 then ((length : Int) + index).toNat else min index.toNat length

/-- A place that an argument gives; another if there is no argument. -/
def placeArgument (m : Machine) (arguments : List Value) (index length default : Nat) :
    Run Nat := do
  if hasArgument arguments index then
    pure (placeFrom length (← toInteger m (argument arguments index)))
  else pure default

def needFunction (value : Value) : Run Unit := do
  if !(← isCallable value) then typeError "not a function"

def newIterator (items : List Value) : Run Value := do
  let ref ← allocate { proto := some Intrinsic.iteratorProto.ref, kind := .items items }
  pure (.object ref)

/-! ## Walking over places -/

/-- Steps for the places before a length, until one of them gives a result; else the
state at the end. -/
def overPlaces (length : Nat) (state : σ) (step : Nat → σ → Run (Except α σ)) :
    Run (Except α σ) :=
  loop (fun (i, state) => do
    if i < length then
      match ← step i state with
      | .ok state => pure (.error (i + 1, state))
      | .error result => pure (.ok (.error result))
    else pure (.ok (.ok state))) (0, state)

def foldPlaces (length : Nat) (state : σ) (step : Nat → σ → Run σ) : Run σ :=
  loop (fun (i, state) => do
    if i < length then pure (.error (i + 1, ← step i state)) else pure (.ok state)) (0, state)

def itemAt? (m : Machine) (ref : Ref) (index : Nat) : Run (Option Value) := do
  let direct := match (← object ref).kind with
    | .array items _ _ => (items[index]?).join
    | _ => none
  match direct with
  | some value => pure (some value)
  | none =>
    match ← findProperty (Key.ofNat index) (← chainLength) (some ref) with
    | some property => pure (some (← read m (.object ref) property))
    | none => pure none

/-- The item at a place, or `undefined`. -/
def itemAt (m : Machine) (ref : Ref) (index : Nat) : Run Value := do
  pure ((← itemAt? m ref index).getD .undefined)

/-- Steps for the items that are there, with a function's answer for each, until one of
them says to stop. -/
def overAnswers (m : Machine) (ref : Ref) (f this : Value) (stops : Value → Bool) :
    Run Bool := do
  let length ← lengthOf m (.object ref)
  needFunction f
  let stopped ← overPlaces length () fun i _ => do
    match ← itemAt? m ref i with
    | some item =>
      let answer ← m.call f this [item, Value.ofNat i, .object ref]
      pure (if stops answer then .error () else .ok ())
    | none => pure (.ok ())
  pure (match stopped with | .error _ => true | .ok _ => false)

/-- The items that are there, each with a function's answer; empty places as they are. -/
def answersOf (m : Machine) (ref : Ref) (f this : Value) :
    Run (List (Option (Value × Value))) := do
  let length ← lengthOf m (.object ref)
  needFunction f
  let answers ← foldPlaces length [] fun i answers => do
    match ← itemAt? m ref i with
    | some item =>
      let answer ← m.call f this [item, Value.ofNat i, .object ref]
      pure (some (item, answer) :: answers)
    | none => pure (none :: answers)
  pure answers.reverse

def placesOf (m : Machine) (ref : Ref) : Run (List (Option Value)) := do
  let length ← lengthOf m (.object ref)
  let dense := match (← object ref).kind with
    | .array items _ _ => if items.size = length then some items.toList else none
    | _ => none
  match dense with
  | some items => pure items
  | none =>
    let items ← foldPlaces length [] fun i items => do pure ((← itemAt? m ref i) :: items)
    pure items.reverse

def replaceItems (m : Machine) (ref : Ref) (oldLength : Nat) (items : List (Option Value)) :
    Run Unit := do
  let found ← object ref
  match found.kind, found.extensible with
  | .array _ _ true, true =>
    let emptied := found.resize 0
    let items := items.toArray
    change ref fun _ => { emptied with kind := .array items items.size true }
  | _, _ =>
    for (item, i) in items.zipIdx do
      match item with
      | some value => setValue m (.object ref) (Key.ofNat i) value
      | none => remove ref (Key.ofNat i)
    for i in List.range (oldLength - items.length) do
      remove ref (Key.ofNat (items.length + i))
    setValue m (.object ref) "length" (Value.ofNat items.length)

/-- The items of a list and of those in it, so many levels deep. -/
def flattened (m : Machine) : Nat → List Value → Run (List Value)
  | 0, items => pure items
  | depth + 1, items => do
    let parts ← items.mapM fun item => do
      match item with
      | .object ref =>
        match (← object ref).kind with
        | .array _ _ _ =>
          flattened m depth ((← placesOf m ref).filterMap id)
        | _ => pure [item]
      | _ => pure [item]
    pure parts.flatten

/-! ## Order -/

/-- Two lists in order made one; where they are equal the first goes first. -/
def merge (inOrder : Value → Value → Run Bool) :
    Nat → List Value → List Value → List Value → Run (List Value)
  | fuel + 1, a :: as, b :: bs, merged => do
    if ← inOrder a b then merge inOrder fuel as (b :: bs) (a :: merged)
    else merge inOrder fuel (a :: as) bs (b :: merged)
  | _, as, bs, merged => pure (merged.reverse ++ as ++ bs)

/-- A list in order; the fuel bounds how often it is halved. -/
def sortItems (inOrder : Value → Value → Run Bool) : Nat → List Value → Run (List Value)
  | fuel + 1, a :: b :: rest => do
    let items := a :: b :: rest
    let half := items.length / 2
    let left ← sortItems inOrder fuel (items.take half)
    let right ← sortItems inOrder fuel (items.drop half)
    merge inOrder (items.length + 1) left right []
  | _, items => pure items

def sortByText (m : Machine) (items : List Value) : Run (List Value) := do
  let keyed ← items.mapM fun item => do pure (← toText m item, item)
  pure ((keyed.mergeSort fun a b => !b.1.less a.1).map (·.2))

/-- Whether a function says that one value may stand before another. -/
def mayPrecede (m : Machine) (f a b : Value) : Run Bool := do
  tick
  let x ← toNumber m (← m.call f .undefined [a, b])
  pure (!(0.0 < x))

/-- The items of a list in order: `undefined` goes last, and after it empty places. -/
def sortList (m : Machine) (ref : Ref) (f : Value) : Run Unit := do
  let places ← placesOf m ref
  let held := places.filterMap id
  let isUndefined : Value → Bool := fun
    | .undefined => true
    | _ => false
  let items := held.filter fun item => !isUndefined item
  let sorted ← if isUndefined f then sortByText m items
    else sortItems (mayPrecede m f) (items.length + 1) items
  let tail := List.replicate (held.length - items.length) (some Value.undefined)
  let holes := List.replicate (places.length - held.length) none
  replaceItems m ref places.length (sorted.map some ++ tail ++ holes)

/-! ## Texts of lists -/

/-- The texts of the items with a separator between them; `undefined` and `null` have
none. -/
def joinItems (m : Machine) (ref : Ref) (separator : Units) : Run Value := do
  let length ← lengthOf m (.object ref)
  let joined ← foldPlaces length Units.empty fun i joined => do
    let item ← itemAt m ref i
    let text ← if item.isNullish then pure Units.empty else toText m item
    pure (if i = 0 then text else joined ++ separator ++ text)
  textValue joined

/-! ## The functions -/

/-- The first item, or the last, that a function accepts, and its place. -/
def findItem (m : Machine) (ref : Ref) (f this : Value) : Run (Option (Nat × Value)) := do
  let length ← lengthOf m (.object ref)
  needFunction f
  let found ← overPlaces length () fun i _ => do
    let item ← itemAt m ref i
    if (← m.call f this [item, Value.ofNat i, .object ref]).isTruthy then
      pure (.error (i, item))
    else pure (.ok ())
  match found with
  | .error hit => pure (some hit)
  | .ok _ => pure none

def foldPlace (length : Nat) (fromEnd : Bool) (i : Nat) : Nat :=
  if fromEnd then length - 1 - i else i

def foldItems (m : Machine) (ref : Ref) (fromEnd : Bool) (arguments : List Value) : Run Value := do
  let length ← lengthOf m (.object ref)
  let f := argument arguments 0
  needFunction f
  let start := if 1 < arguments.length then some (argument arguments 1) else none
  let folded ← foldPlaces length start fun i total => do
    let place := foldPlace length fromEnd i
    match ← itemAt? m ref place, total with
    | none, total => pure total
    | some item, none => pure (some item)
    | some item, some total =>
      pure (some (← m.call f .undefined [total, item, Value.ofNat place, .object ref]))
  match folded with
  | some total => pure total
  | none => typeError "empty array"

/-- What `concat` takes from a value: the items of an array, or the value. -/
def concatParts (m : Machine) (value : Value) : Run (List (Option Value)) := do
  match value with
  | .object ref =>
    match (← object ref).kind with
    | .array _ _ _ => placesOf m ref
    | _ => pure [some value]
  | _ => pure [some value]

def askingFunction (m : Machine) (f : ArrayFunction) (ref : Ref) (arguments : List Value) :
    Run Value := do
  let callback := argument arguments 0
  let this := argument arguments 1
  match f with
  | .map =>
    let answers ← answersOf m ref callback this
    newArray (answers.map fun answer => answer.map (·.2)).toArray
  | .filter =>
    let answers ← answersOf m ref callback this
    newList (answers.filterMap fun
      | some (item, answer) => if answer.isTruthy then some item else none
      | none => none)
  | .flatMap =>
    let answers ← answersOf m ref callback this
    newList (← flattened m 1 (answers.filterMap fun answer => answer.map (·.2)))
  | .some => pure (.bool (← overAnswers m ref callback this (·.isTruthy)))
  | .every => pure (.bool (!(← overAnswers m ref callback this fun answer => !answer.isTruthy)))
  | .find => pure (((← findItem m ref callback this).map (·.2)).getD .undefined)
  | .findIndex =>
    pure (match ← findItem m ref callback this with
      | some (i, _) => Value.ofNat i
      | none => .number (-1.0))
  | _ => do
    let _ ← overAnswers m ref callback this fun _ => false
    pure .undefined

def placeOf (m : Machine) (ref : Ref) (same : Value → Value → Bool) (skipsEmpty : Bool)
    (value : Value) (start : Nat) : Run (Option Nat) := do
  let length ← lengthOf m (.object ref)
  let found ← overPlaces (length - start) () fun i _ => do
    match ← itemAt? m ref (start + i) with
    | some item => pure (if same item value then .error (start + i) else .ok ())
    | none => pure (if !skipsEmpty && same .undefined value then .error (start + i) else .ok ())
  match found with
  | .error i => pure (some i)
  | .ok _ => pure none

/-- A place as scripts see it; minus one for none. -/
def placeValue : Option Nat → Value
  | some i => Value.ofNat i
  | none => .number (-1.0)

def lookingFunction (m : Machine) (f : ArrayFunction) (ref : Ref) (arguments : List Value) :
    Run Value := do
  let list := Value.object ref
  let length ← lengthOf m list
  match f with
  | .indexOf =>
    let start ← placeArgument m arguments 1 length 0
    pure (placeValue (← placeOf m ref isSame true (argument arguments 0) start))
  | .includes =>
    let start ← placeArgument m arguments 1 length 0
    pure (.bool (← placeOf m ref isSameItem false (argument arguments 0) start).isSome)
  | .lastIndexOf =>
    let found ← overPlaces length () fun i _ => do
      let place := length - 1 - i
      match ← itemAt? m ref place with
      | some item =>
        pure (if isSame item (argument arguments 0) then .error place else .ok ())
      | none => pure (.ok ())
    pure (placeValue (match found with | .error i => some i | .ok _ => none))
  | .at_ =>
    let index ← toInteger m (argument arguments 0)
    let place := if index < 0 then (length : Int) + index else index
    if place < 0 then pure .undefined else getValue m list (Key.ofNat place.toNat)
  | .slice =>
    let start ← placeArgument m arguments 0 length 0
    let stop ← placeArgument m arguments 1 length length
    newArray ((← placesOf m ref).toArray.extract start stop)
  | .concat =>
    let parts ← (list :: arguments).mapM (concatParts m)
    newArray parts.flatten.toArray
  | .join =>
    let separator ← if hasArgument arguments 0 then toText m (argument arguments 0)
      else pure (Units.ofString ",")
    joinItems m ref separator
  | .toText =>
    match ← getMethod m list "join" with
    | some method => m.call method list []
    | none => pure (.text (Units.ofString "[object Object]"))
  | .flat =>
    let depth ← if hasArgument arguments 0 then toInteger m (argument arguments 0) else pure 1
    let items := (← placesOf m ref).filterMap id
    newList (← flattened m (min depth.toNat 1000) items)
  | .keys => newIterator ((List.range length).map Value.ofNat)
  | .values => newIterator (← listItems m list)
  | _ =>
    let pairs ← (← listItems m list).zipIdx.mapM fun (item, i) => newList [Value.ofNat i, item]
    newIterator pairs

def changingFunction (m : Machine) (f : ArrayFunction) (ref : Ref) (arguments : List Value) :
    Run Value := do
  let list := Value.object ref
  let length ← lengthOf m list
  match f with
  | .push =>
    for (item, i) in arguments.zipIdx do
      setValue m list (Key.ofNat (length + i)) item
    let count := Value.ofNat (length + arguments.length)
    match (← object ref).kind with
    | .array _ _ true => pure ()
    | _ => setValue m list "length" count
    pure count
  | .pop =>
    if length = 0 then
      setValue m list "length" (Value.ofNat 0)
      pure .undefined
    else
      let item ← itemAt m ref (length - 1)
      remove ref (Key.ofNat (length - 1))
      setValue m list "length" (Value.ofNat (length - 1))
      pure item
  | .shift =>
    let items ← placesOf m ref
    replaceItems m ref length (items.drop 1)
    pure ((items.head?.join).getD .undefined)
  | .unshift =>
    let items ← placesOf m ref
    replaceItems m ref length (arguments.map some ++ items)
    pure (Value.ofNat (length + arguments.length))
  | .splice =>
    let start ← placeArgument m arguments 0 length 0
    let count ← if arguments.length < 2 then pure (if arguments.isEmpty then 0 else length - start)
      else pure (min (← toInteger m (argument arguments 1)).toNat (length - start))
    let items ← placesOf m ref
    let added := (arguments.drop 2).map some
    replaceItems m ref length (items.take start ++ added ++ items.drop (start + count))
    newArray ((items.drop start).take count).toArray
  | .reverse =>
    replaceItems m ref length (← placesOf m ref).reverse
    pure list
  | .fill =>
    let start ← placeArgument m arguments 1 length 0
    let stop ← placeArgument m arguments 2 length length
    foldPlaces (stop - start) () fun i _ =>
      setValue m list (Key.ofNat (start + i)) (argument arguments 0)
    pure list
  | _ =>
    let order := argument arguments 0
    match order with
    | .undefined => pure ()
    | _ => needFunction order
    sortList m ref order
    pure list

def makeArray (arguments : List Value) : Run Value := do
  match arguments with
  | [.number x] =>
    match lengthOf? x with
    | some length =>
      let ref ← allocate {
        proto := some Intrinsic.arrayProto.ref
        kind := .array #[] length true }
      pure (.object ref)
    | none => rangeError "invalid array length"
  | items => newList items

def arrayFrom (m : Machine) (arguments : List Value) : Run Value := do
  let source := argument arguments 0
  let f := argument arguments 1
  let items ← if (← getMethod m source KnownSymbol.iterator.key).isSome then
      allItems m source none
    else listItems m (.object (← toObject source))
  if hasArgument arguments 1 then
    needFunction f
    let mapped ← items.zipIdx.mapM fun (item, i) =>
      m.call f (argument arguments 2) [item, Value.ofNat i]
    newList mapped
  else newList items

def arrayFunction (m : Machine) (f : ArrayFunction) (this : Value) (arguments : List Value) :
    Run Value := do
  match f with
  | .construct => makeArray arguments
  | .of_ => newList arguments
  | .from_ => arrayFrom m arguments
  | .isArray =>
    match argument arguments 0 with
    | .object ref =>
      match (← object ref).kind with
      | .array _ _ _ => pure (.bool true)
      | _ => pure (.bool false)
    | _ => pure (.bool false)
  | .reduce => foldItems m (← toObject this) false arguments
  | .reduceRight => foldItems m (← toObject this) true arguments
  | .map | .filter | .forEach | .some | .every | .find | .findIndex | .flatMap =>
    askingFunction m f (← toObject this) arguments
  | .indexOf | .lastIndexOf | .includes | .slice | .concat | .join | .flat | .at_ | .toText
  | .keys | .values | .entries => lookingFunction m f (← toObject this) arguments
  | .push | .pop | .shift | .unshift | .splice | .reverse | .sort | .fill =>
    changingFunction m f (← toObject this) arguments

end Run

end ScriptHooks.Sandbox

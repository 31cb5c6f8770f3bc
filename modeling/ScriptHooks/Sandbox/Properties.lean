/-
ScriptHooks.Sandbox.Properties — reading and writing the properties of objects.

An object's own properties are its items, if it has any, and the properties kept
with it. What an object does not have itself it takes from its prototype. Writing
goes by the strict rules: what may not be written is an error.

The items of an array stand in an array of their own, where each place has a value
or nothing. An index is kept with the other properties instead if its property is not
a plain one, or if it lies more than `widestGap` beyond the items. `Obj.own?` looks at
both, the items first.

Keys come in one order: the indices by size, then the names and then the symbols, as
they were made. What is listed for a script, and what is written as JSON, is in that
order.

Prototypes are followed at most as many times as there are objects (`chainLength`).
No chain without a circle is longer, so nothing is missed by it.
-/
import ScriptHooks.Numeric.Integral
import ScriptHooks.Sandbox.Heap

namespace ScriptHooks.Sandbox

def Key.shown (key : Key) : Run String := do
  match key with
  | .text name => pure name.toText
  | .symbol id => pure (((← get).symbols.getD id none).getD Units.empty).toText

def Key.index? : Key → Option Nat
  | .text name => name.index?
  | .symbol _ => none

def Value.ofNat (n : Nat) : Value := .number (Float.ofNat n)

def Key.ofNat (n : Nat) : Key := .text (Units.ofNat n)

namespace Obj

def kept? (object : Obj) (key : Key) : Option Property :=
  (object.properties.find? fun entry => entry.1 == key).map (·.2)

def unitOf? (text : Units) (key : Key) : Option Property :=
  match key.index? with
  | some i => (text.at? i).map fun unit => ⟨.data (.text unit) false, true, false⟩
  | none =>
    if key == "length" then some ⟨.data (Value.ofNat text.size) false, false, false⟩ else none

def own? (object : Obj) (key : Key) : Option Property :=
  match object.kind with
  | .array items length resizable =>
    match key.index? with
    | some i =>
      match items[i]? with
      | some (some value) => some (.plain value)
      | _ => object.kept? key
    | none =>
      if key == "length" then some ⟨.data (Value.ofNat length) resizable, false, false⟩
      else object.kept? key
  | .boxed (.text text) => unitOf? text key <|> object.kept? key
  | _ => object.kept? key

def keep (object : Obj) (key : Key) (property : Property) : Obj :=
  match object.properties.findIdx? fun entry => entry.1 == key with
  | some i => { object with properties := object.properties.modify i fun _ => (key, property) }
  | none => { object with properties := object.properties.push (key, property) }

def drop (object : Obj) (key : Key) : Obj :=
  { object with properties := object.properties.filter fun entry => entry.1 != key }

/-- How far beyond its items an array may be written and still keep them together. -/
def widestGap : Nat := 4096

/-- The object with a property put in, whatever was there. -/
def define (object : Obj) (key : Key) (property : Property) : Obj :=
  match object.kind, key.index? with
  | .array items length resizable, some i =>
    let length := max length (i + 1)
    match property with
    | ⟨.data value true, true, true⟩ =>
      if i < items.size then
        { object with kind := .array (items.modify i fun _ => some value) length resizable }
      else if i < items.size + widestGap then
        let gap := Array.replicate (i - items.size) none
        { object with kind := .array ((items ++ gap).push (some value)) length resizable }
      else { object with kind := .array items length resizable }.keep key property
    | _ =>
      { object with kind := .array (items.modify i fun _ => none) length resizable }.keep key property
  | _, _ => object.keep key property

/-- An array with another length; what lies beyond is gone. -/
def resize (object : Obj) (length : Nat) : Obj :=
  match object.kind with
  | .array items _ resizable =>
    { object with
      kind := .array (items.shrink length) length resizable
      properties := object.properties.filter fun entry =>
        match entry.1.index? with
        | some i => i < length
        | none => true }
  | _ => object

def remove (object : Obj) (key : Key) : Obj :=
  match object.kind, key.index? with
  | .array items length resizable, some i =>
    { object with kind := .array (items.modify i fun _ => none) length resizable }.drop key
  | _, _ => object.drop key

def itemIndices (items : Array (Option Value)) : List Nat :=
  (List.range items.size).filter fun i => (items.getD i none).isSome

/-- The keys of the object's own properties: indices in order, then names and then
symbols, as they were made. -/
def ownKeys (object : Obj) : List Key :=
  let keys := object.properties.toList.map (·.1)
  let kept := keys.filterMap Key.index?
  let indices := match object.kind with
    | .array items _ _ => itemIndices items ++ kept
    | .boxed (.text text) => List.range text.size ++ kept
    | _ => kept
  let indices := if kept.isEmpty then indices else indices.mergeSort
  let lengthKey : List Key := match object.kind with
    | .array _ _ _ => ["length"]
    | .boxed (.text _) => ["length"]
    | _ => []
  let names := keys.filter fun
    | .text name => name.index?.isNone
    | .symbol _ => false
  let symbols := keys.filter fun
    | .text _ => false
    | .symbol _ => true
  indices.map Key.ofNat ++ lengthKey ++ names ++ symbols

def isCallable (object : Obj) : Bool :=
  match object.kind with
  | .closure _ _ => true
  | .native _ => true
  | .bound _ _ _ => true
  | _ => false

end Obj

namespace Run

def isCallable (value : Value) : Run Bool := do
  match value with
  | .object ref => pure (← object ref).isCallable
  | _ => pure false

def call (m : Machine) (callee this : Value) (arguments : List Value) : Run Value := do
  if ← isCallable callee then m.call callee this arguments else typeError "not a function"

def findProperty (key : Key) : Nat → Option Ref → Run (Option Property)
  | 0, _ => pure none
  | _, none => pure none
  | fuel + 1, some ref => do
    let found ← object ref
    match found.own? key with
    | some property => pure (some property)
    | none => findProperty key fuel found.proto

def chainLength : Run Nat := return (← get).objects.size + 1

def read (m : Machine) (receiver : Value) (property : Property) : Run Value :=
  match property.content with
  | .data value _ => pure value
  | .accessor .undefined _ => pure .undefined
  | .accessor getter _ => m.call getter receiver []

def getFrom (m : Machine) (receiver : Value) (start : Ref) (key : Key) : Run Value := do
  match ← findProperty key (← chainLength) (some start) with
  | some property => read m receiver property
  | none => pure .undefined

/-- The object that lends its properties to a value that is no object. -/
def lender : Value → Intrinsic
  | .bool _ => .boolProto
  | .number _ => .numberProto
  | .bigint _ => .bigintProto
  | .text _ => .textProto
  | .symbol _ => .symbolProto
  | _ => .objectProto

def getValue (m : Machine) (base : Value) (key : Key) : Run Value := do
  match base with
  | .object ref => getFrom m base ref key
  | .undefined => typeError ("cannot read property '" ++ (← key.shown) ++ "' of undefined")
  | .null => typeError ("cannot read property '" ++ (← key.shown) ++ "' of null")
  | .text text =>
    match Obj.unitOf? text key with
    | some property => read m base property
    | none => getFrom m base Intrinsic.textProto.ref key
  | _ => getFrom m base (lender base).ref key

def getMethod (m : Machine) (base : Value) (key : Key) : Run (Option Value) := do
  let value ← getValue m base key
  if ← isCallable value then pure (some value) else pure none

def hasProperty (ref : Ref) (key : Key) : Run Bool := do
  pure (← findProperty key (← chainLength) (some ref)).isSome

/-- The complaint about a property that may not be written. -/
def readOnly (key : Key) : Run α := do
  typeError ("'" ++ (← key.shown) ++ "' is read-only")

def lengthOf? (x : Float) : Option Nat :=
  match Numeric.truncate x with
  | some n => if Numeric.isIntegral x && 0 ≤ n && n < 0x100000000 then some n.toNat else none
  | none => none

def setLength (ref : Ref) (value : Value) : Run Unit := do
  match value with
  | .number x =>
    match lengthOf? x with
    | some length => change ref (·.resize length)
    | none => rangeError "invalid array length"
  | _ => rangeError "invalid array length"

/-- Put a new property into an object, if it takes any. -/
def add (ref : Ref) (key : Key) (value : Value) : Run Unit := do
  if (← object ref).extensible then
    charge 32
    change ref (·.define key (.plain value))
  else typeError "object is not extensible"

def overwrite (m : Machine) (ref : Ref) (key : Key) (property : Property) (value : Value) :
    Run Unit := do
  match property.content with
  | .data _ true =>
    match (← object ref).kind with
    | .array _ _ _ =>
      if key == "length" then setLength ref value
      else change ref (·.define key { property with content := .data value true })
    | _ => change ref (·.define key { property with content := .data value true })
  | .data _ false => readOnly key
  | .accessor _ .undefined => typeError "no setter for property"
  | .accessor _ setter => do
    let _ ← m.call setter (.object ref) [value]

/-- Write a value that is no object: only setters of its prototypes take it. -/
def setOnScalar (m : Machine) (base : Value) (key : Key) (value : Value) : Run Unit := do
  match ← findProperty key (← chainLength) (some (lender base).ref) with
  | some ⟨.accessor _ setter, _, _⟩ =>
    match setter with
    | .undefined => typeError "no setter for property"
    | _ => do
      let _ ← m.call setter base [value]
  | _ => typeError "not an object"

def setValue (m : Machine) (base : Value) (key : Key) (value : Value) : Run Unit := do
  match base with
  | .undefined => typeError ("cannot set property '" ++ (← key.shown) ++ "' of undefined")
  | .null => typeError ("cannot set property '" ++ (← key.shown) ++ "' of null")
  | .object ref =>
    match (← object ref).own? key with
    | some property => overwrite m ref key property value
    | none =>
      match ← findProperty key (← chainLength) (← object ref).proto with
      | none => add ref key value
      | some property =>
        match property.content with
        | .data _ true => add ref key value
        | .data _ false => readOnly key
        | .accessor _ .undefined => typeError "no setter for property"
        | .accessor _ setter => do
          let _ ← m.call setter base [value]
  | _ => setOnScalar m base key value

def define (ref : Ref) (key : Key) (property : Property) : Run Unit :=
  change ref (·.define key property)

/-- Remove a property, if it may be removed. -/
def remove (ref : Ref) (key : Key) : Run Unit := do
  match (← object ref).own? key with
  | none => pure ()
  | some property =>
    if property.configurable then change ref (·.remove key)
    else typeError "could not delete property"

/-- The keys of the properties that show, names only, and their values. -/
def entriesOf (m : Machine) (ref : Ref) : Run (List (Name × Value)) := do
  let names := (← object ref).ownKeys.filterMap fun
    | .text name => some name
    | .symbol _ => none
  let entries ← names.mapM fun name => do
    match (← object ref).own? (.text name) with
    | some property =>
      if property.enumerable then
        pure (some (name, ← read m (.object ref) property))
      else pure none
    | none => pure none
  pure (entries.filterMap id)

def namesOf (ref : Ref) : Run (List Name) := do
  let found ← object ref
  pure (found.ownKeys.filterMap fun
    | .text name =>
      match found.own? (.text name) with
      | some property => if property.enumerable then some name else none
      | none => none
    | .symbol _ => none)

end Run

end ScriptHooks.Sandbox

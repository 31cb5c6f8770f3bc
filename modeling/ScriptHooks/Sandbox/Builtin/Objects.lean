/-
ScriptHooks.Sandbox.Builtin.Objects — the functions of objects, of functions and of
errors.
-/
import ScriptHooks.Sandbox.Builtin.Lists

namespace ScriptHooks.Sandbox

/-- What a script says about a property when it defines one; what is absent stays as it
was. -/
structure PropertyChange where
  value : Option Value := none
  writable : Option Bool := none
  getter : Option Value := none
  setter : Option Value := none
  enumerable : Option Bool := none
  configurable : Option Bool := none

namespace PropertyChange

def isAccessor (change : PropertyChange) : Bool :=
  change.getter.isSome || change.setter.isSome

def isData (change : PropertyChange) : Bool :=
  change.value.isSome || change.writable.isSome

def content (change : PropertyChange) (old : Option Content) : Content :=
  match old with
  | some (.data value writable) =>
    if change.isAccessor then
      .accessor (change.getter.getD .undefined) (change.setter.getD .undefined)
    else .data (change.value.getD value) (change.writable.getD writable)
  | some (.accessor getter setter) =>
    if change.isData then .data (change.value.getD .undefined) (change.writable.getD false)
    else .accessor (change.getter.getD getter) (change.setter.getD setter)
  | none =>
    if change.isAccessor then
      .accessor (change.getter.getD .undefined) (change.setter.getD .undefined)
    else .data (change.value.getD .undefined) (change.writable.getD false)

def property (change : PropertyChange) (old : Option Property) : Property :=
  ⟨change.content (old.map (·.content)),
    change.enumerable.getD (old.map (·.enumerable) |>.getD false),
    change.configurable.getD (old.map (·.configurable) |>.getD false)⟩

/-- Whether a property that may not be configured admits the change. -/
def isAdmitted (change : PropertyChange) (old : Property) : Bool :=
  let same := fun (new : Option Value) (value : Value) =>
    match new with
    | some new => Run.isIdentical new value
    | none => true
  old.configurable ||
    (change.configurable != some true
      && (change.enumerable.isNone || change.enumerable == some old.enumerable)
      && match old.content with
        | .data value writable =>
          !change.isAccessor
            && (writable || (change.writable != some true && same change.value value))
        | .accessor getter setter =>
          !change.isData && same change.getter getter && same change.setter setter)

end PropertyChange

namespace Obj

/-- The object with its items among the properties kept with it, where they can have
attributes of their own. -/
def spreadOut (found : Obj) : Obj :=
  match found.kind with
  | .array items length resizable =>
    let entries := items.toList.zipIdx.filterMap fun (item, i) =>
      item.map fun value => (Key.ofNat i, Property.plain value)
    { found with
      kind := .array #[] length resizable
      properties := entries.toArray ++ found.properties }
  | _ => found

/-- The object closed for new properties, and none of its own removable; if frozen, none
of them writable either. -/
def close (found : Obj) (frozen : Bool) : Obj :=
  let closed := fun (property : Property) =>
    let content := match property.content with
      | .data value writable => Content.data value (writable && !frozen)
      | other => other
    { property with content := content, configurable := false }
  let found := found.spreadOut
  { found with
    kind := match found.kind with
      | .array items length resizable => .array items length (resizable && !frozen)
      | other => other
    extensible := false
    properties := found.properties.map fun (key, property) => (key, closed property) }

/-- Whether nothing can be added to the object or removed, nor written if asked. -/
def isClosed (found : Obj) (frozen : Bool) : Bool :=
  let isFixed := fun key =>
    match found.own? key with
    | some property =>
      !property.configurable && (!frozen || match property.content with
        | .data _ writable => !writable
        | .accessor _ _ => true)
    | none => true
  !found.extensible && found.ownKeys.all isFixed

end Obj

namespace Run

def needObject (value : Value) : Run Ref := do
  match value with
  | .object ref => pure ref
  | _ => typeError "not an object"

/-! ## Defining properties -/

def changeOf (m : Machine) (description : Value) : Run PropertyChange := do
  let ref ← needObject description
  let part : String → Run (Option Value) := fun name => do
    if ← hasProperty ref name then pure (some (← getValue m description name)) else pure none
  let enumerable ← part "enumerable"
  let configurable ← part "configurable"
  let value ← part "value"
  let writable ← part "writable"
  let getter ← part "get"
  let setter ← part "set"
  let isFunction : Option Value → Run Bool := fun value => do
    match value with
    | none => pure true
    | some .undefined => pure true
    | some other => isCallable other
  if !(← isFunction getter) then typeError "invalid getter"
  if !(← isFunction setter) then typeError "invalid setter"
  let change : PropertyChange := {
    value := value
    writable := writable.map (·.isTruthy)
    getter := getter
    setter := setter
    enumerable := enumerable.map (·.isTruthy)
    configurable := configurable.map (·.isTruthy) }
  if change.isAccessor && change.isData then
    typeError "cannot have setter/getter and value or writable"
  else pure change

def defineBy (ref : Ref) (key : Key) (wish : PropertyChange) : Run Unit := do
  let found ← object ref
  match found.kind, key == "length" with
  | .array _ _ _, true =>
    match wish.value with
    | some value => setLength ref value
    | none => pure ()
    if wish.writable == some false then
      change ref fun o =>
        match o.kind with
        | .array items length _ => { o with kind := .array items length false }
        | _ => o
  | _, _ =>
    match found.own? key with
    | some old =>
      if wish.isAdmitted old then define ref key (wish.property (some old))
      else typeError "property is not configurable"
    | none =>
      if found.extensible then define ref key (wish.property none)
      else typeError "object is not extensible"

/-- Change the properties of an object as the entries of another say. -/
def defineAll (m : Machine) (ref : Ref) (descriptions : Value) : Run Unit := do
  let entries ← entriesOf m (← toObject descriptions)
  for (name, description) in entries do
    defineBy ref (.text name) (← changeOf m description)

def describe (property : Property) : Run Value := do
  let ref ← newObject
  let put : String → Value → Run Unit := fun name value => define ref name (.plain value)
  match property.content with
  | .data value writable =>
    put "value" value
    put "writable" (.bool writable)
  | .accessor getter setter =>
    put "get" getter
    put "set" setter
  put "enumerable" (.bool property.enumerable)
  put "configurable" (.bool property.configurable)
  pure (.object ref)

/-! ## Functions of `Object` -/

/-- The name of a kind of object, as texts of objects show it. -/
def kindTag (found : Obj) : String :=
  match found.kind with
  | .array _ _ _ => "Array"
  | .error => "Error"
  | .arguments => "Arguments"
  | .boxed (.bool _) => "Boolean"
  | .boxed (.number _) => "Number"
  | .boxed (.text _) => "String"
  | .date _ => "Date"
  | .regex _ _ => "RegExp"
  | _ => if found.isCallable then "Function" else "Object"

def objectText (m : Machine) (this : Value) : Run Value := do
  let tag ← match this with
    | .undefined => pure (Units.ofString "Undefined")
    | .null => pure (Units.ofString "Null")
    | other => do
      let ref ← toObject other
      match ← getValue m other KnownSymbol.toStringTag.key with
      | .text tag => pure tag
      | _ => pure (Units.ofString (kindTag (← object ref)))
  pure (.text (Units.ofString "[object " ++ tag ++ Units.ofString "]"))

def objectQuestion (m : Machine) (f : ObjectFunction) (arguments : List Value) : Run Value := do
  let value := argument arguments 0
  match f, value with
  | .isFrozen, .object ref => pure (.bool ((← object ref).isClosed true))
  | .isSealed, .object ref => pure (.bool ((← object ref).isClosed false))
  | .isExtensible, .object ref => pure (.bool (← object ref).extensible)
  | .isFrozen, _ => pure (.bool true)
  | .isSealed, _ => pure (.bool true)
  | .isExtensible, _ => pure (.bool false)
  | .is, _ => pure (.bool (isIdentical value (argument arguments 1)))
  | _, _ =>
    let ref ← toObject value
    match f with
    | .keys => newList ((← namesOf ref).map .text)
    | .values => newList ((← entriesOf m ref).map (·.2))
    | .entries =>
      newList (← (← entriesOf m ref).mapM fun (name, item) => newList [.text name, item])
    | .getOwnPropertyNames =>
      newList ((← object ref).ownKeys.filterMap fun
        | .text name => some (.text name)
        | .symbol _ => none)
    | .getOwnPropertyDescriptor =>
      match (← object ref).own? (← toKey m (argument arguments 1)) with
      | some property => describe property
      | none => pure .undefined
    | .hasOwn =>
      let key ← toKey m (argument arguments 1)
      pure (.bool ((← object ref).own? key).isSome)
    | _ => pure (match (← object ref).proto with | some proto => .object proto | none => .null)

def prototypeOf? : Value → Option (Option Ref)
  | .object ref => some (some ref)
  | .null => some none
  | _ => none

def setPrototype (ref : Ref) (proto : Option Ref) : Run Unit := do
  let found ← object ref
  if found.proto == proto then pure ()
  else if !found.extensible then typeError "object is not extensible"
  else if ← inherits ref (← chainLength) proto then typeError "circular prototype chain"
  else change ref fun o => { o with proto := proto }

def objectAction (m : Machine) (f : ObjectFunction) (arguments : List Value) : Run Value := do
  let value := argument arguments 0
  match f with
  | .create =>
    match prototypeOf? value with
    | some proto =>
      let ref ← allocate { proto := proto }
      if hasArgument arguments 1 then defineAll m ref (argument arguments 1)
      pure (.object ref)
    | none => typeError "not a prototype"
  | .defineProperty =>
    let ref ← needObject value
    let key ← toKey m (argument arguments 1)
    defineBy ref key (← changeOf m (argument arguments 2))
    pure value
  | .defineProperties =>
    defineAll m (← needObject value) (argument arguments 1)
    pure value
  | .assign =>
    let target ← toObject value
    for source in arguments.drop 1 do
      if !source.isNullish then
        for (name, item) in ← entriesOf m (← toObject source) do
          setValue m (.object target) (.text name) item
    pure (.object target)
  | .setPrototypeOf =>
    match prototypeOf? (argument arguments 1), value with
    | some proto, .object ref => setPrototype ref proto
    | some _, _ => pure ()
    | none, _ => typeError "not a prototype"
    pure value
  | .fromEntries =>
    let items ← allItems m value none
    let ref ← newObject
    for item in items do
      let key ← toKey m (← getValue m item (Key.ofNat 0))
      define ref key (.plain (← getValue m item (Key.ofNat 1)))
    pure (.object ref)
  | _ =>
    match value, f with
    | .object ref, .freeze => change ref (·.close true)
    | .object ref, .seal => change ref (·.close false)
    | .object ref, .preventExtensions => change ref fun o => { o with extensible := false }
    | _, _ => pure ()
    pure value

def inheritedFunction (m : Machine) (f : ObjectFunction) (this : Value)
    (arguments : List Value) : Run Value := do
  match f with
  | .toText => objectText m this
  | .toLocaleText =>
    match ← getMethod m this "toString" with
    | some method => m.call method this []
    | none => typeError "not a function"
  | .valueOf => pure (.object (← toObject this))
  | .hasOwnProperty =>
    let key ← toKey m (argument arguments 0)
    pure (.bool ((← object (← toObject this)).own? key).isSome)
  | .propertyIsEnumerable =>
    let key ← toKey m (argument arguments 0)
    pure (.bool (match (← object (← toObject this)).own? key with
      | some property => property.enumerable
      | none => false))
  | .isPrototypeOf =>
    match argument arguments 0 with
    | .object ref =>
      let self ← toObject this
      pure (.bool (← inherits self (← chainLength) (← object ref).proto))
    | _ => pure (.bool false)
  | .getProto =>
    let ref ← toObject this
    pure (match (← object ref).proto with | some proto => .object proto | none => .null)
  | _ =>
    match this, prototypeOf? (argument arguments 0) with
    | .object ref, some proto => setPrototype ref proto
    | _, _ => pure ()
    pure .undefined

def objectFunction (m : Machine) (f : ObjectFunction) (this : Value) (arguments : List Value) :
    Run Value := do
  match f with
  | .construct =>
    let value := argument arguments 0
    if value.isNullish then pure (.object (← newObject)) else pure (.object (← toObject value))
  | .isFrozen | .isSealed | .isExtensible | .is | .keys | .values | .entries
  | .getOwnPropertyNames | .getOwnPropertyDescriptor | .hasOwn | .getPrototypeOf =>
    objectQuestion m f arguments
  | .create | .defineProperty | .defineProperties | .assign | .setPrototypeOf | .fromEntries
  | .freeze | .seal | .preventExtensions => objectAction m f arguments
  | .hasOwnProperty | .toText | .toLocaleText | .valueOf | .isPrototypeOf
  | .propertyIsEnumerable | .getProto | .setProto => inheritedFunction m f this arguments

/-! ## Functions of functions -/

/-- The text of a function: as it was written, or what stands for one that was not. -/
def functionText (m : Machine) (this : Value) (found : Obj) : Run Units := do
  match found.kind with
  | .closure code _ =>
    pure (Units.ofChars (code.header.textStart.take code.header.textLength))
  | _ =>
    let name ← toText m (← getValue m this "name")
    pure (Units.ofString "function " ++ name
      ++ Units.ofString "() \x7b\n    [native code]\n\x7d")

/-- A function with its `this` and its first arguments given. -/
def bindFunction (m : Machine) (target : Value) (ref : Ref) (arguments : List Value) :
    Run Value := do
  let name ← match ← getValue m target "name" with
    | .text name => pure name
    | _ => pure Units.empty
  let arity ← toInteger m (← getValue m target "length")
  let given := arguments.drop 1
  let bound ← allocate {
    proto := (← object ref).proto
    kind := .bound target (argument arguments 0) given
    properties := #[
      ("length", ⟨.data (Value.ofNat (arity.toNat - given.length)) false, false, true⟩),
      ("name", ⟨.data (.text (Units.ofString "bound " ++ name)) false, false, true⟩)] }
  pure (.object bound)

def functionFunction (m : Machine) (f : FunctionFunction) (this : Value)
    (arguments : List Value) : Run Value := do
  match f, this with
  | .self, _ => pure .undefined
  | .call, _ => call m this (argument arguments 0) (arguments.drop 1)
  | .apply, _ =>
    needFunction this
    let list := argument arguments 1
    if list.isNullish then m.call this (argument arguments 0) []
    else
      let _ ← needObject list
      m.call this (argument arguments 0) (← listItems m list)
  | .bind, .object ref =>
    needFunction this
    bindFunction m this ref arguments
  | .toText, .object ref =>
    needFunction this
    pure (.text (← functionText m this (← object ref)))
  | _, _ => typeError "not a function"

/-! ## Errors -/

/-- A new error with a message and a cause, if they are given. -/
def makeError (m : Machine) (kind : ErrorKind) (arguments : List Value) : Run Value := do
  let ref ← allocate { proto := some (Intrinsic.errorProto kind).ref, kind := .error }
  if hasArgument arguments 0 then
    define ref "message" (.hidden (.text (← toText m (argument arguments 0))))
  match argument arguments 1 with
  | .object options =>
    if ← hasProperty options "cause" then
      define ref "cause" (.hidden (← getValue m (.object options) "cause"))
  | _ => pure ()
  pure (.object ref)

/-- The text of an error: its name and its message. -/
def errorText (m : Machine) (this : Value) : Run Value := do
  let _ ← needObject this
  let part : String → String → Run Units := fun name default => do
    match ← getValue m this name with
    | .undefined => pure (Units.ofString default)
    | value => toText m value
  let name ← part "name" "Error"
  let message ← part "message" ""
  pure (.text (if name.isEmpty then message
    else if message.isEmpty then name
    else name ++ Units.ofString ": " ++ message))

end Run

end ScriptHooks.Sandbox

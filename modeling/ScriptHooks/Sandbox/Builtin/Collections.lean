/-
ScriptHooks.Sandbox.Builtin.Collections — the functions of maps, sets and regular
expressions.

A regular expression is only a value here: it has its source and its flags, and
nothing is matched against it.
-/
import ScriptHooks.Sandbox.Builtin.Lists

namespace ScriptHooks.Sandbox

namespace Run

/-- A key as maps keep it: zero has no sign. -/
def plainKey : Value → Value
  | .number x => .number (if Numeric.isZero x then 0.0 else x)
  | other => other

/-- Entries with one put in: in the place of the one with its key, or at the end. -/
def putEntry (key value : Value) : List (Value × Value) → List (Value × Value)
  | [] => [(plainKey key, value)]
  | entry :: rest =>
    if isSameItem entry.1 key then (entry.1, value) :: rest
    else entry :: putEntry key value rest

def putItem (item : Value) (items : List Value) : List Value :=
  if items.any (isSameItem item) then items else items ++ [plainKey item]

def makeMap (m : Machine) (arguments : List Value) : Run Value := do
  let source := argument arguments 0
  let pairs ← if source.isNullish then pure [] else allItems m source none
  let entries ← pairs.foldlM (fun entries pair => do
    match pair with
    | .object _ =>
      let key ← getValue m pair (Key.ofNat 0)
      pure (putEntry key (← getValue m pair (Key.ofNat 1)) entries)
    | _ => typeError "not an object") []
  let ref ← allocate { proto := some Intrinsic.mapProto.ref, kind := .map entries }
  pure (.object ref)

def makeSet (m : Machine) (arguments : List Value) : Run Value := do
  let source := argument arguments 0
  let items ← if source.isNullish then pure [] else allItems m source none
  let ref ← allocate {
    proto := some Intrinsic.setProto.ref
    kind := .set (items.foldl (fun kept item => putItem item kept) []) }
  pure (.object ref)

/-- The entries of a map, or the items of a set with themselves. -/
def entriesIn (this : Value) : Run (Ref × Bool × List (Value × Value)) := do
  match this with
  | .object ref =>
    match (← object ref).kind with
    | .map entries => pure (ref, true, entries)
    | .set items => pure (ref, false, items.map fun item => (item, item))
    | _ => typeError "not a Map or Set"
  | _ => typeError "not a Map or Set"

def keepEntries (ref : Ref) (isMap : Bool) (entries : List (Value × Value)) : Run Unit :=
  change ref fun o => { o with kind := if isMap then .map entries else .set (entries.map (·.1)) }

def collectionFunction (m : Machine) (f : CollectionFunction) (this : Value)
    (arguments : List Value) : Run Value := do
  match f with
  | .constructMap | .constructSet => typeError "constructor requires 'new'"
  | _ =>
    let (ref, isMap, entries) ← entriesIn this
    let key := argument arguments 0
    let found := entries.find? fun entry => isSameItem entry.1 key
    match f with
    | .get => pure ((found.map (·.2)).getD .undefined)
    | .has => pure (.bool found.isSome)
    | .set =>
      keepEntries ref isMap (putEntry key (argument arguments 1) entries)
      pure this
    | .add =>
      keepEntries ref isMap (putEntry key key entries)
      pure this
    | .delete =>
      keepEntries ref isMap (entries.filter fun entry => !isSameItem entry.1 key)
      pure (.bool found.isSome)
    | .clear =>
      keepEntries ref isMap []
      pure .undefined
    | .size => pure (Value.ofNat entries.length)
    | .forEach =>
      needFunction key
      for entry in entries do
        let _ ← m.call key (argument arguments 1) [entry.2, entry.1, this]
      pure .undefined
    | .keys => newIterator (entries.map (·.1))
    | .values => newIterator (entries.map (·.2))
    | _ => newIterator (← entries.mapM fun entry => newList [entry.1, entry.2])

def newRegex (source flags : Units) : Run Value := do
  let ref ← allocate {
    proto := some Intrinsic.regexProto.ref
    kind := .regex source flags
    properties := #[("lastIndex", ⟨.data (.number 0.0) true, false, false⟩)] }
  pure (.object ref)

/-- A regular expression of a text and flags. -/
def makeRegex (m : Machine) (arguments : List Value) : Run Value := do
  let source ← if hasArgument arguments 0 then toText m (argument arguments 0)
    else pure (Units.ofString "(?:)")
  let flags ← if hasArgument arguments 1 then toText m (argument arguments 1)
    else pure Units.empty
  newRegex source flags

def regexFunction (m : Machine) (f : RegexFunction) (this : Value) (arguments : List Value) :
    Run Value := do
  match f with
  | .construct => makeRegex m arguments
  | _ =>
    match this with
    | .object ref =>
      match (← object ref).kind, f with
      | .regex source _, .source => pure (.text source)
      | .regex _ flags, .flags => pure (.text flags)
      | .regex source flags, _ =>
        pure (.text (Units.ofString "/" ++ source ++ Units.ofString "/" ++ flags))
      | _, _ => typeError "not a RegExp object"
    | _ => typeError "not an object"

/-- The next item of a list of items to come. -/
def nextOf (this : Value) : Run Value := do
  match this with
  | .object ref =>
    match (← object ref).kind with
    | .items rest =>
      change ref fun o => { o with kind := .items rest.tail }
      let answer ← newObject
      define answer "value" (.plain (rest.headD .undefined))
      define answer "done" (.plain (.bool rest.isEmpty))
      pure (.object answer)
    | _ => typeError "not an iterator"
  | _ => typeError "not an iterator"

end Run

end ScriptHooks.Sandbox

/-
ScriptHooks.Hook.Store — where scripts and the values of their parameters are kept.

Two finite maps over script identities: definitions, and parameter values. The
values of a parameter may be set where no script of that name is defined; they go
when the script defined there is deleted. No values are kept by having no entry.

`findActive` is the one query: the enabled definitions of a kind for an event, at one
of some scopes.

A history is a list of changes (`StoreStep`), and a sequence of requests is answered
one by one, the changes among them taking effect for those that follow
(`StoreRequest`, `answers`). Each request holds the lock of the store, so there is
nothing in between.
-/
import ScriptHooks.Hook.Definition
import ScriptHooks.Hook.Ordered

namespace ScriptHooks

/-- The scripts and the values of their parameters. -/
structure ScriptStore where
  /-- In the order of the identities. -/
  scripts : List (ScriptId × ScriptDefinition) := []
  /-- In the order of the identities; never an empty map. -/
  parameters : List (ScriptId × Payload) := []

namespace ScriptStore

def empty : ScriptStore := {}

def get (store : ScriptStore) (id : ScriptId) : Option ScriptDefinition :=
  Ordered.get? id store.scripts

def sourceOf (store : ScriptStore) (id : ScriptId) : Option String :=
  (store.get id).map (·.source)

/-- All definitions, by scope and then by name. -/
def list (store : ScriptStore) : List ScriptDefinition := store.scripts.map (·.2)

/-- The store with the definition in place of any of the same identity. -/
def save (store : ScriptStore) (definition : ScriptDefinition) : ScriptStore :=
  { store with
    scripts := Ordered.insert ScriptId.compare definition.id definition store.scripts }

/-- The store without the definition and the parameter values of this identity. -/
def delete (store : ScriptStore) (id : ScriptId) : ScriptStore :=
  { scripts := Ordered.erase id store.scripts, parameters := Ordered.erase id store.parameters }

def parametersAt (store : ScriptStore) (id : ScriptId) : Payload :=
  (Ordered.get? id store.parameters).getD []

/-- The store with these values for the parameters; no values clear them. -/
def assignParameters (store : ScriptStore) (id : ScriptId) (values : Payload) : ScriptStore :=
  { store with
    parameters :=
      if values.isEmpty then Ordered.erase id store.parameters
      else Ordered.insert ScriptId.compare id values store.parameters }

/-- The enabled definitions at these scopes that subscribe to the event and are of
this kind. -/
def findActive (store : ScriptStore) (event : String) (scopes : List ScopePath)
    (asyncMode : Bool) : List ScriptDefinition :=
  store.list.filter fun definition =>
    definition.enabled && definition.asyncCapable == asyncMode
      && definition.listensTo event && scopes.contains definition.scope

end ScriptStore

/-! ## Histories -/

/-- A change of a store. -/
inductive StoreStep
  | save (definition : ScriptDefinition)
  | delete (id : ScriptId)
  | assignParameters (id : ScriptId) (values : Payload)

namespace ScriptStore

def step (store : ScriptStore) : StoreStep → ScriptStore
  | .save definition => store.save definition
  | .delete id => store.delete id
  | .assignParameters id values => store.assignParameters id values

def run (store : ScriptStore) (steps : List StoreStep) : ScriptStore := steps.foldl step store

end ScriptStore

/-! ## Requests -/

/-- What is asked of a store: a change, or to be told something. -/
inductive StoreRequest
  | change (step : StoreStep)
  | get (id : ScriptId)
  | sourceOf (id : ScriptId)
  | list
  | findActive (event : String) (scopes : List ScopePath) (asyncMode : Bool)
  | parametersAt (id : ScriptId)

/-- What a store answers. -/
inductive StoreAnswer
  | definition (found : Option ScriptDefinition)
  | source (found : Option String)
  | definitions (found : List ScriptDefinition)
  | values (found : Payload)
  | done

namespace ScriptStore

/-- The answer of a store. A definition that a change replaces or removes is given back. -/
def answer (store : ScriptStore) : StoreRequest → StoreAnswer
  | .change (.save definition) => .definition (store.get definition.id)
  | .change (.delete id) => .definition (store.get id)
  | .change (.assignParameters _ _) => .done
  | .get id => .definition (store.get id)
  | .sourceOf id => .source (store.sourceOf id)
  | .list => .definitions store.list
  | .findActive event scopes asyncMode =>
    .definitions (store.findActive event scopes asyncMode)
  | .parametersAt id => .values (store.parametersAt id)

def after (store : ScriptStore) : StoreRequest → ScriptStore
  | .change step => store.step step
  | _ => store

def answers (store : ScriptStore) : List StoreRequest → List StoreAnswer
  | [] => []
  | request :: rest => store.answer request :: (store.after request).answers rest

end ScriptStore

end ScriptHooks

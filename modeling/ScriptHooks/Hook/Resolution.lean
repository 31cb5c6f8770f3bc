/-
ScriptHooks.Hook.Resolution — which scripts run when an event fires at a scope.

Candidates come from the firing scope and those above it: they are switched on, of
the kind that is asked for, and subscribed to the event. Of the candidates of one
name the most specific wins; the winners run in the order of their names. A
disabled script hides nothing.

The winners are found one candidate at a time (`challenge`), so that what was found
among some candidates can be said of any number of them.
-/
import ScriptHooks.Hook.Store

namespace ScriptHooks

def ScriptDefinition.isCandidate (definition : ScriptDefinition) (event : String)
    (scope : ScopePath) (asyncMode : Bool) : Bool :=
  definition.enabled && definition.asyncCapable == asyncMode && definition.listensTo event
    && definition.scope.isAtOrAbove scope

/-- A candidate put among the winners so far, which are in the order of their names.
A winner of the same name gives way only to a more specific one. -/
def challenge (winners : List (String × ScriptDefinition)) (candidate : ScriptDefinition) :
    List (String × ScriptDefinition) :=
  match Json.lookup candidate.name winners with
  | some current =>
    if candidate.scope.depth ≤ current.scope.depth then winners
    else Json.insertField candidate.name candidate winners
  | none => Json.insertField candidate.name candidate winners

/-- The winners among the definitions, in the order of their names. -/
def mostSpecific (definitions : List ScriptDefinition) (event : String) (scope : ScopePath)
    (asyncMode : Bool) : List ScriptDefinition :=
  ((definitions.filter (·.isCandidate event scope asyncMode)).foldl challenge []).map (·.2)

def ScriptStore.resolve (store : ScriptStore) (event : String) (scope : ScopePath)
    (asyncMode : Bool) : List ScriptDefinition :=
  mostSpecific (store.findActive event scope.lineage asyncMode) event scope asyncMode

end ScriptHooks

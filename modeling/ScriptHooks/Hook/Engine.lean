/-
ScriptHooks.Hook.Engine — running one script for one event.

A run looks up the compiled script, binds the globals, calls the entry point and
gives back what it returned. Payload entries never shadow the host's own globals,
nor those that the engine binds: the event, the result of the script before, the
values of parameters, and the name of the type that the caller expects.

What is compiled for a definition is the stored source, if it is still that of the
definition, and else the definition's own (`sourceFor`). So a run that was resolved
before an update runs the old source.

What a script returns is read as the type that the caller expects (`ResultType`); a
value that cannot be read so is an error of conversion. A script is also called to
describe itself (`metadataOf`), without globals, and is refused whatever goes wrong.
-/
import ScriptHooks.Hook.Compiler
import ScriptHooks.Hook.Resolution
import ScriptHooks.Hook.Runtime

namespace ScriptHooks

def hostGlobals : List String := ["log", "json", "simpleHttpClient", "utils"]

/-- One run of a script for an event. -/
structure Invocation where
  script : ScriptDefinition
  event : String
  /-- The scope at which the event fired. -/
  scope : ScopePath
  payload : Payload
  /-- What the script before in the chain returned. -/
  output : Option Json
  parameters : Payload
  /-- The name of the type that the caller expects. -/
  returnClass : String

def Invocation.globals (invocation : Invocation) : Payload :=
  let payload := Json.orderFields
    (invocation.payload.filter fun entry => !hostGlobals.contains entry.1)
  let payload := Json.insertField "extensionEvent" (Json.string invocation.event) payload
  let payload := Json.insertField "output" (Json.orNull invocation.output) payload
  let payload := Json.insertField "extensionParameters" (Json.object invocation.parameters) payload
  Json.insertField "returnClass" (Json.string invocation.returnClass) payload

def Invocation.callOf (invocation : Invocation) (program : String) : ScriptCall :=
  let id := invocation.script.id.text
  { script := id
    program := program
    entry := Script.executeEntryPoint
    globals := invocation.globals
    argument := some (.string invocation.event)
    context := ⟨id, invocation.scope.text, invocation.event⟩ }

/-- A type that callers may expect back: its name, and how it is read. -/
structure ResultType (α : Type) where
  name : String
  decode : Json.Decoder α

def ResultType.resultOf (type : ResultType α) (script : String) (value : Json) :
    Except HookError α :=
  match type.decode (Json.Node.ofJson value) with
  | .ok result => .ok result
  | .error complaint =>
    .error (.conversion script
      ("cannot convert result to " ++ type.name ++ ": " ++ complaint.message))

/-- An engine: compiled scripts, and what runs them. -/
structure Engine where
  runtime : ScriptRuntime
  cache : CompiledCache

/-- How a run went, what it left behind, and the compiled scripts after it. -/
structure RunResult (α : Type) where
  outcome : Except HookError α
  effects : Effects
  cache : CompiledCache

namespace Engine

/-- The source to compile for a definition: the stored one if it is still that of the
definition, else the definition's own. -/
def sourceFor (stored : Option String) (script : ScriptDefinition) : String :=
  match stored with
  | some source => if contentHash source = script.contentHash then source else script.source
  | none => script.source

/-- An error of compilation, under the script's own name. -/
def relabel (id : String) : HookError → HookError
  | .compile _ message => .compile id message
  | other => other

/-- What comes of an invocation, given what was found for its script. -/
def answer (runtime : ScriptRuntime) (invocation : Invocation) :
    Except HookError CompiledScript → CallResult
  | .error error => ⟨.error (relabel invocation.script.id.text error), {}⟩
  | .ok artifact => runtime.call (invocation.callOf artifact.program)

/-- Run the entry point of a script. `stored` reads the source kept for the script. -/
def execute (engine : Engine) (stored : ScriptId → Except HookError (Option String)) (now : Nat)
    (invocation : Invocation) : RunResult Json :=
  let script := invocation.script
  let lookup := engine.cache.obtain (compileScript engine.runtime.checkSyntax)
    script.contentHash now fun _ => (stored script.id).map (sourceFor · script)
  let result := answer engine.runtime invocation lookup.outcome
  ⟨result.outcome, result.effects, lookup.cache⟩

/-- Run the entry point of a script and read the result as the expected type. -/
def run (engine : Engine) (stored : ScriptId → Except HookError (Option String)) (now : Nat)
    (type : ResultType α) (invocation : Invocation) : RunResult α :=
  let result := engine.execute stored now invocation
  { result with outcome := result.outcome.bind (type.resultOf invocation.script.id.text) }

/-- What a script says about itself. Whatever goes wrong, the script is refused. -/
def metadataOf (runtime : ScriptRuntime) (label source : String) :
    Except HookError ScriptMetadata × Effects :=
  let result := runtime.call {
    script := label
    program := source
    entry := Script.metadataEntryPoint
    globals := []
    argument := none
    context := { script := label } }
  let outcome := match result.outcome with
    | .error error =>
      .error (.validation (.ofMetadata ("getScriptMetadata() failed: " ++ error.message)))
    | .ok value => (ScriptMetadata.ofJson value).mapError HookError.ofProblem
  (outcome, result.effects)

end Engine

end ScriptHooks

/-
ScriptHooks.Hook.Service — authors keep scripts, events fire, scripts run.

Keeping a script: a draft is checked, is run once to describe itself, and is kept if
nothing fails (`submitScript`). A source that is replaced has its compiled form dropped, and
so has that of a script that is removed (`withdraw`). A switch changes nothing else.

Firing: the scripts that answer an event run in a chain, each getting the result of the one
before (`fireAndWait`); scripts that nobody waits for are only queued (`fireAndQueue`). A
script one of whose required parameters has no value is passed over. The first script that
fails ends the chain, and its error is the answer.

The values of parameters are those set for the name of the script at the firing scope and
above, the more specific ones prevailing, key by key (`mergedParameters`).

Every operation is a function from a service to what it answers and the service
after it, with the effects of the scripts that ran.
-/
import ScriptHooks.Hook.Dispatcher
import ScriptHooks.Hook.Engine

namespace ScriptHooks

/-- Scripts, compiled scripts and queues. -/
structure Service where
  runtime : ScriptRuntime
  store : ScriptStore
  cache : CompiledCache
  dispatcher : Dispatcher := {}

/-- What an operation answers, what it left behind, and the service after it. -/
structure Reply (α : Type) where
  outcome : Except HookError α
  effects : Effects := {}
  service : Service

def scriptNameProblem (name : String) : Option String :=
  if name.toList.all Text.isBlank then some "script name must not be empty"
  else if name.toList.any fun c => c == '/' || Text.isBlank c || Text.isControl c then
    some ("script name " ++ Text.quoted name
      ++ " must not contain '/', whitespace or control characters")
  else none

/-- A script may not have a name that is empty or hard to read. -/
def checkName (name : String) : Except HookError Unit :=
  match scriptNameProblem name with
  | some problem => .error (.validation (.ofMetadata problem))
  | none => .ok ()

/-- A source must be valid and declare both entry points. -/
def checkSource (source : String) : Except HookError Unit :=
  match Script.validate source with
  | .error error => .error (.validation error)
  | .ok tree => (Script.checkEntryPoints tree).mapError HookError.validation

def ScriptDraft.define (draft : ScriptDraft) (metadata : ScriptMetadata) : ScriptDefinition where
  scope := draft.scope
  name := draft.name
  source := draft.source
  contentHash := contentHash draft.source
  enabled := draft.enabled
  asyncCapable := metadata.isAsync
  subscribedEvents := metadata.subscribedEvents
  metadata := metadata

/-- The definition of a draft that passes the checks, as it describes itself. -/
def ScriptDraft.checked (runtime : ScriptRuntime) (draft : ScriptDraft) :
    Except HookError ScriptDefinition × Effects :=
  match checkName draft.name >>= fun _ => checkSource draft.source with
  | .error error => (.error error, {})
  | .ok _ =>
    let label := (ScriptId.mk draft.scope draft.name).text
    let (metadata, effects) := Engine.metadataOf runtime label draft.source
    (metadata.map draft.define, effects)

/-- The digest of a kept source in whose place a definition puts another one. -/
def ScriptStore.obsoletedBy (store : ScriptStore) (definition : ScriptDefinition) :
    Option String :=
  match store.get definition.id with
  | some previous =>
    if previous.contentHash ≠ definition.contentHash then some previous.contentHash else none
  | none => none

def ScriptDefinition.switched (definition : ScriptDefinition) (enabled : Bool) :
    ScriptDefinition :=
  { definition with enabled := enabled }

namespace Service

def engine (service : Service) : Engine := ⟨service.runtime, service.cache⟩

/-! ## Keeping scripts -/

/-- The service with a definition kept. A source that changed makes the compiled form
of the one before obsolete. -/
def keep (service : Service) (definition : ScriptDefinition) : Service :=
  let cache := match service.store.obsoletedBy definition with
    | some hash => service.cache.forget hash
    | none => service.cache
  { service with store := service.store.save definition, cache := cache }

/-- Check a draft, ask it about itself and keep it. Nothing is kept if a step fails. -/
def submitScript (service : Service) (draft : ScriptDraft) : Reply ScriptDefinition :=
  let (checked, effects) := draft.checked service.runtime
  match checked with
  | .error error => ⟨.error error, effects, service⟩
  | .ok definition => ⟨.ok definition, effects, service.keep definition⟩

/-- Remove a script and what belongs to it; whether there was one. -/
def withdraw (service : Service) (id : ScriptId) : Reply Bool :=
  let removed := service.store.get id
  let service := { service with store := service.store.delete id }
  match removed with
  | none => { outcome := .ok false, service := service }
  | some removed =>
    { outcome := .ok true
      service := { service with cache := service.cache.forget removed.contentHash } }

def enable (service : Service) (id : ScriptId) (enabled : Bool) : Reply ScriptDefinition :=
  match service.store.get id with
  | none => { outcome := .error (.scriptNotFound id.text), service := service }
  | some definition =>
    let definition := definition.switched enabled
    { outcome := .ok definition
      service := { service with store := service.store.save definition } }

/-- Set the values of a script's parameters at a scope; none clear them. -/
def assignParameters (service : Service) (id : ScriptId) (values : Payload) : Service :=
  { service with store := service.store.assignParameters id values }

/-! ## Firing -/

/-- The values of a script's parameters when an event fires at the scope: at each key
that of the most specific scope that sets it. -/
def mergedParameters (store : ScriptStore) (name : String) (scope : ScopePath) : Payload :=
  scope.lineage.foldl (fun merged at_ =>
    (store.parametersAt ⟨at_, name⟩).foldl
      (fun merged entry => Json.insertField entry.1 entry.2 merged) merged) []

/-- Whether a value is missing: there is none, or it is `null`. -/
def isMissing (name : String) (values : Payload) : Bool :=
  match Json.lookup name values with
  | none => true
  | some .null => true
  | some _ => false

/-- The parameters of a script, or nothing if a required one has no value. -/
def parametersOf (store : ScriptStore) (script : ScriptDefinition) (scope : ScopePath) :
    Option Payload :=
  let merged := mergedParameters store script.name scope
  if script.metadata.neededParameters.any fun field => isMissing field.name merged then none
  else some merged

def resolve (service : Service) (event : String) (scope : ScopePath) (asyncMode : Bool) :
    List ScriptDefinition :=
  service.store.resolve event scope asyncMode

/-- The rest of a chain: the scripts still to run, what the last one returned, and
its result in the expected type. -/
def runChain (service : Service) (now : Nat) (type : ResultType α) (event : String)
    (scope : ScopePath) (payload : Payload) :
    List ScriptDefinition → Option Json → Option α → Effects → Reply (Option α)
  | [], _, last, effects => ⟨.ok last, effects, service⟩
  | script :: scripts, output, last, effects =>
    match parametersOf service.store script scope with
    | none => runChain service now type event scope payload scripts output last effects
    | some parameters =>
      let result := service.engine.execute (fun id => .ok (service.store.sourceOf id)) now
        ⟨script, event, scope, payload, output, parameters, type.name⟩
      let service := { service with cache := result.cache }
      let effects := effects ++ result.effects
      match result.outcome with
      | .error error => ⟨.error error, effects, service⟩
      | .ok value =>
        match type.resultOf script.id.text value with
        | .error error => ⟨.error error, effects, service⟩
        | .ok converted =>
          runChain service now type event scope payload scripts (some value) (some converted)
            effects

/-- Run the scripts that answer an event; the result of the last one, or the default
if none ran. The first that fails ends the chain. -/
def fireAndWait (service : Service) (now : Nat) (type : ResultType α) (event : String)
    (scope : ScopePath) (payload : Payload) (default_ : α) : Reply α :=
  let reply := runChain service now type event scope payload
    (service.resolve event scope false) none none {}
  { reply with outcome := reply.outcome.map (·.getD default_) }

/-- Queue the scripts that nobody waits for; how many there are. -/
def fireAndQueue (service : Service) (event : String) (scope : ScopePath) (payload : Payload) :
    Reply Nat :=
  let jobs := (service.resolve event scope true).filterMap fun script =>
    (parametersOf service.store script scope).map fun parameters =>
      QueuedJob.mk script event scope payload parameters
  { outcome := .ok jobs.length
    service := { service with dispatcher := jobs.foldl Dispatcher.enqueue service.dispatcher } }

/-- Run a queued job; its result is dropped, and so is its failure. -/
def runOneJob (service : Service) (now : Nat) (job : QueuedJob) : Effects × Service :=
  let result := service.engine.execute (fun id => .ok (service.store.sourceOf id)) now
    ⟨job.script, job.event, job.scope, job.payload, none, job.parameters, "void"⟩
  (result.effects, { service with cache := result.cache })

def runJobs (service : Service) (now : Nat) : List QueuedJob → Effects → Effects × Service
  | [], effects => (effects, service)
  | job :: jobs, effects =>
    let (more, service) := service.runOneJob now job
    runJobs service now jobs (effects ++ more)

/-- Close the queues and wait for their jobs. Queues do not affect each other, so
their jobs run scope by scope. -/
def closeAll (service : Service) (now : Nat) : Effects × Service :=
  let before := service.dispatcher.finished.length
  let dispatcher := service.dispatcher.closeAll
  let jobs := ((dispatcher.finished.take (dispatcher.finished.length - before)).reverse).map (·.2)
  let jobs := jobs.mergeSort fun a b =>
    compareText a.script.scope.text b.script.scope.text != .gt
  { service with dispatcher := dispatcher }.runJobs now jobs {}

end Service

end ScriptHooks

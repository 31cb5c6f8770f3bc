/-
ScriptHooks.Hook.Authoring — several authors at once.

The call of an author goes through stages. A step takes it to the next one and is one
critical section: of the store, of the compiled scripts, or of nothing that is shared.
Between two steps of a call, others may take theirs. A call with whom nobody interferes does
what `Service.author` does.

To switch a script takes two sections of the store: one to read the definition and one to
save it switched. To keep or remove a script takes one, and then one of the compiled
scripts where a source was replaced or removed. A call needs three steps at most, and a
schedule says whose step is next.
-/
import ScriptHooks.Hook.Service

namespace ScriptHooks

/-- What an author asks for. -/
inductive AuthoringRequest
  | submit (draft : ScriptDraft)
  | enable (id : ScriptId) (enabled : Bool)
  | withdraw (id : ScriptId)

/-- What an author is told. -/
inductive AuthoringAnswer
  | kept (definition : ScriptDefinition)
  /-- Whether there was a script to remove. -/
  | removed (existed : Bool)

def Reply.map (f : α → β) (reply : Reply α) : Reply β :=
  ⟨reply.outcome.map f, reply.effects, reply.service⟩

def Service.author (service : Service) : AuthoringRequest → Reply AuthoringAnswer
  | .submit draft => (service.submitScript draft).map .kept
  | .enable id enabled => (service.enable id enabled).map .kept
  | .withdraw id => (service.withdraw id).map .removed

/-- How far the call of an author has come. -/
inductive AuthoringStage
  | begun
  /-- A draft was checked; its definition is still to be saved. -/
  | submitting (definition : ScriptDefinition)
  /-- A definition was read and switched; it is still to be saved. -/
  | switching (definition : ScriptDefinition)
  /-- The store is changed; the compiled form of a source is still to be forgotten. -/
  | forgetting (hash : String) (answer : AuthoringAnswer)
  | returned (outcome : Except HookError AuthoringAnswer)

/-- The call of an author, and what its steps left behind so far. -/
structure AuthoringCall where
  request : AuthoringRequest
  stage : AuthoringStage := .begun
  effects : Effects := {}

namespace AuthoringCall

def advance (service : Service) (call : AuthoringCall) : Service × AuthoringCall :=
  match call.stage with
  | .begun =>
    match call.request with
    | .submit draft =>
      let (checked, effects) := draft.checked service.runtime
      let stage := match checked with
        | .error error => .returned (.error error)
        | .ok definition => .submitting definition
      (service, { call with stage := stage, effects := effects })
    | .enable id enabled =>
      let stage := match service.store.get id with
        | none => .returned (.error (.scriptNotFound id.text))
        | some definition => .switching (definition.switched enabled)
      (service, { call with stage := stage })
    | .withdraw id =>
      let stage := match service.store.get id with
        | none => .returned (.ok (.removed false))
        | some removed => .forgetting removed.contentHash (.removed true)
      ({ service with store := service.store.delete id }, { call with stage := stage })
  | .submitting definition =>
    let stage := match service.store.obsoletedBy definition with
      | none => .returned (.ok (.kept definition))
      | some hash => .forgetting hash (.kept definition)
    ({ service with store := service.store.save definition }, { call with stage := stage })
  | .switching definition =>
    ({ service with store := service.store.save definition },
      { call with stage := .returned (.ok (.kept definition)) })
  | .forgetting hash answer =>
    ({ service with cache := service.cache.forget hash },
      { call with stage := .returned (.ok answer) })
  | .returned _ => (service, call)

def hasReturned (call : AuthoringCall) : Bool :=
  match call.stage with
  | .returned _ => true
  | _ => false

end AuthoringCall

/-- A service and the calls of its authors, by their numbers. -/
structure SharedService where
  service : Service
  calls : List AuthoringCall := []

namespace SharedService

def start (service : Service) (requests : List AuthoringRequest) : SharedService :=
  { service := service, calls := requests.map fun request => { request } }

def call? (s : SharedService) (number : Nat) : Option AuthoringCall := s.calls[number]?

/-- The next step of the call of this number. Nothing happens where there is none. -/
def step (s : SharedService) (number : Nat) : SharedService :=
  match s.call? number with
  | none => s
  | some call =>
    let (service, call) := call.advance s.service
    { service := service, calls := s.calls.set number call }

/-- Steps of the calls of these numbers, one after the other. -/
def run (s : SharedService) (schedule : List Nat) : SharedService := schedule.foldl step s

def isFinished (s : SharedService) : Bool := s.calls.all (·.hasReturned)

end SharedService

end ScriptHooks

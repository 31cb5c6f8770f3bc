/-
ScriptHooks.Hook.ClockedService — a service with its clock, and what happens to it.

Authors keep scripts, operators set the values of parameters, events fire, workers run
queued jobs, compiled scripts that went unused are dropped, and time passes. One thing
happens after the other (`run`); whatever fails leaves its traces and is followed by the next.

What a call into a script is answered depends on the time and on what other hosts say. So the
script engine may change between any two things that happen.

The clock is advanced by any number of milliseconds and goes round, so that it may come to
show an earlier time. What runs scripts, and what drops compiled ones, goes by it.
-/
import ScriptHooks.Hook.Authoring

namespace ScriptHooks

/-- What may happen to a service. -/
inductive ServiceAction : Type 1
  | author (request : AuthoringRequest)
  /-- The values of a script's parameters are set at a scope. -/
  | assignParameters (id : ScriptId) (values : Payload)
  | fireAndWait {α : Type} (type : ResultType α) (event : String) (scope : ScopePath)
      (payload : Payload) (default_ : α)
  | fireAndQueue (event : String) (scope : ScopePath) (payload : Payload)
  /-- A worker runs a job. -/
  | runJob (job : QueuedJob)
  /-- Compiled scripts that went unused are dropped. -/
  | evict
  | advance (ms : UInt64)
  /-- From now on calls into scripts are answered like this. -/
  | changeRuntime (runtime : ScriptRuntime)

/-- A service with its clock. -/
structure ClockedService where
  service : Service
  clock : SettableClock

namespace ClockedService

def empty (runtime : ScriptRuntime) (idleMs : Nat) (clock : SettableClock) : ClockedService :=
  ⟨⟨runtime, .empty, { idleMs }, {}⟩, clock⟩

def now (s : ClockedService) : Nat := s.clock.now.toNat

def act (s : ClockedService) : ServiceAction → ClockedService
  | .author request => { s with service := (s.service.author request).service }
  | .assignParameters id values => { s with service := s.service.assignParameters id values }
  | .fireAndWait type event scope payload default_ =>
    { s with
      service := (s.service.fireAndWait s.now type event scope payload default_).service }
  | .fireAndQueue event scope payload =>
    { s with service := (s.service.fireAndQueue event scope payload).service }
  | .runJob job => { s with service := (s.service.runOneJob s.now job).2 }
  | .evict => { s with service := { s.service with cache := s.service.cache.evict s.now } }
  | .advance ms => { s with clock := s.clock.advance ms }
  | .changeRuntime runtime => { s with service := { s.service with runtime := runtime } }

def run (s : ClockedService) (actions : List ServiceAction) : ClockedService :=
  actions.foldl act s

end ClockedService

end ScriptHooks

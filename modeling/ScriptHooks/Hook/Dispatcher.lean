/-
ScriptHooks.Hook.Dispatcher — queues for scripts that nobody waits for.

Jobs are queued by the scope their script is defined at. Each such scope has a
worker while there is work; a worker runs its jobs one after the other in the order
of their arrival, and retires when it has waited in vain. Workers are numbered in the
order of their creation, and a worker that retires unregisters its own queue only.

The functions from `enqueue` to `join` are the steps of the callers and workers
(`DispatchStep`). Each of them happens at once: those that look at the queue map hold its
lock. They do nothing where their step is not possible. Callers and workers take their
steps in any order (`run`). `settle` lets every worker run dry.

A worker waits for a job, has received one, runs it, has timed out, or has retired. When it
has timed out it looks again, under the lock: a job that came in the meantime is taken, and
only a worker without jobs unregisters its queue and retires, in the same step.

A shutdown call takes the whole queue map (`drain`). Then it goes through the workers it
found, one after the other: it closes the channel of a worker (`dropSender`) and waits until
that has retired (`join`). A closed worker still runs what is in its channel. The lock is
not held meanwhile, so that jobs may be queued, and workers made, during a shutdown.
-/
import ScriptHooks.Hook.Definition

namespace ScriptHooks

/-- One run of a script that nobody waits for. -/
structure QueuedJob where
  script : ScriptDefinition
  event : String
  /-- The scope at which the event fired. -/
  scope : ScopePath
  payload : Payload
  parameters : Payload

/-- What a worker is doing. -/
inductive WorkerStatus
  /-- It waits for a job. -/
  | waiting
  /-- It has waited in vain and is about to look again under the lock. -/
  | timedOut
  /-- It has a job that it is about to start. -/
  | received (job : QueuedJob)
  | running (job : QueuedJob)
  | retired

/-- A worker and the jobs sent to it. -/
structure QueueWorker where
  scope : ScopePath
  pending : List QueuedJob
  /-- No more jobs can be sent. -/
  closed : Bool := false
  status : WorkerStatus := .waiting

/-- A call that closes the queues. -/
structure ShutdownCall where
  /-- The numbers of the workers that are to be closed. -/
  held : List Nat
  /-- The worker that was closed last and is waited for. -/
  joining : Option Nat := none

/-- The queues and their workers. -/
structure Dispatcher where
  /-- The numbers of the workers of the scopes that have a queue. -/
  queues : List (ScopePath × Nat) := []
  /-- All workers so far, by their numbers. -/
  workers : List QueueWorker := []
  /-- All calls so far that close the queues. -/
  calls : List ShutdownCall := []
  /-- The jobs that were started, with the numbers of their workers, the latest
  first. -/
  started : List (Nat × QueuedJob) := []
  /-- The jobs that have ended, likewise. -/
  finished : List (Nat × QueuedJob) := []

namespace Dispatcher

def openQueues (d : Dispatcher) : Nat := d.queues.length

def worker? (d : Dispatcher) (number : Nat) : Option QueueWorker := d.workers[number]?

def queue? (d : Dispatcher) (scope : ScopePath) : Option Nat :=
  (d.queues.find? fun entry => decide (entry.1 = scope)).map (·.2)

/-- No queue for a scope. -/
def withoutQueue (scope : ScopePath) (queues : List (ScopePath × Nat)) : List (ScopePath × Nat) :=
  queues.filter fun entry => decide (entry.1 ≠ scope)

def update (d : Dispatcher) (number : Nat) (change : QueueWorker → QueueWorker) : Dispatcher :=
  { d with workers := d.workers.modify number change }

def turn (d : Dispatcher) (number : Nat) (status : WorkerStatus) : Dispatcher :=
  d.update number fun w => { w with status := status }

/-! ## Callers -/

/-- A new worker with its first job, registered for its scope. -/
def spawn (d : Dispatcher) (job : QueuedJob) : Dispatcher :=
  let scope := job.script.scope
  { d with
    queues := withoutQueue scope d.queues ++ [(scope, d.workers.length)]
    workers := d.workers ++ [{ scope := scope, pending := [job] }] }

/-- Send a job to a worker, unless it is gone. -/
def send? (d : Dispatcher) (number : Nat) (job : QueuedJob) : Option Dispatcher :=
  match d.worker? number with
  | none => none
  | some ⟨_, _, _, .retired⟩ => none
  | some _ => some (d.update number fun w => { w with pending := w.pending ++ [job] })

/-- Queue a job for the scope of its script, under the lock; a worker that is gone is
replaced. -/
def enqueue (d : Dispatcher) (job : QueuedJob) : Dispatcher :=
  match (d.queue? job.script.scope).bind fun number => d.send? number job with
  | some sent => sent
  | none => d.spawn job

/-- Begin to close all queues, under the lock: no scope has a queue any more, and the
call has the numbers of the workers that were registered. -/
def drain (d : Dispatcher) : Dispatcher :=
  { d with queues := [], calls := d.calls ++ [{ held := d.queues.map (·.2) }] }

/-- Let no more jobs be sent to a worker. -/
def close (d : Dispatcher) (number : Nat) : Dispatcher :=
  d.update number fun w => { w with closed := true }

/-- A call closes one of its workers, to wait for it next. -/
def dropSender (d : Dispatcher) (call number : Nat) : Dispatcher :=
  match d.calls[call]? with
  | some ⟨held, none⟩ =>
    if held.contains number then
      { d.close number with calls := d.calls.set call ⟨held.erase number, some number⟩ }
    else d
  | _ => d

/-- A call has waited for the worker that it closed. -/
def join (d : Dispatcher) (call : Nat) : Dispatcher :=
  match d.calls[call]? with
  | some ⟨held, some number⟩ =>
    match d.worker? number with
    | some ⟨_, _, _, .retired⟩ => { d with calls := d.calls.set call ⟨held, none⟩ }
    | _ => d
  | _ => d

/-! ## Workers -/

/-- A worker takes the first of the jobs sent to it. -/
def take (d : Dispatcher) (number : Nat) (job : QueuedJob) (rest : List QueuedJob) : Dispatcher :=
  d.update number fun w => { w with pending := rest, status := .received job }

/-- A waiting worker receives the next job. -/
def receive (d : Dispatcher) (number : Nat) : Dispatcher :=
  match d.worker? number with
  | some ⟨_, job :: rest, _, .waiting⟩ => d.take number job rest
  | _ => d

def start (d : Dispatcher) (number : Nat) : Dispatcher :=
  match d.worker? number with
  | some ⟨_, _, _, .received job⟩ =>
    { d.turn number (.running job) with started := (number, job) :: d.started }
  | _ => d

/-- A running job ends, one way or another. -/
def finish (d : Dispatcher) (number : Nat) : Dispatcher :=
  match d.worker? number with
  | some ⟨_, _, _, .running job⟩ =>
    { d.turn number .waiting with finished := (number, job) :: d.finished }
  | _ => d

/-- A waiting worker gives up waiting. A job may have been sent to it just then. -/
def timeOut (d : Dispatcher) (number : Nat) : Dispatcher :=
  match d.worker? number with
  | some ⟨_, _, _, .waiting⟩ => d.turn number .timedOut
  | _ => d

/-- Unregister the queue of a scope if it is still that of the worker. -/
def unregister (d : Dispatcher) (scope : ScopePath) (number : Nat) : Dispatcher :=
  if d.queue? scope = some number then { d with queues := withoutQueue scope d.queues } else d

/-- A worker that gave up looks once more, under the lock: it takes a job that came
in between, or unregisters its own queue and retires. -/
def lookAgain (d : Dispatcher) (number : Nat) : Dispatcher :=
  match d.worker? number with
  | some ⟨_, job :: rest, _, .timedOut⟩ => d.take number job rest
  | some ⟨scope, [], _, .timedOut⟩ => (d.turn number .retired).unregister scope number
  | _ => d

/-- A waiting worker that is closed and has no job retires. -/
def leave (d : Dispatcher) (number : Nat) : Dispatcher :=
  match d.worker? number with
  | some ⟨_, [], true, .waiting⟩ => d.turn number .retired
  | _ => d

end Dispatcher

/-! ## Runs -/

/-- How a job ends. -/
inductive JobOutcome
  | completed
  | failed
  | panicked
  deriving Repr, DecidableEq

/-- A step of a caller or of a worker. Workers and calls are given by their numbers. -/
inductive DispatchStep
  | dispatch (job : QueuedJob)
  | drain
  | dropSender (call number : Nat)
  | join (call : Nat)
  | receive (number : Nat)
  | start (number : Nat)
  | finish (number : Nat) (outcome : JobOutcome)
  | timeOut (number : Nat)
  | lookAgain (number : Nat)
  | leave (number : Nat)

namespace Dispatcher

/-- A step. A worker goes on however its job ended. -/
def step (d : Dispatcher) : DispatchStep → Dispatcher
  | .dispatch job => d.enqueue job
  | .drain => d.drain
  | .dropSender call number => d.dropSender call number
  | .join call => d.join call
  | .receive number => d.receive number
  | .start number => d.start number
  | .finish number _ => d.finish number
  | .timeOut number => d.timeOut number
  | .lookAgain number => d.lookAgain number
  | .leave number => d.leave number

def run (d : Dispatcher) (steps : List DispatchStep) : Dispatcher := steps.foldl step d

/-- The steps with which a worker runs its next jobs, so many of them. -/
def jobSteps (number : Nat) : Nat → List DispatchStep
  | 0 => []
  | count + 1 =>
    .receive number :: .start number :: .finish number .completed :: jobSteps number count

def backlog (d : Dispatcher) (number : Nat) : Nat :=
  match d.worker? number with
  | some worker => worker.pending.length
  | none => 0

def runDry (d : Dispatcher) (number : Nat) : Dispatcher :=
  d.run (jobSteps number (d.backlog number))

/-- Every worker runs its jobs and, being idle, retires. The workers take turns in
the given order. -/
def settle (d : Dispatcher) (numbers : List Nat) : Dispatcher :=
  numbers.foldl (fun d number => (d.runDry number).run [.timeOut number, .lookAgain number]) d

/-- All queues are closed and their jobs run to the end. -/
def closeAll (d : Dispatcher) : Dispatcher :=
  let call := d.calls.length
  (d.queues.map (·.2)).foldl
    (fun d number => ((d.step (.dropSender call number)).runDry number).run
      [.leave number, .join call]) (d.step .drain)

end Dispatcher

end ScriptHooks

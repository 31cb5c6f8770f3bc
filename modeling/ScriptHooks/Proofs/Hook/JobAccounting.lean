/-
ScriptHooks.Proofs.Hook.JobAccounting — where the queued jobs are.

A job is in the channel of a worker, or a worker has taken it, or it has ended. What is to be shown
is that no job is lost on the way and none is there twice, whatever callers, workers and shutdown
calls do.

`Effect` says what a step does to the jobs: mostly it changes one worker, which then has the same
jobs, one more or one less. It is derived from `Moves` once (`Moves.effect`) and forgets all that
does not matter here. So no step loses a job or doubles it (`jobs_step`), and in every run all jobs
queued so far are accounted for (`jobs_accounted`). The equation is one of multisets, written as a
permutation: the order of jobs is the subject of `JobOrder`.

A job for a scope that has a queue is sent to the worker of the queue. That worker is open
(`Registered`), so sending does not fail and no second worker is made. A worker that has retired has
an empty channel: it looks again before it retires, and leaves a closed channel only when that is
empty.

The second part of the result is about registrations: a queue stays until all are drained, or until
its own worker retires. No worker takes the queue of another, even where it was given the scope
again in between.
-/
import Mathlib.Data.List.Perm.Basic
import ScriptHooks.Proofs.Hook.DispatchMoves

namespace ScriptHooks

namespace QueueWorker

/-- The job that the worker is about to start or is running. -/
def current? (w : QueueWorker) : Option QueuedJob :=
  match w.status with
  | .received job => some job
  | .running job => some job
  | _ => none

/-- The jobs sent to the worker, if it is still going to receive them. -/
def channel (w : QueueWorker) : List QueuedJob := if w.isRetired then [] else w.pending

def jobs (w : QueueWorker) : List QueuedJob := w.channel ++ w.current?.toList

/-- The jobs that the worker has still to start, the next one first. -/
def line (w : QueueWorker) : List QueuedJob :=
  match w.status with
  | .received job => job :: w.channel
  | _ => w.channel

/-- A job that is sent is one more in the channel. -/
theorem jobs_send {w : QueueWorker} (hr : w.isRetired = false) (job : QueuedJob) :
    (jobs { w with pending := w.pending ++ [job] }).Perm (job :: w.jobs) ∧
      line { w with pending := w.pending ++ [job] } = w.line ++ [job] := by
  have hafter : isRetired { w with pending := w.pending ++ [job] } = false := hr
  have hperm : (w.pending ++ [job]).Perm (job :: w.pending) := List.perm_append_singleton ..
  constructor
  · simp only [jobs, channel, hr, hafter, Bool.false_eq_true, if_false]
    exact hperm.append_right _
  · simp only [line, channel, hr, hafter, Bool.false_eq_true, if_false]
    cases w.status <;> rfl

/-- A job that is taken comes last among the jobs of the worker, not first. -/
theorem take_perm (job : QueuedJob) (rest : List QueuedJob) :
    (rest ++ [job]).Perm (job :: rest ++ []) :=
  (List.perm_append_singleton job rest).trans (.of_eq (List.append_nil _).symm)

end QueueWorker

namespace Dispatcher

/-! ## Effects -/

/-- One worker has changed, and none else. -/
structure Changed (d d' : Dispatcher) (n : Nat) (w w' : QueueWorker) : Prop where
  before : d.worker? n = some w
  workers : d'.workers = d.workers.set n w'
  scope : w'.scope = w.scope

/-- What a step does to the jobs and the worker that it is about, if it queues this job or
none. -/
inductive Effect (d d' : Dispatcher) : Option QueuedJob → Prop
  | none (hw : d'.workers = d.workers) (hs : d'.started = d.started)
      (hf : d'.finished = d.finished) : Effect d d' none
  | turn (hc : Changed d d' n w w') (hj : w'.jobs.Perm w.jobs) (hl : w'.line = w.line)
      (hs : d'.started = d.started) (hf : d'.finished = d.finished) : Effect d d' none
  | start (hc : Changed d d' n w w') (hj : w'.jobs = w.jobs) (hl : w.line = job :: w'.line)
      (hs : d'.started = (n, job) :: d.started) (hf : d'.finished = d.finished) : Effect d d' none
  | finish (hc : Changed d d' n w w') (hj : w.jobs = w'.jobs ++ [job]) (hl : w'.line = w.line)
      (hs : d'.started = d.started) (hf : d'.finished = (n, job) :: d.finished) : Effect d d' none
  | send (hq : d.queue? job.script.scope = some n) (hc : Changed d d' n w w')
      (hj : w'.jobs.Perm (job :: w.jobs)) (hl : w'.line = w.line ++ [job])
      (hs : d'.started = d.started) (hf : d'.finished = d.finished) : Effect d d' (some job)
  | spawn (hq : ∀ n, d.queue? job.script.scope = some n → d.send? n job = Option.none)
      (hw : d'.workers = d.workers ++ [{ scope := job.script.scope, pending := [job] }])
      (hs : d'.started = d.started) (hf : d'.finished = d.finished) : Effect d d' (some job)

/-- One worker is changed, and stays one of its scope. -/
theorem changed_of_modify {d d' : Dispatcher} (hw : d.worker? n = some w)
    (hd : d'.workers = d.workers.modify n f) (hf : (f w).scope = w.scope) :
    Changed d d' n w (f w) where
  before := hw
  workers := by
    rw [hd, List.modify_eq_set_getElem?]
    rw [worker?] at hw
    rw [hw]
    rfl
  scope := hf

/-- What a step does to the jobs. -/
theorem Moves.effect (h : Moves d s d') : Effect d d' s.job? := by
  cases h with
  | spawn h => exact .spawn h rfl rfl rfl
  | send hq hs =>
    obtain ⟨w, hw, hr, rfl⟩ := send?_eq_some.mp hs
    obtain ⟨hj, hl⟩ := QueueWorker.jobs_send hr _
    exact .send hq (changed_of_modify hw rfl rfl) hj hl rfl rfl
  | drain | join => exact .none rfl rfl rfl
  | @dropSender _ _ n hc hn =>
    cases hw : d.worker? n with
    | some w => exact .turn (changed_of_modify hw rfl rfl) (.refl _) rfl rfl rfl
    | none => exact .none (List.modify_eq_self (List.getElem?_eq_none_iff.mp hw)) rfl rfl
  | receive hw | found hw =>
    exact .turn (changed_of_modify hw rfl rfl) (QueueWorker.take_perm ..) rfl rfl rfl
  | start hw => exact .start (changed_of_modify hw rfl rfl) rfl rfl rfl rfl
  | finish hw =>
    exact .finish (changed_of_modify hw rfl rfl) (congrArg (· ++ [_]) (List.append_nil _).symm)
      rfl rfl rfl
  | timeOut hw | leave hw => exact .turn (changed_of_modify hw rfl rfl) (.refl _) rfl rfl rfl
  | retire hw =>
    exact .turn (changed_of_modify hw (unregister_workers ..) rfl) (.refl _) rfl
      (unregister_started ..) (unregister_finished ..)

/-! ## Accounts -/

def channelJobs (d : Dispatcher) : List QueuedJob := d.workers.flatMap (·.channel)

def takenJobs (d : Dispatcher) : List QueuedJob := d.workers.flatMap (·.current?.toList)

def finishedJobs (d : Dispatcher) : List QueuedJob := d.finished.map (·.2)

/-- All jobs, by where they are. -/
def jobs (d : Dispatcher) : List QueuedJob := d.channelJobs ++ d.takenJobs ++ d.finishedJobs

/-- The jobs, worker by worker. -/
theorem jobs_perm (d : Dispatcher) :
    d.jobs.Perm (d.workers.flatMap (·.jobs) ++ d.finishedJobs) :=
  (List.flatMap_append_perm d.workers _ _).append_right _

/-- A list with one member changed, up to the order of what the members stand for. -/
theorem set_perm (g : α → List β) {as : List α} (h : as[n]? = some a) :
    ∃ others, (as.flatMap g).Perm (g a ++ others) ∧
      ∀ a', ((as.set n a').flatMap g).Perm (g a' ++ others) := by
  induction as generalizing n with
  | nil => cases h
  | cons b as ih =>
    cases n with
    | zero =>
      cases h
      exact ⟨as.flatMap g, .refl _, fun a' => .refl _⟩
    | succ n =>
      obtain ⟨others, hbefore, hafter⟩ := ih h
      have swap : ∀ cs, (g b ++ (cs ++ others)).Perm (cs ++ (g b ++ others)) :=
        fun cs => List.perm_append_comm_assoc ..
      exact ⟨g b ++ others, (hbefore.append_left _).trans (swap _),
        fun a' => ((hafter a').append_left _).trans (swap _)⟩

/-- The jobs after one worker has changed. -/
theorem Changed.jobs_perm {d d' : Dispatcher} {more : List QueuedJob} (hc : Changed d d' n w w')
    (h : (w'.jobs ++ d'.finishedJobs).Perm (more ++ (w.jobs ++ d.finishedJobs))) :
    d'.jobs.Perm (more ++ d.jobs) := by
  obtain ⟨others, hbefore, hafter⟩ := set_perm QueueWorker.jobs hc.before
  have front : ∀ as bs : List QueuedJob,
      ((as ++ others) ++ bs).Perm (others ++ (as ++ bs)) := by
    intro as bs
    rw [← List.append_assoc]
    exact List.perm_append_comm.append_right bs
  calc d'.jobs
    _ |>.Perm ((w'.jobs ++ others) ++ d'.finishedJobs) := by
      refine (Dispatcher.jobs_perm d').trans (List.Perm.append_right _ ?_)
      exact hc.workers ▸ hafter w'
    _ |>.Perm (others ++ (w'.jobs ++ d'.finishedJobs)) := front ..
    _ |>.Perm (others ++ (more ++ (w.jobs ++ d.finishedJobs))) := h.append_left _
    _ |>.Perm (more ++ (others ++ (w.jobs ++ d.finishedJobs))) := List.perm_append_comm_assoc ..
    _ |>.Perm (more ++ ((w.jobs ++ others) ++ d.finishedJobs)) := (front ..).symm.append_left _
    _ |>.Perm (more ++ d.jobs) :=
      ((hbefore.symm.append_right _).trans (Dispatcher.jobs_perm d).symm).append_left _

/-- After the effect of a step there is the job that it queues, and the others are still there. -/
theorem Effect.jobs_perm (h : Effect d d' queued) : d'.jobs.Perm (queued.toList ++ d.jobs) := by
  have noted : d'.finished = d.finished → d'.finishedJobs = d.finishedJobs := by
    intro hf
    rw [finishedJobs, hf, finishedJobs]
  cases h with
  | none hw hs hf =>
    rw [Dispatcher.jobs, channelJobs, takenJobs, hw, noted hf]
    exact .refl _
  | turn hc hj hl hs hf =>
    exact hc.jobs_perm (by rw [noted hf]; exact hj.append_right _)
  | start hc hj hl hs hf =>
    exact hc.jobs_perm (by rw [noted hf, hj]; exact .refl _)
  | finish hc hj hl hs hf =>
    refine hc.jobs_perm (.of_eq ?_)
    simp [finishedJobs, hf, hj]
  | send hq hc hj hl hs hf =>
    exact hc.jobs_perm (by rw [noted hf]; exact hj.append_right _)
  | @spawn job hq hw hs hf =>
    have hchannel : d'.channelJobs = d.channelJobs ++ [job] := by
      rw [channelJobs, hw, List.flatMap_append]
      rfl
    have htaken : d'.takenJobs = d.takenJobs := by
      rw [takenJobs, hw, List.flatMap_append]
      exact List.append_nil _
    rw [Dispatcher.jobs, Dispatcher.jobs, hchannel, htaken, noted hf]
    simp only [List.append_assoc]
    exact List.perm_append_comm_assoc ..

/-- The jobs that steps queue, in their order. -/
def dispatchedBy (steps : List DispatchStep) : List QueuedJob := steps.filterMap (·.job?)

/-- The jobs after a step are those before it and the one that it queues. -/
theorem jobs_step (d : Dispatcher) (s : DispatchStep) :
    (d.step s).jobs.Perm (s.job?.toList ++ d.jobs) := by
  rcases d.step_moves s with ⟨hs, hjob⟩ | hs
  · rw [hs, hjob]
    exact .refl _
  · exact hs.effect.jobs_perm

/-- After any steps there are the jobs they queued and those that were there. -/
theorem jobs_run (d : Dispatcher) (steps : List DispatchStep) :
    (d.run steps).jobs.Perm (dispatchedBy steps ++ d.jobs) := by
  induction steps generalizing d with
  | nil => exact .refl _
  | cons s steps ih =>
    have hstep := (d.jobs_step s).append_left (dispatchedBy steps)
    have hcons : dispatchedBy (s :: steps) = s.job?.toList ++ dispatchedBy steps := by
      rw [dispatchedBy, List.filterMap_cons]
      cases s.job? <;> rfl
    rw [hcons, List.append_assoc]
    exact ((ih (d.step s)).trans hstep).trans (List.perm_append_comm_assoc ..)

/-! ## Registrations -/

/-- A queue stays registered until all are closed or its own worker retires. -/
theorem Registered.queue?_step {d : Dispatcher} (h : d.Registered) (s : DispatchStep)
    (hq : d.queue? scope = some n) :
    (d.step s).queue? scope = some n ∨ s = .drain ∨
      s = .lookAgain n ∧ ∃ w, (d.step s).worker? n = some w ∧ w.isRetired = true := by
  have hm := mem_of_queue? hq
  have stays : (scope, n) ∈ (d.step s).queues → (d.step s).queue? scope = some n :=
    queue?_of_mem (h.step s).keys
  rcases d.step_moves s with ⟨hs, -⟩ | hs
  · exact .inl (hs.symm ▸ hq)
  generalize d.step s = d' at hs stays
  cases hs with
  | spawn hnone =>
    refine .inl (stays (List.mem_append_left _ (mem_withoutQueue.mpr ⟨hm, fun hscope => ?_⟩)))
    rename_i job
    have hsend := (h.isOpen hm).send job
    rw [hnone n (hscope ▸ hq)] at hsend
    cases hsend
  | send _ hs =>
    obtain ⟨_, _, _, rfl⟩ := send?_eq_some.mp hs
    exact .inl (stays hm)
  | drain => exact .inr (.inl rfl)
  | dropSender | join | receive | start | finish | timeOut | found | leave =>
    exact .inl (stays hm)
  | @retire m other closed hw =>
    by_cases hother : d.queue? other = some m ∧ scope = other
    · obtain ⟨hown, rfl⟩ := hother
      cases hq.symm.trans hown
      refine .inr (.inr ⟨rfl, ⟨scope, [], closed, .retired⟩, ?_, rfl⟩)
      rw [worker?, unregister_workers]
      exact (worker?_update d n n _).trans (by rw [if_pos rfl, hw]; rfl)
    · refine .inl (stays ?_)
      unfold Dispatcher.unregister
      split
      · rename_i hown
        exact mem_withoutQueue.mpr ⟨hm, fun hs => hother ⟨hown, hs⟩⟩
      · exact hm

/-- No job is lost or run twice. After any steps, the jobs queued so far are those in the
channel of a worker that is still going to receive, those that a worker has taken, and
those that have ended, each as often. A job for a scope that has a queue is always sent to
the worker of the queue, and no worker removes the queue of another. -/
theorem jobs_accounted (steps : List DispatchStep) :
    let d := run {} steps
    (dispatchedBy steps).Perm (d.channelJobs ++ d.takenJobs ++ d.finishedJobs) ∧
    (∀ scope n, d.queue? scope = some n →
      d.IsOpen scope n ∧ ∀ job, (d.send? n job).isSome = true) ∧
    ∀ s scope n, d.queue? scope = some n →
      (d.step s).queue? scope = some n ∨ s = .drain ∨
        s = .lookAgain n ∧ ∃ w, (d.step s).worker? n = some w ∧ w.isRetired = true := by
  intro d
  have h : d.Registered := registered_run steps
  have hjobs : d.jobs.Perm (dispatchedBy steps ++ jobs {}) := jobs_run {} steps
  refine ⟨?_, fun scope n hq => ?_, fun s scope n => h.queue?_step s⟩
  · exact (hjobs.trans (.of_eq (List.append_nil _))).symm
  · have hopen := h.isOpen (mem_of_queue? hq)
    exact ⟨hopen, hopen.send⟩

end Dispatcher

end ScriptHooks

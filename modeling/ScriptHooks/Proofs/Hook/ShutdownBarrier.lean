/-
ScriptHooks.Proofs.Hook.ShutdownBarrier — which jobs a shutdown call waits for.

A shutdown call takes all queues out of the map and waits for their workers. Jobs that are
queued later go to other workers, so the jobs queued before the call began stay with the
workers that there were then (`jobs_first`). The call waits for those of them that had a
queue, and for no others. A worker may have jobs and no queue: another shutdown call has taken
it and still waits. So a call may return before all jobs have ended exactly if a worker with a
job had no queue when it began, and never unless another call was under way.

  §1 Workers — the first workers by themselves, once they are sent no more jobs;
  §2 Calls   — whom a call waits for, and that somebody waits for every worker;
  §3 Ends    — a call returns in the end, and nobody has to move but its own workers;
  §4 Barrier — `shutdown_barrier_iff`.

§1 cuts the dispatcher in two: `first count` are the workers that there were when the call began,
with what was started and finished by them. Once they are sent no more jobs (`Apart`), their jobs
are the same after any steps, up to the order.

§2 has two invariants. `AwaitsBelow` says that the call waits for every one of the first workers
that had a queue, unless it is gone; it is what makes the call wait long enough. `Attended` says
that a worker with a job has a queue or a call that waits for it; with it, a worker without a queue
means that another call is under way.

§3 is what the converse needs, since a call that never returned would be a barrier for no reason. A
closed worker runs dry and leaves (`exists_gone`), each step bringing it nearer to its end
(`toDo`), so the call gets through its workers one by one. Nobody else has to move, and the jobs of
a worker without a queue may stand still all the while.
-/
import ScriptHooks.Proofs.Hook.JobOrder

namespace ScriptHooks

/-- A worker that has retired has no job. -/
theorem QueueWorker.not_busy_of_retired {w : QueueWorker} (h : w.isRetired = true) : ¬ w.Busy := by
  have hstatus := isRetired_iff.mp h
  have hjobs : w.jobs = [] := by simp [jobs, channel, h, current?, hstatus]
  exact fun hb => hb hjobs

/-- How much the worker has still to do, once it is closed. -/
def QueueWorker.toDo (w : QueueWorker) : Nat :=
  3 * w.pending.length +
    match w.status with
    | .received _ => 3
    | .running _ => 2
    | .waiting | .timedOut => 1
    | .retired => 0

/-- The call has still to close the worker, or is waiting for it. -/
def ShutdownCall.WaitsFor (c : ShutdownCall) (n : Nat) : Prop := n ∈ c.held ∨ c.joining = some n

namespace Dispatcher

variable {d d' : Dispatcher} {count call n : Nat} {s : DispatchStep}

/-! ## Workers -/

/-- The first workers, so many of them, and what they did. -/
def first (d : Dispatcher) (count : Nat) : Dispatcher :=
  { d with
    workers := d.workers.take count
    started := d.started.filter fun entry => decide (entry.1 < count)
    finished := d.finished.filter fun entry => decide (entry.1 < count) }

/-- The first workers are sent no more jobs. -/
structure Apart (d : Dispatcher) (count : Nat) : Prop where
  bound : count ≤ d.workers.length
  queues : ∀ {scope n}, (scope, n) ∈ d.queues → count ≤ n

/-- A change of one of the first workers is one among them. -/
theorem Changed.first (hc : Changed d d' n w w') (hn : n < count) :
    Changed (d.first count) (d'.first count) n w w' where
  before := by
    show (d.workers.take count)[n]? = some w
    rw [List.getElem?_take_of_lt hn]
    exact hc.before
  workers := by
    show d'.workers.take count = (d.workers.take count).set n w'
    rw [hc.workers, List.take_set]
  scope := hc.scope

theorem Changed.take_workers (hc : Changed d d' n w w') (hn : ¬ n < count) :
    d'.workers.take count = d.workers.take count := by
  rw [hc.workers, List.take_set_of_le (Nat.le_of_not_lt hn)]

/-- What a step does to the first workers, once they are sent no more jobs. -/
theorem Effect.first (h : Effect d d' queued) (ha : d.Apart count) :
    Effect (d.first count) (d'.first count) Option.none := by
  have noted : ∀ {before after : List (Nat × QueuedJob)} {entry}, after = entry :: before →
      after.filter (fun e => decide (e.1 < count)) =
        if entry.1 < count then entry :: before.filter fun e => decide (e.1 < count)
        else before.filter fun e => decide (e.1 < count) := by
    rintro before _ entry rfl
    simp [List.filter_cons]
  have same : ∀ {before after : List (Nat × QueuedJob)}, after = before →
      after.filter (fun e => decide (e.1 < count)) =
        before.filter fun e => decide (e.1 < count) := fun h => by rw [h]
  cases h with
  | none hw hs hf => exact .none (congrArg (List.take count) hw) (same hs) (same hf)
  | @turn n w w' hc hj hl hs hf =>
    by_cases hn : n < count
    · exact .turn (hc.first hn) hj hl (same hs) (same hf)
    · exact .none (hc.take_workers hn) (same hs) (same hf)
  | @start n w w' job hc hj hl hs hf =>
    by_cases hn : n < count
    · exact .start (hc.first hn) hj hl ((noted hs).trans (if_pos hn)) (same hf)
    · exact .none (hc.take_workers hn) ((noted hs).trans (if_neg hn)) (same hf)
  | @finish n w w' job hc hj hl hs hf =>
    by_cases hn : n < count
    · exact .finish (hc.first hn) hj hl (same hs) ((noted hf).trans (if_pos hn))
    · exact .none (hc.take_workers hn) (same hs) ((noted hf).trans (if_neg hn))
  | send hq hc hj hl hs hf =>
    have hn := Nat.not_lt.mpr (ha.queues (mem_of_queue? hq))
    exact .none (hc.take_workers hn) (same hs) (same hf)
  | spawn hq hw hs hf =>
    refine .none ?_ (same hs) (same hf)
    show d'.workers.take count = d.workers.take count
    rw [hw, List.take_append_of_le_length ha.bound]

/-- Workers are added only. -/
theorem Effect.length_workers_le (h : Effect d d' queued) :
    d.workers.length ≤ d'.workers.length := by
  cases h with
  | none hw => exact Nat.le_of_eq (congrArg List.length hw.symm)
  | turn hc | start hc | finish hc | send _ hc => simp [hc.workers]
  | spawn _ hw => simp [hw]

theorem Apart.moves (h : d.Apart count) (hm : Moves d s d') : d'.Apart count := by
  refine ⟨Nat.le_trans h.bound hm.effect.length_workers_le, ?_⟩
  cases hm with
  | spawn hq =>
    intro scope n hmem
    rcases List.mem_append.mp hmem with hmem | hmem
    · exact h.queues (mem_withoutQueue.mp hmem).1
    · cases List.mem_singleton.mp hmem
      exact h.bound
  | send hq hs =>
    obtain ⟨_, _, _, rfl⟩ := send?_eq_some.mp hs
    exact h.queues
  | drain => exact nofun
  | dropSender | join | receive | start | finish | timeOut | found | leave => exact h.queues
  | retire hw =>
    intro scope n hmem
    unfold Dispatcher.unregister at hmem
    split at hmem
    · exact h.queues (mem_withoutQueue.mp hmem).1
    · exact h.queues hmem

/-- Once they are sent no more jobs, they are sent none later. -/
theorem Apart.step (h : d.Apart count) (s : DispatchStep) : (d.step s).Apart count := by
  rcases d.step_moves s with ⟨hs, -⟩ | hs
  · rw [hs]
    exact h
  · exact h.moves hs

/-- The first workers keep their jobs. -/
theorem jobs_first_step (h : d.Apart count) (s : DispatchStep) :
    ((d.step s).first count).jobs.Perm (d.first count).jobs := by
  rcases d.step_moves s with ⟨hs, -⟩ | hs
  · rw [hs]
  · exact (hs.effect.first h).jobs_perm

theorem jobs_first_run (h : d.Apart count) (steps : List DispatchStep) :
    ((d.run steps).first count).jobs.Perm (d.first count).jobs := by
  induction steps generalizing d with
  | nil => exact .refl _
  | cons s steps ih => exact (ih (h.step s)).trans (jobs_first_step h s)

/-- Jobs have ended with workers that there are. -/
theorem finished_lt_run (steps : List DispatchStep) :
    ∀ entry ∈ (run {} steps).finished, entry.1 < (run {} steps).workers.length := by
  induction steps using List.reverseRecOn with
  | nil => exact nofun
  | append_singleton steps s ih =>
    rw [run_append]
    show ∀ entry ∈ ((run {} steps).step s).finished, _ < ((run {} steps).step s).workers.length
    generalize run {} steps = d at ih
    rcases d.step_moves s with ⟨hs, -⟩ | hs
    · rw [hs]
      exact ih
    · have heffect := hs.effect
      generalize s.job? = queued at heffect
      cases heffect with
      | none hw _ hf => rw [hw, hf]; exact ih
      | turn hc _ _ _ hf | start hc _ _ _ hf | send _ hc _ _ _ hf =>
        rw [hc.workers, hf, List.length_set]
        exact ih
      | finish hc _ _ _ hf =>
        rw [hc.workers, hf, List.length_set, List.forall_mem_cons]
        exact ⟨lt_of_worker? hc.before, ih⟩
      | spawn _ hw _ hf =>
        rw [hw, hf, List.length_append]
        exact fun entry he => Nat.lt_add_right _ (ih entry he)

/-- Once a shutdown call has begun, the jobs queued until then are those that the workers of
that time have, and those that they have ended. -/
theorem jobs_first (before after : List DispatchStep) :
    ((run {} (before ++ .drain :: after)).first (run {} before).workers.length).jobs.Perm
      (dispatchedBy before) := by
  have hdrained : (run {} before).drain.Apart (run {} before).workers.length :=
    ⟨Nat.le_refl _, nofun⟩
  have hafter := jobs_first_run hdrained after
  have hworkers : (run {} before).workers.take (run {} before).workers.length =
      (run {} before).workers := List.take_length
  have hfinished : (run {} before).finished.filter
      (fun entry => decide (entry.1 < (run {} before).workers.length)) =
      (run {} before).finished := by
    refine List.filter_eq_self.mpr fun entry he => ?_
    simpa using finished_lt_run before entry he
  have hbefore : ((run {} before).drain.first (run {} before).workers.length).jobs =
      (run {} before).jobs := by
    simp only [jobs, channelJobs, takenJobs, finishedJobs, first, drain, hworkers, hfinished]
  have hqueued : (run {} before).jobs.Perm (dispatchedBy before ++ jobs {}) := jobs_run {} before
  rw [run_append, run_cons]
  rw [hbefore] at hafter
  exact (hafter.trans hqueued).trans (.of_eq (List.append_nil _))

/-! ## Calls -/

/-- The worker has left its loop. -/
def IsGone (d : Dispatcher) (n : Nat) : Prop := ∃ w, d.worker? n = some w ∧ w.isRetired = true

theorem unregister_calls (d : Dispatcher) (scope : ScopePath) (n : Nat) :
    (d.unregister scope n).calls = d.calls := by
  unfold unregister
  split <;> rfl

/-- A step takes from a call at most a worker that is gone. -/
theorem calls_step {c : ShutdownCall} (hc : d.calls[call]? = some c) (s : DispatchStep) :
    ∃ c', (d.step s).calls[call]? = some c' ∧
      ∀ n, c.WaitsFor n → c'.WaitsFor n ∨ (d.step s).IsGone n := by
  have hsame : ∀ {d' : Dispatcher}, d'.calls[call]? = some c → ∃ c', d'.calls[call]? = some c' ∧
      ∀ n, c.WaitsFor n → c'.WaitsFor n ∨ d'.IsGone n :=
    fun h => ⟨c, h, fun _ hn => .inl hn⟩
  have hlt : call < d.calls.length := (List.getElem?_eq_some_iff.mp hc).1
  rcases d.step_moves s with ⟨hs, -⟩ | hs
  · rw [hs]
    exact hsame hc
  generalize d.step s = d' at hs ⊢
  cases hs with
  | spawn | receive | start | finish | timeOut | found | leave => exact hsame hc
  | send hq hs =>
    obtain ⟨_, _, _, rfl⟩ := send?_eq_some.mp hs
    exact hsame hc
  | drain => exact hsame ((List.getElem?_append_left hlt).trans hc)
  | retire hw =>
    exact hsame ((congrArg (·[call]?) (unregister_calls ..)).trans hc)
  | @dropSender other held m hother _ =>
    by_cases hcall : other = call
    · subst hcall
      cases hother.symm.trans hc
      refine ⟨⟨held.erase m, some m⟩, List.getElem?_set_self hlt, ?_⟩
      rintro n (hn | ⟨⟨⟩⟩)
      by_cases hnm : n = m
      · exact .inl (.inr (congrArg some hnm.symm))
      · exact .inl (.inl ((List.mem_erase_of_ne hnm).mpr hn))
    · exact hsame ((List.getElem?_set_ne hcall).trans hc)
  | join hother hw hr =>
    rename_i other m w held
    by_cases hcall : other = call
    · subst hcall
      cases hother.symm.trans hc
      refine ⟨⟨held, none⟩, List.getElem?_set_self hlt, ?_⟩
      rintro n (hn | ⟨⟨⟩⟩)
      · exact .inl (.inl hn)
      · exact .inr ⟨w, hw, hr⟩
    · exact hsame ((List.getElem?_set_ne hcall).trans hc)

/-- A worker that has a job had one before, unless the step has queued one. -/
theorem Effect.busy (h : Effect d d' Option.none) (hw : d'.worker? n = some w') (hb : w'.Busy) :
    ∃ w, d.worker? n = some w ∧ w.scope = w'.scope ∧ w.Busy := by
  have hchanged : ∀ {m v v'}, Changed d d' m v v' → (v'.jobs ≠ [] → v.jobs ≠ []) →
      ∃ w, d.worker? n = some w ∧ w.scope = w'.scope ∧ w.Busy := by
    intro m v v' hc hv
    rw [hc.worker?] at hw
    split at hw
    case isTrue heq =>
      cases hw
      exact ⟨v, heq ▸ hc.before, hc.scope.symm, hv hb⟩
    case isFalse => exact ⟨w', hw, rfl, hb⟩
  cases h with
  | none hworkers =>
    rw [worker?, hworkers] at hw
    exact ⟨w', hw, rfl, hb⟩
  | turn hc hj => exact hchanged hc fun hb hnil => hb (hnil ▸ hj).eq_nil
  | start hc hj => exact hchanged hc fun hb hnil => hb (hj.trans hnil)
  | finish hc hj => exact hchanged hc fun _ hnil => by simp [hj] at hnil

/-- A worker that has a job had one before, or it has a queue. -/
theorem busy_step (hr : d.Registered) (s : DispatchStep) (hw : (d.step s).worker? n = some w')
    (hb : w'.Busy) :
    (∃ w, d.worker? n = some w ∧ w.scope = w'.scope ∧ w.Busy) ∨
      (d.step s).queue? w'.scope = some n := by
  have hqueues := (hr.step s).keys
  rcases d.step_moves s with ⟨hs, -⟩ | hs
  · rw [hs] at hw
    exact .inl ⟨w', hw, rfl, hb⟩
  generalize d.step s = d' at hs hw hqueues ⊢
  rcases hjob : s.job? with _ | job
  · have heffect : Effect d d' none := hjob ▸ hs.effect
    exact .inl (heffect.busy hw hb)
  · obtain rfl : s = .dispatch job := by
      cases s <;> cases hjob
      rfl
    cases hs with
    | spawn hq =>
      rcases worker?_concat rfl hw with hold | ⟨rfl, rfl⟩
      · exact .inl ⟨w', hold, rfl, hb⟩
      · exact .inr (queue?_of_mem hqueues (List.mem_append_right _ List.mem_cons_self))
    | @send _ m _ hq hs =>
      obtain ⟨w, hold, -, rfl⟩ := send?_eq_some.mp hs
      rw [worker?_update] at hw
      split at hw
      case isTrue heq =>
        subst heq
        rw [hold] at hw
        cases hw
        have hscope : w.scope = job.script.scope := hr.scope_of_queue? hq hold
        exact .inr (hscope ▸ hq)
      case isFalse => exact .inl ⟨w', hw, rfl, hb⟩

/-- Whoever has a job has a queue, or a call waits for it. -/
def Attended (d : Dispatcher) : Prop :=
  ∀ n w, d.worker? n = some w → w.Busy →
    d.queue? w.scope = some n ∨ ∃ c ∈ d.calls, c.WaitsFor n

/-- A worker that is gone has no job. -/
theorem IsGone.not_busy (h : d.IsGone n) (hw : d.worker? n = some w) : ¬ w.Busy := by
  obtain ⟨v, hv, hretired⟩ := h
  cases hw.symm.trans hv
  exact QueueWorker.not_busy_of_retired hretired

/-- Somebody waits for each worker with a job, or it has a queue. -/
theorem Attended.step (h : d.Attended) (hr : d.Registered) (s : DispatchStep) :
    (d.step s).Attended := by
  intro n w' hw' hb
  rcases busy_step hr s hw' hb with ⟨w, hw, hscope, hbusy⟩ | hqueue
  · rw [← hscope]
    rcases h n w hw hbusy with hqueue | ⟨c, hc, hwaits⟩
    · rcases hr.queue?_step s hqueue with hkept | rfl | ⟨-, hgone⟩
      · exact .inl hkept
      · -- the new call has the worker
        have hheld : n ∈ d.queues.map (·.2) := List.mem_map_of_mem (mem_of_queue? hqueue)
        exact .inr ⟨_, List.mem_append_right _ List.mem_cons_self, .inl hheld⟩
      · exact absurd hb (IsGone.not_busy hgone hw')
    · obtain ⟨call, hcall⟩ := List.mem_iff_getElem?.mp hc
      obtain ⟨c', hc', hstep⟩ := calls_step hcall s
      rcases hstep n hwaits with hwaits | hgone
      · exact .inr ⟨c', List.mem_of_getElem? hc', hwaits⟩
      · exact absurd hb (hgone.not_busy hw')
  · exact .inl hqueue

/-- So it is after any steps. -/
theorem attended_run (steps : List DispatchStep) : (run {} steps).Attended := by
  induction steps using List.reverseRecOn with
  | nil => exact nofun
  | append_singleton steps s ih =>
    rw [run_append]
    exact ih.step (registered_run steps) s

/-- The call waits for every worker below `count` that has a job. -/
def AwaitsBelow (d : Dispatcher) (call count : Nat) : Prop :=
  ∃ c, d.calls[call]? = some c ∧
    ∀ n < count, ∀ w, d.worker? n = some w → w.Busy → c.WaitsFor n

/-- A call goes on waiting for those of the first workers that are not gone. -/
theorem AwaitsBelow.step (h : d.AwaitsBelow call count) (hr : d.Registered) (ha : d.Apart count)
    (s : DispatchStep) : (d.step s).AwaitsBelow call count := by
  obtain ⟨c, hc, hwaits⟩ := h
  obtain ⟨c', hc', hstep⟩ := calls_step hc s
  refine ⟨c', hc', fun n hn w' hw' hb => ?_⟩
  rcases busy_step hr s hw' hb with ⟨w, hw, -, hbusy⟩ | hqueue
  · rcases hstep n (hwaits n hn w hw hbusy) with hwaits | hgone
    · exact hwaits
    · exact absurd hb (hgone.not_busy hw')
  · have hge := (ha.step s).queues (mem_of_queue? hqueue)
    exact absurd hn (Nat.not_lt.mpr hge)

theorem AwaitsBelow.run (h : d.AwaitsBelow call count) (hr : d.Registered) (ha : d.Apart count)
    (steps : List DispatchStep) : (d.run steps).AwaitsBelow call count := by
  induction steps generalizing d with
  | nil => exact h
  | cons s steps ih => exact ih (h.step hr ha s) (hr.step s) (ha.step s)

/-! ## Ends -/

/-- The shutdown call has waited for all its workers. -/
def HasReturned (d : Dispatcher) (call : Nat) : Prop := d.calls[call]? = some ⟨[], none⟩

/-- A closed worker that has not left its loop can take a step, which brings it nearer to its
end. -/
theorem exists_progress (hw : d.worker? n = some w) (hclosed : w.closed = true)
    (hr : w.isRetired = false) :
    ∃ s w', Changed d (d.step s) n w w' ∧ (d.step s).calls = d.calls ∧ w'.closed = true ∧
      w'.toDo < w.toDo := by
  have hstep : ∀ {s d' f}, d.step s = d' → d'.workers = d.workers.modify n f →
      d'.calls = d.calls → (f w).scope = w.scope → (f w).closed = w.closed →
      (f w).toDo < w.toDo → ∃ s w', Changed d (d.step s) n w w' ∧ (d.step s).calls = d.calls ∧
        w'.closed = true ∧ w'.toDo < w.toDo := by
    rintro s d' f rfl hworkers hcalls hscope hkept hless
    exact ⟨s, f w, changed_of_modify hw hworkers hscope, hcalls, hkept.trans hclosed, hless⟩
  obtain ⟨scope, pending, closed, status⟩ := w
  obtain rfl : closed = true := hclosed
  cases status with
  | waiting =>
    cases pending with
    | nil =>
      have hleave : d.step (.leave n) = d.turn n .retired := by rw [step, leave, hw]
      exact hstep hleave rfl rfl rfl rfl (by simp [QueueWorker.toDo])
    | cons job rest =>
      have hreceive : d.step (.receive n) = d.take n job rest := by rw [step, receive, hw]
      exact hstep hreceive rfl rfl rfl rfl (by simp [QueueWorker.toDo]; omega)
  | timedOut =>
    cases pending with
    | nil =>
      have hlook : d.step (.lookAgain n) = (d.turn n .retired).unregister scope n := by
        rw [step, lookAgain, hw]
      exact hstep hlook (unregister_workers ..) (unregister_calls ..) rfl rfl
        (by simp [QueueWorker.toDo])
    | cons job rest =>
      have hlook : d.step (.lookAgain n) = d.take n job rest := by rw [step, lookAgain, hw]
      exact hstep hlook rfl rfl rfl rfl (by simp [QueueWorker.toDo]; omega)
  | received job =>
    have hstart : d.step (.start n) =
        { d.turn n (.running job) with started := (n, job) :: d.started } := by
      rw [step, start, hw]
    exact hstep hstart rfl rfl rfl rfl (by simp [QueueWorker.toDo])
  | running job =>
    have hfinish : d.step (.finish n .completed) =
        { d.turn n .waiting with finished := (n, job) :: d.finished } := by
      rw [step, finish, hw]
    exact hstep hfinish rfl rfl rfl rfl (by simp [QueueWorker.toDo])
  | retired => cases hr

/-- A closed worker comes to its end, and nothing else has to move for that. -/
theorem exists_gone (hw : d.worker? n = some w) (hclosed : w.closed = true) :
    ∃ steps, (d.run steps).IsGone n ∧ (d.run steps).calls = d.calls ∧
      ∀ m ≠ n, (d.run steps).worker? m = d.worker? m := by
  induction htodo : w.toDo using Nat.strongRecOn generalizing d w with
  | ind todo ih =>
    cases hr : w.isRetired with
    | true => exact ⟨[], ⟨w, hw, hr⟩, rfl, fun _ _ => rfl⟩
    | false =>
      obtain ⟨s, w', hc, hcalls, hclosed', hless⟩ := exists_progress hw hclosed hr
      have hw' : (d.step s).worker? n = some w' := by rw [hc.worker?, if_pos rfl]
      obtain ⟨steps, hgone, hcalls', hothers⟩ := ih w'.toDo (htodo ▸ hless) hw' hclosed' rfl
      refine ⟨s :: steps, hgone, hcalls'.trans hcalls, fun m hm => ?_⟩
      rw [run_cons, hothers m hm, hc.worker?, if_neg (Ne.symm hm)]

/-- Workers are added only, whatever the steps. -/
theorem length_workers_le_run (d : Dispatcher) (steps : List DispatchStep) :
    d.workers.length ≤ (d.run steps).workers.length := by
  induction steps generalizing d with
  | nil => exact Nat.le_refl _
  | cons s steps ih =>
    refine Nat.le_trans ?_ (ih (d.step s))
    rcases d.step_moves s with ⟨hs, -⟩ | hs
    · exact Nat.le_of_eq (congrArg (·.workers.length) hs.symm)
    · exact hs.effect.length_workers_le

/-- A call closes the first of its workers and waits until it has come to its end. -/
theorem exists_joined {held : List Nat} (hc : d.calls[call]? = some ⟨n :: held, none⟩)
    (hn : n < d.workers.length) :
    ∃ steps, (d.run steps).calls[call]? = some ⟨held, none⟩ ∧
      ∀ m ≠ n, (d.run steps).worker? m = d.worker? m := by
  have hdrop : d.step (.dropSender call n) =
      { d.close n with calls := d.calls.set call ⟨held, some n⟩ } := by
    simp [step, dropSender, hc]
  have hclosed : (d.step (.dropSender call n)).worker? n =
      some { d.workers[n] with closed := true } := by
    rw [hdrop]
    refine (worker?_update d n n _).trans ?_
    rw [if_pos rfl, worker?, List.getElem?_eq_getElem hn]
    rfl
  obtain ⟨steps, hgone, hcalls, hothers⟩ := exists_gone hclosed rfl
  have hrun : d.run (.dropSender call n :: (steps ++ [.join call])) =
      ((d.step (.dropSender call n)).run steps).step (.join call) := by
    rw [run_cons, run_append]
    rfl
  have hjoining : ((d.step (.dropSender call n)).run steps).calls[call]? =
      some ⟨held, some n⟩ := by
    rw [hcalls, hdrop]
    exact List.getElem?_set_self (List.getElem?_eq_some_iff.mp hc).1
  have hdropped : ∀ m ≠ n, (d.step (.dropSender call n)).worker? m = d.worker? m := by
    intro m hm
    rw [hdrop]
    exact (worker?_update d n m _).trans (if_neg (Ne.symm hm))
  generalize (d.step (.dropSender call n)).run steps = ended at hgone hothers hrun hjoining
  obtain ⟨⟨scope, pending, closed, status⟩, hw, hr⟩ := hgone
  obtain rfl : status = .retired := QueueWorker.isRetired_iff.mp hr
  have hjoin : ended.step (.join call) =
      { ended with calls := ended.calls.set call ⟨held, none⟩ } := by
    simp [step, join, hjoining, hw]
  rw [hjoin] at hrun
  refine ⟨.dropSender call n :: (steps ++ [.join call]), ?_, fun m hm => ?_⟩
  · rw [hrun]
    exact List.getElem?_set_self (List.getElem?_eq_some_iff.mp hjoining).1
  · rw [hrun, ← hdropped m hm, ← hothers m hm]
    rfl

/-- A call that has still to close these workers returns in the end. The others may all
stand still. -/
theorem exists_returned (held : List Nat) :
    ∀ d : Dispatcher, d.calls[call]? = some ⟨held, none⟩ → (∀ n ∈ held, n < d.workers.length) →
      ∃ steps, (d.run steps).HasReturned call ∧
        ∀ m ∉ held, (d.run steps).worker? m = d.worker? m := by
  induction held with
  | nil => exact fun d hc _ => ⟨[], hc, fun _ _ => rfl⟩
  | cons n held ih =>
    intro d hc hlt
    obtain ⟨steps, hnext, hothers⟩ := exists_joined hc (hlt n List.mem_cons_self)
    have hlength := length_workers_le_run d steps
    obtain ⟨more, hreturned, hrest⟩ := ih (d.run steps) hnext fun m hm =>
      Nat.lt_of_lt_of_le (hlt m (List.mem_cons_of_mem n hm)) hlength
    refine ⟨steps ++ more, run_append d steps more ▸ hreturned, fun m hm => ?_⟩
    obtain ⟨hne, hm⟩ : m ≠ n ∧ m ∉ held := by simpa using hm
    rw [run_append, hrest m hm, hothers m hne]

/-! ## Barrier -/

/-- The workers that there were when a shutdown call began have ended all jobs that were queued
until then. -/
def AllEnded (before after : List DispatchStep) : Prop :=
  (dispatchedBy before).Perm
    ((run {} (before ++ .drain :: after)).first (run {} before).workers.length).finishedJobs

/-- That is so exactly if none of them has a job. -/
theorem allEnded_iff (before after : List DispatchStep) :
    AllEnded before after ↔ ∀ n < (run {} before).workers.length, ∀ w,
      (run {} (before ++ .drain :: after)).worker? n = some w → ¬ w.Busy := by
  have hjobs := jobs_first before after
  rw [AllEnded]
  generalize run {} (before ++ .drain :: after) = d at hjobs ⊢
  generalize (run {} before).workers.length = count at hjobs ⊢
  have hall := hjobs.symm.trans (Dispatcher.jobs_perm (d.first count))
  have hnone : (d.first count).workers.flatMap (·.jobs) = [] ↔
      ∀ n < count, ∀ w, d.worker? n = some w → ¬ w.Busy := by
    rw [List.flatMap_eq_nil_iff]
    constructor
    · intro h n hn w hw hb
      exact hb (h w (List.mem_of_getElem? ((List.getElem?_take_of_lt hn).trans hw)))
    · intro h w hmem
      obtain ⟨n, hw⟩ := List.mem_iff_getElem?.mp hmem
      have hn : n < count := by
        have hlt := (List.getElem?_eq_some_iff.mp hw).1
        exact Nat.lt_of_lt_of_le hlt (List.length_take_le ..)
      exact Classical.not_not.mp (h n hn w ((List.getElem?_take_of_lt hn).symm.trans hw))
  rw [← hnone]
  constructor
  · intro hended
    have hlength := (hended.symm.trans hall).length_eq
    rw [List.length_append] at hlength
    exact List.eq_nil_of_length_eq_zero (by omega)
  · intro hnil
    rw [hnil] at hall
    exact hall

/-- While all workers with jobs have queues, a call that begins waits for all of them. -/
theorem allEnded_of_quiet {before : List DispatchStep} (h : ∀ scope, (run {} before).Quiet scope)
    (after : List DispatchStep)
    (hreturned : (run {} (before ++ .drain :: after)).HasReturned (run {} before).calls.length) :
    AllEnded before after := by
  have hr : (run {} before).Registered := registered_run before
  have hawaits : (run {} before).drain.AwaitsBelow (run {} before).calls.length
      (run {} before).workers.length := by
    refine ⟨_, List.getElem?_concat_length, fun n _ w hw hb => .inl ?_⟩
    have hqueue : (run {} before).queue? w.scope = some n := h w.scope n w hw rfl hb
    exact List.mem_map_of_mem (mem_of_queue? hqueue)
  have hafter := hawaits.run hr.drain ⟨Nat.le_refl _, nofun⟩ after
  have hrun : run {} (before ++ .drain :: after) = (run {} before).drain.run after := by
    rw [run_append, run_cons, step]
  rw [allEnded_iff, hrun]
  rw [hrun] at hreturned
  intro n hn w hw hb
  obtain ⟨c, hc, hwaits⟩ := hafter
  cases hc.symm.trans hreturned
  rcases hwaits n hn w hw hb with hheld | hjoining
  · cases hheld
  · cases hjoining

/-- A call that begins while a worker has jobs and no queue may return and leave them. -/
theorem exists_not_allEnded {before : List DispatchStep} (h : ¬ (run {} before).Quiet scope) :
    ∃ after, (run {} (before ++ .drain :: after)).HasReturned (run {} before).calls.length ∧
      ¬ AllEnded before after := by
  have hr : (run {} before).Registered := registered_run before
  simp only [Quiet, not_forall] at h
  obtain ⟨n, w, hw, rfl, hb, hqueue⟩ := h
  have hcall : (run {} before).drain.calls[(run {} before).calls.length]? =
      some ⟨(run {} before).queues.map (·.2), none⟩ := List.getElem?_concat_length
  have hlt := fun m hm => (hr.drain.closing (n := m) (List.mem_of_getElem? hcall) hm).1
  obtain ⟨after, hreturned, hothers⟩ := exists_returned _ _ hcall hlt
  have hrun : run {} (before ++ .drain :: after) = (run {} before).drain.run after := by
    rw [run_append, run_cons, step]
  have hheld : n ∉ (run {} before).queues.map (·.2) := by
    intro hmem
    obtain ⟨⟨scope, m⟩, hentry, rfl⟩ := List.mem_map.mp hmem
    have hown : (run {} before).queue? scope = some m := queue?_of_mem hr.keys hentry
    have hscope : w.scope = scope := hr.scope_of_queue? hown hw
    exact hqueue (hscope ▸ hown)
  refine ⟨after, hrun ▸ hreturned, fun hended => ?_⟩
  rw [allEnded_iff, hrun] at hended
  exact hended n (lt_of_worker? hw) w ((hothers n hheld).trans hw) hb

/-- Shutdown is a barrier, that is, a call that returns has waited for all jobs queued before
it began, exactly if all workers that have jobs then have queues; and that is so if all
shutdown calls from before have returned. -/
theorem shutdown_barrier_iff (before : List DispatchStep) :
    let d := run {} before
    ((∀ after, (run {} (before ++ .drain :: after)).HasReturned d.calls.length →
        AllEnded before after) ↔ ∀ scope, d.Quiet scope) ∧
      ((∀ call < d.calls.length, d.HasReturned call) → ∀ scope, d.Quiet scope) := by
  intro d
  refine ⟨⟨fun h scope => ?_, allEnded_of_quiet⟩, fun h scope n w hw hscope hb => ?_⟩
  · by_contra hquiet
    obtain ⟨after, hreturned, hnot⟩ := exists_not_allEnded hquiet
    exact hnot (h after hreturned)
  · subst hscope
    rcases attended_run before n w hw hb with hqueue | ⟨c, hc, hwaits⟩
    · exact hqueue
    · obtain ⟨call, hcall⟩ := List.mem_iff_getElem?.mp hc
      have hlt : call < d.calls.length := (List.getElem?_eq_some_iff.mp hcall).1
      cases hcall.symm.trans (h call hlt)
      rcases hwaits with hheld | hjoining
      · cases hheld
      · cases hjoining

/-- A shutdown call waits for a worker that is running a job. -/
def overtakenSteps : List DispatchStep :=
  .dispatch (rootJob "first") :: startSteps 0 ++ [.drain, .dropSender 0 0]

/-- Another one returns at once. -/
theorem returned_before_end :
    (run {} (overtakenSteps ++ [.drain])).HasReturned (run {} overtakenSteps).calls.length ∧
      ¬ AllEnded overtakenSteps [] := by
  refine ⟨rfl, fun h => ?_⟩
  cases h.length_eq

end Dispatcher

end ScriptHooks

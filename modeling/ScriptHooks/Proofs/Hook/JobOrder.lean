/-
ScriptHooks.Proofs.Hook.JobOrder — when the jobs of a scope run one after the other.

Jobs of a scope are started in the order in which they were queued, and one at a time,
as long as they all go through one worker. A shutdown call takes the queue from a worker
that may still have jobs. If a job for its scope is queued then, it gets a new worker,
and nothing keeps the two apart.

  §1 Workers  — a worker has jobs of its own scope only (`OwnScope`);
  §2 Lines    — as long as jobs are queued at quiet scopes only, the jobs of a scope that
                are still to be started stand in line at one worker (`InLine`);
  §3 Overlaps — what can happen to a job that is queued at a scope that is not quiet;
  §4 Order    — `jobs_in_order_iff`.

A scope is `Quiet` if no worker of it has a job, but for the one whose queue is
registered. That is a condition on a state, and not on what happens later, so that it can
be asked whenever a job is queued (`Undisturbed`).

`InLine` is the invariant of §2. It has two halves: only one worker of the scope is busy,
and the jobs queued are those that were started, in that order, and then those that stand
in line. The second half is an equation, so that a job that is started moves from the head
of the line to the end of what was started, and a job that is queued comes last.

The converse of §3 is what makes the condition exact: where a job is queued while another
worker is busy, that worker and the worker of the job can both be brought to run a job, by
steps that queue nothing (`startSteps`). The main statement therefore quantifies over what
happens before the next job is queued.
-/
import Mathlib.Data.List.Induction
import ScriptHooks.Proofs.Hook.JobAccounting

namespace ScriptHooks

def QueueWorker.Busy (w : QueueWorker) : Prop := w.jobs ≠ []

theorem QueueWorker.mem_jobs_of_line {w : QueueWorker} (h : job ∈ w.line) : job ∈ w.jobs := by
  unfold line at h
  split at h
  · rename_i hs
    rcases List.mem_cons.mp h with rfl | h
    · exact List.mem_append_right _ (by simp [current?, hs])
    · exact List.mem_append_left _ h
  · exact List.mem_append_left _ h

/-- A worker that is not busy has nobody in line. -/
theorem QueueWorker.line_eq_nil {w : QueueWorker} (h : ¬ w.Busy) : w.line = [] := by
  have hj : w.channel ++ w.current?.toList = [] := Classical.not_not.mp h
  obtain ⟨hchannel, hcurrent⟩ := List.append_eq_nil_iff.mp hj
  unfold line
  split
  · rename_i hs
    simp [current?, hs] at hcurrent
  · exact hchannel

namespace Dispatcher

/-! ## Workers -/

variable {d d' : Dispatcher}

/-- One worker is another one after the change. -/
theorem Changed.worker? (hc : Changed d d' n w w') (m : Nat) :
    d'.worker? m = if n = m then some w' else d.worker? m := by
  rw [Dispatcher.worker?, hc.workers, List.getElem?_set]
  split
  · rename_i hn
    subst hn
    rw [if_pos (lt_of_worker? hc.before)]
  · rfl

/-- Each worker has jobs of its own scope only. -/
def OwnScope (d : Dispatcher) : Prop :=
  ∀ n w, d.worker? n = some w → ∀ job ∈ w.jobs, job.script.scope = w.scope

/-- A change that adds jobs of the scope only. -/
theorem Changed.ownScope (hc : Changed d d' n w w') (h : d.OwnScope)
    (hj : ∀ job ∈ w'.jobs, job ∈ w.jobs ∨ job.script.scope = w.scope) : d'.OwnScope := by
  intro m v hv job hm
  rw [hc.worker?] at hv
  split at hv
  · cases hv
    rw [hc.scope]
    exact (hj job hm).elim (h n w hc.before job) id
  · exact h m v hv job hm

/-- A worker that is new, or one that was there. -/
theorem worker?_concat (hw : d'.workers = d.workers ++ [w]) (h : d'.worker? n = some v) :
    d.worker? n = some v ∨ n = d.workers.length ∧ v = w := by
  rw [Dispatcher.worker?, hw, List.getElem?_append] at h
  split at h
  · exact .inl h
  · obtain ⟨hlt, hget⟩ := List.getElem?_eq_some_iff.mp h
    have hn : n - d.workers.length = 0 := by simpa using hlt
    simp only [hn, List.getElem_cons_zero] at hget
    exact .inr ⟨by omega, hget.symm⟩

/-- A queue belongs to a worker of its scope. -/
theorem Registered.scope_of_queue? (hr : d.Registered) (hq : d.queue? scope = some n)
    (hw : d.worker? n = some w) : w.scope = scope := by
  obtain ⟨v, hv, hs, -⟩ := hr.isOpen (mem_of_queue? hq)
  cases hw.symm.trans hv
  exact hs

/-- A job cannot be sent only where there is no queue. -/
theorem Registered.queue?_eq_none (hr : d.Registered)
    (hq : ∀ n, d.queue? scope = some n → d.send? n job = none) : d.queue? scope = none := by
  refine Option.eq_none_iff_forall_ne_some.mpr fun n hn => ?_
  have hsend := (hr.isOpen (mem_of_queue? hn)).send job
  rw [hq n hn] at hsend
  cases hsend

/-- No step gives a worker a job of another scope. -/
theorem OwnScope.effect (h : d.OwnScope) (hr : d.Registered) (he : Effect d d' queued) :
    d'.OwnScope := by
  cases he with
  | none hw =>
    intro n w
    rw [worker?, hw]
    exact h n w
  | turn hc hj => exact hc.ownScope h fun job hm => .inl (hj.mem_iff.mp hm)
  | start hc hj => exact hc.ownScope h fun job hm => .inl (hj ▸ hm)
  | finish hc hj => exact hc.ownScope h fun job hm => .inl (hj ▸ List.mem_append_left _ hm)
  | send hq hc hj =>
    refine hc.ownScope h fun job hm => ?_
    rcases List.mem_cons.mp (hj.mem_iff.mp hm) with rfl | hm
    · exact .inr (hr.scope_of_queue? hq hc.before).symm
    · exact .inl hm
  | spawn hq hw =>
    intro n w hn job hm
    rcases worker?_concat hw hn with hn | ⟨-, rfl⟩
    · exact h n w hn job hm
    · rw [List.mem_singleton.mp hm]

theorem OwnScope.step (h : d.OwnScope) (hr : d.Registered) (s : DispatchStep) :
    (d.step s).OwnScope := by
  rcases d.step_moves s with ⟨hs, -⟩ | hs
  · rw [hs]
    exact h
  · exact h.effect hr hs.effect

theorem OwnScope.run (h : d.OwnScope) (hr : d.Registered) (steps : List DispatchStep) :
    (d.run steps).OwnScope := by
  induction steps generalizing d with
  | nil => exact h
  | cons s steps ih => exact ih (h.step hr s) (hr.step s)

/-! ## Lines -/

def jobsAt (scope : ScopePath) (jobs : List QueuedJob) : List QueuedJob :=
  jobs.filter fun job => decide (job.script.scope = scope)

/-- The jobs of a scope that were started, in their order. -/
def startsAt (d : Dispatcher) (scope : ScopePath) : List QueuedJob :=
  jobsAt scope (d.started.reverse.map (·.2))

/-- The jobs of a scope that are still to be started, worker by worker. -/
def lineAt (d : Dispatcher) (scope : ScopePath) : List QueuedJob :=
  d.workers.flatMap fun w => if w.scope = scope then w.line else []

/-- No worker of the scope has a job, but for the one whose queue is registered. -/
def Quiet (d : Dispatcher) (scope : ScopePath) : Prop :=
  ∀ n w, d.worker? n = some w → w.scope = scope → w.Busy → d.queue? scope = some n

/-- The jobs of a scope stand in line at one worker. -/
structure InLine (d : Dispatcher) (scope : ScopePath) (queued : List QueuedJob) : Prop where
  single : ∀ {n m w v}, d.worker? n = some w → d.worker? m = some v →
    w.scope = scope → v.scope = scope → w.Busy → v.Busy → n = m
  line : jobsAt scope queued = d.startsAt scope ++ d.lineAt scope

/-- A list and one of its members. -/
theorem exists_split {as : List α} (h : as[n]? = some a) :
    ∃ before after, as = before ++ a :: after ∧ before.length = n ∧
      ∀ a', as.set n a' = before ++ a' :: after := by
  obtain ⟨hn, ha⟩ := List.getElem?_eq_some_iff.mp h
  have hset : ∀ a', as.set n a' = as.take n ++ a' :: as.drop (n + 1) := by
    intro a'
    rw [List.set_eq_take_append_cons_drop, if_pos hn]
  refine ⟨as.take n, as.drop (n + 1), ?_, List.length_take_of_le (Nat.le_of_lt hn), hset⟩
  rw [← hset a, ← ha, List.set_getElem_self]

/-- A worker changes, and its line does not. -/
theorem lineAt_of_set (hc : Changed d d' n w w') (hl : w'.line = w.line) (scope : ScopePath) :
    d'.lineAt scope = d.lineAt scope := by
  obtain ⟨before, after, hbefore, -, hset⟩ := exists_split hc.before
  rw [lineAt, lineAt, hc.workers, hset, hbefore]
  simp only [List.flatMap_append, List.flatMap_cons, hl, hc.scope]

/-- Where no other worker of the scope has a job, the line is that of one worker. -/
theorem lineAt_of_single (hw : d.worker? n = some w) (hs : w.scope = scope)
    (hidle : ∀ m v, d.worker? m = some v → m ≠ n → v.scope = scope → ¬ v.Busy) :
    d.lineAt scope = w.line := by
  obtain ⟨before, after, hworkers, hlen, -⟩ := exists_split hw
  have hnil : ∀ vs : List QueueWorker, (∀ v ∈ vs, ∃ m, d.worker? m = some v ∧ m ≠ n) →
      vs.flatMap (fun v => if v.scope = scope then v.line else []) = [] := by
    intro vs hvs
    refine List.flatMap_eq_nil_iff.mpr fun v hv => ?_
    obtain ⟨m, hm, hne⟩ := hvs v hv
    split
    · exact QueueWorker.line_eq_nil (hidle m v hm hne ‹_›)
    · rfl
  have hb : ∀ v ∈ before, ∃ m, d.worker? m = some v ∧ m ≠ n := by
    intro v hv
    obtain ⟨m, hm⟩ := List.mem_iff_getElem?.mp hv
    have hlt : m < before.length := (List.getElem?_eq_some_iff.mp hm).1
    refine ⟨m, ?_, by omega⟩
    rw [worker?, hworkers, List.getElem?_append_left hlt, hm]
  have ha : ∀ v ∈ after, ∃ m, d.worker? m = some v ∧ m ≠ n := by
    intro v hv
    obtain ⟨m, hm⟩ := List.mem_iff_getElem?.mp hv
    refine ⟨n + (m + 1), ?_, by omega⟩
    rw [worker?, hworkers, List.getElem?_append_right (by omega), hlen, Nat.add_sub_cancel_left,
      List.getElem?_cons_succ, hm]
  rw [lineAt, hworkers, List.flatMap_append, List.flatMap_cons, hnil before hb, hnil after ha,
    if_pos hs, List.nil_append, List.append_nil]

/-- A worker of another scope changes. -/
theorem lineAt_of_other (hc : Changed d d' n w w') (hs : w.scope ≠ scope) :
    d'.lineAt scope = d.lineAt scope := by
  obtain ⟨before, after, hbefore, -, hset⟩ := exists_split hc.before
  rw [lineAt, lineAt, hc.workers, hset, hbefore]
  simp only [List.flatMap_append, List.flatMap_cons, hc.scope, if_neg hs]

/-- The line after the one worker that had it has changed. -/
theorem lineAt_of_changed (hc : Changed d d' n w w') (hs : w.scope = scope)
    (hidle : ∀ m v, d.worker? m = some v → m ≠ n → v.scope = scope → ¬ v.Busy) :
    d'.lineAt scope = w'.line := by
  refine lineAt_of_single (by rw [hc.worker?, if_pos rfl]) (hc.scope.trans hs) ?_
  intro m v hv hne
  rw [hc.worker?, if_neg hne.symm] at hv
  exact hidle m v hv hne

theorem jobsAt_single (h : job.script.scope = scope) : jobsAt scope [job] = [job] := by
  simp [jobsAt, h]

theorem jobsAt_other (h : job.script.scope ≠ scope) : jobsAt scope [job] = [] := by
  simp [jobsAt, h]

theorem startsAt_congr (hs : d'.started = d.started) (scope : ScopePath) :
    d'.startsAt scope = d.startsAt scope := by
  rw [startsAt, hs, startsAt]

/-- A job that is started comes last. -/
theorem startsAt_cons (hs : d'.started = (n, job) :: d.started) (scope : ScopePath) :
    d'.startsAt scope = d.startsAt scope ++ jobsAt scope [job] := by
  simp [startsAt, jobsAt, hs]

namespace InLine

/-- A worker that changes and gets no job. -/
theorem single_of_changed (h : d.InLine scope queued) (hc : Changed d d' n w w')
    (hb : w.scope = scope → w'.Busy → w.Busy) :
    ∀ {i j u v}, d'.worker? i = some u → d'.worker? j = some v →
      u.scope = scope → v.scope = scope → u.Busy → v.Busy → i = j := by
  have back : ∀ {i u}, d'.worker? i = some u → u.scope = scope → u.Busy →
      ∃ u', d.worker? i = some u' ∧ u'.scope = scope ∧ u'.Busy := by
    intro i u hu hs hbusy
    rw [hc.worker?] at hu
    split at hu
    · rename_i hn
      subst hn
      cases hu
      have hs : w.scope = scope := hc.scope.symm.trans hs
      exact ⟨w, hc.before, hs, hb hs hbusy⟩
    · exact ⟨u, hu, hs, hbusy⟩
  intro i j u v hu hv hsu hsv hbu hbv
  obtain ⟨u', hu, hsu, hbu⟩ := back hu hsu hbu
  obtain ⟨v', hv, hsv, hbv⟩ := back hv hsv hbv
  exact h.single hu hv hsu hsv hbu hbv

/-- Only the worker with a job is busy. -/
theorem idle (h : d.InLine scope queued) (hw : d.worker? n = some w) (hs : w.scope = scope)
    (hb : w.Busy) : ∀ m v, d.worker? m = some v → m ≠ n → v.scope = scope → ¬ v.Busy :=
  fun _ _ hv hne hsv hbv => hne (h.single hv hw hsv hs hbv hb)

/-- One more job is queued. -/
theorem line_concat (h : d.InLine scope queued) (job : QueuedJob) :
    jobsAt scope (queued ++ [job]) =
      d.startsAt scope ++ (d.lineAt scope ++ jobsAt scope [job]) := by
  rw [jobsAt, List.filter_append, ← List.append_assoc, ← h.line]
  rfl

/-- A worker changes, and its line does not. -/
theorem kept (h : d.InLine scope queued) (hc : Changed d d' n w w') (hb : w'.Busy → w.Busy)
    (hl : w'.line = w.line) (hs : d'.started = d.started) : d'.InLine scope queued where
  single := h.single_of_changed hc fun _ => hb
  line := by rw [h.line, startsAt_congr hs, lineAt_of_set hc hl]

/-- The first job in line is started. -/
theorem started (h : d.InLine scope queued) (hown : d.OwnScope) (hc : Changed d d' n w w')
    (hj : w'.jobs = w.jobs) (hl : w.line = job :: w'.line)
    (hs : d'.started = (n, job) :: d.started) : d'.InLine scope queued := by
  have hmem : job ∈ w.jobs := QueueWorker.mem_jobs_of_line (hl ▸ List.mem_cons_self)
  have hjob : job.script.scope = w.scope := hown n w hc.before job hmem
  refine ⟨h.single_of_changed hc fun _ hb hnil => hb (hj.trans hnil), ?_⟩
  rw [h.line, startsAt_cons hs]
  by_cases hscope : w.scope = scope
  · have hidle := h.idle hc.before hscope (List.ne_nil_of_mem hmem)
    rw [lineAt_of_changed hc hscope hidle, lineAt_of_single hc.before hscope hidle, hl,
      jobsAt_single (hjob.trans hscope)]
    simp
  · rw [lineAt_of_other hc hscope, jobsAt_other (hjob ▸ hscope), List.append_nil]

/-- A job is sent to the worker of its queue while its scope is quiet. -/
theorem sent (h : d.InLine scope queued) (hr : d.Registered)
    (hq : job.script.scope = scope → d.Quiet scope) (hqueue : d.queue? job.script.scope = some n)
    (hc : Changed d d' n w w') (hl : w'.line = w.line ++ [job]) (hs : d'.started = d.started) :
    d'.InLine scope (queued ++ [job]) := by
  have hjob : w.scope = job.script.scope := hr.scope_of_queue? hqueue hc.before
  by_cases hscope : w.scope = scope
  · have hquiet := hq (hjob ▸ hscope)
    have hidle : ∀ m v, d.worker? m = some v → m ≠ n → v.scope = scope → ¬ v.Busy := by
      intro m v hv hne hsv hbv
      have hm := hquiet m v hv hsv hbv
      rw [← hscope, hjob, hqueue] at hm
      exact hne (Option.some.inj hm).symm
    have hlast : ∀ {i u}, d'.worker? i = some u → u.scope = scope → u.Busy → i = n := by
      intro i u hu hsu hbu
      by_contra hne
      rw [hc.worker?, if_neg (Ne.symm hne)] at hu
      exact hidle i u hu hne hsu hbu
    refine ⟨fun hu hv hsu hsv hbu hbv => (hlast hu hsu hbu).trans (hlast hv hsv hbv).symm, ?_⟩
    rw [h.line_concat, startsAt_congr hs, lineAt_of_changed hc hscope hidle, hl,
      lineAt_of_single hc.before hscope hidle, jobsAt_single (hjob ▸ hscope)]
  · refine ⟨h.single_of_changed hc fun hs => absurd hs hscope, ?_⟩
    rw [h.line_concat, startsAt_congr hs, lineAt_of_other hc hscope,
      jobsAt_other (hjob ▸ hscope), List.append_nil]

/-- A job gets a new worker while its scope is quiet and has no queue. -/
theorem spawned (h : d.InLine scope queued)
    (hq : job.script.scope = scope → d.Quiet scope) (hnone : d.queue? job.script.scope = none)
    (hw : d'.workers = d.workers ++ [{ scope := job.script.scope, pending := [job] }])
    (hs : d'.started = d.started) : d'.InLine scope (queued ++ [job]) := by
  have hline : d'.lineAt scope = d.lineAt scope ++ jobsAt scope [job] := by
    rw [lineAt, hw, List.flatMap_append, lineAt]
    by_cases hscope : job.script.scope = scope
    · rw [jobsAt_single hscope]
      simp [hscope]
      rfl
    · rw [jobsAt_other hscope]
      simp [hscope]
  have hidle : job.script.scope = scope → ∀ {m v}, d.worker? m = some v → v.scope = scope →
      ¬ v.Busy := by
    intro hscope m v hv hsv hbv
    have hm := hq hscope m v hv hsv hbv
    rw [← hscope, hnone] at hm
    cases hm
  refine ⟨?_, by rw [h.line_concat, startsAt_congr hs, hline]⟩
  intro i j u v hu hv hsu hsv hbu hbv
  rcases worker?_concat hw hu with hu | ⟨hi, rfl⟩
  · rcases worker?_concat hw hv with hv | ⟨hj, rfl⟩
    · exact h.single hu hv hsu hsv hbu hbv
    · exact absurd hbu (hidle hsv hu hsu)
  · rcases worker?_concat hw hv with hv | ⟨hj, rfl⟩
    · exact absurd hbv (hidle hsu hv hsv)
    · exact hi.trans hj.symm

/-- What a step does keeps the jobs in line, if it queues at a quiet scope. -/
theorem effect (h : d.InLine scope queued) (hown : d.OwnScope) (hr : d.Registered)
    (he : Effect d d' more)
    (hq : ∀ job, more = some job → job.script.scope = scope → d.Quiet scope) :
    d'.InLine scope (queued ++ more.toList) := by
  cases he with
  | none hw hs =>
    have hworker : ∀ n, d'.worker? n = d.worker? n := fun n => by rw [worker?, hw, worker?]
    refine ⟨fun hu hv => h.single (hworker _ ▸ hu) (hworker _ ▸ hv), ?_⟩
    rw [Option.toList_none, List.append_nil, h.line, startsAt_congr hs, lineAt, lineAt, hw]
  | turn hc hj hl hs =>
    refine (List.append_nil queued).symm ▸ h.kept hc (fun hb hnil => hb ?_) hl hs
    exact List.perm_nil.mp (hnil ▸ hj)
  | start hc hj hl hs => exact (List.append_nil queued).symm ▸ h.started hown hc hj hl hs
  | finish hc hj hl hs =>
    refine (List.append_nil queued).symm ▸ h.kept hc (fun hb hnil => hb ?_) hl hs
    exact (List.append_eq_nil_iff.mp (hj ▸ hnil)).1
  | send hqueue hc _ hl hs => exact h.sent hr (hq _ rfl) hqueue hc hl hs
  | spawn hqueue hw hs => exact h.spawned (hq _ rfl) (hr.queue?_eq_none hqueue) hw hs

/-- So does a step. -/
theorem step (h : d.InLine scope queued) (hown : d.OwnScope) (hr : d.Registered)
    (s : DispatchStep) (hq : ∀ job, s.job? = some job → job.script.scope = scope → d.Quiet scope) :
    (d.step s).InLine scope (queued ++ s.job?.toList) := by
  rcases d.step_moves s with ⟨hs, hjob⟩ | hs
  · rw [hs, hjob]
    exact (List.append_nil queued).symm ▸ h
  · exact h.effect hown hr hs.effect hq

end InLine

theorem ownScope_run (steps : List DispatchStep) : (run {} steps).OwnScope := by
  refine OwnScope.run (fun n w h => ?_) .empty steps
  cases h

/-- Jobs are queued at the scope only while it is quiet. -/
def Undisturbed (steps : List DispatchStep) (scope : ScopePath) : Prop :=
  ∀ before job after, steps = before ++ .dispatch job :: after → job.script.scope = scope →
    (run {} before).Quiet scope

/-- Jobs that are queued at quiet scopes stand in line after any steps. -/
theorem inLine_run {steps : List DispatchStep} (h : Undisturbed steps scope) :
    (run {} steps).InLine scope (dispatchedBy steps) := by
  induction steps using List.reverseRecOn with
  | nil => exact ⟨nofun, rfl⟩
  | append_singleton steps s ih =>
    have hsteps : Undisturbed steps scope := fun before job after hb =>
      h before job (after ++ [s]) (by rw [hb, List.append_assoc]; rfl)
    have hqueued : dispatchedBy (steps ++ [s]) = dispatchedBy steps ++ s.job?.toList := by
      rw [dispatchedBy, List.filterMap_append]
      cases hs : s.job? <;> simp [dispatchedBy, hs]
    rw [run_append, hqueued]
    refine (ih hsteps).step (ownScope_run steps) (registered_run steps) s fun job hjob hscope => ?_
    refine h steps job [] ?_ hscope
    cases s <;> cases hjob
    rfl

/-- The worker of this number runs a job whose script is defined at the scope. -/
def RunsAt (d : Dispatcher) (scope : ScopePath) (n : Nat) : Prop :=
  ∃ w job, d.worker? n = some w ∧ w.status = .running job ∧ job.script.scope = scope

/-- The jobs of the scope that were started are the first that were queued, and no two of
them run at once. -/
structure InOrder (steps : List DispatchStep) (scope : ScopePath) : Prop where
  order : (run {} steps).startsAt scope <+: jobsAt scope (dispatchedBy steps)
  alone : ∀ {n m}, (run {} steps).RunsAt scope n → (run {} steps).RunsAt scope m → n = m

/-- Jobs in line are started in their order, one at a time. -/
theorem InLine.inOrder {steps : List DispatchStep}
    (h : (run {} steps).InLine scope (dispatchedBy steps)) : InOrder steps scope where
  order := ⟨_, h.line.symm⟩
  alone := by
    have busy : ∀ {n}, (run {} steps).RunsAt scope n →
        ∃ w, (run {} steps).worker? n = some w ∧ w.scope = scope ∧ w.Busy := by
      rintro n ⟨w, job, hw, hs, hscope⟩
      have hmem : job ∈ w.jobs :=
        List.mem_append_right _ (by simp [QueueWorker.current?, hs])
      refine ⟨w, hw, ?_, List.ne_nil_of_mem hmem⟩
      rw [← hscope, ownScope_run steps n w hw job hmem]
    intro n m hn hm
    obtain ⟨w, hw, hsw, hbw⟩ := busy hn
    obtain ⟨v, hv, hsv, hbv⟩ := busy hm
    exact h.single hw hv hsw hsv hbw hbv

/-! ## Overlaps -/

/-- The steps with which a worker that has a job comes to run one, whatever it does now. -/
def startSteps (n : Nat) : List DispatchStep := [.receive n, .lookAgain n, .start n]

/-- A worker is brought to run without the others. -/
theorem startSteps_other (d : Dispatcher) (hne : n ≠ m) :
    (d.run (startSteps n)).worker? m = d.worker? m := by
  have hupdate : ∀ (d : Dispatcher) (f : QueueWorker → QueueWorker),
      (d.update n f).worker? m = d.worker? m :=
    fun d f => (worker?_update d n m f).trans (if_neg hne)
  have hreceive : ∀ d : Dispatcher, (d.receive n).worker? m = d.worker? m := by
    intro d
    unfold receive
    split
    · exact hupdate d _
    · rfl
  have hlook : ∀ d : Dispatcher, (d.lookAgain n).worker? m = d.worker? m := by
    intro d
    unfold lookAgain
    split
    · exact hupdate d _
    · rw [worker?, unregister_workers]
      exact hupdate d _
    · rfl
  have hstart : ∀ d : Dispatcher, (d.start n).worker? m = d.worker? m := by
    intro d
    unfold start
    split
    · exact hupdate d _
    · rfl
  exact ((hstart _).trans (hlook _)).trans (hreceive d)

theorem receive_eq_self (hw : d.worker? n = some w) (hs : w.status ≠ .waiting) :
    d.receive n = d := by
  unfold receive
  split
  · rename_i h
    cases hw.symm.trans h
    exact absurd rfl hs
  · rfl

theorem lookAgain_eq_self (hw : d.worker? n = some w) (hs : w.status ≠ .timedOut) :
    d.lookAgain n = d := by
  unfold lookAgain
  split
  case h_3 => rfl
  all_goals
    rename_i h
    cases hw.symm.trans h
    exact absurd rfl hs

/-- A busy worker is brought to run a job. -/
theorem startSteps_own (hw : d.worker? n = some w) (hb : w.Busy) :
    ∃ w' job, (d.run (startSteps n)).worker? n = some w' ∧ w'.status = .running job ∧
      w'.scope = w.scope := by
  have taken : ∀ {d : Dispatcher} {scope job rest closed status},
      d.worker? n = some ⟨scope, job :: rest, closed, status⟩ →
      (d.take n job rest).worker? n = some ⟨scope, rest, closed, .received job⟩ := by
    intro d scope job rest closed status h
    rw [take, worker?_update, if_pos rfl, h]
    rfl
  have started : ∀ {d : Dispatcher} {scope pending closed job},
      d.worker? n = some ⟨scope, pending, closed, .received job⟩ →
      (d.start n).worker? n = some ⟨scope, pending, closed, .running job⟩ := by
    intro d scope pending closed job h
    have hturn := worker?_update d n n fun w => { w with status := .running job }
    rw [if_pos rfl, h] at hturn
    rw [start, h]
    exact hturn
  obtain ⟨scope, pending, closed, status⟩ := w
  have steps : d.run (startSteps n) = ((d.receive n).lookAgain n).start n := rfl
  cases status with
  | waiting =>
    cases pending with
    | nil => exact absurd rfl hb
    | cons job rest =>
      have hreceive : d.receive n = d.take n job rest := by rw [receive, hw]
      rw [steps, hreceive, lookAgain_eq_self (taken hw) nofun]
      exact ⟨_, job, started (taken hw), rfl, rfl⟩
  | timedOut =>
    cases pending with
    | nil => exact absurd rfl hb
    | cons job rest =>
      have hlook : d.lookAgain n = d.take n job rest := by rw [lookAgain, hw]
      rw [steps, receive_eq_self hw nofun, hlook]
      exact ⟨_, job, started (taken hw), rfl, rfl⟩
  | received job =>
    rw [steps, receive_eq_self hw nofun, lookAgain_eq_self hw nofun]
    exact ⟨_, job, started hw, rfl, rfl⟩
  | running job =>
    have hstart : d.start n = d := by rw [start, hw]
    rw [steps, receive_eq_self hw nofun, lookAgain_eq_self hw nofun, hstart]
    exact ⟨_, job, hw, rfl, rfl⟩
  | retired => exact absurd rfl hb

/-- A job that is queued goes to the worker of the queue or to a new one, and leaves the
others as they are. -/
theorem enqueue_busy (hr : d.Registered) (job : QueuedJob) :
    ∃ m v, (d.enqueue job).worker? m = some v ∧ v.scope = job.script.scope ∧ v.Busy ∧
      (d.queue? job.script.scope = some m ∨ m = d.workers.length) ∧
      ∀ n w, n ≠ m → d.worker? n = some w → (d.enqueue job).worker? n = some w := by
  obtain ⟨-, hnone⟩ | hmoves := d.step_moves (.dispatch job)
  · cases hnone
  have heffect : Effect d (d.enqueue job) (some job) := hmoves.effect
  cases heffect with
  | @send m w w' _ hq hc hj =>
    refine ⟨m, w', by rw [hc.worker?, if_pos rfl], ?_, ?_, .inl hq, ?_⟩
    · exact hc.scope.trans (hr.scope_of_queue? hq hc.before)
    · exact List.ne_nil_of_mem (hj.mem_iff.mpr List.mem_cons_self)
    · intro n v hne hv
      rw [hc.worker?, if_neg hne.symm, hv]
  | spawn hq hw =>
    refine ⟨d.workers.length, ⟨job.script.scope, [job], false, .waiting⟩, ?_, rfl,
      List.cons_ne_nil _ _, .inr rfl, ?_⟩
    · rw [worker?, hw, List.getElem?_concat_length]
    · intro n v _ hv
      rw [worker?, hw, List.getElem?_append_left (lt_of_worker? hv)]
      exact hv

/-- A running job of a worker is one of its scope. -/
theorem runsAt_of_running {steps : List DispatchStep} (hw : (run {} steps).worker? n = some w)
    (hs : w.status = .running job) (hscope : w.scope = scope) :
    (run {} steps).RunsAt scope n := by
  have hmem : job ∈ w.jobs := List.mem_append_right _ (by simp [QueueWorker.current?, hs])
  exact ⟨w, job, hw, hs, (ownScope_run steps n w hw job hmem).trans hscope⟩

/-- If a job is queued at a scope that is not quiet, it can come about that two jobs of the
scope run at once. -/
theorem overlap_of_not_quiet {steps : List DispatchStep} (h : ¬ (run {} steps).Quiet scope)
    (hj : job.script.scope = scope) :
    ∃ n m, ¬ InOrder (steps ++ .dispatch job :: (startSteps n ++ startSteps m)) scope := by
  simp only [Quiet, not_forall] at h
  obtain ⟨n, w, hw, hsw, hbw, hq⟩ := h
  obtain ⟨m, v, hv, hsv, hbv, hm, hothers⟩ := enqueue_busy (registered_run steps) job
  have hne : n ≠ m := by
    rintro rfl
    rcases hm with hm | rfl
    · exact hq (hj ▸ hm)
    · exact Nat.lt_irrefl _ (lt_of_worker? hw)
  obtain ⟨w', job', hw', hsw', hscope'⟩ := startSteps_own (hothers n w hne hw) hbw
  have hv' := (startSteps_other ((run {} steps).enqueue job) hne).trans hv
  obtain ⟨v', job'', hv'', hsv'', hscope''⟩ := startSteps_own hv' hbv
  have hw'' := (startSteps_other _ hne.symm).trans hw'
  have hrun : run {} (steps ++ .dispatch job :: (startSteps n ++ startSteps m)) =
      (((run {} steps).enqueue job).run (startSteps n)).run (startSteps m) := by
    rw [run_append, run_cons, run_append, step]
  rw [← hrun] at hw'' hv''
  refine ⟨n, m, fun hin => hne (hin.alone ?_ ?_)⟩
  · exact runsAt_of_running hw'' hsw' (hscope'.trans hsw)
  · exact runsAt_of_running hv'' hsv'' (hscope''.trans (hsv.trans hj))

/-! ## Order -/

/-- As long as jobs are queued at a scope only while it is quiet, they are started in their
order and never overlap; and this is so of a job, whatever happens before the next one is
queued, exactly if the scope is quiet when it is queued. -/
theorem jobs_in_order_iff (steps : List DispatchStep) (scope : ScopePath) :
    (Undisturbed steps scope → InOrder steps scope) ∧
    (Undisturbed steps scope ↔ ∀ before job after more, steps = before ++ .dispatch job :: after →
      job.script.scope = scope → (∀ s ∈ more, s.job? = none) →
      InOrder (before ++ .dispatch job :: more) scope) := by
  refine ⟨fun h => (inLine_run h).inOrder, fun h before job after more hs hj hmore => ?_,
    fun h before job after hs hj => ?_⟩
  · refine (inLine_run fun before' job' after' hs' hj' => ?_).inOrder
    -- the job was queued before this one, or is this one
    rcases List.append_eq_append_iff.mp hs' with ⟨chunk, rfl, hchunk⟩ | ⟨chunk, rfl, hchunk⟩
    · cases chunk with
      | nil => exact (List.append_nil before).symm ▸ h before job after hs hj
      | cons s chunk =>
        cases hchunk
        have hnone := hmore (.dispatch job') (List.mem_append_right _ List.mem_cons_self)
        cases hnone
    · cases chunk with
      | nil => exact h before' job after (hs.trans (by rw [List.append_nil])) hj
      | cons s chunk =>
        cases hchunk
        refine h before' job' (chunk ++ .dispatch job :: after) ?_ hj'
        rw [hs, List.append_assoc]
        rfl
  · by_contra hquiet
    obtain ⟨n, m, hover⟩ := overlap_of_not_quiet hquiet hj
    refine hover (h before job after _ hs hj ?_)
    simp [startSteps, DispatchStep.job?]

def rootJob (event : String) : QueuedJob :=
  ⟨⟨.root, "script", "", "", true, true, [], {}⟩, event, .root, [], []⟩

/-- The second of two jobs is queued while a shutdown call waits for the first. -/
def overlapSteps : List DispatchStep :=
  .dispatch (rootJob "first") :: startSteps 0 ++
    .drain :: .dropSender 0 0 :: .dispatch (rootJob "second") :: startSteps 1

/-- A job at the root, a shutdown call while it runs, and another job at the root from
elsewhere. -/
theorem overlap_at_shutdown : ¬ InOrder overlapSteps .root := by
  intro h
  have hfirst : (run {} overlapSteps).RunsAt .root 0 := ⟨_, rootJob "first", rfl, rfl, rfl⟩
  have hsecond : (run {} overlapSteps).RunsAt .root 1 := ⟨_, rootJob "second", rfl, rfl, rfl⟩
  cases h.alone hfirst hsecond

end Dispatcher

end ScriptHooks

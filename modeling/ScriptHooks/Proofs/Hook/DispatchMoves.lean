/-
ScriptHooks.Proofs.Hook.DispatchMoves — what the steps of callers and workers do.

A dispatcher is changed by callers that queue jobs, by workers that wait, look again, run a job or
retire, and by shutdown calls that take the queues, close them one by one and wait. Each of these is
a step of its own, and steps of different parties come in any order.

`Moves` has one case for each thing that a step can do, with all that holds when it is
done; `step_moves` finds the case of every step that is possible, and a step that is not
possible changes nothing. What holds of every run is derived from the cases, and no later
proof looks at how a step is computed.

`Registered` is such an invariant: the queue of a scope belongs to a worker of that scope
that is neither closed nor retired, and the workers that a shutdown call has to close have
no queue. It has a lemma for each change that the cases of `Moves` are made of: a worker is
updated, a queue is added, taken or drained, a shutdown call drops a sender or joins a
worker. The lock of the dispatcher is why it holds: a worker retires and takes its queue
away in one step.

`settle` and `closeAll` are runs too, so that what holds of every run holds of them
(`exists_run_settle`, `exists_run_closeAll`). They are what a program does that runs its
callers and workers one after the other.
-/
import ScriptHooks.Hook.Dispatcher

namespace ScriptHooks

/-- The worker has left its loop and takes no more jobs. -/
def QueueWorker.isRetired (w : QueueWorker) : Bool :=
  match w.status with
  | .retired => true
  | _ => false

theorem QueueWorker.isRetired_iff {w : QueueWorker} : w.isRetired = true ↔ w.status = .retired := by
  unfold isRetired
  split <;> simp_all

def DispatchStep.job? : DispatchStep → Option QueuedJob
  | .dispatch job => some job
  | _ => none

namespace Dispatcher

/-! ## Moves -/

/-- What a step of a caller or worker does, if it is possible. -/
inductive Moves (d : Dispatcher) : DispatchStep → Dispatcher → Prop
  /-- There is no queue for the scope, or its worker is gone. -/
  | spawn (h : ∀ n, d.queue? job.script.scope = some n → d.send? n job = none) :
      Moves d (.dispatch job) (d.spawn job)
  | send (hq : d.queue? job.script.scope = some n) (hs : d.send? n job = some sent) :
      Moves d (.dispatch job) sent
  | drain : Moves d .drain d.drain
  | dropSender (hc : d.calls[call]? = some ⟨held, none⟩) (hn : n ∈ held) :
      Moves d (.dropSender call n)
        { d.close n with calls := d.calls.set call ⟨held.erase n, some n⟩ }
  | join (hc : d.calls[call]? = some ⟨held, some n⟩) (hw : d.worker? n = some w)
      (hs : w.isRetired = true) :
      Moves d (.join call) { d with calls := d.calls.set call ⟨held, none⟩ }
  | receive (hw : d.worker? n = some ⟨scope, job :: rest, closed, .waiting⟩) :
      Moves d (.receive n) (d.take n job rest)
  | start (hw : d.worker? n = some ⟨scope, pending, closed, .received job⟩) :
      Moves d (.start n) { d.turn n (.running job) with started := (n, job) :: d.started }
  | finish (hw : d.worker? n = some ⟨scope, pending, closed, .running job⟩) :
      Moves d (.finish n outcome) { d.turn n .waiting with finished := (n, job) :: d.finished }
  | timeOut (hw : d.worker? n = some ⟨scope, pending, closed, .waiting⟩) :
      Moves d (.timeOut n) (d.turn n .timedOut)
  | found (hw : d.worker? n = some ⟨scope, job :: rest, closed, .timedOut⟩) :
      Moves d (.lookAgain n) (d.take n job rest)
  | retire (hw : d.worker? n = some ⟨scope, [], closed, .timedOut⟩) :
      Moves d (.lookAgain n) ((d.turn n .retired).unregister scope n)
  | leave (hw : d.worker? n = some ⟨scope, [], true, .waiting⟩) :
      Moves d (.leave n) (d.turn n .retired)

/-- A step that is not possible changes nothing. Jobs can always be queued. -/
theorem step_moves (d : Dispatcher) (s : DispatchStep) :
    (d.step s = d ∧ s.job? = none) ∨ Moves d s (d.step s) := by
  cases s with
  | dispatch job =>
    refine .inr ?_
    rw [step, enqueue]
    split
    · rename_i sent hsend
      obtain ⟨n, hq, hs⟩ := Option.bind_eq_some_iff.mp hsend
      exact .send hq hs
    · rename_i hnone
      exact .spawn (Option.bind_eq_none_iff.mp hnone)
  | drain => exact .inr .drain
  | dropSender call n =>
    dsimp only [step]
    unfold dropSender
    split
    · split
      · exact .inr (.dropSender ‹_› (List.contains_iff_mem.mp ‹_›))
      · exact .inl ⟨rfl, rfl⟩
    · exact .inl ⟨rfl, rfl⟩
  | join call =>
    dsimp only [step]
    unfold join
    split
    · split
      · exact .inr (.join ‹_› ‹_› rfl)
      · exact .inl ⟨rfl, rfl⟩
    · exact .inl ⟨rfl, rfl⟩
  | receive n =>
    dsimp only [step]
    unfold receive
    split
    · exact .inr (.receive ‹_›)
    · exact .inl ⟨rfl, rfl⟩
  | start n =>
    dsimp only [step]
    unfold start
    split
    · exact .inr (.start ‹_›)
    · exact .inl ⟨rfl, rfl⟩
  | finish n outcome =>
    dsimp only [step]
    unfold finish
    split
    · exact .inr (.finish ‹_›)
    · exact .inl ⟨rfl, rfl⟩
  | timeOut n =>
    dsimp only [step]
    unfold timeOut
    split
    · exact .inr (.timeOut ‹_›)
    · exact .inl ⟨rfl, rfl⟩
  | lookAgain n =>
    dsimp only [step]
    unfold lookAgain
    split
    · exact .inr (.found ‹_›)
    · exact .inr (.retire ‹_›)
    · exact .inl ⟨rfl, rfl⟩
  | leave n =>
    dsimp only [step]
    unfold leave
    split
    · exact .inr (.leave ‹_›)
    · exact .inl ⟨rfl, rfl⟩

/-! ## Workers and queues -/

/-- One worker is updated. -/
theorem worker?_update (d : Dispatcher) (n m : Nat) (f : QueueWorker → QueueWorker) :
    (d.update n f).worker? m = if n = m then (d.worker? m).map f else d.worker? m := by
  rw [worker?, worker?, update, List.getElem?_modify]
  split
  · rfl
  · exact Option.map_id'

theorem lt_of_worker? {d : Dispatcher} (h : d.worker? n = some w) : n < d.workers.length :=
  (List.getElem?_eq_some_iff.mp h).1

theorem mem_of_queue? {d : Dispatcher} (h : d.queue? scope = some n) : (scope, n) ∈ d.queues := by
  obtain ⟨entry, he, rfl⟩ := Option.map_eq_some_iff.mp h
  have hs : entry.1 = scope := by simpa using List.find?_some he
  have hm := List.mem_of_find?_eq_some he
  rw [← hs]
  exact hm

/-- A scope has one queue. -/
theorem queue?_of_mem {d : Dispatcher} (hk : (d.queues.map (·.1)).Nodup)
    (h : (scope, n) ∈ d.queues) : d.queue? scope = some n := by
  rw [queue?]
  generalize d.queues = queues at hk h ⊢
  induction queues with
  | nil => cases h
  | cons entry queues ih =>
    obtain ⟨hnot, hk⟩ := List.nodup_cons.mp hk
    rw [List.find?_cons]
    rcases List.mem_cons.mp h with rfl | h
    · simp
    · have hne : entry.1 ≠ scope := by
        rintro rfl
        exact hnot (List.mem_map.mpr ⟨_, h, rfl⟩)
      simp only [hne, decide_false]
      exact ih hk h

/-- The queue of one scope is taken away. -/
theorem mem_withoutQueue {queues : List (ScopePath × Nat)} :
    entry ∈ withoutQueue scope queues ↔ entry ∈ queues ∧ entry.1 ≠ scope := by
  simp [withoutQueue]

theorem withoutQueue_sublist (scope : ScopePath) (queues : List (ScopePath × Nat)) :
    List.Sublist (withoutQueue scope queues) queues := List.filter_sublist

theorem unregister_workers (d : Dispatcher) (scope : ScopePath) (n : Nat) :
    (d.unregister scope n).workers = d.workers := by
  unfold unregister
  split <;> rfl

theorem unregister_started (d : Dispatcher) (scope : ScopePath) (n : Nat) :
    (d.unregister scope n).started = d.started := by
  unfold unregister
  split <;> rfl

theorem unregister_finished (d : Dispatcher) (scope : ScopePath) (n : Nat) :
    (d.unregister scope n).finished = d.finished := by
  unfold unregister
  split <;> rfl

/-- A job can be sent to a worker that has not retired. -/
theorem send?_eq_some {d : Dispatcher} : d.send? n job = some sent ↔
    ∃ w, d.worker? n = some w ∧ w.isRetired = false ∧
      sent = d.update n fun w => { w with pending := w.pending ++ [job] } := by
  unfold send?
  split
  case h_1 hw => simp [hw]
  case h_2 hw =>
    rw [hw]
    refine iff_of_false nofun ?_
    rintro ⟨w, ⟨⟩, ⟨⟩, -⟩
  case h_3 w hr hw =>
    rw [hw]
    have hr : w.isRetired = false := by
      refine Bool.eq_false_iff.mpr fun h => ?_
      obtain ⟨scope, pending, closed, status⟩ := w
      cases QueueWorker.isRetired_iff.mp h
      exact hr _ _ _ rfl
    constructor
    · intro hs
      exact ⟨w, rfl, hr, (Option.some.inj hs).symm⟩
    · rintro ⟨_, _, _, rfl⟩
      rfl

/-- The worker has this scope and can be sent jobs. -/
def IsOpen (d : Dispatcher) (scope : ScopePath) (n : Nat) : Prop :=
  ∃ w, d.worker? n = some w ∧ w.scope = scope ∧ w.closed = false ∧ w.isRetired = false

/-- A worker that is open takes jobs. -/
theorem IsOpen.send {d : Dispatcher} (h : d.IsOpen scope n) (job : QueuedJob) :
    (d.send? n job).isSome = true := by
  obtain ⟨w, hw, -, -, hr⟩ := h
  rw [send?_eq_some.mpr ⟨w, hw, hr, rfl⟩]
  rfl

/-- How the queues belong to the workers. -/
structure Registered (d : Dispatcher) : Prop where
  keys : (d.queues.map (·.1)).Nodup
  isOpen : ∀ {scope n}, (scope, n) ∈ d.queues → d.IsOpen scope n
  closing : ∀ {call n}, call ∈ d.calls → n ∈ call.held →
    n < d.workers.length ∧ ∀ scope, (scope, n) ∉ d.queues

namespace Registered

variable {d d' : Dispatcher}

theorem empty : Registered {} := ⟨.nil, nofun, nofun⟩

/-- A change of one worker, if it keeps it open where it has a queue. -/
theorem update (h : d.Registered) {f : QueueWorker → QueueWorker} (hw : d.worker? n = some w)
    (hf : ∀ scope, (scope, n) ∈ d.queues → w.closed = false → w.isRetired = false →
      (f w).scope = w.scope ∧ (f w).closed = false ∧ (f w).isRetired = false) :
    (d.update n f).Registered where
  keys := h.keys
  isOpen := by
    intro scope m hm
    obtain ⟨v, hv, hs, hc, hr⟩ := h.isOpen hm
    rw [IsOpen, worker?_update]
    by_cases hn : n = m
    · subst hn
      cases hw.symm.trans hv
      obtain ⟨hs', hc', hr'⟩ := hf scope hm hc hr
      exact ⟨f w, by rw [if_pos rfl, hw]; rfl, hs'.trans hs, hc', hr'⟩
    · exact ⟨v, by rw [if_neg hn, hv], hs, hc, hr⟩
  closing := by
    intro call m hc hm
    obtain ⟨hlt, hq⟩ := h.closing hc hm
    exact ⟨by simpa [Dispatcher.update] using hlt, hq⟩

theorem of_eq (h : d.Registered) (hq : d'.queues = d.queues) (hw : d'.workers = d.workers)
    (hc : ∀ call ∈ d'.calls, ∃ call' ∈ d.calls, ∀ n ∈ call.held, n ∈ call'.held) :
    d'.Registered where
  keys := hq ▸ h.keys
  isOpen := by
    intro scope n hm
    rw [IsOpen, worker?, hw]
    exact h.isOpen (hq ▸ hm)
  closing := by
    intro call n hcall hn
    obtain ⟨call', hcall', hsub⟩ := hc call hcall
    rw [hq, hw]
    exact h.closing hcall' (hsub n hn)

/-- The workers that have queues do not look at what is noted of their jobs. -/
theorem noting (h : d.Registered) (started finished : List (Nat × QueuedJob)) :
    Registered { d with started := started, finished := finished } :=
  h.of_eq rfl rfl fun call hc => ⟨call, hc, fun _ hn => hn⟩

/-- A worker comes to another status, and does not retire. -/
theorem turn (h : d.Registered) (hw : d.worker? n = some w) (hs : status ≠ .retired) :
    (d.turn n status).Registered := by
  refine h.update hw fun _ _ hc _ => ⟨rfl, hc, ?_⟩
  exact Bool.eq_false_iff.mpr fun h => hs (QueueWorker.isRetired_iff.mp h)

/-- A queue is taken away if it belongs to the worker. -/
theorem unregister (h : d.Registered) (scope : ScopePath) (n : Nat) :
    (d.unregister scope n).Registered := by
  unfold Dispatcher.unregister
  split
  · have hsub := withoutQueue_sublist scope d.queues
    exact ⟨h.keys.sublist (hsub.map _), fun hm => h.isOpen (hsub.subset hm),
      fun hc hm => ⟨(h.closing hc hm).1, fun s hs => (h.closing hc hm).2 s (hsub.subset hs)⟩⟩
  · exact h

/-- A worker of the scope that is unregistered has no queue. -/
theorem not_mem_unregister (h : d.Registered) (hw : d.worker? n = some w) (scope : ScopePath) :
    (scope, n) ∉ (d.unregister w.scope n).queues := by
  intro hm
  unfold Dispatcher.unregister at hm
  split at hm
  · obtain ⟨hm, hne⟩ := mem_withoutQueue.mp hm
    obtain ⟨v, hv, hs, -⟩ := h.isOpen hm
    cases hw.symm.trans hv
    exact hne hs.symm
  · rename_i hq
    obtain ⟨v, hv, hs, -⟩ := h.isOpen hm
    cases hw.symm.trans hv
    exact hq (queue?_of_mem h.keys (hs ▸ hm))

/-- A job for a scope without a queue gets a worker and a queue. -/
theorem spawn (h : d.Registered) (job : QueuedJob) : (d.spawn job).Registered where
  keys := by
    have hk : ((withoutQueue job.script.scope d.queues).map (·.1)).Nodup :=
      h.keys.sublist ((withoutQueue_sublist _ _).map _)
    rw [Dispatcher.spawn, List.map_append]
    refine List.nodup_append.mpr ⟨hk, by simp, ?_⟩
    intro a ha b hb
    obtain ⟨entry, he, rfl⟩ := List.mem_map.mp ha
    rw [List.mem_singleton.mp hb]
    exact (mem_withoutQueue.mp he).2
  isOpen := by
    intro scope n hm
    rcases List.mem_append.mp hm with hm | hm
    · obtain ⟨w, hw, hopen⟩ := h.isOpen (mem_withoutQueue.mp hm).1
      refine ⟨w, ?_, hopen⟩
      exact (List.getElem?_append_left (lt_of_worker? hw)).trans hw
    · cases List.mem_singleton.mp hm
      exact ⟨_, List.getElem?_concat_length, rfl, rfl, rfl⟩
  closing := by
    intro call n hc hm
    obtain ⟨hlt, hq⟩ := h.closing hc hm
    refine ⟨by simp [Dispatcher.spawn]; omega, fun scope hs => ?_⟩
    rcases List.mem_append.mp hs with hs | hs
    · exact hq scope (mem_withoutQueue.mp hs).1
    · cases List.mem_singleton.mp hs
      exact Nat.lt_irrefl _ hlt

/-- A shutdown call takes all queues at once. -/
theorem drain (h : d.Registered) : d.drain.Registered where
  keys := .nil
  isOpen := nofun
  closing := by
    intro call n hc hn
    refine ⟨?_, fun _ => List.not_mem_nil⟩
    rcases List.mem_append.mp hc with hc | hc
    · exact (h.closing hc hn).1
    · cases List.mem_singleton.mp hc
      obtain ⟨entry, he, rfl⟩ := List.mem_map.mp hn
      obtain ⟨w, hw, -⟩ := h.isOpen he
      exact lt_of_worker? hw

/-- A shutdown call closes one of the workers that it holds. -/
theorem dropSender (h : d.Registered) (hc : d.calls[call]? = some ⟨held, none⟩) (hn : n ∈ held) :
    Registered { d.close n with calls := d.calls.set call ⟨held.erase n, some n⟩ } := by
  have hmem : ShutdownCall.mk held none ∈ d.calls := List.mem_of_getElem? hc
  obtain ⟨hlt, hq⟩ := h.closing hmem hn
  have hclose : (d.close n).Registered :=
    h.update (List.getElem?_eq_getElem hlt) fun scope hs => absurd hs (hq scope)
  refine hclose.of_eq rfl rfl fun c hc => ?_
  rcases List.mem_or_eq_of_mem_set hc with hc | rfl
  · exact ⟨c, hc, fun _ hn => hn⟩
  · exact ⟨_, hmem, fun _ hn => List.mem_of_mem_erase hn⟩

/-- A shutdown call has waited for a worker. -/
theorem join (h : d.Registered) (hc : d.calls[call]? = some ⟨held, joining⟩) :
    Registered { d with calls := d.calls.set call ⟨held, none⟩ } := by
  refine h.of_eq rfl rfl fun c hm => ?_
  rcases List.mem_or_eq_of_mem_set hm with hm | rfl
  · exact ⟨c, hm, fun _ hn => hn⟩
  · exact ⟨_, List.mem_of_getElem? hc, fun _ hn => hn⟩

/-- A worker that retires takes its queue away. -/
theorem retire (h : d.Registered) (hw : d.worker? n = some w) :
    ((d.turn n .retired).unregister w.scope n).Registered := by
  have hcomm : (d.turn n .retired).unregister w.scope n =
      (d.unregister w.scope n).turn n .retired := by
    unfold Dispatcher.unregister
    split <;> split <;> first | rfl | contradiction
  rw [hcomm]
  have hw' : (d.unregister w.scope n).worker? n = some w := by
    rw [worker?, unregister_workers]
    exact hw
  exact (h.unregister w.scope n).update hw' fun scope hs =>
    absurd hs (h.not_mem_unregister hw scope)

/-- Whatever callers and workers do, the queues belong to workers that are open. -/
theorem moves (h : d.Registered) (hm : Moves d s d') : d'.Registered := by
  cases hm with
  | spawn _ => exact h.spawn _
  | send _ hs =>
    obtain ⟨w, hw, _, rfl⟩ := send?_eq_some.mp hs
    exact h.update hw fun _ _ hc hr => ⟨rfl, hc, hr⟩
  | drain => exact h.drain
  | dropSender hc hn => exact h.dropSender hc hn
  | join hc _ _ => exact h.join hc
  | receive hw => exact h.update hw fun _ _ hc _ => ⟨rfl, hc, rfl⟩
  | start hw =>
    rename_i job
    have h' : (d.turn _ (.running job)).Registered := h.turn hw nofun
    exact h'.noting _ _
  | finish hw =>
    have h' : (d.turn _ .waiting).Registered := h.turn hw nofun
    exact h'.noting _ _
  | timeOut hw => exact h.turn hw nofun
  | found hw => exact h.update hw fun _ _ hc _ => ⟨rfl, hc, rfl⟩
  | retire hw => exact h.retire hw
  | leave hw => exact h.update hw fun _ _ hc _ => by cases hc

/-- Any step. -/
theorem step (h : d.Registered) (s : DispatchStep) : (d.step s).Registered := by
  rcases d.step_moves s with ⟨hs, -⟩ | hs
  · rw [hs]
    exact h
  · exact h.moves hs

theorem run (h : d.Registered) (steps : List DispatchStep) : (d.run steps).Registered := by
  induction steps generalizing d with
  | nil => exact h
  | cons s steps ih => exact ih (h.step s)

end Registered

/-- Queues belong to open workers after any steps. -/
theorem registered_run (steps : List DispatchStep) : (run {} steps).Registered :=
  Registered.empty.run steps

/-! ## Turns -/

theorem run_cons (d : Dispatcher) (s : DispatchStep) (steps : List DispatchStep) :
    d.run (s :: steps) = (d.step s).run steps := rfl

theorem run_append (d : Dispatcher) (steps more : List DispatchStep) :
    d.run (steps ++ more) = (d.run steps).run more := List.foldl_append

/-- Workers that take turns run, if each of them does. -/
theorem exists_run_foldl {f : Dispatcher → Nat → Dispatcher}
    (hf : ∀ d n, ∃ steps, f d n = d.run steps) (numbers : List Nat) (d : Dispatcher) :
    ∃ steps, numbers.foldl f d = d.run steps := by
  induction numbers generalizing d with
  | nil => exact ⟨[], rfl⟩
  | cons n numbers ih =>
    obtain ⟨first, hfirst⟩ := hf d n
    obtain ⟨rest, hrest⟩ := ih (f d n)
    exact ⟨first ++ rest, by rw [List.foldl_cons, hrest, hfirst, run_append]⟩

/-- Workers that run dry and retire take steps only. -/
theorem exists_run_settle (d : Dispatcher) (numbers : List Nat) :
    ∃ steps, d.settle numbers = d.run steps :=
  exists_run_foldl (fun _ _ => ⟨_, (run_append ..).symm⟩) numbers d

/-- So do a shutdown call and the workers that it waits for. -/
theorem exists_run_closeAll (d : Dispatcher) : ∃ steps, d.closeAll = d.run steps := by
  obtain ⟨steps, hsteps⟩ := exists_run_foldl
    (f := fun d' n => ((d'.step (.dropSender d.calls.length n)).runDry n).run
      [.leave n, .join d.calls.length])
    (fun d' n => ⟨.dropSender d.calls.length n ::
      (jobSteps n ((d'.step (.dropSender d.calls.length n)).backlog n) ++
        [.leave n, .join d.calls.length]), by rw [runDry, ← run_append]; rfl⟩)
    (d.queues.map (·.2)) (d.step .drain)
  exact ⟨.drain :: steps, hsteps⟩

end Dispatcher

end ScriptHooks

/-
ScriptHooks.Proofs.Hook.AuthoringRaces — what authors who work at once leave in the store.

Each access to the store is under its lock, but a request may take several. Whoever switches a
script reads it, switches what was read, and saves that. In between another author may change it.

A call settles with the step after which it does not touch the store any more. What a call is
about to save is stale if the script has changed since the call read it, in more than its
switch (`isStale`). If no call saves anything stale, the store is that of the requests one
after the other, in the order in which their calls settle (`store_run`). Of two calls, one that
does undoes the other: the store is that of neither order (`stale_save_differs`).

  §1 Alone    — a call with whom nobody interferes does what `Service.author` does;
  §2 Stores   — what a request makes of a store;
  §3 Steps    — what a step makes of the store, and which calls it settles;
  §4 Runs     — the order in which calls settle, and the store after a run;
  §5 Two      — `store_serial_iff`.

Staleness is judged at the step that saves, by a look at the store then. A script that is the
same but for its switch is not stale, since saving it leaves what the switch alone would leave
(`get_author_enable`); so two authors who switch one script never undo each other.

The run lemma goes through the schedule from its front. A step that settles a call makes of the
store what its request makes of it, the steps before leave it alone, and a call settles once
(`nodup_settlingOrder`). So the requests in the order of settling are a serial run.

For the converse, two calls have one first stale save (`exists_first_overwrite`). When it
happens, the other call has settled in between, and with it both have
(`isSettled_of_other_settled`). What is in the store is then what a switch made of the script as it
was before the other request, and no order of the two gives that.
-/
import Mathlib.Data.List.Permutation
import ScriptHooks.Hook.Authoring
import ScriptHooks.Proofs.Hook.StoreHistory

namespace ScriptHooks

/-! ## Alone -/

namespace SharedService

theorem run_cons (s : SharedService) (number : Nat) (rest : List Nat) :
    s.run (number :: rest) = (s.step number).run rest := rfl

theorem run_append (s : SharedService) (before after : List Nat) :
    s.run (before ++ after) = (s.run before).run after := List.foldl_append

/-- A call takes three steps at most. Nobody interferes, and it comes to what the request
does at once. -/
theorem run_alone (service : Service) (request : AuthoringRequest) :
    (start service [request]).run [0, 0, 0] =
      { service := (service.author request).service
        calls := [⟨request, .returned (service.author request).outcome,
          (service.author request).effects⟩] } := by
  cases request with
  | submit draft =>
    rcases hchecked : draft.checked service.runtime with ⟨error | definition, effects⟩
    · simp [run, start, step, call?, AuthoringCall.advance, Service.author, Reply.map,
        Service.submitScript, hchecked, Except.map]
    · cases hobsolete : service.store.obsoletedBy definition <;>
        simp [run, start, step, call?, AuthoringCall.advance, Service.author, Reply.map,
          Service.submitScript, Service.keep, hchecked, hobsolete, Except.map]
  | enable id enabled =>
    cases hget : service.store.get id <;>
      simp [run, start, step, call?, AuthoringCall.advance, Service.author, Reply.map,
        Service.enable, hget, Except.map]
  | withdraw id =>
    cases hget : service.store.get id <;>
      simp [run, start, step, call?, AuthoringCall.advance, Service.author, Reply.map,
        Service.withdraw, hget, Except.map]

end SharedService

/-! ## Stores -/

/-- The changes that a request makes of a store: one, or none. -/
def AuthoringRequest.changes (runtime : ScriptRuntime) (store : ScriptStore) :
    AuthoringRequest → List StoreStep
  | .submit draft =>
    match (draft.checked runtime).1 with
    | .ok definition => [.save definition]
    | .error _ => []
  | .enable id enabled =>
    match store.get id with
    | some definition => [.save (definition.switched enabled)]
    | none => []
  | .withdraw id => [.delete id]

/-- The last switch counts. -/
@[simp] theorem ScriptDefinition.switched_switched (definition : ScriptDefinition) (a b : Bool) :
    (definition.switched a).switched b = definition.switched b := rfl

@[simp] theorem ScriptDefinition.switched_id (definition : ScriptDefinition) (enabled : Bool) :
    (definition.switched enabled).id = definition.id := rfl

namespace ScriptStore

/-- The store after a request. -/
def author (runtime : ScriptRuntime) (store : ScriptStore) (request : AuthoringRequest) :
    ScriptStore :=
  store.run (request.changes runtime store)

variable {runtime : ScriptRuntime} {store : ScriptStore} {id : ScriptId} {enabled : Bool}
  {definition old : ScriptDefinition}

theorem Kept.id_of_get (h : store.Kept) (hget : store.get id = some definition) :
    definition.id = id :=
  (h.own _ ((Ordered.mem_iff_get? h.sorted).mpr hget)).symm

/-- Every request keeps the definitions in order. -/
theorem Kept.author (h : store.Kept) (request : AuthoringRequest) :
    (store.author runtime request).Kept :=
  h.run _

theorem get_save (definition : ScriptDefinition) (id : ScriptId) :
    (store.save definition).get id = if definition.id = id then some definition else store.get id :=
  get_step store (.save definition) id

/-- A draft that passes its checks is saved. -/
theorem author_submit {draft : ScriptDraft} (h : (draft.checked runtime).1 = .ok definition) :
    store.author runtime (.submit draft) = store.save definition := by
  simp [author, AuthoringRequest.changes, h, run, step]

/-- A script that is there is switched. -/
theorem author_enable (h : store.get id = some definition) :
    store.author runtime (.enable id enabled) = store.save (definition.switched enabled) := by
  simp [author, AuthoringRequest.changes, h, run, step]

theorem author_enable_none (h : store.get id = none) :
    store.author runtime (.enable id enabled) = store := by
  simp [author, AuthoringRequest.changes, h, run]

/-- What is kept under the identity of a script that is switched is switched. -/
theorem get_author_enable (h : store.Kept) (id other : ScriptId) (enabled : Bool) :
    (store.author runtime (.enable other enabled)).get id =
      if other = id then (store.get id).map (·.switched enabled) else store.get id := by
  cases hget : store.get other with
  | none =>
    rw [author_enable_none hget]
    split
    case isTrue heq => rw [← heq, hget]; rfl
    case isFalse => rfl
  | some definition =>
    rw [author_enable hget, get_save, ScriptDefinition.switched_id, h.id_of_get hget]
    split
    case isTrue heq => rw [← heq, hget]; rfl
    case isFalse => rfl

/-- Up to the switch, a request leaves the same whether or not a script was switched
before. -/
theorem get_author_save (h : store.Kept) (hold : store.get id = some old)
    (request : AuthoringRequest) :
    (((store.save (old.switched enabled)).author runtime request).get id).map
        (·.switched enabled) =
      ((store.author runtime request).get id).map (·.switched enabled) := by
  have hid : old.id = id := h.id_of_get hold
  have hsaved : (store.save (old.switched enabled)).get id = some (old.switched enabled) := by
    rw [get_save, ScriptDefinition.switched_id, if_pos hid]
  cases request with
  | submit draft =>
    rcases hchecked : (draft.checked runtime).1 with error | definition
    · simp [author, AuthoringRequest.changes, hchecked, run, hsaved, hold]
    · rw [author_submit hchecked, author_submit hchecked]
      simp only [get_save definition]
      split
      · rfl
      · rw [hsaved, hold]; rfl
  | enable other value =>
    have hkept : (store.save (old.switched enabled)).Kept := h.step (.save _)
    rw [get_author_enable h, get_author_enable hkept, hsaved, hold]
    split <;> rfl
  | withdraw other =>
    have hdelete : ∀ store : ScriptStore, (store.author runtime (.withdraw other)).get id =
        if other = id then none else store.get id :=
      fun store => get_step store (.delete other) id
    rw [hdelete, hdelete, hsaved, hold]
    split <;> rfl

/-- A script is switched as it was before another request, and saved after it. Unless that is
also what there would be to save by then, the store is that of neither order. -/
theorem stale_save_differs (h : store.Kept) (hold : store.get id = some old)
    {request : AuthoringRequest}
    (hstale : ((store.author runtime request).get id).map (·.switched enabled) ≠
      some (old.switched enabled)) :
    (store.author runtime request).save (old.switched enabled) ≠
        (store.author runtime request).author runtime (.enable id enabled) ∧
      (store.author runtime request).save (old.switched enabled) ≠
        (store.author runtime (.enable id enabled)).author runtime request := by
  have hsaved : ((store.author runtime request).save (old.switched enabled)).get id =
      some (old.switched enabled) := by
    rw [get_save, ScriptDefinition.switched_id, if_pos (h.id_of_get hold)]
  constructor
  · intro heq
    rw [heq, get_author_enable (h.author request), if_pos rfl] at hsaved
    exact hstale hsaved
  · intro heq
    rw [heq, author_enable hold] at hsaved
    rw [← get_author_save h hold, hsaved] at hstale
    exact hstale rfl

end ScriptStore

namespace Service

theorem author_runtime (service : Service) (request : AuthoringRequest) :
    (service.author request).service.runtime = service.runtime := by
  cases request with
  | submit draft =>
    simp only [author, Reply.map, submitScript]
    split <;> rfl
  | enable id enabled =>
    simp only [author, Reply.map, enable]
    split <;> rfl
  | withdraw id =>
    simp only [author, Reply.map, withdraw]
    split <;> rfl

/-- What a service makes of its store is what the request makes of it. -/
theorem author_store (service : Service) (request : AuthoringRequest) :
    (service.author request).service.store =
      service.store.author service.runtime request := by
  cases request with
  | submit draft =>
    rcases hchecked : draft.checked service.runtime with ⟨error | definition, effects⟩ <;>
      simp [author, Reply.map, submitScript, keep, ScriptStore.author, AuthoringRequest.changes,
        hchecked, ScriptStore.run, ScriptStore.step]
  | enable id enabled =>
    cases hget : service.store.get id <;>
      simp [author, Reply.map, enable, ScriptStore.author, AuthoringRequest.changes, hget,
        ScriptStore.run, ScriptStore.step]
  | withdraw id =>
    cases hget : service.store.get id <;>
      simp [author, Reply.map, withdraw, ScriptStore.author, AuthoringRequest.changes, hget,
        ScriptStore.run, ScriptStore.step]

end Service

/-! ## Steps -/

namespace AuthoringCall

/-- Whether a call does not touch the store any more. -/
def isSettled (call : AuthoringCall) : Bool :=
  match call.stage with
  | .begun | .submitting _ | .switching _ => false
  | .forgetting _ _ | .returned _ => true

/-- Whether a call is about to save something stale: had it read the store only now, it would
save something else, or nothing. -/
def isStale (store : ScriptStore) (call : AuthoringCall) : Bool :=
  match call.request, call.stage with
  | .enable id enabled, .switching definition =>
    decide ((store.get id).map (·.switched enabled) ≠ some definition)
  | _, _ => false

/-- What a call is about to save comes from its request. -/
def Faithful (runtime : ScriptRuntime) (call : AuthoringCall) : Prop :=
  match call.stage with
  | .submitting definition =>
    ∃ draft, call.request = .submit draft ∧ (draft.checked runtime).1 = .ok definition
  | .switching _ => ∃ id enabled, call.request = .enable id enabled
  | _ => True

variable {service : Service} {call : AuthoringCall}

/-- A call is for the same request throughout. -/
theorem advance_request : (call.advance service).2.request = call.request := by
  unfold advance
  split
  · split <;> rfl
  all_goals rfl

theorem advance_runtime : (call.advance service).1.runtime = service.runtime := by
  unfold advance
  split
  · split <;> rfl
  all_goals rfl

/-- Once a call is settled, its steps leave the store alone. -/
theorem advance_of_isSettled (h : call.isSettled = true) :
    (call.advance service).1.store = service.store ∧ (call.advance service).2.isSettled = true := by
  obtain ⟨request, stage, effects⟩ := call
  cases stage with
  | begun => cases h
  | submitting definition => cases h
  | switching definition => cases h
  | forgetting hash answer => exact ⟨rfl, rfl⟩
  | returned outcome => exact ⟨rfl, rfl⟩

/-- What a call is going to save is what its request asks for. -/
theorem Faithful.advance (h : call.Faithful service.runtime) :
    (call.advance service).2.Faithful service.runtime := by
  obtain ⟨request, stage, effects⟩ := call
  cases stage with
  | begun =>
    cases request with
    | submit draft =>
      rcases hchecked : draft.checked service.runtime with ⟨error | definition, effects⟩ <;>
        simp [AuthoringCall.advance, Faithful, hchecked]
    | enable id enabled =>
      cases hget : service.store.get id <;> simp [AuthoringCall.advance, Faithful, hget]
    | withdraw id =>
      cases hget : service.store.get id <;> simp [AuthoringCall.advance, Faithful, hget]
  | submitting definition =>
    cases hobsolete : service.store.obsoletedBy definition <;>
      simp [AuthoringCall.advance, Faithful, hobsolete]
  | switching definition => trivial
  | forgetting hash answer => trivial
  | returned outcome => trivial

/-- The step that settles a call makes of the store what the request makes of it; the steps
before it leave the store alone. -/
theorem store_advance (hfaithful : call.Faithful service.runtime)
    (hfresh : call.isStale service.store = false) (hunsettled : call.isSettled = false) :
    (call.advance service).1.store =
      if (call.advance service).2.isSettled then
        service.store.author service.runtime call.request
      else service.store := by
  obtain ⟨request, stage, effects⟩ := call
  cases stage with
  | begun =>
    cases request with
    | submit draft =>
      rcases hchecked : draft.checked service.runtime with ⟨error | definition, effects⟩
      · simp [advance, isSettled, hchecked, ScriptStore.author, AuthoringRequest.changes,
          ScriptStore.run]
      · simp [advance, isSettled, hchecked]
    | enable id enabled =>
      cases hget : service.store.get id with
      | none => simp [advance, isSettled, hget, ScriptStore.author_enable_none hget]
      | some definition => simp [advance, isSettled, hget]
    | withdraw id => cases hget : service.store.get id <;> simp [advance, isSettled, hget] <;> rfl
  | submitting definition =>
    obtain ⟨draft, rfl, hchecked⟩ := hfaithful
    rw [ScriptStore.author_submit hchecked]
    cases hobsolete : service.store.obsoletedBy definition <;>
      simp [advance, isSettled, hobsolete]
  | switching definition =>
    obtain ⟨id, enabled, rfl⟩ := hfaithful
    have hnow : (service.store.get id).map (·.switched enabled) = some definition := by
      simpa [isStale] using hfresh
    obtain ⟨old, hget, rfl⟩ := Option.map_eq_some_iff.mp hnow
    rw [ScriptStore.author_enable hget]
    rfl
  | forgetting hash answer => cases hunsettled
  | returned outcome => cases hunsettled

/-- What a call is going to save is what it just read, switched. -/
theorem read_of_advance {id : ScriptId} {enabled : Bool} {definition : ScriptDefinition}
    {effects : Effects}
    (h : (call.advance service).2 = ⟨.enable id enabled, .switching definition, effects⟩) :
    (service.store.get id).map (·.switched enabled) = some definition := by
  obtain ⟨request, stage, _⟩ := call
  cases stage with
  | begun =>
    cases request with
    | submit draft => simp [advance] at h
    | enable other value =>
      cases hget : service.store.get other with
      | none => simp [advance, hget] at h
      | some read =>
        simp only [advance, hget, mk.injEq, AuthoringRequest.enable.injEq,
          AuthoringStage.switching.injEq] at h
        obtain ⟨⟨rfl, rfl⟩, rfl, -⟩ := h
        rw [hget]
        rfl
    | withdraw other => simp [advance] at h
  | submitting saved => cases hobsolete : service.store.obsoletedBy saved <;>
      simp [advance, hobsolete] at h
  | switching saved => simp [advance] at h
  | forgetting hash answer => simp [advance] at h
  | returned outcome => simp [advance] at h

/-- How many more steps a call takes at most. -/
def remaining (call : AuthoringCall) : Nat :=
  match call.stage with
  | .begun => 3
  | .submitting _ | .switching _ => 2
  | .forgetting _ _ => 1
  | .returned _ => 0

/-- A step is one of three. -/
theorem remaining_advance : (call.advance service).2.remaining ≤ call.remaining - 1 := by
  obtain ⟨request, stage, effects⟩ := call
  cases stage with
  | begun =>
    -- After its first step, a call has two more at most, whatever its stage.
    cases request <;> dsimp only [advance] <;> split <;> simp [remaining]
  | submitting definition => dsimp only [advance]; split <;> simp [remaining]
  | switching definition => simp [advance, remaining]
  | forgetting hash answer => simp [advance, remaining]
  | returned outcome => simp [advance, remaining]

theorem hasReturned_of_remaining (h : call.remaining = 0) : call.hasReturned = true := by
  obtain ⟨request, stage, effects⟩ := call
  cases stage <;> first | rfl | cases h

end AuthoringCall

namespace SharedService

variable {s : SharedService} {number other : Nat}

def request? (s : SharedService) (number : Nat) : Option AuthoringRequest :=
  (s.call? number).map (·.request)

/-- Whether the call of this number does not touch the store any more. -/
def isSettled (s : SharedService) (number : Nat) : Bool :=
  (s.call? number).all (·.isSettled)

/-- Whether the call of this number is about to save something stale. -/
def isStale (s : SharedService) (number : Nat) : Bool :=
  (s.call? number).any (·.isStale s.service.store)

/-- What the calls are about to save comes from their requests. -/
def Faithful (s : SharedService) : Prop :=
  ∀ number call, s.call? number = some call → call.Faithful s.service.runtime

/-- How many more steps the call of this number takes at most. -/
def remaining (s : SharedService) (number : Nat) : Nat :=
  (s.call? number).elim 0 (·.remaining)

/-- The call that the next step of a call settles: itself, or none. -/
def settledBy (s : SharedService) (number : Nat) : List Nat :=
  if s.isSettled number = false ∧ (s.step number).isSettled number then [number] else []

/-- A step of a call. -/
theorem step_of_call? {call : AuthoringCall} (h : s.call? number = some call) :
    s.step number =
      ⟨(call.advance s.service).1, s.calls.set number (call.advance s.service).2⟩ := by
  simp [step, h]

theorem step_of_call?_none (h : s.call? number = none) : s.step number = s := by
  simp [step, h]

/-- A step moves one call. -/
theorem call?_step (s : SharedService) (number other : Nat) :
    (s.step number).call? other =
      if number = other then (s.call? other).map fun call => (call.advance s.service).2
      else s.call? other := by
  cases h : s.call? number with
  | none =>
    rw [step_of_call?_none h]
    split
    case isTrue heq => rw [← heq, h]; rfl
    case isFalse => rfl
  | some call =>
    rw [step_of_call? h, call?, List.getElem?_set]
    split
    case isTrue heq =>
      subst heq
      obtain ⟨hlt, -⟩ := List.getElem?_eq_some_iff.mp h
      rw [if_pos hlt, h]
      rfl
    case isFalse => rfl

/-- The script engine stays what it is. -/
theorem runtime_step (s : SharedService) (number : Nat) :
    (s.step number).service.runtime = s.service.runtime := by
  cases h : s.call? number with
  | none => rw [step_of_call?_none h]
  | some call => rw [step_of_call? h]; exact AuthoringCall.advance_runtime

theorem request?_step (s : SharedService) (number other : Nat) :
    (s.step number).request? other = s.request? other := by
  rw [request?, call?_step]
  split
  · simp [request?, Function.comp_def, AuthoringCall.advance_request]
  · rfl

/-- Calls stay what they are for. -/
theorem Faithful.step (h : s.Faithful) (number : Nat) : (s.step number).Faithful := by
  intro other call hcall
  rw [runtime_step]
  rw [call?_step] at hcall
  split at hcall
  · obtain ⟨before, hbefore, rfl⟩ := Option.map_eq_some_iff.mp hcall
    exact (h other before hbefore).advance
  · exact h other call hcall

theorem remaining_step (s : SharedService) (number other : Nat) :
    (s.step number).remaining other ≤ s.remaining other - if number = other then 1 else 0 := by
  rw [remaining, call?_step]
  split
  · cases hcall : s.call? other with
    | none => exact Nat.zero_le _
    | some call =>
      rw [remaining, hcall]
      exact AuthoringCall.remaining_advance
  · exact Nat.le_refl _

/-- The step of one call settles no other. -/
theorem isSettled_step_of_ne (h : number ≠ other) :
    (s.step number).isSettled other = s.isSettled other := by
  rw [isSettled, call?_step, if_neg h]
  rfl

/-- A call that is settled stays settled. -/
theorem isSettled_step (h : s.isSettled other = true) :
    (s.step number).isSettled other = true := by
  by_cases heq : number = other
  · rw [isSettled, call?_step, if_pos heq]
    cases hcall : s.call? other with
    | none => rfl
    | some call =>
      rw [isSettled, hcall] at h
      exact (AuthoringCall.advance_of_isSettled h).2
  · rw [isSettled_step_of_ne heq, h]

/-- A step settles the calls that are settled by it. -/
theorem mem_settledBy : other ∈ s.settledBy number ↔
    s.isSettled other = false ∧ (s.step number).isSettled other = true := by
  by_cases heq : number = other
  · subst heq
    simp [settledBy]
  · have hsame := isSettled_step_of_ne (s := s) heq
    simp [settledBy, hsame, Ne.symm heq]

/-- The step of a call that is settled leaves the store alone. -/
theorem store_step_of_isSettled (h : s.isSettled number = true) :
    (s.step number).service.store = s.service.store := by
  cases hcall : s.call? number with
  | none => rw [step_of_call?_none hcall]
  | some call =>
    rw [isSettled, hcall] at h
    rw [step_of_call? hcall]
    exact (AuthoringCall.advance_of_isSettled h).1

/-- Unless it saves something stale, a step makes of the store what the request makes of it that
the step settles. -/
theorem store_step (hfaithful : s.Faithful) (hfresh : s.isStale number = false) :
    (s.step number).service.store =
      ((s.settledBy number).filterMap s.request?).foldl (ScriptStore.author s.service.runtime)
        s.service.store := by
  cases hsettled : s.isSettled number with
  | true =>
    rw [store_step_of_isSettled hsettled]
    simp [settledBy, hsettled]
  | false =>
    cases hcall : s.call? number with
    | none => simp [isSettled, hcall] at hsettled
    | some call =>
      have hunsettled : call.isSettled = false := by simpa [isSettled, hcall] using hsettled
      have hstale : call.isStale s.service.store = false := by simpa [isStale, hcall] using hfresh
      have hafter : (s.step number).isSettled number = (call.advance s.service).2.isSettled := by
        simp [isSettled, call?_step, hcall]
      have hstore := AuthoringCall.store_advance (hfaithful number call hcall) hstale hunsettled
      rw [settledBy, hafter, step_of_call? hcall, hstore]
      cases (call.advance s.service).2.isSettled <;> simp [hsettled, request?, hcall]

/-! ## Runs -/

/-- The calls that a run settles, in the order in which it does. -/
def settlingOrder (s : SharedService) : List Nat → List Nat
  | [] => []
  | number :: rest => s.settledBy number ++ (s.step number).settlingOrder rest

/-- Whether a call saves something stale. -/
def overwrites (s : SharedService) : List Nat → Bool
  | [] => false
  | number :: rest => s.isStale number || (s.step number).overwrites rest

variable {schedule : List Nat}

theorem request?_run (s : SharedService) (schedule : List Nat) (number : Nat) :
    (s.run schedule).request? number = s.request? number := by
  induction schedule generalizing s with
  | nil => rfl
  | cons next rest ih => rw [run_cons, ih, request?_step]

theorem Faithful.run (h : s.Faithful) (schedule : List Nat) : (s.run schedule).Faithful := by
  induction schedule generalizing s with
  | nil => exact h
  | cons number rest ih => exact ih (h.step number)

theorem isSettled_run (h : s.isSettled number = true) (schedule : List Nat) :
    (s.run schedule).isSettled number = true := by
  induction schedule generalizing s with
  | nil => exact h
  | cons next rest ih => exact ih (isSettled_step h)

theorem isSettled_of_run (h : (s.run schedule).isSettled number = false) :
    s.isSettled number = false := by
  by_contra hsettled
  cases (isSettled_run (Bool.of_not_eq_false hsettled) schedule).symm.trans h

/-- The order in which calls settle, part by part. -/
theorem settlingOrder_append (s : SharedService) (before after : List Nat) :
    s.settlingOrder (before ++ after) =
      s.settlingOrder before ++ (s.run before).settlingOrder after := by
  induction before generalizing s with
  | nil => rfl
  | cons number rest ih =>
    rw [List.cons_append, settlingOrder, ih, settlingOrder, run_cons, List.append_assoc]

/-- Something stale is saved in one part of a run or in the other. -/
theorem overwrites_append (s : SharedService) (before after : List Nat) :
    s.overwrites (before ++ after) = (s.overwrites before || (s.run before).overwrites after) := by
  induction before generalizing s with
  | nil => rfl
  | cons number rest ih =>
    rw [List.cons_append, overwrites, ih, overwrites, run_cons, Bool.or_assoc]

/-- A run settles the calls that are not settled before it and are after it. -/
theorem mem_settlingOrder : number ∈ s.settlingOrder schedule ↔
    s.isSettled number = false ∧ (s.run schedule).isSettled number = true := by
  induction schedule generalizing s with
  | nil => simp [settlingOrder, run]
  | cons next rest ih =>
    rw [settlingOrder, List.mem_append, mem_settledBy, ih, run_cons]
    constructor
    · rintro (⟨hbefore, hnow⟩ | ⟨hnow, hafter⟩)
      · exact ⟨hbefore, isSettled_run hnow rest⟩
      · refine ⟨?_, hafter⟩
        by_contra hbefore
        rw [isSettled_step (Bool.of_not_eq_false hbefore)] at hnow
        cases hnow
    · rintro ⟨hbefore, hafter⟩
      cases hnow : (s.step next).isSettled number with
      | true => exact .inl ⟨hbefore, rfl⟩
      | false => exact .inr ⟨rfl, hafter⟩

/-- A call settles once. -/
theorem nodup_settlingOrder (s : SharedService) (schedule : List Nat) :
    (s.settlingOrder schedule).Nodup := by
  induction schedule generalizing s with
  | nil => exact .nil
  | cons number rest ih =>
    rw [settlingOrder]
    unfold settledBy
    split
    case isTrue hsettles =>
      refine List.nodup_cons.mpr ⟨fun hmem => ?_, ih _⟩
      rw [(mem_settlingOrder.mp hmem).1] at hsettles
      cases hsettles.2
    case isFalse => exact ih _

/-- If no call saves anything stale, a run makes of the store what the requests make of it one
after the other, in the order in which the run settles them. -/
theorem store_run (hfaithful : s.Faithful) (hfresh : s.overwrites schedule = false) :
    (s.run schedule).service.store =
      ((s.settlingOrder schedule).filterMap s.request?).foldl
        (ScriptStore.author s.service.runtime) s.service.store := by
  induction schedule generalizing s with
  | nil => rfl
  | cons number rest ih =>
    obtain ⟨hnow, hrest⟩ := Bool.or_eq_false_iff.mp hfresh
    have hrequests : (s.step number).request? = s.request? := funext (request?_step s number)
    rw [run_cons, ih (hfaithful.step number) hrest, runtime_step, hrequests,
      store_step hfaithful hnow, settlingOrder, List.filterMap_append, List.foldl_append]

/-- Three steps of a call are enough. -/
theorem remaining_run (s : SharedService) (schedule : List Nat) (number : Nat) :
    (s.run schedule).remaining number ≤ s.remaining number - schedule.count number := by
  induction schedule generalizing s with
  | nil => exact Nat.le_refl _
  | cons next rest ih =>
    have hrest := ih (s.step next)
    have hnext := remaining_step s next number
    have hcount : (next :: rest).count number =
        rest.count number + if next = number then 1 else 0 := by
      simp [List.count_cons]
    rw [run_cons, hcount]
    omega

theorem store_run_of_isSettled (h : ∀ number, s.isSettled number = true) (schedule : List Nat) :
    (s.run schedule).service.store = s.service.store := by
  induction schedule generalizing s with
  | nil => rfl
  | cons number rest ih =>
    rw [run_cons, ih fun other => isSettled_step (h other), store_step_of_isSettled (h number)]

/-- The first time that a call saves something stale. -/
theorem exists_first_overwrite (h : s.overwrites schedule = true) :
    ∃ before number after, schedule = before ++ number :: after ∧
      s.overwrites before = false ∧ (s.run before).isStale number = true := by
  induction schedule generalizing s with
  | nil => cases h
  | cons number rest ih =>
    cases hstale : s.isStale number with
    | true => exact ⟨[], number, rest, rfl, rfl, hstale⟩
    | false =>
      rw [overwrites, hstale, Bool.false_or] at h
      obtain ⟨before, next, after, rfl, hfresh, hnext⟩ := ih h
      exact ⟨number :: before, next, after, rfl, by rw [overwrites, hstale, hfresh]; rfl, hnext⟩

/-! ## Two -/

/-- The call of this number has read and switched a definition and is about to save it. -/
def Switches (s : SharedService) (number : Nat) (id : ScriptId) (enabled : Bool)
    (definition : ScriptDefinition) : Prop :=
  ∃ effects, s.call? number = some ⟨.enable id enabled, .switching definition, effects⟩

variable {id : ScriptId} {enabled : Bool} {definition : ScriptDefinition}

/-- A call that is about to save has not settled. -/
theorem Switches.isSettled (h : s.Switches number id enabled definition) :
    s.isSettled number = false := by
  obtain ⟨effects, hcall⟩ := h
  simp [SharedService.isSettled, hcall, AuthoringCall.isSettled]

theorem Switches.request? (h : s.Switches number id enabled definition) :
    s.request? number = some (.enable id enabled) := by
  obtain ⟨effects, hcall⟩ := h
  simp [SharedService.request?, hcall]

/-- The next step of the call saves the definition, and that is the last of it. -/
theorem Switches.step (h : s.Switches number id enabled definition) :
    (s.step number).service.store = s.service.store.save definition ∧
      (s.step number).isSettled number = true := by
  obtain ⟨effects, hcall⟩ := h
  constructor
  · rw [step_of_call? hcall]
    rfl
  · rw [SharedService.isSettled, call?_step, if_pos rfl, hcall]
    rfl

/-- What is stale is a definition that was read to be switched. -/
theorem exists_switches_of_isStale (h : s.isStale number = true) :
    ∃ id enabled definition, s.Switches number id enabled definition ∧
      (s.service.store.get id).map (·.switched enabled) ≠ some definition := by
  cases hcall : s.call? number with
  | none => simp [isStale, hcall] at h
  | some call =>
    obtain ⟨request, stage, effects⟩ := call
    simp only [isStale, hcall, Option.any_some, AuthoringCall.isStale] at h
    split at h
    · exact ⟨_, _, _, ⟨effects, hcall⟩, of_decide_eq_true h⟩
    · cases h

/-- What a call is about to save was there when it read the store. -/
theorem read_of_switches_step (h : (s.step other).Switches number id enabled definition) :
    s.Switches number id enabled definition ∨
      (s.service.store.get id).map (·.switched enabled) = some definition := by
  obtain ⟨effects, hcall⟩ := h
  rw [call?_step] at hcall
  split at hcall
  · obtain ⟨call, -, hadvance⟩ := Option.map_eq_some_iff.mp hcall
    exact .inr (AuthoringCall.read_of_advance hadvance)
  · exact .inl ⟨effects, hcall⟩

/-- What a call is about to save was in the store at some time before. -/
theorem read_of_switches_run (h : (s.run schedule).Switches number id enabled definition) :
    s.Switches number id enabled definition ∨
      ∃ before after, schedule = before ++ after ∧
        ((s.run before).service.store.get id).map (·.switched enabled) = some definition := by
  induction schedule generalizing s with
  | nil => exact .inl h
  | cons next rest ih =>
    obtain hnext | ⟨before, after, rfl, hread⟩ := ih h
    · exact (read_of_switches_step hnext).imp_right fun hread => ⟨[], next :: rest, rfl, hread⟩
    · exact .inr ⟨next :: before, after, rfl, hread⟩

variable {service : Service} {requests : List AuthoringRequest} {a b : AuthoringRequest}

@[simp] theorem start_service (service : Service) (requests : List AuthoringRequest) :
    (start service requests).service = service := rfl

theorem call?_start (service : Service) (requests : List AuthoringRequest) (number : Nat) :
    (start service requests).call? number = requests[number]?.map fun request => { request } :=
  List.getElem?_map

theorem request?_start (service : Service) (requests : List AuthoringRequest) (number : Nat) :
    (start service requests).request? number = requests[number]? := by
  simp [SharedService.request?, call?_start, Function.comp_def]

theorem isSettled_start :
    (start service requests).isSettled number = false ↔ number < requests.length := by
  rw [SharedService.isSettled, call?_start]
  cases h : requests[number]? with
  | none => simpa using h
  | some request => simpa [AuthoringCall.isSettled] using (List.getElem?_eq_some_iff.mp h).1

/-- At the beginning no call has read anything. -/
theorem faithful_start (service : Service) (requests : List AuthoringRequest) :
    (start service requests).Faithful := by
  intro number call hcall
  rw [call?_start] at hcall
  obtain ⟨request, -, rfl⟩ := Option.map_eq_some_iff.mp hcall
  trivial

/-- Nor is any about to save. -/
theorem not_switches_start :
    ¬ (start service requests).Switches number id enabled definition := by
  rintro ⟨effects, hcall⟩
  rw [call?_start] at hcall
  obtain ⟨request, -, hrequest⟩ := Option.map_eq_some_iff.mp hcall
  cases hrequest

/-- Every schedule with three steps of each call leads to their outcomes. -/
theorem isFinished_of_count (h : ∀ number < requests.length, 3 ≤ schedule.count number) :
    ((start service requests).run schedule).isFinished = true := by
  refine List.all_eq_true.mpr fun call hcall => AuthoringCall.hasReturned_of_remaining ?_
  obtain ⟨number, hnumber⟩ := List.mem_iff_getElem?.mp hcall
  have hasked : requests[number]? = some call.request := by
    rw [← request?_start service, ← request?_run _ schedule, SharedService.request?, call?,
      hnumber]
    rfl
  obtain ⟨hlt, -⟩ := List.getElem?_eq_some_iff.mp hasked
  have hsteps := remaining_run (start service requests) schedule number
  have hstart : (start service requests).remaining number = 3 := by
    rw [remaining, call?_start, hasked]
    rfl
  have hend : ((start service requests).run schedule).remaining number = call.remaining := by
    rw [remaining, call?, hnumber]
    rfl
  have := h number hlt
  omega

/-- While one of two calls is about to save what it read, the other one has settled, or neither
has. -/
theorem settlingOrder_of_switches
    (h : ((start service [a, b]).run schedule).Switches number id enabled definition) :
    (start service [a, b]).settlingOrder schedule = [] ∨
      (start service [a, b]).settlingOrder schedule = [1 - number] := by
  have hother : ∀ m ∈ (start service [a, b]).settlingOrder schedule, m = 1 - number := by
    intro m hm
    obtain ⟨hstart, hsettled⟩ := mem_settlingOrder.mp hm
    have hm : m < 2 := isSettled_start.mp hstart
    have hnumber : number < 2 := isSettled_start.mp (isSettled_of_run h.isSettled)
    have hne : m ≠ number := by
      rintro rfl
      cases hsettled.symm.trans h.isSettled
    omega
  have hnodup := nodup_settlingOrder (start service [a, b]) schedule
  have horder := List.eq_replicate_of_mem hother
  generalize ((start service [a, b]).settlingOrder schedule).length = n at horder
  rw [horder, List.nodup_replicate] at hnodup
  rw [horder]
  obtain rfl | rfl : n = 0 ∨ n = 1 := by omega
  · exact .inl rfl
  · exact .inr rfl

/-- What one of two calls is about to save is stale: the call read what was in the store at the
start, and the other one has settled since. -/
theorem read_before_settled
    (hfresh : (start service [a, b]).overwrites schedule = false)
    (hswitches : ((start service [a, b]).run schedule).Switches number id enabled definition)
    (hstale : (((start service [a, b]).run schedule).service.store.get id).map
      (·.switched enabled) ≠ some definition) :
    (service.store.get id).map (·.switched enabled) = some definition ∧
      (start service [a, b]).settlingOrder schedule = [1 - number] := by
  have horder := settlingOrder_of_switches hswitches
  obtain hstart | ⟨before, after, rfl, hread⟩ := read_of_switches_run hswitches
  · exact absurd hstart not_switches_start
  rw [overwrites_append] at hfresh
  obtain ⟨hfirst, hthen⟩ := Bool.or_eq_false_iff.mp hfresh
  have hbefore := store_run (faithful_start service [a, b]) hfirst
  have hafter := store_run ((faithful_start service [a, b]).run before) hthen
  have hsince : ((start service [a, b]).run before).settlingOrder after ≠ [] := by
    intro hnone
    rw [run_append, hafter, hnone] at hstale
    exact hstale hread
  rw [settlingOrder_append] at horder ⊢
  obtain hnone | hone := horder
  · exact absurd (List.append_eq_nil_iff.mp hnone).2 hsince
  · obtain ⟨hnone, -⟩ | ⟨-, hnone⟩ := List.append_eq_singleton_iff.mp hone
    · rw [hbefore, hnone] at hread
      exact ⟨hread, hone⟩
    · exact absurd hnone hsince

/-- With the step that saves something stale, both calls are settled. -/
theorem isSettled_of_other_settled
    (hswitches : ((start service [a, b]).run schedule).Switches number id enabled definition)
    (horder : (start service [a, b]).settlingOrder schedule = [1 - number]) (m : Nat) :
    (((start service [a, b]).run schedule).step number).isSettled m = true := by
  rcases eq_or_ne m number with rfl | hne
  · exact hswitches.step.2
  refine isSettled_step ?_
  by_contra hm
  have hnumber : number < 2 := isSettled_start.mp (isSettled_of_run hswitches.isSettled)
  have hm2 : m < 2 := isSettled_start.mp (isSettled_of_run (Bool.of_not_eq_true hm))
  have hmem : m ∈ (start service [a, b]).settlingOrder schedule := by
    rw [horder, List.mem_singleton]
    omega
  exact hm (mem_settlingOrder.mp hmem).2

/-- If one of two calls saves something stale, the store is that of neither order. -/
theorem store_ne_of_overwrites (hkept : service.store.Kept)
    (h : (start service [a, b]).overwrites schedule = true) :
    ((start service [a, b]).run schedule).service.store ≠
        ((service.author a).service.author b).service.store ∧
      ((start service [a, b]).run schedule).service.store ≠
        ((service.author b).service.author a).service.store := by
  obtain ⟨before, number, after, rfl, hfresh, hsaves⟩ := exists_first_overwrite h
  obtain ⟨id, enabled, definition, hswitches, hstale⟩ := exists_switches_of_isStale hsaves
  obtain ⟨hread, horder⟩ := read_before_settled hfresh hswitches hstale
  obtain ⟨old, hold, rfl⟩ := Option.map_eq_some_iff.mp hread
  have hsettled := isSettled_of_other_settled hswitches horder
  have hstore := store_run (faithful_start service [a, b]) hfresh
  rw [horder] at hstore
  have hrequest := hswitches.request?
  rw [request?_run, request?_start] at hrequest
  rw [run_append, run_cons, store_run_of_isSettled hsettled, hswitches.step.1]
  simp only [Service.author_store, Service.author_runtime]
  have hnumber : number < 2 := isSettled_start.mp (isSettled_of_run hswitches.isSettled)
  obtain rfl | rfl : number = 0 ∨ number = 1 := by omega
  · obtain rfl : a = .enable id enabled := by simpa using hrequest
    have hstore : ((start service [.enable id enabled, b]).run before).service.store =
        service.store.author service.runtime b := by
      simpa [request?_start] using hstore
    rw [hstore] at hstale ⊢
    exact (ScriptStore.stale_save_differs hkept hold hstale).symm
  · obtain rfl : b = .enable id enabled := by simpa using hrequest
    have hstore : ((start service [a, .enable id enabled]).run before).service.store =
        service.store.author service.runtime a := by
      simpa [request?_start] using hstore
    rw [hstore] at hstale ⊢
    exact ScriptStore.stale_save_differs hkept hold hstale

/-- Where all calls have returned, all are settled. -/
theorem isSettled_of_isFinished (h : s.isFinished = true) (number : Nat) :
    s.isSettled number = true := by
  cases hcall : s.call? number with
  | none => rw [SharedService.isSettled, hcall]; rfl
  | some call =>
    have hreturned := List.all_eq_true.mp h call (List.mem_of_getElem? hcall)
    obtain ⟨request, stage, effects⟩ := call
    cases stage with
    | returned outcome => rw [SharedService.isSettled, hcall]; rfl
    | _ => cases hreturned

/-- Two calls that are finished have settled, in one order or the other. -/
theorem settlingOrder_of_isFinished
    (hfinished : ((start service [a, b]).run schedule).isFinished = true) :
    (start service [a, b]).settlingOrder schedule = [0, 1] ∨
      (start service [a, b]).settlingOrder schedule = [1, 0] := by
  have hmem : ∀ m, m ∈ (start service [a, b]).settlingOrder schedule ↔ m ∈ [0, 1] := by
    intro m
    have hsettled := isSettled_of_isFinished hfinished m
    have htwo : m < [a, b].length ↔ m ∈ [0, 1] := by
      simp only [List.length_cons, List.length_nil, List.mem_cons, List.not_mem_nil, or_false]
      omega
    rw [mem_settlingOrder, isSettled_start, htwo]
    exact and_iff_left hsettled
  exact List.perm_pair.mp
    ((List.perm_ext_iff_of_nodup (nodup_settlingOrder _ _) (by decide)).mpr hmem)

/-- Two authors who work at once leave in the store what they leave one after the other, in one
order or the other, exactly if neither saves something stale. -/
theorem store_serial_iff (hkept : service.store.Kept)
    (hfinished : ((start service [a, b]).run schedule).isFinished = true) :
    (((start service [a, b]).run schedule).service.store =
          ((service.author a).service.author b).service.store ∨
        ((start service [a, b]).run schedule).service.store =
          ((service.author b).service.author a).service.store) ↔
      (start service [a, b]).overwrites schedule = false := by
  constructor
  · intro hserial
    by_contra h
    obtain ⟨hab, hba⟩ := store_ne_of_overwrites hkept (Bool.of_not_eq_false h)
    exact hserial.elim hab hba
  · intro hfresh
    have hstore := store_run (faithful_start service [a, b]) hfresh
    simp only [Service.author_store, Service.author_runtime]
    obtain horder | horder := settlingOrder_of_isFinished hfinished
    · rw [horder] at hstore
      exact .inl (by simpa [request?_start] using hstore)
    · rw [horder] at hstore
      exact .inr (by simpa [request?_start] using hstore)

def idleScript : ScriptDefinition where
  scope := .root
  name := "idle"
  source := ""
  contentHash := ""
  enabled := true
  asyncCapable := false
  subscribedEvents := []
  metadata := {}

/-- A service that keeps it and nothing else. -/
def idleService : Service where
  runtime := ⟨fun _ => ⟨.ok .null, {}⟩, fun _ _ => .ok ()⟩
  store := ScriptStore.empty.run [.save idleScript]
  cache := { idleMs := 1 }

theorem kept_idleService : idleService.store.Kept := ScriptStore.kept_empty.run _

/-- Two authors read the script before either of them saves it, one to switch it off and one to
leave it on: nothing is lost. -/
theorem store_serial_of_two_switches :
    let off := AuthoringRequest.enable idleScript.id false
    let on := AuthoringRequest.enable idleScript.id true
    let final := (start idleService [off, on]).run [0, 1, 1, 0]
    idleService.store.Kept ∧ final.isFinished = true ∧
      (final.service.store = ((idleService.author off).service.author on).service.store ∨
        final.service.store = ((idleService.author on).service.author off).service.store) :=
  ⟨kept_idleService, by decide, (store_serial_iff kept_idleService (by decide)).mpr (by decide)⟩

/-- One author reads the script to switch it off, another one removes it, the first one saves
it: it is back. -/
theorem withdrawn_script_returns :
    let off := AuthoringRequest.enable idleScript.id false
    let remove := AuthoringRequest.withdraw idleScript.id
    let final := (start idleService [off, remove]).run [0, 1, 1, 0]
    final.isFinished = true ∧
      final.service.store.get idleScript.id = some (idleScript.switched false) ∧
      final.service.store ≠ ((idleService.author off).service.author remove).service.store ∧
      final.service.store ≠ ((idleService.author remove).service.author off).service.store :=
  ⟨by decide, by decide, store_ne_of_overwrites kept_idleService (by decide)⟩

end SharedService

end ScriptHooks

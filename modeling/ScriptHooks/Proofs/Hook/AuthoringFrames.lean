/-
ScriptHooks.Proofs.Hook.AuthoringFrames — what authors change of a service, and what they
leave alone.

A draft is kept as a whole or not at all: a check that fails ends the call before anything is
changed, and a draft that passes replaces the definition of its identity, and of the compiled
scripts at most that of the source which was replaced (`Submitted`). Removing a script takes its
definition, the values of its parameters at the same scope and the compiled form of its source
(`Withdrawn`). The values go also where no script is defined, though the answer then says that
nothing was removed: so a removal that answers `false` leaves the service as it was exactly if
no values are kept there.

  §1 Reachable stores — every store of a service is one after a history of changes, and keeps no
                        empty values;
  §2 Removals         — `withdraw_unchanged_iff`;
  §3 Drafts           — `submitScript_all_or_nothing`.

`Submitted` and `Withdrawn` are frames: they say of each part of the service what it is afterwards,
the parts that stay the same included. Of the compiled scripts they speak slot by slot
(`SameSlots`), since to forget a digest leaves the slots of all others and what they hold.

That no empty values are kept (`KeepsValues`) is what makes the removal exact. A store that kept an
entry without values would lose it in a removal, and nobody could tell by asking for the values.

`checked_eq_ok_iff` says when a draft passes: the name and the source are as they must be, the
script can be asked for its description, and the description is acceptable. It is an equivalence, so
that success and failure of `submitScript` are both decided by it.
-/
import ScriptHooks.Proofs.Hook.SingleFlight
import ScriptHooks.Proofs.Hook.StoredDefinitions

namespace ScriptHooks

/-! ## Reachable stores -/

namespace ScriptStore

variable {store : ScriptStore}

/-- A deletion takes the values of its identity. -/
theorem parametersAt_delete (store : ScriptStore) (id other : ScriptId) :
    (store.delete id).parametersAt other = if other = id then [] else store.parametersAt other := by
  rw [parametersAt, delete, Ordered.get?_erase]
  by_cases h : other = id
  · rw [if_pos h, if_pos h.symm]
    rfl
  · rw [if_neg h, if_neg (Ne.symm h)]
    rfl

/-- And the definition. -/
theorem get_delete (store : ScriptStore) (id other : ScriptId) :
    (store.delete id).get other = if other = id then none else store.get other := by
  have hget : (store.delete id).get other = if id = other then none else store.get other :=
    get_step store (.delete id) other
  exact hget.trans (if_congr eq_comm rfl rfl)

theorem run_append (store : ScriptStore) (before after : List StoreStep) :
    store.run (before ++ after) = (store.run before).run after := List.foldl_append

/-- Where values are kept, there are some. -/
def KeepsValues (store : ScriptStore) : Prop := ∀ entry ∈ store.parameters, entry.2 ≠ []

/-- An empty store. -/
theorem keepsValues_empty : empty.KeepsValues := nofun

/-- No change leaves empty values behind. -/
theorem KeepsValues.step (h : store.KeepsValues) (t : StoreStep) : (store.step t).KeepsValues := by
  cases t with
  | save definition => exact h
  | delete id => exact fun entry hentry => h entry (List.mem_of_mem_filter hentry)
  | assignParameters id values =>
    intro entry hentry
    rw [ScriptStore.step, assignParameters] at hentry
    dsimp only at hentry
    split at hentry
    case isTrue => exact h entry (List.mem_of_mem_filter hentry)
    case isFalse hvalues =>
      obtain rfl | hentry := Ordered.eq_or_mem_of_mem_insert hentry
      · exact fun hnil => hvalues (List.isEmpty_iff.mpr hnil)
      · exact h entry hentry

theorem KeepsValues.run (h : store.KeepsValues) (steps : List StoreStep) :
    (store.run steps).KeepsValues := by
  induction steps generalizing store with
  | nil => exact h
  | cons t rest ih => exact ih (h.step t)

/-- No values are found under an identity only where none are kept. -/
theorem KeepsValues.parametersAt_eq_nil_iff (h : store.KeepsValues) {id : ScriptId} :
    store.parametersAt id = [] ↔ Ordered.get? id store.parameters = none := by
  rw [parametersAt]
  cases hget : Ordered.get? id store.parameters with
  | none => exact iff_of_true rfl rfl
  | some values =>
    obtain ⟨entry, hfind, rfl⟩ := Option.map_eq_some_iff.mp hget
    exact iff_of_false (h entry (List.mem_of_find?_eq_some hfind)) nofun

/-- To delete what is not there changes nothing. -/
theorem KeepsValues.delete_eq_self_iff (h : store.KeepsValues) {id : ScriptId} :
    store.delete id = store ↔ store.get id = none ∧ store.parametersAt id = [] := by
  rw [h.parametersAt_eq_nil_iff, get, ← Ordered.erase_eq_self_iff, ← Ordered.erase_eq_self_iff,
    ScriptStore.delete, mk.injEq]

end ScriptStore

namespace ClockedService

/-- What a service went through changes its store step by step. -/
theorem exists_store_run (s : ClockedService) (actions : List ServiceAction) :
    ∃ steps, (s.run actions).service.store = s.service.store.run steps := by
  induction actions generalizing s with
  | nil => exact ⟨[], rfl⟩
  | cons action rest ih =>
    obtain ⟨steps, hsteps⟩ := ih (s.act action)
    refine ⟨action.changes s ++ steps, ?_⟩
    rw [ScriptStore.run_append, ← store_act]
    exact hsteps

/-- A service over a store that was changed in any way. -/
def afterChanges (runtime : ScriptRuntime) (changes : List StoreStep) (cache : CompiledCache)
    (dispatcher : Dispatcher) (clock : SettableClock) : ClockedService :=
  ⟨⟨runtime, ScriptStore.empty.run changes, cache, dispatcher⟩, clock⟩

variable {runtime : ScriptRuntime} {changes : List StoreStep} {cache : CompiledCache}
  {dispatcher : Dispatcher} {clock : SettableClock}

/-- Whatever a service went through, its store is one after a history of changes. -/
theorem exists_history (actions : List ServiceAction) :
    ∃ steps, ((afterChanges runtime changes cache dispatcher clock).run actions).service.store =
      ScriptStore.empty.run steps := by
  obtain ⟨steps, hsteps⟩ := exists_store_run
    (afterChanges runtime changes cache dispatcher clock) actions
  refine ⟨changes ++ steps, ?_⟩
  rw [hsteps, ScriptStore.run_append]
  rfl

variable {actions : List ServiceAction}

/-- The definitions of a service are in order. -/
theorem kept_run :
    ((afterChanges runtime changes cache dispatcher clock).run actions).service.store.Kept := by
  obtain ⟨steps, hsteps⟩ := exists_history actions
  rw [hsteps]
  exact ScriptStore.kept_empty.run steps

theorem keepsValues_run :
    let after := (afterChanges runtime changes cache dispatcher clock).run actions
    after.service.store.KeepsValues := by
  intro after
  obtain ⟨steps, hsteps⟩ := exists_history actions
  rw [hsteps]
  exact ScriptStore.keepsValues_empty.run steps

end ClockedService

/-! ## Removals -/

/-- A digest that is forgotten has no slot, and the others have theirs. -/
theorem CompiledCache.slot?_forget (cache : CompiledCache) (hash other : String) :
    (cache.forget hash).slot? other = if other = hash then none else cache.slot? other := by
  split
  case isTrue heq =>
    subst heq
    exact slot?_forget_self
  case isFalse hne => exact slot?_forget_of_ne (Ne.symm hne)

/-- Nothing differs between two caches but which digests are registered. -/
structure CompiledCache.SameSlots (before after : CompiledCache) : Prop where
  cells : after.cells = before.cells
  idleMs : after.idleMs = before.idleMs
  compilations : after.compilations = before.compilations

namespace Service

/-- A service after everything that belongs to a script was removed. Nothing else has
changed. -/
structure Withdrawn (before : Service) (id : ScriptId) (after : Service) : Prop where
  definitions : ∀ other, after.store.get other = if other = id then none else before.store.get other
  values : ∀ other,
    after.store.parametersAt other = if other = id then [] else before.store.parametersAt other
  artifacts : ∀ hash, after.cache.slot? hash =
    if (before.store.get id).map (·.contentHash) = some hash then none else before.cache.slot? hash
  slots : before.cache.SameSlots after.cache
  runtime : after.runtime = before.runtime
  dispatcher : after.dispatcher = before.dispatcher

variable {service : Service} {id : ScriptId}

/-- A removal where no script is defined. -/
theorem withdraw_of_none (h : service.store.get id = none) :
    service.withdraw id =
      { outcome := .ok false, service := { service with store := service.store.delete id } } := by
  rw [withdraw, h]

/-- A removal of a script. -/
theorem withdraw_of_some {removed : ScriptDefinition} (h : service.store.get id = some removed) :
    service.withdraw id =
      { outcome := .ok true
        service := { service with
          store := service.store.delete id
          cache := service.cache.forget removed.contentHash } } := by
  rw [withdraw, h]

/-- The answer says whether a script was defined. -/
theorem withdraw_outcome (service : Service) (id : ScriptId) :
    (service.withdraw id).outcome = .ok (service.store.get id).isSome := by
  cases h : service.store.get id with
  | none => rw [withdraw_of_none h]; rfl
  | some removed => rw [withdraw_of_some h]; rfl

/-- What a removal leaves. -/
theorem withdrawn_withdraw (service : Service) (id : ScriptId) :
    service.Withdrawn id (service.withdraw id).service := by
  cases h : service.store.get id with
  | none =>
    rw [withdraw_of_none h]
    exact {
      definitions := service.store.get_delete id
      values := service.store.parametersAt_delete id
      artifacts := fun hash => by simp [h]
      slots := ⟨rfl, rfl, rfl⟩
      runtime := rfl
      dispatcher := rfl }
  | some removed =>
    rw [withdraw_of_some h]
    exact {
      definitions := service.store.get_delete id
      values := service.store.parametersAt_delete id
      artifacts := fun hash => by
        simpa [h, eq_comm] using service.cache.slot?_forget removed.contentHash hash
      slots := ⟨rfl, rfl, rfl⟩
      runtime := rfl
      dispatcher := rfl }

/-- Where no script is defined, nothing changes exactly if no values are kept. -/
theorem withdraw_eq_self_iff (h : service.store.KeepsValues) (hnone : service.store.get id = none) :
    (service.withdraw id).service = service ↔ service.store.parametersAt id = [] := by
  have hdelete : service.store.delete id = service.store ↔ service.store.parametersAt id = [] :=
    h.delete_eq_self_iff.trans (and_iff_right hnone)
  rw [withdraw_of_none hnone, ← hdelete]
  constructor
  · intro hservice
    exact congrArg Service.store hservice
  · intro hstore
    rw [hstore]

end Service

/-- Whatever a service went through, to remove a script takes what belongs to it and leaves
everything else as it is. Where there is no script the answer is `false`, and nothing at all has
changed exactly if no values are kept there. -/
theorem ClockedService.withdraw_unchanged_iff (runtime : ScriptRuntime) (changes : List StoreStep)
    (cache : CompiledCache) (dispatcher : Dispatcher) (clock : SettableClock)
    (actions : List ServiceAction) (id : ScriptId) :
    let service := ((afterChanges runtime changes cache dispatcher clock).run actions).service
    let reply := service.withdraw id
    reply.outcome = .ok (service.store.get id).isSome ∧
      service.Withdrawn id reply.service ∧
      (reply.outcome = .ok false →
        (reply.service = service ↔ service.store.parametersAt id = [])) := by
  intro service reply
  have houtcome : reply.outcome = .ok (service.store.get id).isSome := service.withdraw_outcome id
  refine ⟨houtcome, service.withdrawn_withdraw id, fun hfalse => ?_⟩
  have hnone : service.store.get id = none := by
    rw [houtcome] at hfalse
    simpa using hfalse
  exact Service.withdraw_eq_self_iff keepsValues_run hnone

/-- The tone in which a script would greet is set, but there is no such script. To remove it
answers that nothing was removed, and the tone is gone. -/
theorem ClockedService.values_lost_without_script :
    let runtime : ScriptRuntime := ⟨fun _ => ⟨.ok .null, {}⟩, fun _ _ => .ok ()⟩
    let greet : ScriptId := ⟨.root, "greet"⟩
    let service := ((afterChanges runtime [] { idleMs := 10 } {} ⟨0⟩).run
      [.assignParameters greet [("tone", .string "warm")]]).service
    let reply := service.withdraw greet
    reply.outcome = .ok false ∧
      service.store.parametersAt greet = [("tone", .string "warm")] ∧
      reply.service.store.parametersAt greet = [] :=
  ⟨rfl, rfl, rfl⟩

/-! ## Drafts -/

/-- A draft that may be kept, and what it says about itself. -/
structure ScriptDraft.Describes (runtime : ScriptRuntime) (draft : ScriptDraft)
    (metadata : ScriptMetadata) : Prop where
  name : checkName draft.name = .ok ()
  source : Script.Keepable draft.source
  answer : (Engine.metadataOf runtime (ScriptId.mk draft.scope draft.name).text draft.source).1 =
    .ok metadata

/-- The checks that need no script. -/
theorem checks_eq_ok_iff {draft : ScriptDraft} :
    (checkName draft.name >>= fun _ => checkSource draft.source) = .ok () ↔
      checkName draft.name = .ok () ∧ Script.Keepable draft.source := by
  rw [← checkSource_eq_ok_iff]
  cases checkName draft.name with
  | error error => exact iff_of_false nofun nofun
  | ok _ => exact (and_iff_right rfl).symm

/-- The check of a draft gives a definition exactly if no step of it fails. -/
theorem ScriptDraft.checked_eq_ok_iff {runtime : ScriptRuntime} {draft : ScriptDraft}
    {definition : ScriptDefinition} :
    (draft.checked runtime).1 = .ok definition ↔
      ∃ metadata, draft.Describes runtime metadata ∧ draft.define metadata = definition := by
  unfold checked
  cases hchecks : (checkName draft.name >>= fun _ => checkSource draft.source) with
  | error error =>
    refine iff_of_false nofun ?_
    rintro ⟨metadata, hdescribes, -⟩
    cases hchecks.symm.trans (checks_eq_ok_iff.mpr ⟨hdescribes.name, hdescribes.source⟩)
  | ok _ =>
    obtain ⟨hname, hsource⟩ := checks_eq_ok_iff.mp hchecks
    have hmap : ∀ answer : Except HookError ScriptMetadata,
        answer.map draft.define = .ok definition ↔
          ∃ metadata, answer = .ok metadata ∧ draft.define metadata = definition := by
      rintro (error | metadata) <;> simp [Except.map]
    refine (hmap _).trans (exists_congr fun metadata => and_congr_left fun _ => ?_)
    exact ⟨fun hanswer => ⟨hname, hsource, hanswer⟩, fun hdescribes => hdescribes.answer⟩

namespace Service

/-- A service after a draft was kept as a definition. Nothing else has changed but that the
compiled form of the source which the draft replaced is forgotten. -/
structure Submitted (before : Service) (draft : ScriptDraft) (definition : ScriptDefinition)
    (after : Service) : Prop where
  kept : after.store.get ⟨draft.scope, draft.name⟩ = some definition
  scope : definition.scope = draft.scope
  name : definition.name = draft.name
  source : definition.source = draft.source
  enabled : definition.enabled = draft.enabled
  others : ∀ id, id ≠ ⟨draft.scope, draft.name⟩ → after.store.get id = before.store.get id
  values : after.store.parameters = before.store.parameters
  forgotten : ∀ previous, before.store.get ⟨draft.scope, draft.name⟩ = some previous →
    previous.contentHash ≠ definition.contentHash →
    after.cache.slot? previous.contentHash = none
  artifacts : ∀ hash,
    (∀ previous, before.store.get ⟨draft.scope, draft.name⟩ = some previous →
      previous.contentHash = hash → definition.contentHash = hash) →
    after.cache.slot? hash = before.cache.slot? hash
  slots : before.cache.SameSlots after.cache
  runtime : after.runtime = before.runtime
  dispatcher : after.dispatcher = before.dispatcher

variable {service : Service} {draft : ScriptDraft} {definition : ScriptDefinition}

/-- What comes of a draft is what comes of its check, and it is kept if it passes. -/
theorem submitScript_eq (service : Service) (draft : ScriptDraft) :
    service.submitScript draft =
      { outcome := (draft.checked service.runtime).1
        effects := (draft.checked service.runtime).2
        service := match (draft.checked service.runtime).1 with
          | .error _ => service
          | .ok definition => service.keep definition } := by
  rw [submitScript]
  obtain ⟨error | definition, effects⟩ := draft.checked service.runtime <;> rfl

theorem keep_store (service : Service) (definition : ScriptDefinition) :
    (service.keep definition).store = service.store.save definition := rfl

/-- To keep a definition leaves what the slots hold. -/
theorem sameSlots_keep (service : Service) (definition : ScriptDefinition) :
    service.cache.SameSlots (service.keep definition).cache := by
  rw [keep]
  cases service.store.obsoletedBy definition <;> exact ⟨rfl, rfl, rfl⟩

/-- A source is replaced by another one under the same identity. -/
theorem obsoletedBy_eq_some_iff {hash : String} :
    service.store.obsoletedBy definition = some hash ↔
      ∃ previous, service.store.get definition.id = some previous ∧
        previous.contentHash = hash ∧ previous.contentHash ≠ definition.contentHash := by
  rw [ScriptStore.obsoletedBy]
  cases service.store.get definition.id with
  | none => simp
  | some previous => by_cases hsame : previous.contentHash = definition.contentHash <;> simp [hsame]

/-- Of the compiled scripts, that of the source which was replaced is gone. -/
theorem slot?_keep (service : Service) (definition : ScriptDefinition) (hash : String) :
    (service.keep definition).cache.slot? hash =
      if service.store.obsoletedBy definition = some hash then none
      else service.cache.slot? hash := by
  rw [keep]
  cases hobsolete : service.store.obsoletedBy definition with
  | none => simp
  | some old => simpa [eq_comm] using service.cache.slot?_forget old hash

/-- What a draft that passes leaves. -/
theorem submitted_keep (h : (draft.checked service.runtime).1 = .ok definition) :
    service.Submitted draft definition (service.keep definition) := by
  obtain ⟨metadata, -, rfl⟩ := ScriptDraft.checked_eq_ok_iff.mp h
  have hid : (draft.define metadata).id = ⟨draft.scope, draft.name⟩ := rfl
  exact {
    kept := by rw [keep_store, ScriptStore.get_save, if_pos hid]
    scope := rfl
    name := rfl
    source := rfl
    enabled := rfl
    others := fun id hne => by rw [keep_store, ScriptStore.get_save, hid, if_neg (Ne.symm hne)]
    values := rfl
    forgotten := fun previous hget hne => by
      rw [slot?_keep, if_pos (obsoletedBy_eq_some_iff.mpr ⟨previous, hget, rfl, hne⟩)]
    artifacts := fun hash hsame => by
      rw [slot?_keep, if_neg]
      intro hobsolete
      obtain ⟨previous, hget, rfl, hne⟩ := obsoletedBy_eq_some_iff.mp hobsolete
      exact hne (hsame previous hget rfl).symm
    slots := service.sameSlots_keep _
    runtime := rfl
    dispatcher := rfl }

/-- A draft is kept as a whole or not at all, whatever the service and whatever the script says
about itself; and it is kept if no check fails. -/
theorem submitScript_all_or_nothing (service : Service) (draft : ScriptDraft) :
    let reply := service.submitScript draft
    (∀ error, reply.outcome = .error error → reply.service = service) ∧
      (∀ definition, reply.outcome = .ok definition →
        service.Submitted draft definition reply.service) ∧
      ∀ definition, reply.outcome = .ok definition ↔
        ∃ metadata, draft.Describes service.runtime metadata ∧
          draft.define metadata = definition := by
  intro reply
  have houtcome : reply.outcome = (draft.checked service.runtime).1 :=
    congrArg Reply.outcome (service.submitScript_eq draft)
  have hservice : reply.service = match (draft.checked service.runtime).1 with
      | .error _ => service
      | .ok definition => service.keep definition :=
    congrArg Reply.service (service.submitScript_eq draft)
  rw [houtcome, hservice]
  refine ⟨fun error h => ?_, fun definition h => ?_, fun definition =>
    ScriptDraft.checked_eq_ok_iff⟩
  · rw [h]
  · rw [h]
    exact submitted_keep h

end Service

end ScriptHooks

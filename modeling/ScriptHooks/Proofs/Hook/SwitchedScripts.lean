/-
ScriptHooks.Proofs.Hook.SwitchedScripts — to switch a script off is to remove it, as far as
resolution is concerned.

What an event runs depends on the enabled definitions of the store only: stores that keep the
same enabled definitions resolve alike (`Kept.resolve_eq`), since the scripts that prevail are
the same and a list of them is determined by its members. A definition that is switched off and
one that is removed leave the same enabled definitions behind, and so do a switch to on after a
switch to off and the switch to on alone.

A switch saves the definition that was found, with another switch and nothing else changed. So what
is kept under the identity after two switches is what is kept after the second
(`get_enable_enable`), and what is kept elsewhere is untouched (`get_enable`).

In particular a script that was hidden by the one that is switched off comes to light: it prevails
as soon as no longer scope has an enabled one of its name.
-/
import ScriptHooks.Proofs.Hook.AuthoringFrames

namespace ScriptHooks

variable {event : String} {scope : ScopePath} {asyncMode : Bool} {id : ScriptId}
  {definition : ScriptDefinition}

/-! ## Prevailing scripts -/

/-- Which scripts prevail depends on the enabled ones that are kept. -/
theorem Prevails.of_enabled {kept kept' : ScriptId → Option ScriptDefinition}
    (hsame : ∀ other : ScriptDefinition, other.enabled = true →
      (kept other.id = some other ↔ kept' other.id = some other))
    (h : Prevails kept event scope asyncMode definition) :
    Prevails kept' event scope asyncMode definition where
  stored := (hsame definition h.answers.enabled).mp h.stored
  answers := h.answers
  longest other hother hanswers :=
    h.longest other ((hsame other hanswers.enabled).mpr hother) hanswers

namespace ScriptStore

variable {store other : ScriptStore}

/-- Resolution gives each name once, in order. -/
theorem pairwise_resolve (store : ScriptStore) :
    (store.resolve event scope asyncMode).Pairwise fun a b => a.name < b.name := by
  rw [resolve_eq_mostSpecific_list]
  exact pairwise_mostSpecific _

/-- Resolution finds the scripts that prevail among those that are kept. -/
theorem Kept.mem_resolve_iff (h : store.Kept) :
    definition ∈ store.resolve event scope asyncMode ↔
      Prevails store.get event scope asyncMode definition := by
  have hdistinct : DistinctAnswers store.list event scope asyncMode := fun a ha b hb _ _ hid =>
    Option.some.inj ((h.mem_list_iff.mp ha).symm.trans (hid ▸ h.mem_list_iff.mp hb))
  rw [resolve_eq_mostSpecific_list, mem_mostSpecific_iff hdistinct]
  constructor
  · rintro ⟨hlisted, hanswers, hlongest⟩
    exact ⟨h.mem_list_iff.mp hlisted, hanswers, fun other hother =>
      hlongest other (h.mem_list_iff.mpr hother)⟩
  · rintro ⟨hstored, hanswers, hlongest⟩
    exact ⟨h.mem_list_iff.mpr hstored, hanswers, fun other hother =>
      hlongest other (h.mem_list_iff.mp hother)⟩

/-- Stores that keep the same enabled definitions resolve alike. -/
theorem Kept.resolve_eq (h : store.Kept) (h' : other.Kept)
    (hsame : ∀ definition : ScriptDefinition, definition.enabled = true →
      (store.get definition.id = some definition ↔ other.get definition.id = some definition)) :
    store.resolve event scope asyncMode = other.resolve event scope asyncMode := by
  refine eq_of_pairwise_text (·.name) store.pairwise_resolve other.pairwise_resolve ?_
  intro definition
  rw [h.mem_resolve_iff, h'.mem_resolve_iff]
  exact ⟨.of_enabled hsame, .of_enabled fun other henabled => (hsame other henabled).symm⟩

end ScriptStore

/-! ## Switches -/

namespace Service

variable {service : Service}

/-- A script that is there is switched. -/
theorem enable_of_some {enabled : Bool} (h : service.store.get id = some definition) :
    service.enable id enabled =
      { outcome := .ok (definition.switched enabled)
        service := { service with store := service.store.save (definition.switched enabled) } } := by
  rw [enable, h]

/-- Where there is none, nothing changes and the answer is an error. -/
theorem enable_of_none {enabled : Bool} (h : service.store.get id = none) :
    service.enable id enabled =
      { outcome := .error (.scriptNotFound id.text), service := service } := by
  rw [enable, h]

theorem withdraw_store (service : Service) (id : ScriptId) :
    (service.withdraw id).service.store = service.store.delete id := by
  cases h : service.store.get id with
  | none => rw [withdraw_of_none h]
  | some removed => rw [withdraw_of_some h]

/-- A switch keeps the definitions in order. -/
theorem kept_enable (h : service.store.Kept) (id : ScriptId) (enabled : Bool) :
    (service.enable id enabled).service.store.Kept := by
  cases hget : service.store.get id with
  | none => rwa [enable_of_none hget]
  | some definition =>
    rw [enable_of_some hget]
    exact h.step (.save (definition.switched enabled))

/-- A switch changes what is kept under its identity. -/
theorem get_enable (h : service.store.Kept) (id other : ScriptId) (enabled : Bool) :
    (service.enable id enabled).service.store.get other =
      if id = other then (service.store.get other).map (·.switched enabled)
      else service.store.get other := by
  have hstore : (service.enable id enabled).service.store =
      service.store.author service.runtime (.enable id enabled) :=
    service.author_store (.enable id enabled)
  rw [hstore, ScriptStore.get_author_enable h]

/-- A switch succeeds where there is a script. -/
theorem isOk_enable (service : Service) (id : ScriptId) (enabled : Bool) :
    (service.enable id enabled).outcome.isOk = (service.store.get id).isSome := by
  cases h : service.store.get id with
  | none => rw [enable_of_none h]; rfl
  | some definition => rw [enable_of_some h]; rfl

/-- Of the enabled definitions, a switch to off leaves all but that of the identity. -/
theorem get_enable_false_iff (h : service.store.Kept) (henabled : definition.enabled = true) :
    (service.enable id false).service.store.get definition.id = some definition ↔
      (if definition.id = id then none else service.store.get definition.id) = some definition := by
  rw [get_enable h]
  by_cases hid : definition.id = id
  · rw [if_pos hid.symm, if_pos hid]
    refine iff_of_false (fun hoff => ?_) nofun
    obtain ⟨kept, -, rfl⟩ := Option.map_eq_some_iff.mp hoff
    cases henabled
  · rw [if_neg (Ne.symm hid), if_neg hid]

/-- A switch undoes the switch before. -/
theorem get_enable_enable (h : service.store.Kept) (id other : ScriptId) (a b : Bool) :
    ((service.enable id a).service.enable id b).service.store.get other =
      (service.enable id b).service.store.get other := by
  rw [get_enable (kept_enable h id a), get_enable h, get_enable h]
  by_cases hid : id = other
  · simp only [if_pos hid, Option.map_map, Function.comp_def, ScriptDefinition.switched_switched]
  · simp only [if_neg hid]

end Service

/-- Resolution of every event is the same after a script was switched off as after it was
removed: what runs then is what prevails among all other scripts. A script that is switched off
and on again answers as one that is switched on. -/
theorem ClockedService.switched_off_as_withdrawn (runtime : ScriptRuntime)
    (changes : List StoreStep) (cache : CompiledCache) (dispatcher : Dispatcher)
    (clock : SettableClock) (actions : List ServiceAction) (id : ScriptId) (event : String)
    (scope : ScopePath) (asyncMode : Bool) :
    let service := ((afterChanges runtime changes cache dispatcher clock).run actions).service
    let off := (service.enable id false).service
    let others := fun other => if other = id then none else service.store.get other
    (service.enable id false).outcome.isOk = (service.store.get id).isSome ∧
      off.resolve event scope asyncMode =
        (service.withdraw id).service.resolve event scope asyncMode ∧
      (∀ definition, definition ∈ off.resolve event scope asyncMode ↔
        Prevails others event scope asyncMode definition) ∧
      (off.enable id true).service.resolve event scope asyncMode =
        (service.enable id true).service.resolve event scope asyncMode := by
  intro service off others
  have hkept : service.store.Kept := kept_run
  have hoff : off.store.Kept := Service.kept_enable hkept id false
  have hsame : ∀ definition : ScriptDefinition, definition.enabled = true →
      (off.store.get definition.id = some definition ↔ others definition.id = some definition) :=
    fun definition henabled => Service.get_enable_false_iff hkept henabled
  refine ⟨service.isOk_enable id false, ?_, fun definition => ?_, ?_⟩
  · have hwithdrawn : (service.withdraw id).service.store.get = others := by
      funext other
      rw [service.withdraw_store, ScriptStore.get_delete]
    have hdeleted : (service.withdraw id).service.store.Kept := by
      rw [service.withdraw_store]
      exact hkept.step (.delete id)
    exact hoff.resolve_eq hdeleted (hwithdrawn ▸ hsame)
  · refine hoff.mem_resolve_iff.trans ⟨.of_enabled hsame, .of_enabled fun other henabled => ?_⟩
    exact (hsame other henabled).symm
  · refine (Service.kept_enable hoff id true).resolve_eq (Service.kept_enable hkept id true) ?_
    intro definition _
    rw [Service.get_enable_enable hkept]

end ScriptHooks

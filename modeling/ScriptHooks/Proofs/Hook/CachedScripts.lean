/-
ScriptHooks.Proofs.Hook.CachedScripts — compiled scripts do not outlive their definitions.

Compiled scripts are kept by digest, and a digest is forgotten when one definition that has it
gets another source or is removed. Others with the same source lose the compiled form then and
compile again when they run next. The other way round nothing is left behind: a digest gets
into the cache only while a definition that has it is run. So every digest in the cache is that
of a definition in the store, or of the script of a queued job that was run (`Backed`): a job
runs the definition that it was queued with, which may have been replaced or removed since.

  §1 Digests     — which digests the operations of the cache add and drop;
  §2 Definitions — which definitions the operations of the store add and drop;
  §3 Services    — every operation of a service keeps it backed;
  §4 Runs        — `cached_scripts_stored`.

The operations fall into two kinds. Those that add a digest run a definition, and it is in the store
or in the list of jobs: a chain of scripts is an induction over the scripts that resolution found
(`contains_runChain`), whether it ends early or not. Those that drop a definition forget its digest
at the same time, so that what is left in the cache does not need it (`contains_keep`).

`Backed` carries the digests of queued jobs as a parameter. Without jobs it is empty, and the main
statement follows: every digest in the cache is one of the store.
-/
import ScriptHooks.Proofs.Hook.CacheCalls
import ScriptHooks.Proofs.Hook.StoredDefinitions

namespace ScriptHooks

/-! ## Digests -/

namespace CompiledCache

variable {cache : CompiledCache} {hash other : String} {now : Nat}

/-- A digest is cached if a slot is registered for it. -/
theorem contains_iff : cache.contains hash = true ↔ ∃ slot, (hash, slot) ∈ cache.registered := by
  simp [contains, slot?, Json.lookup]

theorem contains_of_subset {before : CompiledCache} (h : cache.registered ⊆ before.registered)
    (hcontains : cache.contains hash = true) : before.contains hash = true := by
  obtain ⟨slot, hslot⟩ := contains_iff.mp hcontains
  exact contains_iff.mpr ⟨slot, h hslot⟩

/-- A digest that is forgotten is not there. -/
theorem contains_forget (h : (cache.forget other).contains hash = true) :
    hash ≠ other ∧ cache.contains hash = true := by
  refine ⟨?_, contains_of_subset registered_forget_subset h⟩
  obtain ⟨slot, hslot⟩ := contains_iff.mp h
  have hkept := (List.mem_filter.mp hslot).2
  simpa using hkept

/-- A slot that is opened adds its digest at most. -/
theorem contains_openSlot (h : (cache.openSlot other now).2.contains hash = true) :
    hash = other ∨ cache.contains hash = true := by
  unfold openSlot at h
  split at h
  case h_1 => exact .inr h
  case h_2 =>
    obtain ⟨slot, hslot⟩ := contains_iff.mp h
    rcases List.mem_append.mp hslot with hslot | hslot
    · exact .inr (contains_iff.mpr ⟨slot, hslot⟩)
    · cases List.mem_singleton.mp hslot
      exact .inl rfl

/-- A lookup adds no digest but its own. -/
theorem contains_obtain {compile : String → String → Except HookError CompiledScript}
    {source : Unit → Except HookError String}
    (h : (cache.obtain compile other now source).cache.contains hash = true) :
    hash = other ∨ cache.contains hash = true := by
  have hopened : ((cache.evict now).openSlot other now).2.contains hash = true →
      hash = other ∨ cache.contains hash = true := fun h =>
    (contains_openSlot h).imp_right (contains_of_subset registered_evict_subset)
  unfold obtain at h
  generalize (cache.evict now).openSlot other now = opened at h hopened
  obtain ⟨slot, before⟩ := opened
  dsimp only at h hopened
  split at h
  · exact hopened h
  · split at h
    · exact hopened h
    · have htouched : (before.touch slot now).contains hash = true :=
        contains_of_subset registered_release_subset h
      exact hopened htouched

end CompiledCache

/-! ## Definitions -/

namespace ScriptStore

variable {store : ScriptStore} {definition other : ScriptDefinition} {id : ScriptId}
  {event : String} {scope : ScopePath} {asyncMode : Bool}

/-- A definition that is saved takes the place of the one under its identity. -/
theorem Kept.mem_list_save (h : store.Kept) : other ∈ (store.save definition).list ↔
    other = definition ∨ other ∈ store.list ∧ other.id ≠ definition.id := by
  have hsaved : (store.save definition).Kept := h.step (.save definition)
  rw [hsaved.mem_list_iff, get_save, h.mem_list_iff]
  split
  case isTrue heq => simp [heq, eq_comm]
  case isFalse hne =>
    have hother : other ≠ definition := fun heq => hne (congrArg _ heq).symm
    simp [hother, Ne.symm hne]

/-- A definition that is deleted is no longer listed. -/
theorem Kept.mem_list_delete (h : store.Kept) :
    other ∈ (store.delete id).list ↔ other ∈ store.list ∧ other.id ≠ id := by
  have hdeleted : (store.delete id).Kept := h.step (.delete id)
  have hget : (store.delete id).get other.id = if id = other.id then none else store.get other.id :=
    get_step store (.delete id) other.id
  rw [hdeleted.mem_list_iff, hget, h.mem_list_iff]
  split
  case isTrue heq => simp [heq]
  case isFalse hne => simp [Ne.symm hne]

/-- Resolution finds definitions of the store only. -/
theorem mem_list_of_mem_resolve (h : definition ∈ store.resolve event scope asyncMode) :
    definition ∈ store.list := by
  have hwinners := winners_nil.foldl
    (store.list.filter (·.isCandidate event scope asyncMode))
  rw [resolve_eq_mostSpecific_list, mostSpecific] at h
  obtain ⟨⟨name, winner⟩, hentry, rfl⟩ := List.mem_map.mp h
  have hget := (Ordered.mem_iff_get? hwinners.sorted).mp hentry
  have hseen := (hwinners.member hget).1
  exact List.mem_of_mem_filter hseen

/-- Some definition of the store has the digest. -/
def Holds (store : ScriptStore) (hash : String) : Prop :=
  ∃ definition ∈ store.list, definition.contentHash = hash

/-- After a definition was saved, the digests are those from before and its own. Only that of
the definition in whose place it came may be missing. -/
theorem Kept.holds_save (h : store.Kept) {hash : String} (hholds : store.Holds hash)
    (hplace : ∀ previous, store.get definition.id = some previous →
      previous.contentHash = hash → definition.contentHash = hash) :
    (store.save definition).Holds hash := by
  obtain ⟨other, hother, rfl⟩ := hholds
  by_cases hid : other.id = definition.id
  · have hget : store.get definition.id = some other := hid ▸ h.mem_list_iff.mp hother
    exact ⟨definition, h.mem_list_save.mpr (.inl rfl), hplace other hget rfl⟩
  · exact ⟨other, h.mem_list_save.mpr (.inr ⟨hother, hid⟩), rfl⟩

/-- After a definition was deleted, only its digest may be missing. -/
theorem Kept.holds_delete (h : store.Kept) {hash : String} (hholds : store.Holds hash)
    (hplace : ∀ removed, store.get id = some removed → removed.contentHash ≠ hash) :
    (store.delete id).Holds hash := by
  obtain ⟨other, hother, rfl⟩ := hholds
  refine ⟨other, h.mem_list_delete.mpr ⟨hother, ?_⟩, rfl⟩
  rintro rfl
  exact hplace other (h.mem_list_iff.mp hother) rfl

end ScriptStore

/-! ## Services -/

namespace Service

variable {service : Service} {jobs : List String}

/-- Every digest in the cache is one of these or that of a definition in the store. -/
def Backed (service : Service) (jobs : List String) : Prop :=
  ∀ hash, service.cache.contains hash = true → hash ∈ jobs ∨ service.store.Holds hash

/-- Nothing is added to the cache, and the store still has the digests. -/
theorem Backed.of_le (h : service.Backed jobs) {after : Service}
    (hcache : ∀ hash, after.cache.contains hash = true → service.cache.contains hash = true)
    (hstore : ∀ hash, after.cache.contains hash = true → service.store.Holds hash →
      after.store.Holds hash) : after.Backed jobs := by
  intro hash hcontains
  exact (h hash (hcache hash hcontains)).imp_right (hstore hash hcontains)

/-- What is still in the cache after a definition was kept was there before, and is not the
digest of another source that the definition has replaced. -/
theorem contains_keep {definition : ScriptDefinition} {hash : String}
    (h : (service.keep definition).cache.contains hash = true) :
    service.cache.contains hash = true ∧ ∀ previous,
      service.store.get definition.id = some previous →
      previous.contentHash = hash → definition.contentHash = hash := by
  cases hobsolete : service.store.obsoletedBy definition with
  | none =>
    refine ⟨by simpa [Service.keep, hobsolete] using h, fun previous hget hhash => ?_⟩
    have hsame : previous.contentHash = definition.contentHash := by
      simpa [ScriptStore.obsoletedBy, hget] using hobsolete
    exact hsame.symm.trans hhash
  | some old =>
    obtain ⟨hne, hcontains⟩ : hash ≠ old ∧ service.cache.contains hash = true :=
      CompiledCache.contains_forget (by simpa [Service.keep, hobsolete] using h)
    refine ⟨hcontains, fun previous hget hhash => ?_⟩
    have hold : previous.contentHash ≠ definition.contentHash ∧ previous.contentHash = old := by
      simpa [ScriptStore.obsoletedBy, hget] using hobsolete
    exact absurd (hhash.symm.trans hold.2) hne

/-- A definition is kept, and the digest of the one before is forgotten. -/
theorem Backed.keep (h : service.Backed jobs) (hk : service.store.Kept)
    (definition : ScriptDefinition) : (service.keep definition).Backed jobs :=
  h.of_le (fun _ hcontains => (contains_keep hcontains).1) fun _ hcontains hholds =>
    hk.holds_save hholds (contains_keep hcontains).2

/-- A draft is kept or refused. -/
theorem Backed.submitScript (h : service.Backed jobs) (hk : service.store.Kept)
    (draft : ScriptDraft) : (service.submitScript draft).service.Backed jobs := by
  rcases hchecked : draft.checked service.runtime with ⟨error | definition, effects⟩
  · simpa [Service.submitScript, hchecked] using h
  · simpa [Service.submitScript, hchecked] using h.keep hk definition

/-- A switch leaves the digest what it is. -/
theorem Backed.enable (h : service.Backed jobs) (hk : service.store.Kept) (id : ScriptId)
    (enabled : Bool) : (service.enable id enabled).service.Backed jobs := by
  unfold Service.enable
  split
  case h_1 => exact h
  case h_2 definition hget =>
    refine h.of_le (fun _ hcontains => hcontains) fun hash _ hholds => hk.holds_save hholds ?_
    -- the definition comes in its own place, with its own digest
    rw [ScriptDefinition.switched_id, hk.id_of_get hget, hget]
    rintro _ ⟨⟩ hhash
    exact hhash

/-- A script is removed, and its digest forgotten. -/
theorem Backed.withdraw (h : service.Backed jobs) (hk : service.store.Kept) (id : ScriptId) :
    (service.withdraw id).service.Backed jobs := by
  unfold Service.withdraw
  cases hget : service.store.get id with
  | none =>
    refine h.of_le (fun _ hcontains => hcontains) fun hash _ hholds => hk.holds_delete hholds ?_
    rw [hget]
    exact nofun
  | some removed =>
    refine h.of_le (fun hash hcontains => ?_) fun hash hcontains hholds => hk.holds_delete hholds ?_
    · exact (CompiledCache.contains_forget hcontains).2
    · rw [hget]
      rintro _ ⟨⟩ rfl
      exact absurd rfl (CompiledCache.contains_forget hcontains).1

theorem Backed.author (h : service.Backed jobs) (hk : service.store.Kept) :
    ∀ request, (service.author request).service.Backed jobs
  | .submit draft => h.submitScript hk draft
  | .enable id enabled => h.enable hk id enabled
  | .withdraw id => h.withdraw hk id

/-- A run adds no digest but that of its script. -/
theorem contains_execute {engine : Engine}
    {stored : ScriptId → Except HookError (Option String)} {now : Nat} {invocation : Invocation}
    {hash : String} (h : (engine.execute stored now invocation).cache.contains hash = true) :
    hash = invocation.script.contentHash ∨ engine.cache.contains hash = true := by
  rw [Engine.execute] at h
  exact CompiledCache.contains_obtain h

/-- A chain adds no digests but those of its scripts, wherever it ends. -/
theorem contains_runChain {α : Type} {now : Nat} {type : ResultType α} {event hash : String}
    {scope : ScopePath} {payload : Payload} (scripts : List ScriptDefinition) :
    ∀ (service : Service) (output : Option Json) (last : Option α) (effects : Effects),
      (service.runChain now type event scope payload scripts output last
        effects).service.cache.contains hash = true →
      (∃ script ∈ scripts, script.contentHash = hash) ∨ service.cache.contains hash = true := by
  induction scripts with
  | nil =>
    intro service output last effects h
    exact .inr h
  | cons script rest ih =>
    intro service output last effects h
    rw [runChain] at h
    split at h
    case h_1 =>
      rcases ih service output last effects h with ⟨other, hother, heq⟩ | hcontains
      · exact .inl ⟨other, List.mem_cons_of_mem _ hother, heq⟩
      · exact .inr hcontains
    case h_2 parameters _ =>
      have hfirst := @contains_execute service.engine
        (fun id => .ok (service.store.sourceOf id)) now
        ⟨script, event, scope, payload, output, parameters, type.name⟩ hash
      generalize service.engine.execute (fun id => .ok (service.store.sourceOf id)) now
        ⟨script, event, scope, payload, output, parameters, type.name⟩ = result at h hfirst
      dsimp only at h
      have hafter : (∃ other ∈ rest, other.contentHash = hash) ∨
          result.cache.contains hash = true := by
        split at h
        case h_1 => exact .inr h
        case h_2 =>
          split at h
          case h_1 => exact .inr h
          case h_2 => exact ih _ _ _ _ h
      rcases hafter with ⟨other, hother, heq⟩ | hcontains
      · exact .inl ⟨other, List.mem_cons_of_mem _ hother, heq⟩
      · rcases hfirst hcontains with rfl | hbefore
        · exact .inl ⟨script, List.mem_cons_self, rfl⟩
        · exact .inr hbefore

/-- An event that is waited for runs definitions of the store. -/
theorem Backed.fireAndWait (h : service.Backed jobs) {α : Type} (now : Nat) (type : ResultType α)
    (event : String) (scope : ScopePath) (payload : Payload) (default_ : α) :
    (service.fireAndWait now type event scope payload default_).service.Backed jobs := by
  intro hash hcontains
  have hstore : (service.fireAndWait now type event scope payload default_).service.store =
      service.store := runChain_store ..
  rw [hstore]
  rcases contains_runChain _ _ _ _ _ hcontains with ⟨script, hscript, heq⟩ | hbefore
  · exact .inr ⟨script, ScriptStore.mem_list_of_mem_resolve hscript, heq⟩
  · exact h hash hbefore

/-- A job runs the definition that it was queued with. -/
theorem Backed.runOneJob (h : service.Backed jobs) (now : Nat) {job : QueuedJob}
    (hjob : job.script.contentHash ∈ jobs) : (service.runOneJob now job).2.Backed jobs := by
  intro hash hcontains
  have hexecute := @contains_execute service.engine
    (fun id => .ok (service.store.sourceOf id)) now
    ⟨job.script, job.event, job.scope, job.payload, none, job.parameters, "void"⟩ hash
  rcases hexecute hcontains with rfl | hbefore
  · exact .inl hjob
  · exact h hash hbefore

/-- A sweep only takes digests away. -/
theorem Backed.evict (h : service.Backed jobs) (now : Nat) :
    Backed { service with cache := service.cache.evict now } jobs :=
  h.of_le (fun _ => CompiledCache.contains_of_subset CompiledCache.registered_evict_subset)
    fun _ _ hholds => hholds

end Service

/-! ## Runs -/

namespace ClockedService

variable {s : ClockedService} {jobs : List String}

/-- Every action. -/
theorem backed_act (h : s.service.Backed jobs) (hk : s.service.store.Kept)
    (action : ServiceAction) (hjob : ∀ job, action = .runJob job → job.script.contentHash ∈ jobs) :
    (s.act action).service.Backed jobs := by
  cases action with
  | author request => exact h.author hk request
  | fireAndWait type event scope payload default_ =>
    exact h.fireAndWait s.now type event scope payload default_
  | runJob job => exact h.runOneJob s.now (hjob job rfl)
  | evict => exact h.evict s.now
  | assignParameters | fireAndQueue | advance | changeRuntime => exact h

/-- Any actions one after the other. -/
theorem backed_run {actions : List ServiceAction} (h : s.service.Backed jobs)
    (hs : InOrder s.service.store)
    (hjobs : ∀ job, .runJob job ∈ actions → job.script.contentHash ∈ jobs) :
    (s.run actions).service.Backed jobs := by
  induction actions generalizing s with
  | nil => exact h
  | cons action rest ih =>
    have hact : (s.act action).service.Backed jobs := by
      refine backed_act h hs.kept action ?_
      rintro job rfl
      exact hjobs job List.mem_cons_self
    exact ih hact (hs.act action) fun job hmem => hjobs job (List.mem_cons_of_mem action hmem)

/-- While no queued jobs run, every digest in the cache of a service that kept no script at
first is that of a definition in its store. -/
theorem cached_scripts_stored (runtime : ScriptRuntime) (idleMs : Nat) (clock : SettableClock)
    (actions : List ServiceAction) (hjobs : ∀ job, .runJob job ∉ actions) (hash : String)
    (hcontains : ((empty runtime idleMs clock).run actions).service.cache.contains hash = true) :
    ∃ definition ∈ ((empty runtime idleMs clock).run actions).service.store.list,
      definition.contentHash = hash := by
  have hempty : (empty runtime idleMs clock).service.Backed [] := fun hash h => nomatch h
  have hstart : InOrder (empty runtime idleMs clock).service.store :=
    ⟨ScriptStore.kept_empty, nofun⟩
  have hbacked := backed_run hempty hstart fun job hmem => absurd hmem (hjobs job)
  rcases hbacked hash hcontains with hnone | hstored
  · cases hnone
  · exact hstored

def sharedSource : String :=
  "function getScriptMetadata() \x7b \x7d\nfunction executeScript(event) \x7b \x7d"

/-- A runtime in which every script wants to know who signed up. -/
def welcomingRuntime : ScriptRuntime where
  call _ := ⟨.ok (.object [("displayName", .string "Welcome"),
    ("events", .array [.string HookEvent.userSignedUp.name]), ("id", .string "welcome")]), {}⟩
  checkSyntax _ _ := .ok ()

/-- Two scripts of one source are kept and run. One of them is removed, and the other one
runs again. -/
def sharedSourceActions : List ServiceAction :=
  let fire : ServiceAction :=
    .fireAndWait ⟨"Value", Json.Node.toJson⟩ HookEvent.userSignedUp.name .root [] .null
  [.author (.submit ⟨.root, "greet", sharedSource, true⟩),
    .author (.submit ⟨.root, "welcome", sharedSource, true⟩), fire,
    .author (.withdraw ⟨.root, "welcome"⟩), .advance 3, fire]

/-- The source is in the cache for the script that is left. -/
theorem cached_sharedSource :
    let s := (empty welcomingRuntime 10 ⟨0⟩).run sharedSourceActions
    (∀ job, .runJob job ∉ sharedSourceActions) ∧
      s.service.cache.contains (contentHash sharedSource) = true ∧
      ∃ definition ∈ s.service.store.list, definition.contentHash = contentHash sharedSource := by
  intro s
  have hjobs : ∀ job, .runJob job ∉ sharedSourceActions := by
    intro job h
    simp [sharedSourceActions] at h
  have hcontains : s.service.cache.contains (contentHash sharedSource) = true := by
    decide +kernel
  exact ⟨hjobs, hcontains, cached_scripts_stored _ _ _ _ hjobs _ hcontains⟩

end ClockedService

end ScriptHooks

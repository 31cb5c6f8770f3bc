/-
ScriptHooks.Proofs.Hook.StoredDefinitions — what is kept is always in order.

A definition repeats what its source and its description say: the digest, the events, whether
it is queued. `Consistent` says that it repeats them rightly, that the source is one that may
be kept and that the description passes its own check (`Acceptable`). A draft that passes the
checks becomes such a definition, whatever the script answers (`checked_consistent`), and a
switch changes nothing of it. Nothing else is ever saved (`store_act`), so every store that
was empty once holds consistent definitions only, each under its own identity.

  §1 Texts        — texts put in order are the same texts;
  §2 Descriptions — `problem` finds nothing exactly with acceptable descriptions;
  §3 Definitions  — what the check of a draft and a switch give;
  §4 Services     — what happens to a service, as changes of its store;
  §5 Runs         — `stored_definitions_consistent`.

The description comes from the script, which is run for it and may answer anything. It is read from
what the script returned, checked by `problem`, and refused if that finds something. So §2 is about
the check itself: it finds the first of several problems, and nothing exactly if the description is
acceptable.

The events of a definition are those of its description, each once and in order. They are put in
order as the entries of a sorted list are, one after the other (`sorted_foldl_insertField`).

Actions other than those of authors, such as events, jobs and sweeps, save nothing. For each action
`ServiceAction.changes` gives the changes of the store it comes to, and §5 is the induction over
them.
-/
import ScriptHooks.Hook.ClockedService
import ScriptHooks.Proofs.Hook.AuthoringRaces
import ScriptHooks.Proofs.Hook.OverrideRule

namespace ScriptHooks

/-! ## Texts -/

theorem Ordered.mem_map_insert {κ α : Type} {compare : κ → κ → Ordering}
    [Std.LawfulEqCmp compare] {key other : κ} {value : α} {entries : List (κ × α)} :
    other ∈ (Ordered.insert compare key value entries).map (·.1) ↔
      other = key ∨ other ∈ entries.map (·.1) := by
  induction entries with
  | nil => simp [Ordered.insert]
  | cons first rest ih =>
    obtain ⟨k, v⟩ := first
    rw [Ordered.insert]
    split
    case h_1 => simp
    case h_2 heq =>
      obtain rfl := Std.LawfulEqCmp.eq_of_compare heq
      simp
    case h_3 =>
      rw [List.map_cons, List.mem_cons, ih, List.map_cons, List.mem_cons]
      exact or_left_comm

/-- Entries put in one after the other stand in order, under the keys that were put in. -/
theorem sorted_foldl_insertField (entries : List (String × α)) :
    ∀ fields : List (String × α), Ordered.Sorted compareText fields →
      let all := entries.foldl (fun fields entry => Json.insertField entry.1 entry.2 fields) fields
      Ordered.Sorted compareText all ∧
        ∀ key, key ∈ all.map (·.1) ↔ key ∈ entries.map (·.1) ∨ key ∈ fields.map (·.1) := by
  induction entries with
  | nil =>
    intro fields h
    exact ⟨h, fun key => by simp⟩
  | cons entry rest ih =>
    intro fields h
    have hinsert : Ordered.Sorted compareText (Json.insertField entry.1 entry.2 fields) := by
      rw [insertField_eq_insert]
      exact Ordered.sorted_insert h
    obtain ⟨hsorted, hkeys⟩ := ih _ hinsert
    refine ⟨hsorted, fun key => ?_⟩
    rw [List.foldl_cons, hkeys, insertField_eq_insert, Ordered.mem_map_insert, List.map_cons,
      List.mem_cons]
    exact or_left_comm.trans or_assoc.symm

/-- Every event is one of the list. -/
theorem HookEvent.mem_all (event : HookEvent) : event ∈ HookEvent.all := by
  cases event <;> decide

/-- An event is found by its name. -/
theorem HookEvent.isNone_ofName? {name : String} :
    (HookEvent.ofName? name).isNone = false ↔ ∃ event : HookEvent, event.name = name := by
  rw [HookEvent.ofName?, Option.isNone_eq_false_iff, List.find?_isSome]
  constructor
  · rintro ⟨event, -, hname⟩
    exact ⟨event, by simpa using hname⟩
  · rintro ⟨event, rfl⟩
    exact ⟨event, mem_all event, by simp⟩

namespace ScriptMetadata

variable {metadata : ScriptMetadata}

/-- The events of a definition are those of its description. -/
theorem mem_subscribedEvents {event : String} :
    event ∈ metadata.subscribedEvents ↔ event ∈ metadata.events := by
  have hkeys := (sorted_foldl_insertField (metadata.events.map fun event => (event, ())) []
    List.Pairwise.nil).2 event
  rw [subscribedEvents, Json.orderFields, hkeys]
  simp

/-- They are in order, each once. -/
theorem pairwise_subscribedEvents : metadata.subscribedEvents.Pairwise (· < ·) := by
  have hsorted := (sorted_foldl_insertField (metadata.events.map fun event => (event, ())) []
    List.Pairwise.nil).1
  rw [subscribedEvents, List.pairwise_map]
  exact hsorted.imp fun h => compareText_eq_lt_iff.mp h

/-! ## Descriptions -/

/-- A description that says all that it must. -/
structure Acceptable (metadata : ScriptMetadata) : Prop where
  version : metadata.apiVersion = 1
  id : isVoid metadata.id = false
  displayName : isVoid metadata.displayName = false
  someEvent : metadata.events ≠ []
  known : ∀ name ∈ metadata.events, ∃ event : HookEvent, event.name = name
  named : ∀ field ∈ metadata.parameters, isVoid field.name = false
  distinct : (metadata.parameters.map (·.name)).Nodup

/-- The parameters have names, each its own. -/
theorem parameterProblem_eq_none_iff {fields : List ParameterField} (seen : List String) :
    parameterProblem seen fields = none ↔
      (∀ field ∈ fields, isVoid field.name = false ∧ field.name ∉ seen) ∧
        (fields.map (·.name)).Nodup := by
  induction fields generalizing seen with
  | nil => simp [parameterProblem]
  | cons field rest ih =>
    rw [parameterProblem]
    split
    case isTrue hvoid => simp [hvoid]
    case isFalse hnamed =>
      split
      case isTrue hseen =>
        have hmem : field.name ∈ seen := List.contains_iff_mem.mp hseen
        simp [hmem]
      case isFalse hnew =>
        have hmem : field.name ∉ seen := fun h => hnew (List.contains_iff_mem.mpr h)
        have hcons : ∀ other : ParameterField,
            other.name ∉ field.name :: seen ↔ other.name ≠ field.name ∧ other.name ∉ seen :=
          fun other => by rw [List.mem_cons, not_or]
        have hfirst : field.name ∉ rest.map (·.name) ↔
            ∀ other ∈ rest, other.name ≠ field.name := by
          simp
        rw [ih, List.forall_mem_cons, List.map_cons, List.nodup_cons, hfirst]
        simp only [hcons]
        constructor
        · rintro ⟨hfields, hnodup⟩
          refine ⟨⟨⟨by simpa using hnamed, hmem⟩, fun other h => ?_⟩, fun other h => ?_, hnodup⟩
          · exact ⟨(hfields other h).1, (hfields other h).2.2⟩
          · exact (hfields other h).2.1
        · rintro ⟨⟨-, hfields⟩, hother, hnodup⟩
          exact ⟨fun other h => ⟨(hfields other h).1, hother other h, (hfields other h).2⟩, hnodup⟩

/-- The check finds nothing wrong with acceptable descriptions, and with no others. -/
theorem problem_eq_none_iff : metadata.problem = none ↔ metadata.Acceptable := by
  have hif : ∀ (c : Prop) [Decidable c] (found : Problem) (rest : Option Problem),
      (if c then some found else rest) = none ↔ ¬c ∧ rest = none := by
    intro c _ found rest
    by_cases hc : c <;> simp [hc]
  have hknown : (metadata.events.find? fun name => (HookEvent.ofName? name).isNone) = none ↔
      ∀ name ∈ metadata.events, ∃ event : HookEvent, event.name = name := by
    simp only [List.find?_eq_none, Bool.not_eq_true, HookEvent.isNone_ofName?]
  have hparameters : parameterProblem [] metadata.parameters = none ↔ _ :=
    parameterProblem_eq_none_iff []
  rw [problem, hif, hif, hif, hif]
  constructor
  · rintro ⟨hversion, hid, hname, hevents, hrest⟩
    split at hrest
    case h_1 => cases hrest
    case h_2 hfind =>
      obtain ⟨hnamed, hdistinct⟩ := hparameters.mp hrest
      exact {
        version := Classical.not_not.mp hversion
        id := by simpa using hid
        displayName := by simpa using hname
        someEvent := by simpa using hevents
        known := hknown.mp hfind
        named := fun field hfield => (hnamed field hfield).1
        distinct := hdistinct }
  · intro h
    have hrest := hparameters.mpr ⟨fun field hfield => ⟨h.named field hfield, by simp⟩, h.distinct⟩
    rw [hknown.mpr h.known]
    exact ⟨Classical.not_not.mpr h.version, by simp [h.id], by simp [h.displayName],
      by simp [h.someEvent], hrest⟩

/-- A description that is read passes its own check. -/
theorem acceptable_of_ofJson {value : Json} (h : ofJson value = .ok metadata) :
    metadata.Acceptable := by
  unfold ofJson at h
  split at h
  case h_1 =>
    split at h
    case h_1 => cases h
    case h_2 =>
      split at h
      case h_1 => cases h
      case h_2 hnone =>
        cases h
        exact problem_eq_none_iff.mp hnone
  case h_2 => cases h

end ScriptMetadata

/-! ## Definitions -/

/-- A source that may be kept: it is accepted, and both entry points are at its root. -/
def Script.Keepable (source : String) : Prop :=
  ∃ tree, Script.validate source = .ok tree ∧ Script.checkEntryPoints tree = .ok ()

/-- A definition says of its source and its description what they say. -/
structure ScriptDefinition.Consistent (definition : ScriptDefinition) : Prop where
  name : checkName definition.name = .ok ()
  hash : definition.contentHash = Digest.sha256Hex definition.source
  source : Script.Keepable definition.source
  kind : definition.asyncCapable = definition.metadata.isAsync
  events : ∀ event, event ∈ definition.subscribedEvents ↔ event ∈ definition.metadata.events
  once : definition.subscribedEvents.Pairwise (· < ·)
  metadata : definition.metadata.Acceptable

/-- The check of a source accepts what may be kept. -/
theorem checkSource_eq_ok_iff {source : String} :
    checkSource source = .ok () ↔ Script.Keepable source := by
  unfold checkSource Script.Keepable
  cases hvalid : Script.validate source with
  | error error => simp
  | ok tree =>
    cases hentry : Script.checkEntryPoints tree <;> simp [Except.mapError, hentry]

/-- A draft that passes the checks becomes a consistent definition, whatever the script
answers. -/
theorem ScriptDraft.checked_consistent {runtime : ScriptRuntime} {draft : ScriptDraft}
    {definition : ScriptDefinition} (h : (draft.checked runtime).1 = .ok definition) :
    definition.Consistent := by
  unfold checked at h
  split at h
  case h_1 => cases h
  case h_2 hchecked =>
    have hname : checkName draft.name = .ok () := by
      cases hname : checkName draft.name with
      | error error => rw [hname] at hchecked; cases hchecked
      | ok _ => rfl
    have hsource : checkSource draft.source = .ok () := by
      rw [hname] at hchecked
      exact hchecked
    dsimp only [Engine.metadataOf] at h
    split at h
    case h_1 => cases h
    case h_2 value hvalue =>
      cases hmetadata : ScriptMetadata.ofJson value with
      | error problem => rw [hmetadata] at h; cases h
      | ok metadata =>
        rw [hmetadata] at h
        cases h
        exact ⟨hname, rfl, checkSource_eq_ok_iff.mp hsource, rfl,
          fun _ => ScriptMetadata.mem_subscribedEvents, ScriptMetadata.pairwise_subscribedEvents,
          ScriptMetadata.acceptable_of_ofJson hmetadata⟩

/-- A switch leaves all else of a definition as it is. -/
theorem ScriptDefinition.Consistent.switched {definition : ScriptDefinition}
    (h : definition.Consistent) (enabled : Bool) : (definition.switched enabled).Consistent :=
  ⟨h.name, h.hash, h.source, h.kind, h.events, h.once, h.metadata⟩

namespace ScriptStore

/-- All definitions that are kept are consistent. -/
def Consistent (store : ScriptStore) : Prop :=
  ∀ id definition, store.get id = some definition → definition.Consistent

variable {store : ScriptStore}

/-- A change that saves nothing else keeps a store consistent. -/
theorem Consistent.step (h : store.Consistent) {t : StoreStep}
    (ht : ∀ definition, t = .save definition → definition.Consistent) :
    (store.step t).Consistent := by
  intro id definition hget
  rw [get_step] at hget
  cases t with
  | save saved =>
    rw [StoreStep.kept] at hget
    split at hget
    · cases hget
      exact ht definition rfl
    · exact h id definition hget
  | delete other =>
    rw [StoreStep.kept] at hget
    split at hget
    · cases hget
    · exact h id definition hget
  | assignParameters other values => exact h id definition hget

/-- So do any such changes. -/
theorem Consistent.run (h : store.Consistent) {steps : List StoreStep}
    (hsteps : ∀ definition, .save definition ∈ steps → definition.Consistent) :
    (store.run steps).Consistent := by
  induction steps generalizing store with
  | nil => exact h
  | cons t rest ih =>
    refine ih (h.step fun definition ht => ?_) fun definition hmem => ?_
    · exact hsteps definition (ht ▸ List.mem_cons_self)
    · exact hsteps definition (List.mem_cons_of_mem t hmem)

/-- What authors ask for saves consistent definitions only. -/
theorem Consistent.changes (h : store.Consistent) (runtime : ScriptRuntime)
    (request : AuthoringRequest) {definition : ScriptDefinition}
    (hmem : .save definition ∈ request.changes runtime store) : definition.Consistent := by
  cases request with
  | submit draft =>
    rcases hchecked : (draft.checked runtime).1 with error | checked
    · simp [AuthoringRequest.changes, hchecked] at hmem
    · obtain rfl : definition = checked := by
        simpa [AuthoringRequest.changes, hchecked] using hmem
      exact ScriptDraft.checked_consistent hchecked
  | enable id enabled =>
    cases hget : store.get id with
    | none => simp [AuthoringRequest.changes, hget] at hmem
    | some kept =>
      obtain rfl : definition = kept.switched enabled := by
        simpa [AuthoringRequest.changes, hget] using hmem
      exact (h id kept hget).switched enabled
  | withdraw id => simp [AuthoringRequest.changes] at hmem

end ScriptStore

/-! ## Services -/

/-- A chain runs scripts and leaves the store alone, wherever it ends. -/
theorem Service.runChain_store {α : Type} (now : Nat) (type : ResultType α) (event : String)
    (scope : ScopePath) (payload : Payload) (scripts : List ScriptDefinition) :
    ∀ (service : Service) (output : Option Json) (last : Option α) (effects : Effects),
      (service.runChain now type event scope payload scripts output last effects).service.store =
        service.store := by
  induction scripts with
  | nil =>
    intro service output last effects
    rfl
  | cons script rest ih =>
    intro service output last effects
    rw [runChain]
    split
    case h_1 => exact ih service output last effects
    case h_2 =>
      dsimp only
      split
      case h_1 => rfl
      case h_2 =>
        split
        case h_1 => rfl
        case h_2 => exact ih _ _ _ _

/-- What happens to a service, as changes of its store. -/
def ServiceAction.changes (s : ClockedService) : ServiceAction → List StoreStep
  | .author request => request.changes s.service.runtime s.service.store
  | .assignParameters id values => [.assignParameters id values]
  | _ => []

namespace ClockedService

/-- What an action does to the store are its changes. -/
theorem store_act (s : ClockedService) (action : ServiceAction) :
    (s.act action).service.store = s.service.store.run (action.changes s) := by
  cases action with
  | author request => exact s.service.author_store request
  | fireAndWait type event scope payload => exact Service.runChain_store ..
  | assignParameters | fireAndQueue | runJob | evict | advance | changeRuntime => rfl

/-! ## Runs -/

/-- A store in which every definition is consistent and kept under its own identity. -/
structure InOrder (store : ScriptStore) : Prop where
  kept : store.Kept
  consistent : store.Consistent

/-- Every action of a service keeps what it holds in order. -/
theorem InOrder.act {s : ClockedService} (h : InOrder s.service.store) (action : ServiceAction) :
    InOrder (s.act action).service.store := by
  rw [store_act]
  refine ⟨h.kept.run _, h.consistent.run fun definition hmem => ?_⟩
  cases action with
  | author request => exact h.consistent.changes s.service.runtime request hmem
  | assignParameters => simp [ServiceAction.changes] at hmem
  | fireAndWait | fireAndQueue | runJob | evict | advance | changeRuntime => cases hmem

theorem InOrder.run {s : ClockedService} (h : InOrder s.service.store)
    (actions : List ServiceAction) : InOrder (s.run actions).service.store := by
  induction actions generalizing s with
  | nil => exact h
  | cons action rest ih => exact ih (h.act action)

/-- Whatever happens to a service whose store was empty: what is kept under an identity is a
consistent definition of that identity, and all that is kept is kept under its own. -/
theorem stored_definitions_consistent (runtime : ScriptRuntime) (cache : CompiledCache)
    (dispatcher : Dispatcher) (clock : SettableClock) (actions : List ServiceAction) :
    let start : ClockedService := ⟨⟨runtime, .empty, cache, dispatcher⟩, clock⟩
    let store := (start.run actions).service.store
    (∀ id definition, store.get id = some definition →
      definition.id = id ∧ definition.Consistent) ∧
    ∀ definition, definition ∈ store.list ↔ store.get definition.id = some definition := by
  intro start store
  have hstart : InOrder start.service.store := ⟨ScriptStore.kept_empty, nofun⟩
  have h : InOrder store := hstart.run actions
  refine ⟨fun id definition hget => ?_, fun definition => h.kept.mem_list_iff⟩
  exact ⟨h.kept.id_of_get hget, h.consistent id definition hget⟩

end ClockedService

end ScriptHooks

/-
ScriptHooks.Proofs.Hook.ParameterValues — which values the parameters of a script have where
an event fires.

Operators set values at scopes. The values at the firing scope and at those above it are put
into one map, the root first, so a value that is put in later takes the place of one from above.
`HasValue` says it without an order: a parameter has the value that the longest scope sets for
it. There is at most one such scope, as the scopes above one are of different lengths
(`SetBy.unique`).

`lookup_mergedParameters_iff` says that the map holds these values, and
`parametersOf_eq_none_iff` that a script goes without if one that it requires is missing. A value of
`null` counts as none there, though it hides the values of scopes above.

`parametersOf_by_specificity` says of every store and script what the parameters are: none, if a
required one has no value or `null`; else the map with exactly the values of `HasValue`, in the
order of their names. The scope at which the script itself is defined does not occur in it.
-/
import Mathlib.Data.List.Induction
import ScriptHooks.Hook.Service
import ScriptHooks.Proofs.Hook.StoredDefinitions

namespace ScriptHooks

/-! ## Named values -/

namespace Json

variable {α : Type}

/-- The value of a name among named values; the last one of the name counts. -/
def valueOf (name : String) (values : List (String × α)) : Option α :=
  lookup name (orderFields values)

/-- A value that is put in is found, and the others are as before. -/
theorem lookup_insertField (name other : String) (value : α) (fields : List (String × α)) :
    lookup other (insertField name value fields) =
      if name = other then some value else lookup other fields := by
  rw [lookup_eq_get?, lookup_eq_get?, insertField_eq_insert, Ordered.get?_insert]

/-- Of several values for a name the last one counts. -/
theorem valueOf_concat (name : String) (values : List (String × α)) (entry : String × α) :
    valueOf name (values ++ [entry]) =
      if entry.1 = name then some entry.2 else valueOf name values := by
  rw [valueOf, orderFields, List.foldl_append]
  exact lookup_insertField entry.1 name entry.2 _

/-- Values put into a map take the place of those that are there. -/
theorem lookup_foldl_insertField (name : String) (values fields : List (String × α)) :
    lookup name (values.foldl (fun fields entry => insertField entry.1 entry.2 fields) fields) =
      (valueOf name values).or (lookup name fields) := by
  induction values using List.reverseRecOn with
  | nil => rfl
  | append_singleton init entry ih =>
    rw [List.foldl_append, List.foldl_cons, List.foldl_nil, lookup_insertField, ih, valueOf_concat]
    split <;> rfl

/-- Values of some names are left out. -/
theorem valueOf_filter (keeps : String → Bool) (name : String) (values : List (String × α)) :
    valueOf name (values.filter fun entry => keeps entry.1) =
      if keeps name then valueOf name values else none := by
  induction values using List.reverseRecOn with
  | nil => exact (ite_self none).symm
  | append_singleton init entry ih =>
    rw [List.filter_append, List.filter_singleton, valueOf_concat]
    by_cases hname : entry.1 = name
    · subst hname
      cases hkeeps : keeps entry.1 with
      | true => simp [valueOf_concat]
      | false => simp [ih, hkeeps]
    · rw [if_neg hname, ← ih]
      cases keeps entry.1 with
      | true => exact (valueOf_concat ..).trans (if_neg hname)
      | false => simp

/-- Values put in one after the other stand in the order of their names. -/
theorem sorted_orderFields (values : List (String × α)) :
    Ordered.Sorted compareText (orderFields values) :=
  (sorted_foldl_insertField values [] List.Pairwise.nil).1

theorem sorted_insertField {fields : List (String × α)}
    (h : Ordered.Sorted compareText fields) (name : String) (value : α) :
    Ordered.Sorted compareText (insertField name value fields) := by
  rw [insertField_eq_insert]
  exact Ordered.sorted_insert h

end Json

/-! ## Values at scopes -/

namespace ScriptStore

/-- The value that a scope sets for a parameter of the scripts of a name. -/
def valueAt (store : ScriptStore) (name key : String) (above : ScopePath) : Option Json :=
  Json.valueOf key (store.parametersAt ⟨above, name⟩)

/-- Of the scopes at or above the one where an event fires, the longest that sets a parameter of
the scripts of a name. -/
structure SetBy (store : ScriptStore) (name : String) (scope : ScopePath) (key : String)
    (source : ScopePath) : Prop where
  above : source.segments <+: scope.segments
  sets : store.valueAt name key source ≠ none
  longest : ∀ other : ScopePath, other.segments <+: scope.segments →
    store.valueAt name key other ≠ none → other.segments.length ≤ source.segments.length

/-- A parameter of the scripts of a name has this value where an event fires. -/
def HasValue (store : ScriptStore) (name : String) (scope : ScopePath) (key : String)
    (value : Json) : Prop :=
  ∃ source, store.SetBy name scope key source ∧ store.valueAt name key source = some value

variable {store : ScriptStore} {name key : String} {scope : ScopePath} {value : Json}

/-- One scope is the longest that sets a parameter. -/
theorem SetBy.unique {a b : ScopePath} (ha : store.SetBy name scope key a)
    (hb : store.SetBy name scope key b) : a = b :=
  ScopePath.eq_of_above ha.above hb.above
    (Nat.le_antisymm (hb.longest a ha.above ha.sets) (ha.longest b hb.above hb.sets))

/-- Values of scopes put into one map, one scope after the other: a name has the value of the
last scope that sets it. -/
theorem lookup_foldl_parametersAt (store : ScriptStore) (name key : String)
    (scopes : List ScopePath) :
    Json.lookup key (scopes.foldl (fun merged above =>
      (store.parametersAt ⟨above, name⟩).foldl
        (fun merged entry => Json.insertField entry.1 entry.2 merged) merged) []) =
      scopes.reverse.findSome? (store.valueAt name key) := by
  induction scopes using List.reverseRecOn with
  | nil => rfl
  | append_singleton init last ih =>
    rw [List.foldl_append, List.foldl_cons, List.foldl_nil, Json.lookup_foldl_insertField, ih,
      List.reverse_append, List.reverse_singleton, List.singleton_append, List.findSome?_cons,
      ← valueAt]
    cases store.valueAt name key last <;> rfl

/-- The lineage goes from short scopes to long ones. -/
theorem pairwise_lineage (scope : ScopePath) :
    scope.lineage.Pairwise fun a b => a.segments.length < b.segments.length := by
  rw [ScopePath.lineage, List.pairwise_map]
  refine List.pairwise_lt_range.imp_of_mem fun {a b} _ hb hlt => ?_
  have hb : b ≤ scope.segments.length := Nat.lt_succ_iff.mp (List.mem_range.mp hb)
  simp only [ScopePath.take, List.length_take]
  omega

/-- The last scope of the lineage that sets a parameter is the longest. -/
theorem findSome?_lineage_iff :
    scope.lineage.reverse.findSome? (store.valueAt name key) = some value ↔
      store.HasValue name scope key value := by
  have hfound : ∀ found,
      scope.lineage.reverse.findSome? (store.valueAt name key) = some found →
      store.HasValue name scope key found := by
    intro found h
    obtain ⟨longer, source, shorter, hsplit, hsets, hnone⟩ := List.findSome?_eq_some_iff.mp h
    have hlength := List.pairwise_reverse.mpr (pairwise_lineage scope)
    have hmem : ∀ other : ScopePath, other.segments <+: scope.segments ↔
        other ∈ longer ++ source :: shorter := fun other => by
      rw [← ScopePath.mem_lineage_iff, ← hsplit, List.mem_reverse]
    rw [hsplit] at hlength
    refine ⟨source, ⟨(hmem source).mpr (by simp), by simp [hsets], fun other habove hother => ?_⟩,
      hsets⟩
    rcases List.mem_append.mp ((hmem other).mp habove) with hlonger | hrest
    · exact absurd (hnone other hlonger) hother
    · rcases List.mem_cons.mp hrest with rfl | hshorter
      · exact Nat.le_refl _
      · have hafter := (List.pairwise_cons.mp (List.pairwise_append.mp hlength).2.1).1
        exact Nat.le_of_lt (hafter other hshorter)
  refine ⟨hfound value, ?_⟩
  rintro ⟨source, hsource, hsets⟩
  cases hfind : scope.lineage.reverse.findSome? (store.valueAt name key) with
  | none =>
    have hmem : source ∈ scope.lineage.reverse :=
      List.mem_reverse.mpr (ScopePath.mem_lineage_iff.mpr hsource.above)
    exact absurd (List.findSome?_eq_none_iff.mp hfind source hmem) hsource.sets
  | some found =>
    obtain ⟨other, hother, hfound⟩ := hfound found hfind
    rw [← hfound, ← hsets, hother.unique hsource]

/-- A parameter has a value where an event fires if a scope at or above that one sets it. -/
theorem exists_hasValue_iff :
    (∃ value, store.HasValue name scope key value) ↔
      ∃ above : ScopePath, above.segments <+: scope.segments ∧
        store.valueAt name key above ≠ none := by
  constructor
  · rintro ⟨value, source, hsource, -⟩
    exact ⟨source, hsource.above, hsource.sets⟩
  · rintro ⟨above, habove, hsets⟩
    cases hfind : scope.lineage.reverse.findSome? (store.valueAt name key) with
    | some value => exact ⟨value, findSome?_lineage_iff.mp hfind⟩
    | none =>
      have hmem : above ∈ scope.lineage.reverse :=
        List.mem_reverse.mpr (ScopePath.mem_lineage_iff.mpr habove)
      exact absurd (List.findSome?_eq_none_iff.mp hfind above hmem) hsets

end ScriptStore

/-! ## Parameters of a script -/

namespace Service

variable {store : ScriptStore} {script : ScriptDefinition} {scope : ScopePath}

/-- The merged map holds the values that the longest scopes set. -/
theorem lookup_mergedParameters_iff {name key : String} {value : Json} :
    Json.lookup key (mergedParameters store name scope) = some value ↔
      store.HasValue name scope key value := by
  rw [mergedParameters, store.lookup_foldl_parametersAt, ScriptStore.findSome?_lineage_iff]

theorem sorted_mergedParameters (store : ScriptStore) (name : String) (scope : ScopePath) :
    Ordered.Sorted compareText (mergedParameters store name scope) := by
  rw [mergedParameters]
  refine List.foldlRecOn scope.lineage _ List.Pairwise.nil fun merged hmerged above _ => ?_
  exact (sorted_foldl_insertField _ merged hmerged).1

/-- What is in it are these values and no others. -/
theorem mem_mergedParameters_iff {name key : String} {value : Json} :
    (key, value) ∈ mergedParameters store name scope ↔ store.HasValue name scope key value := by
  rw [Ordered.mem_iff_get? (sorted_mergedParameters store name scope), ← lookup_eq_get?,
    lookup_mergedParameters_iff]

end Service

/-- A parameter that the script requires has no value where an event fires, or `null`. -/
def ScriptStore.LacksValue (store : ScriptStore) (script : ScriptDefinition) (scope : ScopePath) :
    Prop :=
  ∃ field ∈ script.metadata.parameters, field.required = true ∧
    ∀ value, store.HasValue script.name scope field.name value → value = .null

namespace Service

variable {store : ScriptStore} {script : ScriptDefinition} {scope : ScopePath}

/-- A parameter is missing if it has no value, or `null`. -/
theorem isMissing_iff {name key : String} :
    isMissing key (mergedParameters store name scope) = true ↔
      ∀ value, store.HasValue name scope key value → value = .null := by
  simp only [← lookup_mergedParameters_iff]
  rw [isMissing]
  rcases Json.lookup key (mergedParameters store name scope) with _ | value
  · simp
  · cases value <;> simp

/-- A script lacks a value if one that it needs is missing. -/
theorem lacksValue_iff :
    (script.metadata.neededParameters.any fun field =>
        isMissing field.name (mergedParameters store script.name scope)) = true ↔
      store.LacksValue script scope := by
  simp only [List.any_eq_true, isMissing_iff, ScriptStore.LacksValue,
    ScriptMetadata.neededParameters, List.mem_filter, and_assoc]

/-- A script goes without its parameters if one that it requires is missing. -/
theorem parametersOf_eq_none_iff :
    parametersOf store script scope = none ↔ store.LacksValue script scope := by
  rw [← lacksValue_iff, parametersOf]
  split
  case isTrue hlacks => exact iff_of_true rfl hlacks
  case isFalse hgiven => exact iff_of_false nofun hgiven

/-- The parameters are the merged map as a whole. -/
theorem parametersOf_eq_some {values : Payload}
    (h : parametersOf store script scope = some values) :
    values = mergedParameters store script.name scope := by
  rw [parametersOf] at h
  split at h
  · cases h
  · exact (Option.some.inj h).symm

/-- A script goes without its parameters exactly if one that it requires has no value or `null`
where the event fires. Otherwise it gets the parameters of its name that are set at or above that
scope, each with what the longest scope sets, wherever the script itself is defined. -/
theorem parametersOf_by_specificity (store : ScriptStore) (script : ScriptDefinition)
    (scope : ScopePath) :
    (parametersOf store script scope = none ↔ store.LacksValue script scope) ∧
    (∀ values, parametersOf store script scope = some values ↔
      ¬ store.LacksValue script scope ∧ values.Pairwise (fun a b => a.1 < b.1) ∧
        ∀ key value, (key, value) ∈ values ↔ store.HasValue script.name scope key value) ∧
    (∀ key, (∃ value, store.HasValue script.name scope key value) ↔
      ∃ above : ScopePath, above.segments <+: scope.segments ∧
        store.valueAt script.name key above ≠ none) ∧
    ∀ home, parametersOf store { script with scope := home } scope =
      parametersOf store script scope := by
  have hordered : (mergedParameters store script.name scope).Pairwise fun a b => a.1 < b.1 :=
    (sorted_mergedParameters store script.name scope).imp compareText_eq_lt_iff.mp
  refine ⟨parametersOf_eq_none_iff, fun values => ⟨fun h => ?_, ?_⟩,
    fun key => ScriptStore.exists_hasValue_iff, fun home => rfl⟩
  · have hgiven : ¬ store.LacksValue script scope := fun hlacks => by
      rw [parametersOf_eq_none_iff.mpr hlacks] at h
      cases h
    obtain rfl := parametersOf_eq_some h
    exact ⟨hgiven, hordered, fun key value => mem_mergedParameters_iff⟩
  · rintro ⟨hgiven, hsorted, hmem⟩
    have hvalues : values = mergedParameters store script.name scope :=
      eq_of_pairwise_text Prod.fst hsorted hordered fun entry =>
        (hmem entry.1 entry.2).trans mem_mergedParameters_iff.symm
    obtain ⟨found, hfound⟩ := Option.ne_none_iff_exists'.mp (mt parametersOf_eq_none_iff.mp hgiven)
    rw [hfound, hvalues, parametersOf_eq_some hfound]

/-- A `null` that is set below hides the value above. -/
example :
    let acme : ScopePath := ⟨["acme"], by decide⟩
    let store : ScriptStore := { parameters :=
      [(⟨.root, "s"⟩, [("key", .bool true), ("mode", .null)]), (⟨acme, "s"⟩, [("key", .null)])] }
    let script := fun required => ScriptDefinition.mk .root "s" "" "" true false []
      { parameters := [{ name := "key", required := required }] }
    parametersOf store (script true) acme = none ∧
      parametersOf store (script false) acme = some [("key", .null), ("mode", .null)] := by
  intro acme store script
  exact ⟨rfl, rfl⟩

end Service

end ScriptHooks

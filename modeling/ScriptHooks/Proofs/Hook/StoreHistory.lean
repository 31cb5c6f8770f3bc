/-
ScriptHooks.Proofs.Hook.StoreHistory — what a store holds after a history of changes.

A store is a sorted list of definitions. To those who ask it, it is what was saved last under each
identity. `keptAfter` reads off a history which definition was saved last under an identity and not
deleted since. `get_run` finds it in the store, and `mem_list_run` says that the store lists
these definitions and nothing else: every change keeps them in the order of their
identities, each under its own (`Kept.step`).

`Kept` is the invariant, and later modules assume no more of a store. It has two fields: the
definitions are sorted by identity, and each is kept under the identity that it has itself. With
the second, a definition that is listed can be asked for (`Kept.mem_list_iff`).
-/
import ScriptHooks.Hook.Store
import ScriptHooks.Proofs.Hook.Ancestors

namespace ScriptHooks

/-! ## Histories -/

/-- What is kept under an identity after a change. -/
def StoreStep.kept (id : ScriptId) (before : Option ScriptDefinition) :
    StoreStep → Option ScriptDefinition
  | .save definition => if definition.id = id then some definition else before
  | .delete other => if other = id then none else before
  | .assignParameters _ _ => before

/-- The definition that was saved last under an identity and not deleted since. -/
def keptAfter (steps : List StoreStep) (id : ScriptId) : Option ScriptDefinition :=
  steps.foldl (StoreStep.kept id) none

namespace ScriptStore

/-- Definitions are kept in the order of their identities, each under its own. -/
structure Kept (store : ScriptStore) : Prop where
  sorted : Ordered.Sorted ScriptId.compare store.scripts
  own : ∀ entry ∈ store.scripts, entry.1 = entry.2.id

/-- An empty store. -/
theorem kept_empty : empty.Kept where
  sorted := List.Pairwise.nil
  own := by simp [empty]

variable {store : ScriptStore}

/-- Every change keeps the definitions in order. -/
theorem Kept.step (h : store.Kept) (t : StoreStep) : (store.step t).Kept := by
  cases t with
  | save definition =>
    refine ⟨Ordered.sorted_insert h.sorted, fun entry hentry => ?_⟩
    obtain rfl | hentry := Ordered.eq_or_mem_of_mem_insert hentry
    · rfl
    · exact h.own entry hentry
  | delete id =>
    exact ⟨Ordered.sorted_erase h.sorted, fun entry hentry =>
      h.own entry (List.mem_of_mem_filter hentry)⟩
  | assignParameters id values => exact ⟨h.sorted, h.own⟩

theorem Kept.run (h : store.Kept) (steps : List StoreStep) : (store.run steps).Kept := by
  induction steps generalizing store with
  | nil => exact h
  | cons t rest ih => exact ih (h.step t)

/-- What a store lists is what it gives under the identity of its own. -/
theorem Kept.mem_list_iff (h : store.Kept) {definition : ScriptDefinition} :
    definition ∈ store.list ↔ store.get definition.id = some definition := by
  rw [get, ← Ordered.mem_iff_get? h.sorted, list, List.mem_map]
  constructor
  · rintro ⟨entry, hentry, rfl⟩
    exact h.own entry hentry ▸ hentry
  · exact fun hmem => ⟨_, hmem, rfl⟩

/-- One change, as an identity sees it. -/
theorem get_step (store : ScriptStore) (t : StoreStep) (id : ScriptId) :
    (store.step t).get id = t.kept id (store.get id) := by
  cases t with
  | save definition => exact Ordered.get?_insert _ _ _ _
  | delete other => exact Ordered.get?_erase _ _ _
  | assignParameters other values => rfl

/-- A store gives back what was saved last and not deleted since. -/
theorem get_run (steps : List StoreStep) (id : ScriptId) :
    (empty.run steps).get id = keptAfter steps id := by
  have hfrom : ∀ store : ScriptStore,
      (store.run steps).get id = steps.foldl (StoreStep.kept id) (store.get id) := by
    induction steps with
    | nil => exact fun _ => rfl
    | cons t rest ih => exact fun store => (ih (store.step t)).trans (by rw [get_step]; rfl)
  exact hfrom empty

/-- A store lists what was saved last and not deleted since. -/
theorem mem_list_run {steps : List StoreStep} {definition : ScriptDefinition} :
    definition ∈ (empty.run steps).list ↔ keptAfter steps definition.id = some definition := by
  rw [← get_run]
  exact (kept_empty.run steps).mem_list_iff

end ScriptStore

end ScriptHooks

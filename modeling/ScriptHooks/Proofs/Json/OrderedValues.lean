/-
ScriptHooks.Proofs.Json.OrderedValues — values whose objects are in the order of their keys.

An object gets its entries one by one, each at its place, so every object that the program holds
lists its entries in the increasing order of their keys. `InOrder numbers value` says so of a value,
of all objects in it, and of its numbers whatever is asked of them: that they are integers
(`IsInteger`), or that they fit what reads them.

Three facts are used wherever values are written and read:

* entries in order stay as they are when they are put in once more (`orderFields_eq_self`);
* entries put in in any order make the same object (`orderFields_of_perm`). So a reader that meets
  the entries of a record in the order of its fields makes the object that the program holds;
* a value is what its node is read as (`Node.toJson_ofJson`). A node is what the reader makes of a
  text before anything is decoded, with places and endings, and `Node.ofJson` is the one without.
-/
import Mathlib.Data.List.Pairwise
import ScriptHooks.Json.Document
import ScriptHooks.Proofs.Hook.ParameterValues

namespace ScriptHooks.Json

/-! ## Values in order -/

/-- A value whose objects list their entries in the increasing order of their keys, and whose
numbers are all of a kind. -/
inductive InOrder (numbers : JsonNumber → Prop) : Json → Prop
  | null : InOrder numbers .null
  | bool (value : Bool) : InOrder numbers (.bool value)
  | number {value : JsonNumber} (h : numbers value) : InOrder numbers (.number value)
  | string (value : String) : InOrder numbers (.string value)
  | array {items : List Json} (h : ∀ item ∈ items, InOrder numbers item) :
    InOrder numbers (.array items)
  | object {fields : List (String × Json)} (hsorted : Ordered.Sorted compareText fields)
    (h : ∀ entry ∈ fields, InOrder numbers entry.2) : InOrder numbers (.object fields)

def IsInteger : JsonNumber → Prop
  | .int _ _ => True
  | .float _ => False

theorem InOrder.mono {numbers others : JsonNumber → Prop} (himp : ∀ n, numbers n → others n)
    {value : Json} (h : InOrder numbers value) : InOrder others value := by
  induction h with
  | null => exact .null
  | bool b => exact .bool b
  | number h => exact .number (himp _ h)
  | string s => exact .string s
  | array _ ih => exact .array ih
  | object hsorted _ ih => exact .object hsorted ih

/-! ## Entries put in once more -/

variable {α : Type}

/-- Entries with these keys are in order if the keys are. -/
theorem sorted_of_keys (keys : List String) {fields : List (String × α)}
    (hkeys : fields.map (·.1) = keys) (h : keys.Pairwise (· < ·)) :
    Ordered.Sorted compareText fields := by
  subst hkeys
  exact (List.pairwise_map.mp h).imp compareText_eq_lt_iff.mpr

/-- An entry whose key is beyond all others goes to the end. -/
theorem insertField_of_forall_lt {key : String} {value : α} {fields : List (String × α)}
    (h : ∀ entry ∈ fields, entry.1 < key) :
    insertField key value fields = fields ++ [(key, value)] := by
  induction fields with
  | nil => rfl
  | cons first rest ih =>
    obtain ⟨k, v⟩ := first
    have hlt : k < key := h (k, v) List.mem_cons_self
    have hne : key ≠ k := fun heq => String.lt_irrefl k (heq ▸ hlt)
    rw [insertField, if_neg hne, if_neg (String.lt_asymm hlt),
      ih fun entry hentry => h entry (List.mem_cons_of_mem _ hentry), List.cons_append]

/-- Entries in order stay as they are. -/
theorem orderFields_eq_self {fields : List (String × α)}
    (h : Ordered.Sorted compareText fields) : orderFields fields = fields := by
  induction fields using List.reverseRecOn with
  | nil => rfl
  | append_singleton init last ih =>
    obtain ⟨hinit, -, hlast⟩ := List.pairwise_append.mp h
    have hfold : orderFields (init ++ [last]) = insertField last.1 last.2 (orderFields init) := by
      simp [orderFields]
    rw [hfold, ih hinit]
    exact insertField_of_forall_lt fun entry hentry =>
      compareText_eq_lt_iff.mp (hlast entry hentry last List.mem_cons_self)

/-- Entries of different keys are all there. -/
theorem mem_orderFields_iff {fields : List (String × α)} (h : (fields.map (·.1)).Nodup)
    {entry : String × α} : entry ∈ orderFields fields ↔ entry ∈ fields := by
  induction fields using List.reverseRecOn with
  | nil => rfl
  | append_singleton init last ih =>
    have hvalue : entry ∈ orderFields (init ++ [last]) ↔
        valueOf entry.1 (init ++ [last]) = some entry.2 := by
      rw [valueOf, lookup_eq_get?]
      exact Ordered.mem_iff_get? (sorted_orderFields _)
    have hinit : entry ∈ orderFields init ↔ valueOf entry.1 init = some entry.2 := by
      rw [valueOf, lookup_eq_get?]
      exact Ordered.mem_iff_get? (sorted_orderFields _)
    rw [List.map_append, List.nodup_append] at h
    have hnew : ∀ other ∈ init, other.1 ≠ last.1 := fun other hother =>
      h.2.2 other.1 (List.mem_map_of_mem hother) last.1 (by simp)
    rw [hvalue, valueOf_concat, List.mem_append, List.mem_singleton, ← ih h.1, hinit]
    by_cases hkey : last.1 = entry.1
    · have hnone : entry ∉ init := fun hmem => hnew entry hmem hkey.symm
      rw [if_pos hkey, ← hinit, ih h.1]
      obtain ⟨k, v⟩ := entry
      obtain ⟨k', v'⟩ := last
      simp_all [eq_comm]
    · rw [if_neg hkey]
      exact ⟨.inl, fun hor => hor.resolve_right fun heq => hkey (congrArg Prod.fst heq.symm)⟩

/-- The keys of entries in order are different. -/
theorem nodup_of_sorted {fields : List (String × α)} (h : Ordered.Sorted compareText fields) :
    (fields.map (·.1)).Nodup := by
  refine List.pairwise_map.mpr (h.imp fun {a b} hcompare heq => ?_)
  have hlt : a.1 < b.1 := compareText_eq_lt_iff.mp hcompare
  exact String.lt_irrefl b.1 (heq ▸ hlt)

/-- The entries of an object, put in in any order, make the object. -/
theorem orderFields_of_perm {fields entries : List (String × α)}
    (hsorted : Ordered.Sorted compareText fields) (hperm : entries.Perm fields) :
    orderFields entries = fields := by
  have hlt : fields.Pairwise fun a b => a.1 < b.1 := hsorted.imp compareText_eq_lt_iff.mp
  have hnodup : (entries.map (·.1)).Nodup :=
    (hperm.map _).nodup_iff.mpr (nodup_of_sorted hsorted)
  refine eq_of_pairwise_text Prod.fst ((sorted_orderFields entries).imp
    compareText_eq_lt_iff.mp) hlt fun entry => ?_
  rw [mem_orderFields_iff hnodup, hperm.mem_iff]

/-! ## Nodes of values -/

/-- The items of a node are its items. -/
theorem Node.itemValues_ofItems {items : List Json}
    (h : ∀ item ∈ items, (Node.ofJson item).toJson = .ok item) :
    Node.itemValues (Node.ofItems items) = .ok items := by
  induction items with
  | nil => rfl
  | cons item rest ih =>
    rw [Node.ofItems, Node.itemValues, h item List.mem_cons_self,
      ih fun other hother => h other (List.mem_cons_of_mem _ hother)]
    rfl

/-- The entries of a node are its entries. -/
theorem Node.entryValues_ofFields {fields : List (String × Json)}
    (h : ∀ entry ∈ fields, (Node.ofJson entry.2).toJson = .ok entry.2) :
    Node.entryValues (Node.ofFields fields) = .ok fields := by
  induction fields with
  | nil => rfl
  | cons entry rest ih =>
    obtain ⟨key, value⟩ := entry
    rw [Node.ofFields, Node.entryValues, h (key, value) List.mem_cons_self,
      ih fun other hother => h other (List.mem_cons_of_mem _ hother)]
    rfl

/-- A value is what its node is read as. -/
theorem Node.toJson_ofJson {numbers : JsonNumber → Prop} {value : Json}
    (h : InOrder numbers value) : (Node.ofJson value).toJson = .ok value := by
  induction h with
  | null => rfl
  | bool b => rfl
  | number h => rfl
  | string s => rfl
  | array h ih =>
    rw [Node.ofJson, Node.toJson, Node.itemValues_ofItems ih]
    rfl
  | @object fields hsorted h ih =>
    rw [Node.ofJson, Node.toJson, Node.entryValues_ofFields ih]
    exact congrArg (fun entries => Except.ok (Json.object entries)) (orderFields_eq_self hsorted)

end ScriptHooks.Json

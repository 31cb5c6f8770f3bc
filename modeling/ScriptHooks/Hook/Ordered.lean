/-
ScriptHooks.Hook.Ordered — finite maps as lists in the order of their keys.

Stores, parameters and the fields of objects are maps whose order can be seen: they
are listed and written in the order of their keys. So a map is the list of its
entries, and an entry is put in at its place, in the stead of one with its key.

`get?_insert` and `get?_erase` say what is found under a key, whatever the order; as long
as the keys increase (`Sorted`), what is found is all that is there (`mem_iff_get?`).
Inserting and erasing keep the keys increasing, and to erase a key changes nothing just if
it is not there.

The comparison of keys is a parameter. Laws ask of it that it is an order and that keys
which compare as equal are equal.
-/

namespace ScriptHooks.Ordered

/-- Put a value under a key, in the order that `compare` gives; an equal key loses
its value. -/
def insert (compare : κ → κ → Ordering) (key : κ) (value : α) : List (κ × α) → List (κ × α)
  | [] => [(key, value)]
  | (k, v) :: rest =>
    match compare key k with
    | .lt => (key, value) :: (k, v) :: rest
    | .eq => (key, value) :: rest
    | .gt => (k, v) :: insert compare key value rest

def get? [DecidableEq κ] (key : κ) (entries : List (κ × α)) : Option α :=
  (entries.find? fun entry => decide (entry.1 = key)).map (·.2)

def erase [DecidableEq κ] (key : κ) (entries : List (κ × α)) : List (κ × α) :=
  entries.filter fun entry => decide (entry.1 ≠ key)

/-! ## Laws of maps -/

variable {κ α : Type} {compare : κ → κ → Ordering}

/-- The keys increase. -/
def Sorted (compare : κ → κ → Ordering) (entries : List (κ × α)) : Prop :=
  entries.Pairwise fun a b => compare a.1 b.1 = .lt

theorem eq_or_mem_of_mem_insert {key : κ} {value : α} {entry : κ × α} {entries : List (κ × α)}
    (h : entry ∈ insert compare key value entries) : entry = (key, value) ∨ entry ∈ entries := by
  induction entries with
  | nil => exact .inl (List.mem_singleton.mp h)
  | cons first rest ih =>
    rw [insert] at h
    split at h
    · exact List.mem_cons.mp h
    · exact (List.mem_cons.mp h).imp_right (List.mem_cons_of_mem _)
    · obtain rfl | h := List.mem_cons.mp h
      · exact .inr List.mem_cons_self
      · exact (ih h).imp_right (List.mem_cons_of_mem _)

theorem sorted_insert [Std.TransCmp compare] [Std.LawfulEqCmp compare] {key : κ} {value : α}
    {entries : List (κ × α)} (h : Sorted compare entries) :
    Sorted compare (insert compare key value entries) := by
  induction entries with
  | nil => exact List.pairwise_singleton _ _
  | cons first rest ih =>
    obtain ⟨k, v⟩ := first
    obtain ⟨hfirst, hrest⟩ := List.pairwise_cons.mp h
    rw [insert]
    split
    case h_1 hlt =>
      refine List.pairwise_cons.mpr ⟨fun entry hentry => ?_, h⟩
      obtain rfl | hentry := List.mem_cons.mp hentry
      · exact hlt
      · exact Std.TransCmp.lt_trans hlt (hfirst entry hentry)
    case h_2 heq =>
      obtain rfl := Std.LawfulEqCmp.eq_of_compare heq
      exact List.pairwise_cons.mpr ⟨hfirst, hrest⟩
    case h_3 hgt =>
      refine List.pairwise_cons.mpr ⟨fun entry hentry => ?_, ih hrest⟩
      obtain rfl | hentry := eq_or_mem_of_mem_insert hentry
      · exact Std.OrientedCmp.lt_of_gt hgt
      · exact hfirst entry hentry

variable [DecidableEq κ]

theorem get?_nil (key : κ) : get? key ([] : List (κ × α)) = none := rfl

theorem get?_cons (key k : κ) (v : α) (rest : List (κ × α)) :
    get? key ((k, v) :: rest) = if k = key then some v else get? key rest := by
  rw [get?, List.find?_cons]
  by_cases h : k = key <;> simp [h, get?]

theorem get?_insert [Std.LawfulEqCmp compare] (key other : κ) (value : α)
    (entries : List (κ × α)) : get? other (insert compare key value entries) =
      if key = other then some value else get? other entries := by
  induction entries with
  | nil => exact get?_cons other key value []
  | cons first rest ih =>
    obtain ⟨k, v⟩ := first
    rw [insert]
    split
    case h_1 => exact get?_cons other key value _
    case h_2 heq =>
      obtain rfl := Std.LawfulEqCmp.eq_of_compare heq
      rw [get?_cons, get?_cons]
      split <;> rfl
    case h_3 hgt =>
      have hne : k ≠ key := by
        rintro rfl
        cases hgt.symm.trans Std.ReflCmp.compare_self
      rw [get?_cons, get?_cons, ih]
      by_cases hk : k = other
      · rw [if_pos hk, if_pos hk, if_neg fun h => hne (hk.trans h.symm)]
      · rw [if_neg hk, if_neg hk]

theorem sorted_erase {key : κ} {entries : List (κ × α)} (h : Sorted compare entries) :
    Sorted compare (erase key entries) :=
  List.Pairwise.filter _ h

theorem get?_erase (key other : κ) (entries : List (κ × α)) :
    get? other (erase key entries) = if key = other then none else get? other entries := by
  induction entries with
  | nil => exact (ite_self _).symm
  | cons first rest ih =>
    obtain ⟨k, v⟩ := first
    rw [erase, List.filter_cons]
    by_cases hk : k = key
    · subst hk
      rw [if_neg (by simp), ← erase, ih, get?_cons]
      split <;> rfl
    · rw [if_pos (by simpa using hk), ← erase, get?_cons, get?_cons, ih]
      by_cases ho : k = other
      · rw [if_pos ho, if_pos ho, if_neg fun h => hk (ho.trans h.symm)]
      · rw [if_neg ho, if_neg ho]

/-- Nothing is erased under a key that leads to nothing. -/
theorem erase_eq_self_iff {key : κ} {entries : List (κ × α)} :
    erase key entries = entries ↔ get? key entries = none := by
  rw [erase, List.filter_eq_self, get?, Option.map_eq_none_iff, List.find?_eq_none]
  simp

/-- A key leads to each of its entries. -/
theorem mem_iff_get? [Std.LawfulEqCmp compare] {key : κ} {value : α} {entries : List (κ × α)}
    (h : Sorted compare entries) : (key, value) ∈ entries ↔ get? key entries = some value := by
  induction entries with
  | nil => simp [get?_nil]
  | cons first rest ih =>
    obtain ⟨k, v⟩ := first
    obtain ⟨hfirst, hrest⟩ := List.pairwise_cons.mp h
    rw [List.mem_cons, get?_cons]
    by_cases hk : k = key
    · subst hk
      have hnone : (k, value) ∉ rest := by
        intro hmem
        cases (hfirst (k, value) hmem).symm.trans Std.ReflCmp.compare_self
      simp [hnone, eq_comm]
    · rw [if_neg hk, ← ih hrest]
      simp [Ne.symm hk]

end ScriptHooks.Ordered

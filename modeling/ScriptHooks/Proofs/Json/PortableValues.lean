/-
ScriptHooks.Proofs.Json.PortableValues — values that travel to scripts and back.

`Portable depth value` describes the values that scripts can hold without loss of precision, and
that nest no deeper than what they return: numbers are integers that a double tells apart from
their neighbours, objects have their entries in order, and there are so many levels at most.

`value.without key` is the value with the entries under a key left out of all its objects: nothing
is left out just if no object has the key (`without_eq_self_iff`). It is what becomes of a value on
the way, with `__proto__` for the key; here it is a fact about values, and no script is involved.
-/
import ScriptHooks.Proofs.Json.OrderedValues

namespace ScriptHooks.Json

/-- A value of truth values, texts, integers that doubles tell apart, objects, and arrays no longer
than a script's can be, which nests so many containers deep at most. -/
inductive Portable : Nat → Json → Prop
  | null {depth : Nat} : Portable depth .null
  | bool {depth : Nat} (value : Bool) : Portable depth (.bool value)
  | int {depth : Nat} {n : Int} {fits : FitsWord n} (h : n.natAbs ≤ 0x1fffffffffffff) :
    Portable depth (.number (.int n fits))
  | string {depth : Nat} (text : String) : Portable depth (.string text)
  | array {depth : Nat} {items : List Json} (hlength : items.length ≤ 0xffffffff)
    (h : ∀ item ∈ items, Portable depth item) : Portable (depth + 1) (.array items)
  | object {depth : Nat} {fields : List (String × Json)}
    (hsorted : Ordered.Sorted compareText fields)
    (h : ∀ entry ∈ fields, Portable depth entry.2) : Portable (depth + 1) (.object fields)

/-- Some object in the value has the key. -/
inductive HasKey (key : String) : Json → Prop
  | here {fields : List (String × Json)} {value : Json} (h : (key, value) ∈ fields) :
    HasKey key (.object fields)
  | item {items : List Json} {item : Json} (hmem : item ∈ items) (h : HasKey key item) :
    HasKey key (.array items)
  | entry {fields : List (String × Json)} {entry : String × Json} (hmem : entry ∈ fields)
    (h : HasKey key entry.2) : HasKey key (.object fields)

mutual

/-- The value with the entries under a key left out of all its objects. -/
def without (key : String) : Json → Json
  | .array items => .array (itemsWithout key items)
  | .object fields => .object (fieldsWithout key fields)
  | .null => .null
  | .bool value => .bool value
  | .number value => .number value
  | .string text => .string text

def itemsWithout (key : String) : List Json → List Json
  | [] => []
  | item :: items => without key item :: itemsWithout key items

/-- The entries but those under a key, which are left out of their values as well. -/
def fieldsWithout (key : String) : List (String × Json) → List (String × Json)
  | [] => []
  | (name, item) :: fields =>
    if name = key then fieldsWithout key fields
    else (name, without key item) :: fieldsWithout key fields

end

theorem itemsWithout_eq_map (key : String) (items : List Json) :
    itemsWithout key items = items.map (without key) := by
  induction items with
  | nil => rw [itemsWithout, List.map_nil]
  | cons item items ih => rw [itemsWithout, ih, List.map_cons]

/-- Entries under the key are left out, and the key is left out of the others. -/
theorem fieldsWithout_eq_map (key : String) (fields : List (String × Json)) :
    fieldsWithout key fields =
      (fields.filter fun entry => entry.1 ≠ key).map
        fun entry => (entry.1, without key entry.2) := by
  induction fields with
  | nil => rw [fieldsWithout, List.filter_nil, List.map_nil]
  | cons entry fields ih =>
    rw [fieldsWithout, List.filter_cons]
    by_cases h : entry.1 = key
    · rw [if_pos h, if_neg (by simpa using h), ih]
    · rw [if_neg h, if_pos (by simpa using h), ih, List.map_cons]

/-- What is left stands in order. -/
theorem sorted_fieldsWithout (key : String) {fields : List (String × Json)}
    (h : Ordered.Sorted compareText fields) :
    Ordered.Sorted compareText (fieldsWithout key fields) := by
  rw [fieldsWithout_eq_map]
  exact List.pairwise_map.mpr (h.sublist List.filter_sublist)

theorem fieldsWithout_eq_self_iff {key : String} {fields : List (String × Json)} :
    fieldsWithout key fields = fields ↔
      ∀ entry ∈ fields, entry.1 ≠ key ∧ without key entry.2 = entry.2 := by
  induction fields with
  | nil => simp [fieldsWithout]
  | cons entry fields ih =>
    rw [fieldsWithout, List.forall_mem_cons]
    split
    case isTrue hkey =>
      have hlength : (fieldsWithout key fields).length ≤ fields.length := by
        rw [fieldsWithout_eq_map, List.length_map]
        exact List.length_filter_le _ _
      refine ⟨fun heq => ?_, fun h => absurd hkey h.1.1⟩
      rw [heq, List.length_cons] at hlength
      omega
    case isFalse hkey =>
      rw [List.cons_eq_cons, ih, Prod.ext_iff]
      exact and_congr_left fun _ => ⟨fun h => ⟨hkey, h.2⟩, fun h => ⟨rfl, h.2⟩⟩

/-- What is left of a value travels as well. -/
theorem Portable.without {depth : Nat} {value : Json} (h : Portable depth value) (key : String) :
    Portable depth (Json.without key value) := by
  induction h with
  | null => exact .null
  | bool value => exact .bool value
  | int h => exact .int h
  | string text => exact .string text
  | array hlength _ ih =>
    rw [Json.without, itemsWithout_eq_map]
    exact .array (by rwa [List.length_map]) (List.forall_mem_map.mpr ih)
  | object hsorted _ ih =>
    refine .object (sorted_fieldsWithout key hsorted) ?_
    rw [fieldsWithout_eq_map, List.forall_mem_map]
    exact fun entry hentry => ih entry (List.mem_of_mem_filter hentry)

/-- A value with the key somewhere is not what is left of it. -/
theorem HasKey.without_ne {key : String} {value : Json} (h : HasKey key value) :
    without key value ≠ value := by
  induction h with
  | here hmem => exact fun heq => (fieldsWithout_eq_self_iff.mp (object.inj heq) _ hmem).1 rfl
  | @item items item hmem _ ih =>
    rw [without, itemsWithout_eq_map]
    refine fun heq => ih ?_
    have hmap : items.map (without key) = items.map id := by simpa using array.inj heq
    exact List.map_inj_left.mp hmap item hmem
  | entry hmem _ ih =>
    exact fun heq => ih (fieldsWithout_eq_self_iff.mp (object.inj heq) _ hmem).2

/-- Nothing is left out just if no object has the key. -/
theorem Portable.without_eq_self_iff {key : String} {value : Json} {depth : Nat}
    (h : Portable depth value) : Json.without key value = value ↔ ¬ HasKey key value := by
  refine ⟨fun heq hkey => hkey.without_ne heq, fun hkey => ?_⟩
  induction h with
  | null => rfl
  | bool value => rfl
  | int h => rfl
  | string text => rfl
  | array _ _ ih =>
    rw [Json.without, itemsWithout_eq_map]
    refine congrArg Json.array ?_
    exact (List.map_congr_left fun item hitem => ih item hitem (hkey ∘ .item hitem)).trans
      (List.map_id _)
  | object _ _ ih =>
    refine congrArg Json.object (fieldsWithout_eq_self_iff.mpr ?_)
    rintro ⟨name, item⟩ hentry
    refine ⟨?_, ih _ hentry (hkey ∘ .entry hentry)⟩
    rintro rfl
    exact hkey (.here hentry)

end ScriptHooks.Json

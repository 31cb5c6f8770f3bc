/-
ScriptHooks.Proofs.Sandbox.HeldValues — JSON values as scripts hold them.

`Holds lo objects json value` says that a value of a script holds what a JSON value holds, in
objects from the place `lo` on: an array of the realm's kind has the items, an object has one
property for each entry, in their order. It depends on these objects alone (`Holds.frame`).

In a world that no script has touched, such a value is returned as the JSON value that it holds, if
it does not nest too deep: `Holds.returned`. The return follows the value as scripts would see it.
Three things could come in between:

* a value may say itself how it is written, by a method that is looked up in it and in its
  prototypes. Nothing that the host made has one (`methodIfAny_settled`);
* the names of an object are listed with the indices first, in the order of their numbers, and then
  the others (`Obj.ownKeys_perm`). The entries come in another order then, and are put in order
  again (`exists_shown`);
* a property is read where it is found, and that is the object itself (`getValue_own`).

Lists of values are compared item by item (`List.Forall₂`), for items and entries alike.
-/
import Mathlib
import ScriptHooks.Proofs.Json.PortableValues
import ScriptHooks.Proofs.Numeric.WholeDoubles
import ScriptHooks.Proofs.Sandbox.UnitTexts
import ScriptHooks.Proofs.Sandbox.UsualWorlds

namespace ScriptHooks.Sandbox

open Json

/-! ## Holding -/

/-- The plain property that an entry of a JSON object is. -/
def entryOf (name : String) (value : Value) : Key × Property :=
  (.text (Units.ofString name), .plain value)

/-- The value holds what the JSON value holds, in objects from a place on. -/
inductive Holds (lo : Nat) (objects : Array Obj) : Json → Value → Prop
  | null : Holds lo objects .null .null
  | bool (value : Bool) : Holds lo objects (.bool value) (.bool value)
  | int {n : Int} {fits : FitsWord n} :
    Holds lo objects (.number (.int n fits)) (.number (Float.ofInt n))
  | string (text : String) : Holds lo objects (.string text) (.text (Units.ofString text))
  | array {items : List Json} {values : List Value} {ref : Ref} {found : Obj} (hlo : lo ≤ ref)
    (hfound : objects[ref]? = some found)
    (hkind : found.kind = .array (values.map some).toArray values.length true)
    (h : List.Forall₂ (Holds lo objects) items values) :
    Holds lo objects (.array items) (.object ref)
  | object {fields : List (String × Json)} {values : List Value} {ref : Ref} {found : Obj}
    (hlo : lo ≤ ref) (hfound : objects[ref]? = some found) (hkind : found.kind = .ordinary)
    (hproperties : found.properties.toList =
      List.zipWith (fun field value => entryOf field.1 value) fields values)
    (h : List.Forall₂ (fun field value => Holds lo objects field.2 value) fields values) :
    Holds lo objects (.object fields) (.object ref)

theorem forall₂_imp_of_mem {α β : Type} {R S : α → β → Prop} {as : List α} {bs : List β}
    (h : List.Forall₂ R as bs) (himp : ∀ a ∈ as, ∀ b, R a b → S a b) : List.Forall₂ S as bs :=
  ((List.forall₂_and_left as bs).mpr ⟨himp, h⟩).imp fun _ _ h => h.1 _ h.2

theorem exists_of_forall₂ {α β : Type} {R : α → β → Prop} {as : List α} {bs : List β}
    (h : List.Forall₂ R as bs) : ∀ a ∈ as, ∃ b, R a b := by
  induction h with
  | nil => nofun
  | cons hfirst _ ih => exact List.forall_mem_cons.mpr ⟨⟨_, hfirst⟩, ih⟩

theorem forall₂_range {α β : Type} {R : α → β → Prop} {as : List α} {bs : List β}
    (h : List.Forall₂ R as bs) :
    List.Forall₂ (fun i a => ∃ b, bs[i]? = some b ∧ R a b) (List.range bs.length) as := by
  refine List.forall₂_of_length_eq_of_get (by simp [h.length_eq]) fun i hrange ha => ?_
  have hb : i < bs.length := h.length_eq ▸ ha
  exact ⟨bs[i], by simp [hb], h.get ha hb⟩

/-- What is held depends on the objects from the place on alone. -/
theorem Holds.frame {lo lo' : Nat} {objects objects' : Array Obj} (hle : lo' ≤ lo)
    (hkept : ∀ ref found, lo ≤ ref → objects[ref]? = some found → objects'[ref]? = some found)
    {depth : Nat} {json : Json} (hportable : Portable depth json) {value : Value}
    (h : Holds lo objects json value) : Holds lo' objects' json value := by
  induction hportable generalizing value with
  | null => cases h; exact .null
  | bool b => cases h; exact .bool b
  | int _ => cases h; exact .int
  | string text => cases h; exact .string text
  | array _ _ ih =>
    cases h with
    | array hlo hfound hkind hitems =>
      exact .array (Nat.le_trans hle hlo) (hkept _ _ hlo hfound) hkind
        (forall₂_imp_of_mem hitems fun item hitem _ => ih item hitem)
  | object _ _ ih =>
    cases h with
    | object hlo hfound hkind hproperties hfields =>
      exact .object (Nat.le_trans hle hlo) (hkept _ _ hlo hfound) hkind hproperties
        (forall₂_imp_of_mem hfields fun field hfield _ => ih field hfield)

/-- What holds a value was made by the host. -/
theorem Holds.made {lo base : Nat} {objects : Array Obj} (hle : base ≤ lo) {json : Json}
    {value : Value} (h : Holds lo objects json value) : Made base objects.size value := by
  rintro ref rfl
  cases h with
  | array hlo hfound _ _ =>
    exact ⟨Nat.le_trans hle hlo, (Array.getElem?_eq_some_iff.mp hfound).1⟩
  | object hlo hfound _ _ _ =>
    exact ⟨Nat.le_trans hle hlo, (Array.getElem?_eq_some_iff.mp hfound).1⟩

/-! ## The names of an object -/

theorem ofNat_indices (names : List Name) :
    ((names.map Key.text).filterMap Key.index?).map Key.ofNat =
      (names.filter fun name => name.index?.isSome).map Key.text := by
  induction names with
  | nil => rfl
  | cons name names ih =>
    rw [List.map_cons, List.filterMap_cons, List.filter_cons]
    cases h : name.index? with
    | none => simpa [Key.index?, h] using ih
    | some i =>
      have hname : Key.ofNat i = .text name :=
        congrArg Key.text (Units.index?_eq_some_iff.mp h).2.symm
      simpa [Key.index?, h, hname] using ih

/-- The keys of an object are those of its properties, the indices among them first. -/
theorem Obj.ownKeys_perm {found : Obj} (hkind : found.kind = .ordinary) {names : List Name}
    (hkeys : found.properties.toList.map (·.1) = names.map Key.text) :
    found.ownKeys.Perm (names.map Key.text) := by
  have hindices : ∀ kept : List Nat,
      (if kept.isEmpty then kept else kept.mergeSort).Perm kept := by
    intro kept
    split
    · exact .refl kept
    · exact List.mergeSort_perm kept _
  rw [Obj.ownKeys, hkind, hkeys]
  simp only [List.filter_map, Function.comp_def, List.append_nil, List.filter_false, List.map_nil]
  refine ((((hindices _).map Key.ofNat).append_right _).trans ?_)
  rw [ofNat_indices, ← List.map_append]
  refine List.Perm.map _ ?_
  simpa using List.filter_append_perm (fun name => name.index?.isSome) names

/-- An entry is found under its name. -/
theorem find?_entries {R : String × Json → Value → Prop} {fields : List (String × Json)}
    {values : List Value} (h : List.Forall₂ R fields values) (hnodup : (fields.map (·.1)).Nodup) :
    List.Forall₂ (fun field value =>
      ((List.zipWith (fun field value => entryOf field.1 value) fields values).find?
        fun entry => entry.1 == .text (Units.ofString field.1)).map (·.2) = some (.plain value))
      fields values := by
  induction h with
  | nil => exact .nil
  | @cons field value fields values _ hrest ih =>
    obtain ⟨hnew, hnodup⟩ := List.nodup_cons.mp hnodup
    refine .cons (by simp [entryOf]) (forall₂_imp_of_mem (ih hnodup) fun other hother _ hfind => ?_)
    have hne : Key.text (Units.ofString field.1) ≠ .text (Units.ofString other.1) := by
      intro heq
      have hname : field.1 = other.1 := Units.ofString_injective (Key.text.inj heq)
      exact hnew (List.mem_map.mpr ⟨other, hother, hname.symm⟩)
    rw [List.zipWith_cons_cons, List.find?_cons_of_neg (by simpa [entryOf] using hne)]
    exact hfind

/-- What an object of entries has under their names. -/
theorem own?_entries {R : String × Json → Value → Prop} {found : Obj}
    {fields : List (String × Json)} {values : List Value} (hkind : found.kind = .ordinary)
    (hproperties : found.properties.toList =
      List.zipWith (fun field value => entryOf field.1 value) fields values)
    (h : List.Forall₂ R fields values) (hnodup : (fields.map (·.1)).Nodup) :
    List.Forall₂ (fun field value =>
      found.own? (.text (Units.ofString field.1)) = some (.plain value)) fields values := by
  refine (find?_entries h hnodup).imp fun field value hfind => ?_
  rw [Obj.own?_ordinary hkind, Obj.kept?, ← Array.find?_toList, hproperties]
  exact hfind

/-- The keys of an object of entries are their names. -/
theorem keys_entries {R : String × Json → Value → Prop} {fields : List (String × Json)}
    {values : List Value} (h : List.Forall₂ R fields values) :
    (List.zipWith (fun field value => entryOf field.1 value) fields values).map (·.1) =
      (fields.map fun field => Units.ofString field.1).map Key.text := by
  induction h with
  | nil => rfl
  | cons _ _ ih => simpa [entryOf] using ih

namespace Run

variable {base : Nat} {w : World} {m : Machine}

/-- The names that are shown of an object of entries are the names of the entries. -/
theorem namesOf_entries {R : String × Json → Value → Prop} {ref : Ref} {found : Obj}
    {fields : List (String × Json)} {values : List Value}
    (hfound : w.objects[ref]? = some found) (hkind : found.kind = .ordinary)
    (hproperties : found.properties.toList =
      List.zipWith (fun field value => entryOf field.1 value) fields values)
    (h : List.Forall₂ R fields values) (hnodup : (fields.map (·.1)).Nodup) :
    ∃ names, namesOf ref w = .ok names w ∧
      names.Perm (fields.map fun field => Units.ofString field.1) := by
  refine ⟨_, bind_run (object_of_getElem? hfound), ?_⟩
  have hperm := Obj.ownKeys_perm hkind (hproperties ▸ keys_entries h)
  refine (hperm.filterMap _).trans (.of_eq ?_)
  rw [List.filterMap_map, List.filterMap_map, ← List.filterMap_eq_map]
  refine List.filterMap_congr fun field hfield => ?_
  obtain ⟨value, hown⟩ := exists_of_forall₂ (own?_entries hkind hproperties h hnodup) field hfield
  dsimp only [Function.comp]
  rw [hown]
  rfl

/-! ## Reading a property -/

/-- What an array has under an index. -/
theorem own?_item {found : Obj} {values : List Value} {length i : Nat} {value : Value}
    (hkind : found.kind = .array (values.map some).toArray length true)
    (hvalue : values[i]? = some value) (hi : i < 0xffffffff) :
    found.own? (Key.ofNat i) = some (.plain value) := by
  have hindex : Key.index? (Key.ofNat i) = some i := Units.index?_ofNat hi
  rw [Obj.own?, hkind]
  simp only [hindex]
  simp [hvalue]

/-- A property of the object itself is read there. -/
theorem getValue_own {ref : Ref} {found : Obj} {key : Key} {value : Value}
    (hfound : w.objects[ref]? = some found) (h : found.own? key = some (.plain value)) :
    getValue m (.object ref) key w = .ok value w := by
  have hfind : findProperty key (w.objects.size + 1) (some ref) w =
      .ok (some (.plain value)) w := by
    rw [findProperty, bind_run (object_of_getElem? hfound), h]
    rfl
  rw [getValue, getFrom, bind_run (chainLength_run w), bind_run hfind]
  rfl

/-- What the host made is not called. -/
theorem isCallable_made (h : Settled base w.objects) {value : Value}
    (hmade : Made base w.objects.size value) : isCallable value w = .ok false w := by
  cases value with
  | object ref =>
    obtain ⟨hbase, hsize⟩ := hmade ref rfl
    have hfound := Array.getElem?_eq_getElem hsize
    have hcallable := (h.made ref _ hbase hfound).not_isCallable
    rw [isCallable, bind_run (object_of_getElem? hfound), hcallable]
    rfl
  | _ => rfl

/-- Nothing that the host made says itself how it is written. -/
theorem methodIfAny_settled (h : Settled base w.objects) {ref : Ref}
    (hchain : InChain base w.objects.size ref) :
    methodIfAny m (.object ref) "toJSON" w = .ok none w := by
  obtain ⟨found, hfind, htame⟩ := findProperty_settled h "toJSON" (w.objects.size + 1) (some ref)
    fun _ heq => Option.some.inj heq ▸ hchain
  have hvalue : ∃ value, getValue m (.object ref) "toJSON" w = .ok value w ∧
      Made base w.objects.size value := by
    cases found with
    | none =>
      refine ⟨.undefined, ?_, nofun⟩
      rw [getValue, getFrom, bind_run (chainLength_run w), bind_run hfind]
      rfl
    | some property =>
      cases htame property rfl with
      | @value value _ _ hmade =>
        refine ⟨value, ?_, hmade rfl⟩
        rw [getValue, getFrom, bind_run (chainLength_run w), bind_run hfind]
        rfl
      | proto hname => exact absurd hname (by decide +kernel)
  obtain ⟨value, hget, hmade⟩ := hvalue
  refine tryCatch_run ?_
  rw [getMethod, bind_run hget, bind_run (isCallable_made h hmade)]
  rfl

end Run

/-! ## Returning -/

/-- An integer that doubles tell apart comes back. -/
theorem numberJson_ofInt {n : Int} (h : n.natAbs ≤ 0x1fffffffffffff) :
    numberJson (Float.ofInt n) = Json.ofInt n := by
  obtain ⟨htruncate, hintegral⟩ := Numeric.truncate_ofInt (Nat.lt_of_le_of_lt h (by decide))
  rw [numberJson, htruncate]
  simp [hintegral, h]

/-- A text comes back. -/
theorem textJson_ofString (text : String) : textJson (Units.ofString text) = .ok text := by
  rw [textJson, Units.decode_ofString]

/-- Names in another order are those of the entries in another order. -/
theorem exists_shown {fields : List (String × Json)} {names : List Name}
    (h : names.Perm (fields.map fun field => Units.ofString field.1)) :
    ∃ shown, shown.Perm fields ∧
      List.Forall₂ (fun field name => name = Units.ofString field.1) shown names := by
  let r : String × Json → Name → Prop := fun field name => name = Units.ofString field.1
  have hsame : List.Forall₂ r fields (fields.map fun field => Units.ofString field.1) :=
    List.forall₂_map_right_iff.mpr (List.forall₂_same.mpr fun _ _ => rfl)
  have hcomp : Relation.Comp (List.Forall₂ r) List.Perm fields names := ⟨_, hsame, h.symm⟩
  rw [List.forall₂_comp_perm_eq_perm_comp_forall₂] at hcomp
  obtain ⟨shown, hperm, hpairs⟩ := hcomp
  exact ⟨shown, hperm.symm, hpairs⟩

variable {base lo : Nat} {w : World} {m : Machine}

namespace Run

/-- An array that the host made is returned with what is returned for its items. -/
theorem array_yields (hw : Settled base w.objects) {ref : Ref} (hbase : base ≤ ref) {found : Obj}
    (hfound : w.objects[ref]? = some found) {values : List Value}
    (hkind : found.kind = .array (values.map some).toArray values.length true) {items : List Json}
    (hlength : items.length ≤ 0xffffffff) {depth : Nat}
    (h : List.Forall₂ (fun item value => Yields (toJson m depth value) w item) items values) :
    Yields (toJson m (depth + 1) (.object ref)) w (.array items) := by
  have hall : List.Forall₂ (fun i item => Yields
      (guarded (getValue m (.object ref) (Key.ofNat i)) >>= toJson m depth) w item)
      (List.range values.length) items := by
    refine forall₂_imp_of_mem (forall₂_range h) ?_
    rintro i hi item ⟨value, hvalue, hitem⟩
    have hindex : i < 0xffffffff :=
      Nat.lt_of_lt_of_le (List.mem_range.mp hi) (h.length_eq ▸ hlength)
    exact .bind (.guarded (getValue_own hfound (own?_item hkind hvalue hindex))) hitem
  rw [toJson]
  refine .bind (.lift (object_of_getElem? hfound)) ?_
  rw [if_neg (Bool.eq_false_iff.mp (hw.made ref found hbase hfound).not_isCallable), hkind]
  exact .bind (.mapM hall) .pure

/-- An object that the host made is returned with what is returned for its entries. -/
theorem object_yields (hw : Settled base w.objects) {ref : Ref} (hbase : base ≤ ref) {found : Obj}
    (hfound : w.objects[ref]? = some found) (hkind : found.kind = .ordinary)
    {fields : List (String × Json)} {values : List Value}
    (hproperties : found.properties.toList =
      List.zipWith (fun field value => entryOf field.1 value) fields values)
    (hsorted : Ordered.Sorted compareText fields) {depth : Nat}
    (h : List.Forall₂ (fun field value => toJson.leftOut value w = .ok false w ∧
      Yields (toJson m depth value) w field.2) fields values) :
    Yields (toJson m (depth + 1) (.object ref)) w (.object fields) := by
  have hnodup := nodup_of_sorted hsorted
  obtain ⟨names, hnames, hperm⟩ := namesOf_entries hfound hkind hproperties h hnodup
  obtain ⟨shown, hshown, hpairs⟩ := exists_shown hperm
  have hknown := exists_of_forall₂ (List.Forall₂.mp (fun _ _ hown hitem => And.intro hown hitem)
    (own?_entries hkind hproperties h hnodup) h)
  have hall : List.Forall₂ (fun field name => Yields
      (do
        let key ← ExceptT.mk (pure (textJson name))
        let item ← guarded (getValue m (.object ref) (.text name))
        if ← toJson.leftOut item then pure none
        else pure (some (key, ← toJson m depth item))) w (some field)) shown names := by
    refine forall₂_imp_of_mem hpairs fun field hfield name hname => ?_
    subst hname
    obtain ⟨value, hown, hleft, hitem⟩ := hknown field (hshown.mem_iff.mp hfield)
    refine .bind (.of_eq_ok (textJson_ofString field.1)) ?_
    refine .bind (.guarded (getValue_own hfound hown)) (.bind (.lift hleft) ?_)
    exact .bind hitem .pure
  rw [toJson]
  refine .bind (.lift (object_of_getElem? hfound)) ?_
  rw [if_neg (Bool.eq_false_iff.mp (hw.made ref found hbase hfound).not_isCallable), hkind]
  refine .bind (.lift (methodIfAny_settled hw (.inr (.inr ?_)))) ?_
  · exact ⟨hbase, (Array.getElem?_eq_some_iff.mp hfound).1⟩
  refine .bind (.lift hnames) ?_
  refine .bind (a := shown.map some) (.mapM (List.forall₂_map_right_iff.mpr hall.flip)) ?_
  have hback : (shown.map some).filterMap id = shown := by simp
  rw [hback, ofEntries, orderFields_of_perm hsorted hshown]
  exact .pure

/-- A value that holds something is not left out. -/
theorem leftOut_holds (hw : Settled base w.objects) (hle : base ≤ lo) {json : Json}
    {value : Value} (h : Holds lo w.objects json value) : toJson.leftOut value w = .ok false w := by
  have hcallable := isCallable_made hw (h.made hle)
  cases h <;> exact hcallable

end Run

open Run in
/-- In a world that no script has touched, what a value holds is what is returned for it. -/
theorem Holds.returned (hw : Settled base w.objects) (hle : base ≤ lo) {depth : Nat} {json : Json}
    (hportable : Portable depth json) {value : Value} (h : Holds lo w.objects json value) :
    Yields (toJson m (depth + 1) value) w json := by
  induction hportable generalizing value with
  | null => cases h; exact .pure
  | bool b => cases h; exact .pure
  | @int depth n fits hexact =>
    cases h
    have hword : Json.ofInt n = .number (.int n fits) := dif_pos fits
    rw [← hword, ← numberJson_ofInt hexact]
    exact .pure
  | string text =>
    cases h
    rw [toJson]
    exact .bind (.of_eq_ok (textJson_ofString text)) .pure
  | array hlength _ ih =>
    cases h with
    | array hlo hfound hkind hitems =>
      exact array_yields hw (Nat.le_trans hle hlo) hfound hkind hlength
        (forall₂_imp_of_mem hitems fun item hitem _ => ih item hitem)
  | object hsorted _ ih =>
    cases h with
    | object hlo hfound hkind hproperties hfields =>
      exact object_yields hw (Nat.le_trans hle hlo) hfound hkind hproperties hsorted
        (forall₂_imp_of_mem hfields fun field hfield _ hholds =>
          ⟨leftOut_holds hw hle hholds, ih field hfield hholds⟩)

end ScriptHooks.Sandbox

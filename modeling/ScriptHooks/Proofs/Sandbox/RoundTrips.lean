/-
ScriptHooks.Proofs.Sandbox.RoundTrips — values on their way through scripts.

A value goes from the host to a script and comes back. The host makes objects for it, the script
hands on what it got, and what it returns is read by the host again (`roundTrip`).

The host writes the entries of an object one after the other (`hostPut_ends`), and what it has
made stays as it was made (`converts`): what a script holds in the end is the value without the
entries under `__proto__`, which become prototypes and no properties. So what comes back is the
value just if none of its objects has such an entry: `round_trip_iff`.

`Converts` is the statement of the induction over values. It says four things of the world
afterwards: no script has touched it, objects were only added, the new ones hold the value, and
there is still room for what is to come. The number of bytes a value takes is its `footprint`; it is
counted along, so that the room left for the next entry is known.

`Grows` is the frame between entries: while further objects are made, and one of those that were
there gets its properties, what other values hold stays (`Holds.grows`).

The hypotheses of the result are those a host can see to: the prototypes are as they were at first,
and there is memory for the value. The number of levels is that which a script may return.
-/
import Mathlib
import ScriptHooks.Proofs.Sandbox.HeldValues
import ScriptHooks.Proofs.Sandbox.HostWrites

namespace ScriptHooks.Sandbox

open Json

/-! ## What a value takes -/

mutual

/-- The bytes that a value takes as it is handed to a script. -/
def footprint : Json → Nat
  | .array items => itemsFootprint items + Run.objectSize
  | .object fields => Run.objectSize + fieldsFootprint fields
  | .null | .bool _ | .number _ | .string _ => 0

/-- The bytes that the items of an array take. -/
def itemsFootprint : List Json → Nat
  | [] => 0
  | item :: items => footprint item + itemsFootprint items

/-- The bytes that the entries of an object take. -/
def fieldsFootprint : List (String × Json) → Nat
  | [] => 0
  | (_, item) :: fields => footprint item + (32 + fieldsFootprint fields)

end

/-! ## Growing worlds -/

/-- Objects are added, and of those that were there only some change. -/
structure Grows (changed : Ref → Prop) (w w' : World) : Prop where
  size_le : w.objects.size ≤ w'.objects.size
  kept : ∀ ref < w.objects.size, ¬ changed ref → w'.objects[ref]? = w.objects[ref]?

namespace Grows

variable {changed : Ref → Prop} {w w' w'' : World}

theorem refl : Grows changed w w := ⟨Nat.le_refl _, fun _ _ _ => rfl⟩

/-- One after the other. -/
theorem trans (h : Grows changed w w') (h' : Grows changed w' w'') : Grows changed w w'' where
  size_le := Nat.le_trans h.size_le h'.size_le
  kept ref href hkept :=
    (h'.kept ref (Nat.lt_of_lt_of_le href h.size_le) hkept).trans (h.kept ref href hkept)

theorem mono {others : Ref → Prop} (himp : ∀ ref < w.objects.size, changed ref → others ref)
    (h : Grows changed w w') : Grows others w w' where
  size_le := h.size_le
  kept ref href hkept := h.kept ref href (hkept ∘ himp ref href)

/-- A change of one object. -/
theorem of_changes {ref : Ref} {found : Obj} (h : Changes ref found w w') :
    Grows (· = ref) w w' where
  size_le := Nat.le_of_eq h.size_eq.symm
  kept other _ hne := h.elsewhere other hne

/-- One more object. -/
theorem of_push {found : Obj} (h : w'.objects = w.objects.push found) : Grows changed w w' where
  size_le := by simp [h]
  kept ref href _ := by rw [h, Array.getElem?_push_lt href, Array.getElem?_eq_getElem href]

end Grows

/-- What is held stays while nothing that holds it changes. -/
theorem Holds.grows {lo lo' : Nat} {w w' : World} {changed : Ref → Prop} (hle : lo' ≤ lo)
    (hgrows : Grows changed w w') (hchanged : ∀ ref, changed ref → ref < lo) {depth : Nat}
    {json : Json} (hportable : Portable depth json) {value : Value}
    (h : Holds lo w.objects json value) : Holds lo' w'.objects json value := by
  refine h.frame hle (fun ref found hlo hfound => ?_) hportable
  have href := (Array.getElem?_eq_some_iff.mp hfound).1
  have hkept : ¬ changed ref := fun h => Nat.not_lt_of_le hlo (hchanged ref h)
  rw [hgrows.kept ref href hkept, hfound]

/-! ## Making the objects of a value -/

variable {excused : Prop} {base : Nat}

open Run

def hostPut (ref : Ref) (name : Name) (value : Value) : Run Unit :=
  setValue hostMachine (.object ref) (.text name) value

/-- The host makes objects that hold the value, but for the entries under `__proto__`. -/
def Converts (excused : Prop) (base : Nat) (json : Json) : Prop :=
  ∀ (w : World) (rest : Nat), Settled base w.objects → Room excused w (footprint json + rest) →
    Ends (ofJson hostPut json) w excused fun value w' =>
      Settled base w'.objects ∧ Grows (fun _ => False) w w' ∧
        Holds w.objects.size w'.objects (json.without "__proto__") value ∧ Room excused w' rest

/-- The items of a list are made one after the other. -/
theorem ofItems_ends {depth : Nat} {items : List Json}
    (hportable : ∀ item ∈ items, Portable depth item)
    (hall : ∀ item ∈ items, Converts excused base item) {w : World} (hw : Settled base w.objects)
    {rest : Nat} (hroom : Room excused w (itemsFootprint items + rest)) :
    Ends (ofItems hostPut items) w excused fun values w' =>
      Settled base w'.objects ∧ Grows (fun _ => False) w w' ∧
        List.Forall₂ (Holds w.objects.size w'.objects) (itemsWithout "__proto__" items) values ∧
        Room excused w' rest := by
  induction items generalizing w with
  | nil =>
    refine .pure ⟨hw, .refl, ?_, by simpa [itemsFootprint] using hroom⟩
    rw [itemsWithout]
    exact .nil
  | cons item items ih =>
    obtain ⟨hitem, hitems⟩ := List.forall_mem_cons.mp hportable
    rw [itemsFootprint, Nat.add_assoc] at hroom
    rw [ofItems]
    refine .bind ((hall item List.mem_cons_self w _ hw hroom).mono ?_)
    rintro value w₁ ⟨hw₁, hgrows₁, hholds₁, hroom₁⟩
    refine .bind ((ih hitems (fun other hother => hall other (List.mem_cons_of_mem _ hother)) hw₁
      hroom₁).mono ?_)
    rintro values w₂ ⟨hw₂, hgrows₂, hholds₂, hroom₂⟩
    refine .pure ⟨hw₂, hgrows₁.trans hgrows₂, ?_, hroom₂⟩
    rw [itemsWithout]
    refine .cons (hholds₁.grows (Nat.le_refl _) hgrows₂ (fun _ => False.elim) (hitem.without _)) ?_
    refine forall₂_imp_of_mem hholds₂ fun other hother value hholds => ?_
    rw [itemsWithout_eq_map] at hother
    obtain ⟨whole, hwhole, rfl⟩ := List.mem_map.mp hother
    exact hholds.frame hgrows₁.size_le (fun _ _ _ h => h) ((hitems whole hwhole).without _)

/-- What becomes of an object that an entry is written to: it gets one more property, or another
prototype. -/
structure Written (name : String) (value : Value) (found written : Obj) : Prop where
  kind : written.kind = .ordinary
  properties : written.properties.toList =
    found.properties.toList ++ if name = "__proto__" then [] else [entryOf name value]
  proto : name ≠ "__proto__" → written.proto = found.proto

/-- A name that was new is new still. -/
theorem Written.own?_none {name : String} {value : Value} {found written : Obj}
    (h : Written name value found written) (hkind : found.kind = .ordinary) {other : String}
    (hne : other ≠ name) (hnew : found.own? (.text (Units.ofString other)) = none) :
    written.own? (.text (Units.ofString other)) = none := by
  have hunits : Units.ofString name ≠ Units.ofString other := fun heq =>
    hne (Units.ofString_injective heq.symm)
  rw [Obj.own?_ordinary hkind, Obj.kept?, ← Array.find?_toList, Option.map_eq_none_iff] at hnew
  rw [Obj.own?_ordinary h.kind, Obj.kept?, ← Array.find?_toList, Option.map_eq_none_iff,
    h.properties, List.find?_append, hnew]
  split
  · rfl
  · simpa [entryOf] using hunits

/-- An entry that is new is written. -/
theorem hostPut_ends {w : World} (hw : Settled base w.objects) {ref : Ref} (hbase : base ≤ ref)
    {found : Obj} (hfound : w.objects[ref]? = some found) (hkind : found.kind = .ordinary)
    {name : String} (hnew : found.own? (.text (Units.ofString name)) = none)
    (hkey : name = "__proto__" → excused ∧ found.proto = some Intrinsic.objectProto.ref)
    {value : Value} (hvalue : Made base w.objects.size value) {rest : Nat}
    (hroom : Room excused w (32 + rest)) :
    Ends (hostPut ref (Units.ofString name) value) w excused fun _ w' =>
      Settled base w'.objects ∧ Room excused w' rest ∧
        ∃ written, Written name value found written ∧ Changes ref written w w' := by
  have hmade := hw.made ref found hbase hfound
  by_cases hname : name = "__proto__"
  · subst hname
    obtain ⟨hexcused, hproto⟩ := hkey rfl
    refine (setProto_ends hexcused hw hbase hfound hproto hnew hvalue).mono ?_
    rintro _ w' ⟨proto, hchain, hchanges⟩
    refine ⟨hw.of_changes hbase (hmade.withProto hchain) hchanges, .inl hexcused, _, ?_, hchanges⟩
    refine ⟨hkind, ?_, (absurd rfl ·)⟩
    rw [if_pos rfl, List.append_nil]
  · have hunits : Units.ofString name ≠ "__proto__" := fun heq =>
      hname (Units.ofString_injective heq)
    refine (setValue_ends hw hbase hfound hkind hunits hnew value hroom).mono ?_
    rintro _ w' ⟨hchanges, hroom⟩
    refine ⟨hw.of_changes hbase (hmade.withProperty hkind hunits hvalue) hchanges, hroom, _, ?_,
      hchanges⟩
    refine ⟨hkind, ?_, fun _ => rfl⟩
    rw [if_neg hname, Array.toList_push]
    rfl

/-- What has become of an object whose entries are written: it has the properties that it had, and
those of the entries. -/
structure Completed (ref : Ref) (found : Obj) (fields : List (String × Json)) (w : World)
    (complete : Obj) (values : List Value) : Prop where
  here : w.objects[ref]? = some complete
  kind : complete.kind = .ordinary
  properties : complete.properties.toList = found.properties.toList ++
    List.zipWith (fun field value => entryOf field.1 value) fields values
  holds : List.Forall₂ (fun field value => Holds ref w.objects field.2 value) fields values

/-- The entries of an object are written one after the other. -/
theorem ofFields_ends {depth : Nat} {fields : List (String × Json)}
    (hportable : ∀ field ∈ fields, Portable depth field.2)
    (hnodup : (fields.map (·.1)).Nodup)
    (hall : ∀ field ∈ fields, Converts excused base field.2)
    {w : World} (hw : Settled base w.objects) {ref : Ref} (hbase : base ≤ ref) {found : Obj}
    (hfound : w.objects[ref]? = some found) (hkind : found.kind = .ordinary)
    (hnew : ∀ field ∈ fields, found.own? (.text (Units.ofString field.1)) = none)
    (hkey : ∀ field ∈ fields, field.1 = "__proto__" →
      excused ∧ found.proto = some Intrinsic.objectProto.ref)
    {rest : Nat} (hroom : Room excused w (fieldsFootprint fields + rest)) :
    Ends (ofFields hostPut ref fields) w excused fun _ w' =>
      Settled base w'.objects ∧ Grows (· = ref) w w' ∧
        (∃ complete values,
          Completed ref found (fieldsWithout "__proto__" fields) w' complete values) ∧
        Room excused w' rest := by
  induction fields generalizing w found with
  | nil =>
    refine .pure ⟨hw, .refl, ⟨found, [], hfound, hkind, ?_, ?_⟩, ?_⟩
    · simp [fieldsWithout]
    · rw [fieldsWithout]
      exact .nil
    · simpa [fieldsFootprint] using hroom
  | cons field fields ih =>
    obtain ⟨name, item⟩ := field
    obtain ⟨hitem, hfields⟩ := List.forall_mem_cons.mp hportable
    obtain ⟨hconverts, hothers⟩ := List.forall_mem_cons.mp hall
    obtain ⟨hfresh, hunlike⟩ := List.nodup_cons.mp hnodup
    obtain ⟨hnone, hlater⟩ := List.forall_mem_cons.mp hnew
    obtain ⟨hhere, hbehind⟩ := List.forall_mem_cons.mp hkey
    have hdistinct : ∀ other ∈ fields, other.1 ≠ name := fun other hother heq =>
      hfresh (List.mem_map.mpr ⟨other, hother, heq⟩)
    have hsize := (Array.getElem?_eq_some_iff.mp hfound).1
    rw [fieldsFootprint, Nat.add_assoc, Nat.add_assoc] at hroom
    rw [ofFields]
    refine .bind ((hconverts w _ hw hroom).mono ?_)
    rintro value w₁ ⟨hw₁, hgrows₁, hholds₁, hroom₁⟩
    have hfound₁ : w₁.objects[ref]? = some found := by
      rw [hgrows₁.kept ref hsize id, hfound]
    refine .bind ((hostPut_ends hw₁ hbase hfound₁ hkind hnone hhere (hholds₁.made hw.base_le)
      hroom₁).mono ?_)
    rintro _ w₂ ⟨hw₂, hroom₂, written, hwritten, hchanges⟩
    refine (ih hfields hunlike hothers hw₂ hchanges.here hwritten.kind ?_ ?_ hroom₂).mono ?_
    · exact fun other hother =>
        hwritten.own?_none hkind (hdistinct other hother) (hlater other hother)
    · intro other hother heq
      obtain ⟨hexcused, hproto⟩ := hbehind other hother heq
      exact ⟨hexcused, (hwritten.proto (heq ▸ (hdistinct other hother).symm)).trans hproto⟩
    rintro _ w₃ ⟨hw₃, hgrows₃, ⟨complete, values, hcomplete⟩, hroom₃⟩
    have hgrows₂ : Grows (· = ref) w₁ w₃ := (Grows.of_changes hchanges).trans hgrows₃
    have hgrows : Grows (· = ref) w w₁ := hgrows₁.mono fun _ _ => False.elim
    refine ⟨hw₃, hgrows.trans hgrows₂, ?_, hroom₃⟩
    have hproperties := hcomplete.properties
    rw [hwritten.properties, List.append_assoc] at hproperties
    rw [fieldsWithout]
    split
    case isTrue hname =>
      rw [if_pos hname] at hproperties
      exact ⟨complete, values, hcomplete.here, hcomplete.kind, hproperties, hcomplete.holds⟩
    case isFalse hname =>
      rw [if_neg hname] at hproperties
      refine ⟨complete, value :: values, hcomplete.here, hcomplete.kind, hproperties, ?_⟩
      refine .cons (hholds₁.grows (Nat.le_of_lt hsize) hgrows₂ ?_ (hitem.without _)) hcomplete.holds
      rintro _ rfl
      exact hsize

/-- A value that takes no objects is handed over as it is. -/
theorem converts_plain {json : Json} {value : Value} (hjson : ofJson hostPut json = pure value)
    (hfootprint : footprint json = 0)
    (hholds : ∀ lo objects, Holds lo objects (json.without "__proto__") value) :
    Converts excused base json := by
  intro w rest hw hroom
  rw [hfootprint, Nat.zero_add] at hroom
  rw [hjson]
  exact .pure ⟨hw, .refl, hholds _ _, hroom⟩

/-- The host makes the objects of every value that can travel. -/
theorem converts {depth : Nat} {json : Json} (h : Portable depth json)
    (hkey : HasKey "__proto__" json → excused) : Converts excused base json := by
  induction h with
  | null => exact converts_plain rfl rfl fun _ _ => .null
  | bool b => exact converts_plain rfl rfl fun _ _ => .bool b
  | int _ => exact converts_plain rfl rfl fun _ _ => .int
  | string text => exact converts_plain rfl rfl fun _ _ => .string text
  | @array depth items _ hitems ih =>
    intro w rest hw hroom
    rw [footprint, Nat.add_assoc] at hroom
    rw [ofJson]
    refine .bind ((ofItems_ends hitems (fun item hitem => ih item hitem (hkey ∘ .item hitem)) hw
      hroom).mono ?_)
    rintro values w₁ ⟨hw₁, hgrows₁, hholds₁, hroom₁⟩
    refine .bind ((allocate_ends _ hroom₁).mono ?_)
    rintro _ w₂ ⟨rfl, hpush, hroom₂⟩
    have hgrows₂ : Grows (fun _ => False) w₁ w₂ := .of_push hpush
    refine .pure ⟨hpush ▸ hw₁.push (isMade_array _), hgrows₁.trans hgrows₂, ?_, hroom₂⟩
    have hkind : ObjectKind.array (values.map some).toArray (values.map some).toArray.size true =
        .array (values.map some).toArray values.length true := by simp
    refine .array hgrows₁.size_le (hpush ▸ Array.getElem?_push_size) hkind ?_
    refine forall₂_imp_of_mem hholds₁ fun item hitem value hholds => ?_
    rw [itemsWithout_eq_map] at hitem
    obtain ⟨whole, hwhole, rfl⟩ := List.mem_map.mp hitem
    exact hholds.grows (Nat.le_refl _) hgrows₂ (fun _ => False.elim)
      ((hitems whole hwhole).without _)
  | @object depth fields hsorted hfields ih =>
    intro w rest hw hroom
    rw [footprint, Nat.add_assoc] at hroom
    rw [ofJson]
    refine .bind ((allocate_ends _ hroom).mono ?_)
    rintro _ w₁ ⟨rfl, hpush, hroom₁⟩
    have hgrows₁ : Grows (· = w.objects.size) w w₁ := .of_push hpush
    have hw₁ : Settled base w₁.objects := hpush ▸ hw.push isMade_object
    refine .bind ((ofFields_ends hfields (nodup_of_sorted hsorted)
      (fun field hfield => ih field hfield (hkey ∘ .entry hfield)) hw₁ hw.base_le
      (hpush ▸ Array.getElem?_push_size) rfl (fun _ _ => rfl) ?_ hroom₁).mono ?_)
    · rintro ⟨_, item⟩ hfield rfl
      exact ⟨hkey (.here hfield), rfl⟩
    rintro _ w₂ ⟨hw₂, hgrows₂, ⟨complete, values, hcomplete⟩, hroom₂⟩
    refine .pure ⟨hw₂, (hgrows₁.trans hgrows₂).mono fun _ hlt heq => ?_, ?_, hroom₂⟩
    · exact Nat.lt_irrefl _ (heq ▸ hlt)
    · exact .object (Nat.le_refl _) hcomplete.here hcomplete.kind hcomplete.properties
        hcomplete.holds

/-! ## There and back -/

/-- What comes back of a value that is handed to a script. -/
def roundTrip (value : Json) : Run (Except ConversionFault Json) := do
  returnedJson hostMachine (← ofHost hostMachine value)

attribute [local irreducible] realm

/-- The objects that lend their properties to what the host makes are as they were at first. -/
structure Untouched (w : World) : Prop where
  known : ∀ ref ∈ lenders, w.objects[ref]? = realm.objects[ref]?
  realm_le : realm.objects.size ≤ w.objects.size

/-- Where no script has run, the host made nothing but what it is about to make. -/
theorem Untouched.settled {w : World} (h : Untouched w) : Settled w.objects.size w.objects where
  known := h.known
  realm_le := h.realm_le
  base_le := Nat.le_refl _
  made _ _ hle hfound :=
    absurd (Array.getElem?_eq_some_iff.mp hfound).1 (Nat.not_lt_of_le hle)

/-- The world in which a script starts. -/
theorem untouched_startWorld {limits : Limits} {host : HostAccess} {w : World}
    (h : startWorld limits host = some w) : Untouched w := by
  -- of any world: the realm would be built to compare its parts
  have hsame (start : World) (memory : Option Nat) :
      { start with host := host, budget := limits.steps, memory := memory : World }.objects =
        start.objects := rfl
  have hobjects : w.objects = realm.objects := by
    unfold startWorld at h
    split at h
    · split at h
      · cases h
      · exact (congrArg World.objects (Option.some.inj h)).symm.trans (hsame realm _)
    · exact (congrArg World.objects (Option.some.inj h)).symm.trans (hsame realm realm.memory)
  exact ⟨fun _ _ => by rw [hobjects], Nat.le_of_eq (by rw [hobjects])⟩

/-- What comes back is what is left of the value without its entries under `__proto__`. -/
theorem roundTrip_ends {w : World} (hw : Untouched w) {value : Json} (h : Portable 64 value)
    (hkey : HasKey "__proto__" value → excused) (hroom : Room excused w (footprint value)) :
    Ends (roundTrip value) w excused fun result _ =>
      result = .ok (value.without "__proto__") := by
  refine .bind ((converts h hkey w 0 hw.settled hroom).mono ?_)
  rintro held w' ⟨hw', -, hholds, -⟩
  exact .of_ok (hholds.returned hw' (Nat.le_refl _) (h.without _)) rfl

/-- In a world whose prototypes are as they were at first, and with room for it, a value comes back
as it was just if none of its objects has an entry under `__proto__`. -/
theorem round_trip_iff (w : World) (hw : Untouched w) (value : Json) (h : Portable 64 value)
    (hroom : ∀ left, w.memory = some left → footprint value ≤ left) :
    (∃ w', roundTrip value w = .ok (.ok value) w') ↔ ¬ HasKey "__proto__" value := by
  have hends := roundTrip_ends hw h id (.inr hroom)
  constructor
  · rintro ⟨w', hrun⟩
    exact h.without_eq_self_iff.mp (Except.ok.inj (hends.good_of_ok hrun)).symm
  · intro hkey
    obtain ⟨result, w', hrun, rfl⟩ := hends.exists_ok hkey
    rw [h.without_eq_self_iff.mpr hkey] at hrun
    exact ⟨w', hrun⟩

/-- Keys that are indices, a key that objects are asked for as they are written, and the least
integer that doubles tell apart, with a limit on the memory. -/
theorem round_trip_iff_indices :
    let value := Json.object [("", .array [.null, .bool true, .object []]),
      ("10", .number (.int (-0x1fffffffffffff) (by decide))),
      ("9", .number (.int 0x80000000 (by decide))), ("toJSON", .string "😀")]
    ∃ w, startWorld { memory := some 161000 } isolated = some w ∧ Untouched w ∧
      Portable 64 value ∧ (∀ left, w.memory = some left → footprint value ≤ left) ∧
      ∃ w', roundTrip value w = .ok (.ok value) w' := by
  intro value
  have hportable : Portable 64 value := by
    refine .object (sorted_of_keys ["", "10", "9", "toJSON"] rfl (by decide)) ?_
    simp only [List.forall_mem_cons, List.not_mem_nil, false_imp_iff, implies_true, and_true]
    refine ⟨.array (by decide) ?_, .int (by decide), .int (by decide), .string _⟩
    simp only [List.forall_mem_cons, List.not_mem_nil, false_imp_iff, implies_true, and_true]
    exact ⟨.null, .bool true, .object .nil (List.forall_mem_nil _)⟩
  have hstart : startWorld { memory := some 161000 } isolated =
      some { realm with host := isolated, budget := mostSteps, memory := some 1000 } := rfl
  have hroom : ∀ left, some 1000 = some left → footprint value ≤ left := by
    rintro _ ⟨⟩
    decide
  refine ⟨_, hstart, untouched_startWorld hstart, hportable, hroom, ?_⟩
  exact (round_trip_iff _ (untouched_startWorld hstart) value hportable hroom).mpr
    (hportable.without_eq_self_iff.mp rfl)

/-- Of an object whose only entry is under `__proto__` nothing comes back. -/
theorem proto_entry_lost :
    ∃ w w', startWorld {} isolated = some w ∧
      roundTrip (.object [("__proto__", .number (.int 1 (by decide)))]) w =
        .ok (.ok (.object [])) w' := by
  have hportable : Portable 64 (.object [("__proto__", .number (.int 1 (by decide)))]) := by
    refine .object (sorted_of_keys ["__proto__"] rfl (by decide)) ?_
    simp only [List.forall_mem_cons, List.not_mem_nil, false_imp_iff, implies_true, and_true]
    exact .int (by decide)
  have hstart : startWorld {} isolated =
      some { realm with host := isolated, budget := mostSteps } := rfl
  have hends := @roundTrip_ends True _ (untouched_startWorld hstart) _ hportable
    (fun _ => trivial) (.inl trivial)
  have hruns : Ends (roundTrip (.object [("__proto__", .number (.int 1 (by decide)))]))
      { realm with host := isolated, budget := mostSteps } False fun _ _ => True := by
    decide +kernel
  obtain ⟨result, w', hrun, -⟩ := hruns.exists_ok id
  refine ⟨_, w', hstart, ?_⟩
  rw [hrun, hends.good_of_ok hrun]
  rfl

end ScriptHooks.Sandbox

/-
ScriptHooks.Proofs.Sandbox.UsualWorlds — worlds that no script has touched.

Before a script runs, the objects of a world are those of the realm and, behind them, those that
the host made (`Settled`). The host makes objects and arrays of plain properties only, so whatever
is found under a name from one of them on, through its prototypes, is a plain value or the
accessor `__proto__` (`Settled.findProperty`): nothing on the way is read-only, and nothing says
itself how it is written.

That is what it takes to write a property as the host does. An assignment looks a name up through
the prototypes first. Where it finds a property that may not be written it fails, and where it finds
an accessor it calls it; both would be seen by the host.

Of the objects of the realm only those matter that lend their properties to what the host makes
(`lenders`): the prototypes of objects and of arrays, and the function behind the accessor. That they
are as usual (`Obj.isUsual`) is checked by computation (`realm_usual`); this is the one place where a
proof looks into the realm, which is kept shut from there on. `Tame` carries what is needed of a
property that is found, and `InChain` which objects are prototypes of what the host made.

The prototype of an object may become another one that the host made, by an entry under
`__proto__`. So prototypes form chains through what the host made, and end with those of the realm
(`chain`).
-/
import Mathlib
import ScriptHooks.Proofs.Sandbox.Outcomes
import ScriptHooks.Sandbox.Session

namespace ScriptHooks.Sandbox

/-! ## The realm -/

/-- The function that gives an object another prototype. -/
@[irreducible]
def protoSetter : Ref :=
  match (realm.objects.getD Intrinsic.objectProto.ref default).own? "__proto__" with
  | some ⟨.accessor _ (.object ref), _, _⟩ => ref
  | _ => 0

/-- Whether a property may be written below the object that has it: a value, but for the one that
says how an object is written, or the prototype. -/
def Property.isUsual (name : Name) (property : Property) : Bool :=
  match property.content with
  | .data _ writable => writable && name != "toJSON"
  | .accessor _ (.object setter) => name == "__proto__" && setter == protoSetter
  | .accessor _ _ => false

/-- Whether an object is an ordinary one or an array without items, with properties that may be
written below it. -/
def Obj.isUsual (found : Obj) : Bool :=
  (match found.kind with
    | .ordinary => true
    | .array items _ resizable => items.isEmpty && resizable
    | _ => false) &&
  found.properties.all fun entry =>
    match entry.1 with
    | .text name => entry.2.isUsual name
    | .symbol _ => true

/-- Whether a property is read and written by functions. -/
def Property.isAccessor (property : Property) : Bool :=
  match property.content with
  | .accessor _ _ => true
  | .data _ _ => false

/-- The objects that lend their properties to what the host makes are as usual. -/
theorem realm_usual :
    (realm.objects.getD Intrinsic.objectProto.ref default).isUsual = true ∧
    (realm.objects.getD Intrinsic.arrayProto.ref default).isUsual = true ∧
    (realm.objects.getD Intrinsic.objectProto.ref default).proto = none ∧
    (realm.objects.getD Intrinsic.arrayProto.ref default).proto =
      some Intrinsic.objectProto.ref ∧
    Intrinsic.arrayProto.ref < realm.objects.size := by
  decide +kernel

/-- The prototype of an object is written by a function. -/
theorem realm_proto :
    ((realm.objects.getD Intrinsic.objectProto.ref default).own? "__proto__").any
      Property.isAccessor = true ∧
    (match (realm.objects.getD protoSetter default).kind with
      | .native f => f == .object .setProto
      | _ => false) = true ∧
    protoSetter < realm.objects.size := by
  decide +kernel

-- From here on the realm is known by these facts alone.
attribute [local irreducible] realm

/-- The objects of the realm that what the host makes depends on. -/
def lenders : List Ref := [Intrinsic.objectProto.ref, Intrinsic.arrayProto.ref, protoSetter]

theorem lt_of_mem_lenders {ref : Ref} (h : ref ∈ lenders) : ref < realm.objects.size := by
  have harray := realm_usual.2.2.2.2
  simp only [lenders, List.mem_cons, List.not_mem_nil, or_false] at h
  rcases h with rfl | rfl | rfl
  · exact Nat.lt_trans (by decide) harray
  · exact harray
  · exact realm_proto.2.2

/-! ## What is found under a name -/

/-- A value that is no object, or an object from a place on. -/
def Made (base size : Nat) (value : Value) : Prop :=
  ∀ ref, value = .object ref → base ≤ ref ∧ ref < size

/-- A property that may be written below the object that has it, and that does not say how an
object is written, unless it is the prototype. -/
inductive Tame (base size : Nat) (name : Name) : Property → Prop
  | value {value : Value} {enumerable configurable : Bool}
    (h : name = "toJSON" → Made base size value) :
    Tame base size name ⟨.data value true, enumerable, configurable⟩
  | proto {getter : Value} {enumerable configurable : Bool} (h : name = "__proto__") :
    Tame base size name ⟨.accessor getter (.object protoSetter), enumerable, configurable⟩

/-- The places of the objects among whose properties a name is looked for. -/
def InChain (base size : Nat) (ref : Ref) : Prop :=
  ref = Intrinsic.objectProto.ref ∨ ref = Intrinsic.arrayProto.ref ∨ (base ≤ ref ∧ ref < size)

/-- An object that the host made: an ordinary one with plain properties, or an array with
nothing but its items. -/
structure IsMade (base size : Nat) (found : Obj) : Prop where
  proto : ∀ ref, found.proto = some ref → InChain base size ref
  extensible : found.extensible = true
  kind : found.kind = .ordinary ∨
    (∃ items, found.kind = .array items items.size true) ∧ found.properties = #[]
  properties : ∀ entry ∈ found.properties, ∃ name value,
    entry = (.text name, .plain value) ∧ name ≠ "__proto__" ∧ Made base size value

/-- What is kept under a name is one of the properties. -/
theorem Obj.mem_of_kept? {found : Obj} {key : Key} {property : Property}
    (h : found.kept? key = some property) : (key, property) ∈ found.properties := by
  obtain ⟨entry, hfind, rfl⟩ := Option.map_eq_some_iff.mp h
  have hkey : (entry.1 == key) = true :=
    Array.find?_some (p := fun other : Key × Property => other.1 == key) hfind
  obtain rfl := eq_of_beq hkey
  exact Array.mem_of_find?_eq_some hfind

theorem index?_toJSON : Key.index? "toJSON" = none := by decide +kernel

/-- What an array has of its own is an item, its length, or kept with it. -/
theorem Obj.own?_array {found : Obj} {items : Array (Option Value)} {length : Nat} {name : Name}
    {property : Property} (hkind : found.kind = .array items length true)
    (h : found.own? (.text name) = some property) :
    (name ≠ "toJSON" ∧ ∃ value enumerable configurable,
      property = ⟨.data value true, enumerable, configurable⟩) ∨
    found.kept? (.text name) = some property := by
  rw [Obj.own?, hkind] at h
  cases hindex : Key.index? (.text name) with
  | some i =>
    rw [hindex] at h
    have hname : name ≠ "toJSON" := by
      rintro rfl
      exact nomatch hindex.symm.trans index?_toJSON
    dsimp only at h
    split at h
    case h_1 value _ =>
      cases h
      exact .inl ⟨hname, value, true, true, rfl⟩
    case h_2 => exact .inr h
  | none =>
    rw [hindex] at h
    dsimp only at h
    split at h
    case isTrue hlength =>
      obtain rfl : name = "length" := Key.text.inj (eq_of_beq hlength)
      cases h
      exact .inl ⟨by decide +kernel, _, _, _, rfl⟩
    case isFalse => exact .inr h

/-- An ordinary object has what is kept with it. -/
theorem Obj.own?_ordinary {found : Obj} (hkind : found.kind = .ordinary) (key : Key) :
    found.own? key = found.kept? key := by
  rw [Obj.own?, hkind]

/-- A usual property may be written below. -/
theorem Property.isUsual_tame {property : Property} {name : Name}
    (h : property.isUsual name = true) {base size : Nat} : Tame base size name property := by
  obtain ⟨content, enumerable, configurable⟩ := property
  cases content with
  | data value writable =>
    obtain ⟨hwritable, hname⟩ := Bool.and_eq_true_iff.mp h
    obtain rfl : writable = true := hwritable
    exact .value fun heq => absurd heq (by simpa using hname)
  | accessor getter setter =>
    cases setter with
    | object setter =>
      obtain ⟨hname, hsetter⟩ := Bool.and_eq_true_iff.mp h
      obtain rfl : setter = protoSetter := eq_of_beq hsetter
      exact .proto (eq_of_beq hname)
    | _ => cases h

/-- What a usual object has of its own may be written below it. -/
theorem Obj.isUsual_tame {found : Obj} (h : found.isUsual = true) {base size : Nat} {name : Name}
    {property : Property} (hown : found.own? (.text name) = some property) :
    Tame base size name property := by
  obtain ⟨hkind, hproperties⟩ := Bool.and_eq_true_iff.mp h
  have hkept : found.kept? (.text name) = some property → Tame base size name property :=
    fun hkept => Property.isUsual_tame
      (Array.all_eq_true_iff_forall_mem.mp hproperties _ (Obj.mem_of_kept? hkept))
  split at hkind
  case h_1 hordinary => exact hkept (Obj.own?_ordinary hordinary _ ▸ hown)
  case h_2 items length resizable harray =>
    obtain rfl : resizable = true := (Bool.and_eq_true_iff.mp hkind).2
    rcases Obj.own?_array harray hown with ⟨hname, value, _, _, rfl⟩ | hown
    · exact .value fun heq => absurd heq hname
    · exact hkept hown
  case h_3 => cases hkind

/-- What an object that the host made has of its own may be written below it. -/
theorem IsMade.tame {base size : Nat} {found : Obj} (h : IsMade base size found) {name : Name}
    {property : Property} (hown : found.own? (.text name) = some property) :
    Tame base size name property := by
  have hkept : found.kept? (.text name) = some property → Tame base size name property := by
    intro hkept
    obtain ⟨_, value, heq, -, hmade⟩ := h.properties _ (Obj.mem_of_kept? hkept)
    cases heq
    exact .value fun _ => hmade
  rcases h.kind with hordinary | ⟨⟨items, harray⟩, -⟩
  · exact hkept (Obj.own?_ordinary hordinary _ ▸ hown)
  · rcases Obj.own?_array harray hown with ⟨hname, value, _, _, rfl⟩ | hown
    · exact .value fun heq => absurd heq hname
    · exact hkept hown

/-- What the host made is never called. -/
theorem IsMade.not_isCallable {base size : Nat} {found : Obj} (h : IsMade base size found) :
    found.isCallable = false := by
  rw [Obj.isCallable]
  rcases h.kind with hkind | ⟨⟨_, hkind⟩, -⟩ <;> rw [hkind]

/-- The objects that lend their properties are those of the realm, and from a place on all objects
are those that the host made. -/
structure Settled (base : Nat) (objects : Array Obj) : Prop where
  known : ∀ ref ∈ lenders, objects[ref]? = realm.objects[ref]?
  realm_le : realm.objects.size ≤ base
  base_le : base ≤ objects.size
  made : ∀ ref found, base ≤ ref → objects[ref]? = some found → IsMade base objects.size found

namespace Settled

variable {base : Nat} {objects : Array Obj}

/-- The objects of the realm come first. -/
theorem lt_base (h : Settled base objects) {ref : Ref} (hlender : ref ∈ lenders) : ref < base :=
  Nat.lt_of_lt_of_le (lt_of_mem_lenders hlender) h.realm_le

theorem getD_lender (h : Settled base objects) {ref : Ref} (hlender : ref ∈ lenders) :
    objects.getD ref default = realm.objects.getD ref default := by
  rw [Array.getD_eq_getD_getElem?, Array.getD_eq_getD_getElem?, h.known ref hlender]

/-- Along the prototypes of what the host made there is nothing that may not be written below. -/
theorem chain (h : Settled base objects) {ref : Ref} (hchain : InChain base objects.size ref) :
    (∀ name property, (objects.getD ref default).own? (.text name) = some property →
      Tame base objects.size name property) ∧
    ∀ next, (objects.getD ref default).proto = some next → InChain base objects.size next := by
  obtain ⟨husual, harray, hproto, harrayProto, -⟩ := realm_usual
  rcases hchain with rfl | rfl | ⟨hbase, hsize⟩
  · rw [h.getD_lender (by simp [lenders])]
    exact ⟨fun _ _ => Obj.isUsual_tame husual, fun next hnext => nomatch hproto.symm.trans hnext⟩
  · rw [h.getD_lender (by simp [lenders])]
    refine ⟨fun _ _ => Obj.isUsual_tame harray, fun next hnext => ?_⟩
    exact .inl (Option.some.inj (harrayProto.symm.trans hnext)).symm
  · obtain hmade := h.made ref objects[ref] hbase (Array.getElem?_eq_getElem hsize)
    have hget : objects.getD ref default = objects[ref] := by simp [Array.getD, hsize]
    rw [hget]
    exact ⟨fun _ _ => hmade.tame, hmade.proto⟩

/-- The function that writes a prototype is the one of the realm. -/
theorem protoSetter_kind (h : Settled base objects) :
    (objects.getD protoSetter default).kind = .native (.object .setProto) := by
  obtain ⟨-, hkind, -⟩ := realm_proto
  rw [h.getD_lender (by simp [lenders])]
  split at hkind
  case h_1 f hnative => rw [hnative, eq_of_beq hkind]
  case h_2 => cases hkind

/-- Below the prototype of all objects, `__proto__` is written by a function. -/
theorem own?_proto (h : Settled base objects) : ∃ getter enumerable configurable,
    (objects.getD Intrinsic.objectProto.ref default).own? "__proto__" =
      some ⟨.accessor getter (.object protoSetter), enumerable, configurable⟩ := by
  have haccessor := realm_proto.1
  rw [h.getD_lender (by simp [lenders])]
  cases hown : (realm.objects.getD Intrinsic.objectProto.ref default).own? "__proto__" with
  | none =>
    rw [hown] at haccessor
    cases haccessor
  | some property =>
    rw [hown] at haccessor
    have htame : Tame base objects.size "__proto__" property :=
      Obj.isUsual_tame realm_usual.1 hown
    cases htame with
    | value => cases haccessor
    | proto => exact ⟨_, _, _, rfl⟩

end Settled

/-! ## Looking a name up -/

namespace Run

/-- Whatever is found under a name may be written below. -/
theorem findProperty_settled {base : Nat} {w : World} (h : Settled base w.objects) (name : Name) :
    ∀ (fuel : Nat) (start : Option Ref),
      (∀ ref, start = some ref → InChain base w.objects.size ref) →
      ∃ found, findProperty (.text name) fuel start w = .ok found w ∧
        ∀ property, found = some property → Tame base w.objects.size name property
  | 0, _, _ => ⟨none, rfl, nofun⟩
  | fuel + 1, none, _ => ⟨none, rfl, nofun⟩
  | fuel + 1, some ref, hstart => by
    obtain ⟨hown, hproto⟩ := h.chain (hstart ref rfl)
    rw [findProperty, bind_run (object_run ref w)]
    cases hfound : (w.objects.getD ref default).own? (.text name) with
    | some property => exact ⟨some property, rfl, fun _ heq => hown name _ (heq ▸ hfound)⟩
    | none => exact findProperty_settled h name fuel _ hproto

end Run

end ScriptHooks.Sandbox

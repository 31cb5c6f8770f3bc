/-
ScriptHooks.Proofs.Sandbox.HostWrites — the host writes the entries of objects.

An entry becomes a property of the object that it is written to, and no other object changes
(`setValue_ends`), unless its name is `__proto__`: then it becomes the prototype of the object and
no property of it (`setProto_ends`). For the host writes as scripts do, by an assignment, and the
name is looked up in the prototypes; there the accessor is found.

`Changes ref found w w'` is the frame: the object at `ref` is `found` afterwards, and all others are
what they were. A world stays one that no script has touched (`Settled.of_changes`) as long as what
changes is something that the host makes (`IsMade`), so the lemmas about entries can be used one
after the other.

Calling the accessor is the only point at which a function of the realm runs. It takes a step, needs
a level of the stack, and looks for a cycle through the prototypes (`inherits_run`); whatever that
finds, the prototype becomes another or stays (`setPrototype_ends`). What is lost is the entry.
-/
import Mathlib
import ScriptHooks.Proofs.Sandbox.UsualWorlds

namespace ScriptHooks.Sandbox

/-! ## One object changes -/

/-- The worlds differ in one object only. -/
structure Changes (ref : Ref) (found : Obj) (w w' : World) : Prop where
  size_eq : w'.objects.size = w.objects.size
  here : w'.objects[ref]? = some found
  elsewhere : ∀ other, other ≠ ref → w'.objects[other]? = w.objects[other]?

/-- The objects were the same before. -/
theorem Changes.of_objects_eq {ref : Ref} {found : Obj} {w between w' : World}
    (heq : between.objects = w.objects) (h : Changes ref found between w') :
    Changes ref found w w' where
  size_eq := heq ▸ h.size_eq
  here := h.here
  elsewhere := heq ▸ h.elsewhere

/-- With more objects about. -/
theorem IsMade.mono {base size size' : Nat} (hle : size ≤ size') {found : Obj}
    (h : IsMade base size found) : IsMade base size' found where
  proto ref href := by
    rcases h.proto ref href with href | href | ⟨hbase, hsize⟩
    · exact .inl href
    · exact .inr (.inl href)
    · exact .inr (.inr ⟨hbase, Nat.lt_of_lt_of_le hsize hle⟩)
  extensible := h.extensible
  kind := h.kind
  properties entry hentry := by
    obtain ⟨name, value, heq, hname, hmade⟩ := h.properties entry hentry
    refine ⟨name, value, heq, hname, fun ref href => ?_⟩
    exact ⟨(hmade ref href).1, Nat.lt_of_lt_of_le (hmade ref href).2 hle⟩

/-- The arrays that the host makes. -/
theorem isMade_array {base size : Nat} (items : Array (Option Value)) :
    IsMade base size
      { proto := some Intrinsic.arrayProto.ref, kind := .array items items.size true } where
  proto _ h := .inr (.inl (Option.some.inj h).symm)
  extensible := rfl
  kind := .inr ⟨⟨items, rfl⟩, rfl⟩
  properties _ hentry := absurd hentry (Array.not_mem_empty _)

/-- The objects that the host makes, before they have entries. -/
theorem isMade_object {base size : Nat} :
    IsMade base size { proto := some Intrinsic.objectProto.ref } where
  proto _ h := .inl (Option.some.inj h).symm
  extensible := rfl
  kind := .inl rfl
  properties _ hentry := absurd hentry (Array.not_mem_empty _)

/-- With another prototype. -/
theorem IsMade.withProto {base size : Nat} {found : Obj} (h : IsMade base size found)
    {proto : Option Ref} (hproto : ∀ ref, proto = some ref → InChain base size ref) :
    IsMade base size { found with proto := proto } where
  proto := hproto
  extensible := h.extensible
  kind := h.kind
  properties := h.properties

/-- With one more property. -/
theorem IsMade.withProperty {base size : Nat} {found : Obj} (h : IsMade base size found)
    (hkind : found.kind = .ordinary) {name : Name} (hname : name ≠ "__proto__") {value : Value}
    (hvalue : Made base size value) : IsMade base size
      { found with properties := found.properties.push (.text name, .plain value) } where
  proto := h.proto
  extensible := h.extensible
  kind := .inl hkind
  properties entry hentry := by
    rcases Array.mem_push.mp hentry with hentry | rfl
    · exact h.properties entry hentry
    · exact ⟨name, value, rfl, hname, hvalue⟩

namespace Settled

variable {base : Nat} {w w' : World}

/-- A change of what the host made. -/
theorem of_changes (h : Settled base w.objects) {ref : Ref} {found : Obj} (hbase : base ≤ ref)
    (hmade : IsMade base w.objects.size found) (hchanges : Changes ref found w w') :
    Settled base w'.objects where
  known other hother := by
    have hne : other ≠ ref := Nat.ne_of_lt (Nat.lt_of_lt_of_le (h.lt_base hother) hbase)
    rw [hchanges.elsewhere other hne, h.known other hother]
  realm_le := h.realm_le
  base_le := hchanges.size_eq ▸ h.base_le
  made other object hother hobject := by
    rw [hchanges.size_eq]
    by_cases heq : other = ref
    · subst heq
      rw [hchanges.here] at hobject
      exact Option.some.inj hobject ▸ hmade
    · rw [hchanges.elsewhere other heq] at hobject
      exact h.made other object hother hobject

/-- One more object that the host made. -/
theorem push {objects : Array Obj} (h : Settled base objects) {found : Obj}
    (hmade : IsMade base (objects.size + 1) found) : Settled base (objects.push found) where
  known ref href := by
    have hsize := Nat.lt_of_lt_of_le (h.lt_base href) h.base_le
    rw [Array.getElem?_push_lt hsize, ← h.known ref href, Array.getElem?_eq_getElem hsize]
  realm_le := h.realm_le
  base_le := by
    rw [Array.size_push]
    exact Nat.le_succ_of_le h.base_le
  made ref object href hobject := by
    rw [Array.size_push]
    rw [Array.getElem?_push] at hobject
    split at hobject
    · exact Option.some.inj hobject ▸ hmade
    · exact (h.made ref object href hobject).mono (Nat.le_succ _)

end Settled

namespace Run

variable {w : World} {excused : Prop}

/-- An object is changed. -/
theorem change_changes {ref : Ref} {found : Obj} (h : w.objects[ref]? = some found)
    (f : Obj → Obj) :
    ∃ w', change ref f w = .ok () w' ∧ Changes ref (f found) w w' ∧ w'.memory = w.memory := by
  refine ⟨_, rfl, ⟨Array.size_modify, ?_, fun other hother => ?_⟩, rfl⟩
  · rw [Array.getElem?_modify, if_pos rfl, h, Option.map_some]
  · rw [Array.getElem?_modify, if_neg (Ne.symm hother)]

/-! ## Entries that become properties -/

theorem keep_of_none {found : Obj} {key : Key} (h : found.kept? key = none) (property : Property) :
    found.keep key property =
      { found with properties := found.properties.push (key, property) } := by
  have hfind : found.properties.findIdx? (fun entry => entry.1 == key) = none := by
    rw [Obj.kept?, Option.map_eq_none_iff, Array.find?_eq_none] at h
    rw [Array.findIdx?_eq_none_iff]
    exact fun entry hentry => by simpa using h entry hentry
  rw [Obj.keep, hfind]

theorem define_of_none {found : Obj} (hkind : found.kind = .ordinary) {key : Key}
    (h : found.own? key = none) (property : Property) :
    found.define key property =
      { found with properties := found.properties.push (key, property) } := by
  rw [Obj.own?_ordinary hkind] at h
  have hdefine : found.define key property = found.keep key property := by
    rw [Obj.define, hkind]
  rw [hdefine, keep_of_none h property]

variable {base : Nat} {ref : Ref} {found : Obj} {m : Machine}

/-- An entry whose name is new becomes a property, unless it is the prototype. -/
theorem setValue_ends (hw : Settled base w.objects) (hbase : base ≤ ref)
    (hfound : w.objects[ref]? = some found) (hkind : found.kind = .ordinary) {name : Name}
    (hname : name ≠ "__proto__") (hnew : found.own? (.text name) = none) (value : Value)
    {rest : Nat} (hroom : Room excused w (32 + rest)) :
    Ends (setValue m (.object ref) (.text name) value) w excused fun _ w' =>
      Changes ref { found with properties := found.properties.push (.text name, .plain value) }
        w w' ∧ Room excused w' rest := by
  have hobject := object_of_getElem? hfound
  have hmade := hw.made ref found hbase hfound
  have hadd : Ends (add ref (.text name) value) w excused fun _ w' =>
      Changes ref { found with properties := found.properties.push (.text name, .plain value) }
        w w' ∧ Room excused w' rest := by
    rw [add]
    refine .bind_ok hobject ?_
    rw [if_pos hmade.extensible]
    refine .bind ((charge_ends hroom).mono ?_)
    rintro _ _ ⟨memory, rfl, hroom⟩
    obtain ⟨w', hchange, hchanges, hmemory⟩ :=
      change_changes (w := { w with memory := memory }) hfound
        (·.define (.text name) (.plain value))
    rw [define_of_none hkind hnew] at hchanges
    exact .of_ok hchange ⟨⟨hchanges.size_eq, hchanges.here, hchanges.elsewhere⟩,
      hroom.of_memory_eq hmemory⟩
  obtain ⟨seen, hfind, htame⟩ := findProperty_settled hw name (w.objects.size + 1) found.proto
    hmade.proto
  rw [setValue]
  refine .bind_ok hobject ?_
  rw [hnew]
  refine .bind_ok (chainLength_run w) (.bind_ok hobject (.bind_ok hfind ?_))
  cases seen with
  | none => exact hadd
  | some property =>
    cases htame property rfl with
    | value => exact hadd
    | proto hproto => exact absurd hproto hname

/-! ## Entries that become the prototype -/

/-- The search for a cycle comes to an end and changes nothing. -/
theorem inherits_run (origin : Ref) (w : World) :
    ∀ (fuel : Nat) (start : Option Ref), ∃ answer, inherits origin fuel start w = .ok answer w
  | 0, _ => ⟨false, rfl⟩
  | _ + 1, none => ⟨false, rfl⟩
  | fuel + 1, some ref => by
    rw [inherits]
    split
    · exact ⟨true, rfl⟩
    · rw [bind_run (object_run ref w)]
      exact inherits_run origin w fuel _

/-- The prototype becomes another, or stays. -/
theorem setPrototype_ends (hexcused : excused) (hfound : w.objects[ref]? = some found)
    (proto : Option Ref) :
    Ends (setPrototype ref proto) w excused fun _ w' =>
      Changes ref { found with proto := proto } w w' := by
  obtain ⟨answer, hinherits⟩ := inherits_run ref w (w.objects.size + 1) proto
  rw [setPrototype]
  refine .bind_ok (object_of_getElem? hfound) ?_
  split
  case isTrue hsame =>
    obtain rfl : found.proto = proto := eq_of_beq hsame
    exact .pure ⟨rfl, hfound, fun _ _ => rfl⟩
  case isFalse =>
    split
    case isTrue => exact fail_ends hexcused
    case isFalse =>
      refine .bind_ok (chainLength_run w) (.bind_ok hinherits ?_)
      split
      case isTrue => exact fail_ends hexcused
      case isFalse =>
        obtain ⟨w', hchange, hchanges, -⟩ :=
          change_changes hfound fun found => { found with proto := proto }
        exact .of_ok hchange hchanges

theorem tick_ends (hexcused : excused) :
    Ends tick w excused fun _ w' => w'.objects = w.objects := by
  rw [tick]
  refine .bind_ok rfl ?_
  split
  case isTrue => exact hexcused
  case isFalse => exact .of_ok rfl rfl

theorem hostMachine_call (f this : Value) (values : List Value) :
    hostMachine.call f this values =
      Evaluator.callValue (Evaluator.ofDepth (stackDepth - 1)) f this values := by
  have hdepth : evaluator = Evaluator.ofDepth (stackDepth - 1 + 1) := rfl
  rw [hostMachine, hdepth, Evaluator.ofDepth]

/-- The accessor is called, and writes the prototype. -/
theorem setterCall_ends (hexcused : excused) (hw : Settled base w.objects)
    (hfound : w.objects[ref]? = some found) {value : Value}
    (hproto : ∀ other, found.proto = some other → InChain base w.objects.size other)
    (hvalue : Made base w.objects.size value) :
    Ends (hostMachine.call (.object protoSetter) (.object ref) [value]) w excused fun _ w' =>
      ∃ proto, (∀ other, proto = some other → InChain base w.objects.size other) ∧
        Changes ref { found with proto := proto } w w' := by
  rw [hostMachine_call, Evaluator.callValue]
  refine .bind ((tick_ends hexcused).mono fun _ ticked hticked => ?_)
  have hkind := hw.protoSetter_kind
  rw [← hticked] at hkind hfound
  refine .bind_ok (object_run protoSetter ticked) ?_
  rw [hkind]
  show Ends (inheritedFunction (Evaluator.ofDepth (stackDepth - 1)).toMachine .setProto
    (.object ref) [value]) ticked excused _
  have hargument : argument [value] 0 = value := rfl
  unfold inheritedFunction
  dsimp only
  rw [hargument]
  cases hkindOf : prototypeOf? value with
  | none =>
    exact .of_ok rfl
      ⟨found.proto, hproto, .of_objects_eq hticked ⟨rfl, hfound, fun _ _ => rfl⟩⟩
  | some proto =>
    refine .bind ((setPrototype_ends hexcused hfound proto).mono fun _ w' hchanges => ?_)
    refine .pure ⟨proto, ?_, .of_objects_eq hticked hchanges⟩
    rintro other rfl
    cases value with
    | object other =>
      cases hkindOf
      exact .inr (.inr (hvalue other rfl))
    | _ => cases hkindOf

/-- The entry under `__proto__` becomes the prototype, if it can be one, and no property. -/
theorem setProto_ends (hexcused : excused) (hw : Settled base w.objects) (hbase : base ≤ ref)
    (hfound : w.objects[ref]? = some found) (hproto : found.proto = some Intrinsic.objectProto.ref)
    (hnew : found.own? "__proto__" = none) {value : Value}
    (hvalue : Made base w.objects.size value) :
    Ends (setValue hostMachine (.object ref) "__proto__" value) w excused fun _ w' =>
      ∃ proto, (∀ other, proto = some other → InChain base w.objects.size other) ∧
        Changes ref { found with proto := proto } w w' := by
  have hobject := object_of_getElem? hfound
  obtain ⟨getter, enumerable, configurable, hown⟩ := hw.own?_proto
  have hfind : findProperty "__proto__" (w.objects.size + 1) found.proto w =
      .ok (some ⟨.accessor getter (.object protoSetter), enumerable, configurable⟩) w := by
    rw [hproto, findProperty, bind_run (object_run _ w), hown]
    rfl
  rw [setValue]
  refine .bind_ok hobject ?_
  rw [hnew]
  refine .bind_ok (chainLength_run w) (.bind_ok hobject (.bind_ok hfind ?_))
  exact .bind ((setterCall_ends hexcused hw hfound (hw.made ref found hbase hfound).proto
    hvalue).mono fun _ _ h => .pure h)

end Run

end ScriptHooks.Sandbox

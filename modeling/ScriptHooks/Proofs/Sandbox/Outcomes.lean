/-
ScriptHooks.Proofs.Sandbox.Outcomes — how a run ends.

A run in the sandbox may halt: it has no more memory, no more steps, or the stack is too deep. What
is shown of a run is that it comes to a good end, unless it halts for a reason that is granted.
`Ends act w excused good`: from `w` the run comes to a good end, or it halts and is excused.

The excuse is a proposition that is fixed throughout. With `False` for it, a run has to come to its
end; so one proof serves both statements, the one with enough memory and the one without. Runs
that use bytes are excused by nothing else if there is room for the bytes (`Room`): the number of
bytes is what is there, or whatever is lacking is excused.

`Yields` is for runs that only look at a world, among them those that may meet a fault. They give
one value and leave the world as it is, so a sequence of them is put together without a world in
between.
-/
import Mathlib
import ScriptHooks.Sandbox.Session

namespace ScriptHooks.Sandbox

variable {α β ε : Type}

/-! ## Good ends -/

/-- From the world the run comes to a good end, or it halts, which is excused. -/
def Ends (act : Run α) (w : World) (excused : Prop) (good : α → World → Prop) : Prop :=
  match act w with
  | .ok a w' => good a w'
  | .error _ _ => excused

namespace Ends

variable {act : Run α} {w w' : World} {excused : Prop} {good better : α → World → Prop}

theorem of_ok {a : α} (h : act w = .ok a w') (hgood : good a w') : Ends act w excused good := by
  rw [Ends, h]
  exact hgood

theorem pure {a : α} (h : good a w) : Ends (Pure.pure a) w excused good := h

theorem mono (h : Ends act w excused good) (himp : ∀ a w', good a w' → better a w') :
    Ends act w excused better := by
  rw [Ends] at h ⊢
  cases hact : act w with
  | ok a w' =>
    rw [hact] at h
    exact himp a w' h
  | error halt w' =>
    rw [hact] at h
    exact h

/-- A good end from which the rest comes to a good end. -/
theorem bind {next : α → Run β} {good : β → World → Prop}
    (h : Ends act w excused fun a w' => Ends (next a) w' excused good) :
    Ends (act >>= next) w excused good := by
  rw [Ends] at h ⊢
  show match EStateM.bind act next w with | .ok a w' => good a w' | .error _ _ => excused
  rw [EStateM.bind]
  cases hact : act w with
  | ok a w' =>
    rw [hact] at h
    exact h
  | error halt w' =>
    rw [hact] at h
    exact h

/-- What looks at the world does not change how the rest ends. -/
theorem bind_ok {a : α} {next : α → Run β} {good : β → World → Prop} (h : act w = .ok a w')
    (hnext : Ends (next a) w' excused good) : Ends (act >>= next) w excused good :=
  bind (of_ok h hnext)

/-- What is not excused comes to its end. -/
theorem exists_ok (h : Ends act w excused good) (hnot : ¬ excused) :
    ∃ a w', act w = .ok a w' ∧ good a w' := by
  rw [Ends] at h
  cases hact : act w with
  | ok a w' =>
    rw [hact] at h
    exact ⟨a, w', rfl, h⟩
  | error halt w' =>
    rw [hact] at h
    exact absurd h hnot

/-- An end that is reached is good. -/
theorem good_of_ok {a : α} (h : Ends act w excused good) (hact : act w = .ok a w') :
    good a w' := by
  rw [Ends, hact] at h
  exact h

instance [Decidable excused] [∀ a w', Decidable (good a w')] :
    Decidable (Ends act w excused good) :=
  match hact : act w with
  | .ok a w' => decidable_of_iff (good a w') (by rw [Ends, hact])
  | .error _ _ => decidable_of_iff excused (by rw [Ends, hact])

end Ends

/-! ## Looking -/

namespace Run

variable {w w' : World} {act : Run α} {a : α}

theorem bind_run {next : α → Run β} (h : act w = .ok a w') : (act >>= next) w = next a w' := by
  show EStateM.bind act next w = _
  rw [EStateM.bind, h]

/-- An object is looked up, and nothing changes. -/
theorem object_run (ref : Ref) (w : World) :
    object ref w = .ok (w.objects.getD ref default) w := rfl

/-- An object that is there is found. -/
theorem object_of_getElem? {ref : Ref} {found : Obj} (h : w.objects[ref]? = some found) :
    object ref w = .ok found w := by
  rw [object_run, Array.getD_eq_getD_getElem?, h, Option.getD_some]

theorem chainLength_run (w : World) : chainLength w = .ok (w.objects.size + 1) w := rfl

/-- What does not halt is not caught. -/
theorem tryCatch_run {handle : Halt → Run α} (h : act w = .ok a w') :
    tryCatch act handle w = .ok a w' := by
  show EStateM.tryCatch act handle w = _
  rw [EStateM.tryCatch, h]

end Run

/-- The run gives the value, meets no fault, and leaves the world as it is. -/
def Yields (act : ExceptT ε Run α) (w : World) (a : α) : Prop := act.run w = .ok (.ok a) w

namespace Yields

variable {w : World} {a : α} {b : β}

theorem pure : Yields (Pure.pure a : ExceptT ε Run α) w a := rfl

theorem bind {act : ExceptT ε Run α} {next : α → ExceptT ε Run β} (h : Yields act w a)
    (hnext : Yields (next a) w b) : Yields (act >>= next) w b :=
  (Run.bind_run h).trans hnext

theorem lift {act : Run α} (h : act w = .ok a w) :
    Yields (liftM act : ExceptT ε Run α) w a := by
  show (act >>= fun a => Pure.pure (Except.ok a)) w = _
  rw [Run.bind_run h]
  rfl

theorem of_eq_ok {result : Except ε α} (h : result = .ok a) :
    Yields (ExceptT.mk (Pure.pure result)) w a := by
  subst h
  rfl

theorem guarded {act : Run α} (h : act w = .ok a w) : Yields (Run.guarded act) w a := by
  refine Run.tryCatch_run ?_
  rw [Run.bind_run h]
  rfl

/-- Looking at one after the other. -/
theorem mapM {act : α → ExceptT ε Run β} {as : List α} {bs : List β}
    (h : List.Forall₂ (fun a b => Yields (act a) w b) as bs) : Yields (as.mapM act) w bs := by
  induction h with
  | nil => exact pure
  | cons hfirst _ ih =>
    rw [List.mapM_cons]
    exact bind hfirst (bind ih pure)

end Yields

/-! ## Room -/

/-- There are so many bytes to use, or running out of them is excused. -/
def Room (excused : Prop) (w : World) (bytes : Nat) : Prop :=
  excused ∨ ∀ left, w.memory = some left → bytes ≤ left

/-- Room is a matter of the memory only. -/
theorem Room.of_memory_eq {excused : Prop} {w w' : World} {bytes : Nat} (h : Room excused w bytes)
    (hmemory : w'.memory = w.memory) : Room excused w' bytes :=
  h.imp_right fun hroom left hleft => hroom left (hmemory ▸ hleft)

namespace Run

variable {w : World} {excused : Prop} {bytes rest : Nat}

/-- A fault that is excused. -/
theorem fail_ends {kind : ErrorKind} {message : String} {good : α → World → Prop}
    (h : excused) : Ends (fail kind message) w excused good := h

/-- Bytes are used up, and nothing else changes. -/
theorem charge_ends (h : Room excused w (bytes + rest)) :
    Ends (charge bytes) w excused fun _ w' =>
      ∃ memory, w' = { w with memory := memory } ∧ Room excused w' rest := by
  rw [charge]
  refine .bind_ok rfl ?_
  cases hmemory : w.memory with
  | none =>
    exact .pure ⟨w.memory, rfl, h.imp_right fun _ left hleft => nomatch hmemory.symm.trans hleft⟩
  | some left =>
    dsimp only
    split
    case isTrue hlt =>
      exact fail_ends (h.resolve_right fun hroom => by have := hroom left hmemory; omega)
    case isFalse hge =>
      refine .of_ok rfl ⟨some (left - bytes), rfl, h.imp_right fun hroom _ hrest => ?_⟩
      have := hroom left hmemory
      cases hrest
      omega

/-- An object is put behind those that are there. -/
theorem allocate_ends (object : Obj) (h : Room excused w (objectSize + rest)) :
    Ends (allocate object) w excused fun ref w' =>
      ref = w.objects.size ∧ w'.objects = w.objects.push object ∧ Room excused w' rest := by
  refine .bind ((charge_ends h).mono ?_)
  rintro _ _ ⟨memory, rfl, hroom⟩
  exact .of_ok rfl ⟨rfl, rfl, hroom⟩

end Run

end ScriptHooks.Sandbox

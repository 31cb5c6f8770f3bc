/-
ScriptHooks.Proofs.Hook.CacheGenerations — what is forgotten does not come back.

Whoever forgets a digest unregisters its slot. Calls that have the slot keep it: one may still
fill it, and others wait for that. So several generations of slots of one digest are about at
once. They do not get mixed up. Slots are numbered in the order of their creation, and a call
that begins later gets one with a number that had not been given out (`Beyond`). A slot is
filled once only (`Tidy`), by a call that has started to compile in it. A call never has another
slot than its first (`KeepsTo`).

`Shows` says what can be seen of a step, mostly from the states before and after it, and `At`
at which step of a run it is seen. The main statement is in these terms alone: who began, who was
given which slot, who started to compile, what was made, what was returned and what was unregistered,
each with the step at which it is seen. So it reads as a statement about a log.

  §1 Steps       — what a step does to one call and to the slots;
  §2 Moments     — what can be seen of a run, and when;
  §3 Artifacts   — an artifact has one maker, who started before;
  §4 Barrier     — slots that calls get once a digest was forgotten;
  §5 Generations — `generations_apart`.

Most of §3 goes back in time: something holds now and did not hold at first, so there was a step at
which it began to (`exists_first`), and the cases of that step say why. What holds of states is
brought to later ones by `stateAt_kept`.

`Beyond hash bound first` is the invariant of §4: of the digest, only slots from `bound` on are
registered, and calls from number `first` on have only such slots. It holds when the digest has just
been forgotten, with the numbers that come next for the two bounds.
-/
import ScriptHooks.Proofs.Hook.SingleFlight

namespace ScriptHooks

/-- Something that is seen of callers. -/
inductive CacheMoment
  | began (call : Nat) (hash : String)
  /-- A call gets a slot that is new. -/
  | created (call : Nat) (hash : String) (slot : Nat)
  /-- A call starts to compile. -/
  | started (call slot : Nat)
  /-- A call has compiled; the artifact is in its slot. -/
  | made (call slot : Nat) (artifact : CompiledScript)
  /-- A call returns the artifact of its slot, whoever made it. -/
  | returned (call slot : Nat) (artifact : CompiledScript)
  /-- A call that failed unregisters the slot of the digest. -/
  | unregistered (call : Nat) (hash : String) (slot : Nat)
  | forgotten (hash : String)

namespace SharedCache

variable {compiler : String → String → Except HookError CompiledScript} {s s' : SharedCache}
  {number n m slot i j : Nat} {call : CacheCall} {cache : CompiledCache} {stage : CallStage}
  {hash : String} {artifact found : CompiledScript} {t : CacheStep} {steps : List CacheStep}

/-! ## Steps -/

def stage? (s : SharedCache) (number : Nat) : Option CallStage := (s.call? number).map (·.stage)

/-- The stage of a call. -/
theorem stage?_eq_some : s.stage? n = some stage ↔ ∃ call, s.call? n = some call ∧
    call.stage = stage := Option.map_eq_some_iff

/-- A call stays where it is or takes its turn. -/
theorem Moves.call? (hm : s.Moves compiler t s') (hcall : s.call? n = some call) :
    ∃ stage, s'.call? n = some { call with stage := stage } ∧
      (stage = call.stage ∨ s.Turns compiler call s'.cache stage) := by
  cases hm with
  | stays | evicts | forgets => exact ⟨call.stage, hcall, .inl rfl⟩
  | begins =>
    have hlt := (List.getElem?_eq_some_iff.mp hcall).1
    exact ⟨call.stage, (List.getElem?_append_left hlt).trans hcall, .inl rfl⟩
  | @turns _ number other cache stage hother ht =>
    have hturn := call?_turn hother cache stage n
    split at hturn
    case isTrue heq =>
      subst heq
      obtain rfl := Option.some.inj (hother.symm.trans hcall)
      exact ⟨stage, hturn, .inr ht⟩
    case isFalse => exact ⟨call.stage, hturn.trans hcall, .inl rfl⟩

/-- A stage that a call has come to by a step: it was there before, or it has just begun, or
it has taken its turn. -/
theorem Moves.stage?_before (hm : s.Moves compiler t s') (hstage : s'.stage? n = some stage) :
    s.stage? n = some stage ∨ stage = .begun ∨
      ∃ call, s.call? n = some call ∧ s.Turns compiler call s'.cache stage := by
  obtain ⟨call', hcall', rfl⟩ := stage?_eq_some.mp hstage
  cases hcall : s.call? n with
  | some call =>
    obtain ⟨stage, hafter, hstay | ht⟩ := hm.call? hcall
    · obtain rfl := Option.some.inj (hcall'.symm.trans hafter)
      exact .inl (stage?_eq_some.mpr ⟨call, hcall, hstay.symm⟩)
    · obtain rfl := Option.some.inj (hcall'.symm.trans hafter)
      exact .inr (.inr ⟨call, rfl, ht⟩)
  | none =>
    cases hm with
    | stays | evicts | forgets => cases hcall.symm.trans hcall'
    | begins =>
      obtain hold | rfl := call?_begin hcall'
      · cases hcall.symm.trans hold
      · exact .inr (.inl rfl)
    | turns hother =>
      rw [call?_turn hother] at hcall'
      split at hcall'
      case isTrue heq => cases hcall.symm.trans (heq ▸ hother)
      case isFalse => cases hcall.symm.trans hcall'

/-- A call that comes to compile was waiting, and found its slot empty and nobody else there. -/
theorem Turns.of_compiling (ht : s.Turns compiler call cache (.compiling slot)) :
    call.stage = .waiting slot ∧ (∀ other ∈ s.calls, other.stage ≠ .compiling slot) ∧
      s.cache.artifact? slot = none := by
  cases ht with
  | locks hstage hfree hempty => exact ⟨hstage, hfree, hempty⟩

/-- A call that fails was compiling. -/
theorem Turns.of_failing {error : HookError}
    (ht : s.Turns compiler call cache (.failing slot error)) : call.stage = .compiling slot := by
  cases ht with
  | fails hstage => exact hstage

/-- A call that comes to return an artifact has found it in its slot or compiled it. -/
theorem Turns.of_returned (ht : s.Turns compiler call cache (.returned (.ok artifact))) :
    (∃ slot, call.stage = .waiting slot ∧ s.cache.artifact? slot = some artifact) ∨
      ∃ slot, call.stage = .compiling slot ∧ cache = s.cache.fill slot artifact := by
  cases ht with
  | finds hstage _ hfound => exact .inl ⟨_, hstage, hfound⟩
  | fills hstage => exact .inr ⟨_, hstage, rfl⟩

/-- A call that has a slot keeps it until it returns, and then it does nothing any more. -/
theorem Turns.slot?_kept (ht : s.Turns compiler call cache stage)
    (h : call.stage.slot? = some i ∨ ∃ outcome, call.stage = .returned outcome) :
    stage.slot? = some i ∨ ∃ outcome, stage = .returned outcome := by
  cases ht with
  | enters hstage => simp [hstage, CallStage.slot?] at h
  | touches hstage | locks hstage | fails hstage => simpa [hstage, CallStage.slot?] using h
  | finds | fills | releases => exact .inr ⟨_, rfl⟩

/-- Slots are added only. -/
theorem Turns.cells_length_le (ht : s.Turns compiler call cache stage) :
    s.cache.cells.length ≤ cache.cells.length := by
  cases ht with
  | enters =>
    unfold CompiledCache.openSlot
    split <;> simp
  | touches => simp [CompiledCache.touch]
  | fills => simp [CompiledCache.fill]
  | releases => simp
  | finds | locks | fails => exact Nat.le_refl _

/-- Slots and calls are added only. -/
theorem Moves.length_le (hm : s.Moves compiler t s') :
    s.cache.cells.length ≤ s'.cache.cells.length ∧ s.calls.length ≤ s'.calls.length := by
  cases hm with
  | stays | evicts | forgets => exact ⟨Nat.le_refl _, Nat.le_refl _⟩
  | begins => simp [begin, CompiledCache.evict]
  | turns _ ht => exact ⟨ht.cells_length_le, by simp [turn]⟩

/-- What a slot holds changes only when a call that compiles in it is done. -/
theorem Moves.artifact? (hm : s.Moves compiler t s') (hs : Sound compiler s) (i : Nat) :
    s'.cache.artifact? i = s.cache.artifact? i ∨
      ∃ m artifact, s.stage? m = some (.compiling i) ∧
        s'.stage? m = some (.returned (.ok artifact)) ∧ s'.cache.artifact? i = some artifact := by
  cases hm with
  | stays | begins | evicts | forgets => exact .inl rfl
  | @turns _ m call cache stage hcall ht =>
    cases ht with
    | enters => exact .inl CompiledCache.artifact?_openSlot
    | touches => exact .inl (CompiledCache.artifact?_touch i)
    | finds | locks | fails => exact .inl rfl
    | releases => exact .inl CompiledCache.artifact?_release
    | @fills slot artifact hstage =>
      by_cases hslot : slot = i
      · subst hslot
        have hlt : slot < s.cache.cells.length :=
          hs.slot_lt (.inr ⟨call, mem_calls hcall, rfl, by rw [hstage]; rfl⟩)
        have hturn := call?_turn hcall (s.cache.fill slot artifact) (.returned (.ok artifact)) m
        rw [if_pos rfl] at hturn
        exact .inr ⟨m, artifact, stage?_eq_some.mpr ⟨call, hcall, hstage⟩,
          stage?_eq_some.mpr ⟨_, hturn, rfl⟩, CompiledCache.artifact?_fill_self hlt⟩
      · exact .inl (CompiledCache.artifact?_fill_of_ne hslot)

variable (compiler) in
/-- Slots in which somebody compiles are empty, and nobody else compiles there. -/
structure Tidy (s : SharedCache) : Prop where
  sound : Sound compiler s
  exclusive : s.Exclusive
  empty : ∀ m slot, s.stage? m = some (.compiling slot) → s.cache.artifact? slot = none

/-- No step empties a slot or lets two calls compile in one. -/
theorem Tidy.step (h : s.Tidy compiler) (t : CacheStep) :
    (s.step compiler t).Tidy compiler := by
  have hm : s.Moves compiler t (s.step compiler t) := s.step_moves t
  refine ⟨h.sound.step t, h.exclusive.step hm, fun n slot hstage => ?_⟩
  have hbefore : s.cache.artifact? slot = none := by
    rcases hm.stage?_before hstage with hcompiling | hbegun | ⟨call, hcall, ht⟩
    · exact h.empty n slot hcompiling
    · cases hbegun
    · exact ht.of_compiling.2.2
  rcases hm.artifact? h.sound slot with hkept | ⟨m, artifact, hcompiling, hreturned, -⟩
  · exact hkept.trans hbefore
  · -- the slot is filled by the call itself, which does not compile any more then
    rcases hm.stage?_before hstage with hother | hbegun | ⟨call, hcall, ht⟩
    · obtain ⟨a, ha, hstagea⟩ := stage?_eq_some.mp hcompiling
      obtain ⟨b, hb, hstageb⟩ := stage?_eq_some.mp hother
      obtain rfl := h.exclusive m n a b slot ha hb hstagea hstageb
      cases hstage.symm.trans hreturned
    · cases hbegun
    · obtain ⟨a, ha, hstagea⟩ := stage?_eq_some.mp hcompiling
      exact absurd hstagea (ht.of_compiling.2.1 a (mem_calls ha))

/-- An artifact stays in its slot. -/
theorem Tidy.artifact? (h : s.Tidy compiler) (hm : s.Moves compiler t s')
    (hfound : s.cache.artifact? i = some artifact) : s'.cache.artifact? i = some artifact := by
  rcases hm.artifact? h.sound i with hkept | ⟨m, other, hcompiling, -, -⟩
  · exact hkept.trans hfound
  · cases hfound.symm.trans (h.empty m i hcompiling)

/-! ## Moments -/

/-- What can be seen of a step. -/
def Shows (s : SharedCache) (t : CacheStep) (s' : SharedCache) : CacheMoment → Prop
  | .began n hash => n = s.calls.length ∧ ∃ now source, t = .begin hash now source
  | .created n hash slot =>
    (∃ call, s.call? n = some call ∧ call.hash = hash ∧ call.stage = .begun) ∧
      s'.stage? n = some (.opened slot) ∧ s.cache.cell? slot = none
  | .started m slot => s.stage? m = some (.waiting slot) ∧ s'.stage? m = some (.compiling slot)
  | .made m slot artifact =>
    s.stage? m = some (.compiling slot) ∧ s'.stage? m = some (.returned (.ok artifact))
  | .returned n slot artifact =>
    (∃ stage, s.stage? n = some stage ∧ stage.slot? = some slot) ∧
      s'.stage? n = some (.returned (.ok artifact))
  | .unregistered m hash slot =>
    t = .release m ∧ s.cache.slot? hash = some slot ∧ s'.cache.slot? hash ≠ some slot
  | .forgotten hash => t = .forget hash

section Runs

variable (compiler) (idleMs : Nat) (steps : List CacheStep)

/-- A new cache after so many of the steps. -/
def stateAt (k : Nat) : SharedCache := run compiler { cache := { idleMs } } (steps.take k)

/-- The moment is seen at this step of a run. -/
def At (k : Nat) (moment : CacheMoment) : Prop :=
  ∃ t, steps[k]? = some t ∧
    Shows (stateAt compiler idleMs steps k) t (stateAt compiler idleMs steps (k + 1)) moment

end Runs

variable {idleMs k a b : Nat}

/-- The state after one more step. -/
theorem stateAt_succ (h : steps[k]? = some t) :
    stateAt compiler idleMs steps (k + 1) = (stateAt compiler idleMs steps k).step compiler t := by
  rw [stateAt, List.take_add_one, h, run, List.foldl_append]
  rfl

/-- What a step of a run does. -/
theorem moves_stateAt (h : steps[k]? = some t) :
    (stateAt compiler idleMs steps k).Moves compiler t (stateAt compiler idleMs steps (k + 1)) :=
  stateAt_succ h ▸ step_moves _ t

theorem stateAt_of_none (h : steps[k]? = none) :
    stateAt compiler idleMs steps (k + 1) = stateAt compiler idleMs steps k := by
  rw [stateAt, List.take_add_one, h, Option.toList_none, List.append_nil, stateAt]

/-- The states of a run are tidy. -/
theorem tidy_stateAt : (stateAt compiler idleMs steps k).Tidy compiler := by
  induction k with
  | zero =>
    show Tidy compiler { cache := { idleMs } }
    refine ⟨sound_new idleMs, fun m n a b slot ha => ?_, fun m slot hstage => ?_⟩
    · simp [SharedCache.call?] at ha
    · simp [stage?, SharedCache.call?] at hstage
  | succ k ih =>
    cases h : steps[k]? with
    | none => exact stateAt_of_none h ▸ ih
    | some t => exact stateAt_succ h ▸ ih.step t

/-- What steps keep holds later on. -/
theorem stateAt_kept {P : SharedCache → Prop}
    (hP : ∀ {s t s'}, s.Tidy compiler → s.Moves compiler t s' → P s → P s') (hab : a ≤ b)
    (h : P (stateAt compiler idleMs steps a)) : P (stateAt compiler idleMs steps b) := by
  induction hab with
  | refl => exact h
  | @step b _ ih =>
    cases hb : steps[b]? with
    | none => exact stateAt_of_none hb ▸ ih
    | some t => exact hP tidy_stateAt (moves_stateAt hb) ih

/-- What holds now and did not at first has begun to hold at some step. -/
theorem exists_first {P : SharedCache → Prop} (hfirst : ¬ P { cache := { idleMs } })
    (h : P (stateAt compiler idleMs steps k)) :
    ∃ j < k, ∃ t, steps[j]? = some t ∧ ¬ P (stateAt compiler idleMs steps j) ∧
      P (stateAt compiler idleMs steps (j + 1)) := by
  induction k with
  | zero => exact absurd h hfirst
  | succ k ih =>
    by_cases hk : P (stateAt compiler idleMs steps k)
    · obtain ⟨j, hj, hrest⟩ := ih hk
      exact ⟨j, Nat.lt_succ_of_lt hj, hrest⟩
    · cases hstep : steps[k]? with
      | none => exact absurd (stateAt_of_none hstep ▸ h) hk
      | some t => exact ⟨k, Nat.lt_succ_self k, t, hstep, hk, h⟩

/-- Slots and calls are more and more. -/
theorem length_le_stateAt (hab : a ≤ b) :
    (stateAt compiler idleMs steps a).cache.cells.length ≤
        (stateAt compiler idleMs steps b).cache.cells.length ∧
      (stateAt compiler idleMs steps a).calls.length ≤
        (stateAt compiler idleMs steps b).calls.length := by
  refine stateAt_kept (P := fun s => _ ≤ s.cache.cells.length ∧ _ ≤ s.calls.length) ?_ hab
    ⟨Nat.le_refl _, Nat.le_refl _⟩
  intro s t s' _ hm h
  exact ⟨Nat.le_trans h.1 hm.length_le.1, Nat.le_trans h.2 hm.length_le.2⟩

/-- A slot that was still to be given out then, and is given out now. -/
theorem lt_of_slot (ha : (stateAt compiler idleMs steps a).cache.cells.length ≤ i)
    (hb : i < (stateAt compiler idleMs steps b).cache.cells.length) : a < b := by
  refine Nat.lt_of_not_le fun hba => ?_
  have hlength := (@length_le_stateAt compiler steps idleMs b a hba).1
  omega

/-- A call that had not begun then, and has begun now. -/
theorem lt_of_call (ha : (stateAt compiler idleMs steps a).calls.length ≤ n)
    (hb : (stateAt compiler idleMs steps b).call? n = some call) : a < b := by
  have hlt : n < (stateAt compiler idleMs steps b).calls.length :=
    (List.getElem?_eq_some_iff.mp hb).1
  refine Nat.lt_of_not_le fun hba => ?_
  have hlength := (@length_le_stateAt compiler steps idleMs b a hba).2
  omega

/-! ## Artifacts -/

/-- A call has come to its stage by a turn, unless it has just begun. -/
theorem exists_turn (h : (stateAt compiler idleMs steps k).stage? m = some stage)
    (hstage : stage ≠ .begun) :
    ∃ j < k, ∃ t call, steps[j]? = some t ∧ (stateAt compiler idleMs steps j).call? m = some call ∧
      (stateAt compiler idleMs steps j).Turns compiler call
        (stateAt compiler idleMs steps (j + 1)).cache stage ∧
      (stateAt compiler idleMs steps (j + 1)).stage? m = some stage := by
  obtain ⟨j, hj, t, hstep, hbefore, hafter⟩ :=
    exists_first (P := fun s => s.stage? m = some stage) (by simp [stage?, call?]) h
  rcases (moves_stateAt hstep).stage?_before hafter with hsame | hbegun | ⟨call, hcall, ht⟩
  · exact absurd hsame hbefore
  · exact absurd hbegun hstage
  · exact ⟨j, hj, t, call, hstep, hcall, ht, hafter⟩

/-- A call that compiles has started to. -/
theorem exists_started
    (h : (stateAt compiler idleMs steps k).stage? m = some (.compiling i)) :
    ∃ start < k, At compiler idleMs steps start (.started m i) := by
  obtain ⟨j, hj, t, call, hstep, hcall, ht, hafter⟩ := exists_turn h nofun
  have hwaiting := stage?_eq_some.mpr ⟨call, hcall, ht.of_compiling.1⟩
  exact ⟨j, hj, t, hstep, hwaiting, hafter⟩

/-- A call that failed has tried to compile in the slot. -/
theorem exists_started_of_failing {error : HookError}
    (h : (stateAt compiler idleMs steps k).stage? m = some (.failing i error)) :
    ∃ start < k, At compiler idleMs steps start (.started m i) := by
  obtain ⟨j, hj, -, call, -, hcall, ht, -⟩ := exists_turn h nofun
  have hcompiling := stage?_eq_some.mpr ⟨call, hcall, ht.of_failing⟩
  obtain ⟨start, hlt, hstart⟩ := exists_started hcompiling
  exact ⟨start, Nat.lt_trans hlt hj, hstart⟩

/-- What is in a slot has been made by a call. -/
theorem exists_made
    (h : (stateAt compiler idleMs steps k).cache.artifact? i = some artifact) :
    ∃ made < k, ∃ m, At compiler idleMs steps made (.made m i artifact) := by
  obtain ⟨j, hj, t, hstep, hbefore, hafter⟩ :=
    exists_first (P := fun s => s.cache.artifact? i = some artifact)
      (by simp [CompiledCache.artifact?_eq]) h
  rcases (moves_stateAt hstep).artifact? tidy_stateAt.sound i with
    hsame | ⟨m, found, hcompiling, hreturned, hfound⟩
  · exact absurd (hsame.symm.trans hafter) hbefore
  · obtain rfl := Option.some.inj (hfound.symm.trans hafter)
    exact ⟨j, hj, m, t, hstep, hcompiling, hreturned⟩

/-- A call that has returned an artifact came to do so while it had a slot. -/
theorem exists_returned
    (h : (stateAt compiler idleMs steps k).stage? n = some (.returned (.ok artifact))) :
    ∃ returned < k, ∃ i, At compiler idleMs steps returned (.returned n i artifact) := by
  obtain ⟨j, hj, t, call, hstep, hcall, ht, hafter⟩ := exists_turn h nofun
  have hbefore := stage?_eq_some.mpr ⟨call, hcall, rfl⟩
  rcases ht.of_returned with ⟨i, hwaiting, -⟩ | ⟨i, hcompiling, -⟩
  · exact ⟨j, hj, i, t, hstep, ⟨_, hbefore, by rw [hwaiting]; rfl⟩, hafter⟩
  · exact ⟨j, hj, i, t, hstep, ⟨_, hbefore, by rw [hcompiling]; rfl⟩, hafter⟩

/-- A call that comes to return an artifact has found it in its slot, or has made it and
filled the slot. -/
theorem found_or_made (h : At compiler idleMs steps k (.returned n i artifact)) :
    (stateAt compiler idleMs steps k).cache.artifact? i = some artifact ∨
      At compiler idleMs steps k (.made n i artifact) := by
  obtain ⟨t, hstep, ⟨before, hbefore, hslot⟩, hreturned⟩ := h
  rcases (moves_stateAt hstep).stage?_before hreturned with hsame | hbegun | ⟨call, hcall, ht⟩
  · obtain rfl := Option.some.inj (hbefore.symm.trans hsame)
    cases hslot
  · cases hbegun
  · have hstage : call.stage = before := by
      obtain ⟨call', hcall', hstage'⟩ := stage?_eq_some.mp hbefore
      rwa [Option.some.inj (hcall.symm.trans hcall')]
    rcases ht.of_returned with ⟨slot, hwaiting, hfound⟩ | ⟨slot, hcompiling, -⟩
    · obtain rfl : slot = i := by simpa [← hstage, hwaiting, CallStage.slot?] using hslot
      exact .inl hfound
    · obtain rfl : slot = i := by simpa [← hstage, hcompiling, CallStage.slot?] using hslot
      exact .inr ⟨t, hstep, stage?_eq_some.mpr ⟨call, hcall, hcompiling⟩, hreturned⟩

/-- What is made is in the slot after the step. -/
theorem filled_of_made (h : At compiler idleMs steps k (.made m i artifact)) :
    (stateAt compiler idleMs steps (k + 1)).cache.artifact? i = some artifact := by
  obtain ⟨t, hstep, hcompiling, hreturned⟩ := h
  obtain ⟨call, hcall, hstage⟩ := stage?_eq_some.mp hcompiling
  rcases (moves_stateAt hstep).stage?_before hreturned with hsame | hbegun | ⟨call', hcall', ht⟩
  · cases hcompiling.symm.trans hsame
  · cases hbegun
  · obtain rfl := Option.some.inj (hcall.symm.trans hcall')
    rcases ht.of_returned with ⟨slot, hwaiting, -⟩ | ⟨slot, hown, hfill⟩
    · cases hstage.symm.trans hwaiting
    · cases hstage.symm.trans hown
      rw [hfill]
      have hclaim : (stateAt compiler idleMs steps k).Claims call.hash i :=
        .inr ⟨call, mem_calls hcall, rfl, by rw [hstage]; rfl⟩
      exact CompiledCache.artifact?_fill_self (tidy_stateAt.sound.slot_lt hclaim)

/-- In one slot something is made once. -/
theorem made_unique (h : At compiler idleMs steps a (.made m i artifact))
    (h' : At compiler idleMs steps b (.made n i found)) : b ≤ a := by
  rcases Nat.lt_or_ge a b with hab | hba
  · obtain ⟨-, -, hcompiling, -⟩ := h'
    have hkept := stateAt_kept (P := fun s => s.cache.artifact? i = some artifact)
      (fun hs hm hfound => hs.artifact? hm hfound) hab (filled_of_made h)
    cases hkept.symm.trans (tidy_stateAt.empty n i hcompiling)
  · exact hba

/-! ## Barrier -/

/-- The slots that the digest and later calls for it have are new. -/
structure Beyond (s : SharedCache) (hash : String) (bound first : Nat) : Prop where
  cells : bound ≤ s.cache.cells.length
  registered : ∀ slot, (hash, slot) ∈ s.cache.registered → bound ≤ slot
  calls : ∀ n call slot, first ≤ n → s.call? n = some call → call.hash = hash →
    call.stage.slot? = some slot → bound ≤ slot

/-- That is so once the digest was forgotten. -/
theorem beyond_forget (s : SharedCache) (hash : String) :
    Beyond { s with cache := s.cache.forget hash } hash s.cache.cells.length s.calls.length where
  cells := Nat.le_refl _
  registered slot hmem := by
    have hne := (List.mem_filter.mp hmem).2
    simp at hne
  calls n call slot hn hcall := by
    have hlt : n < s.calls.length := (List.getElem?_eq_some_iff.mp hcall).1
    exact absurd hlt (Nat.not_lt.mpr hn)

/-- The slot that a call gets is new as well. -/
theorem Beyond.openSlot {bound first now : Nat} {other : String} (h : s.Beyond hash bound first) :
    (∀ slot, (hash, slot) ∈ (s.cache.openSlot other now).2.registered → bound ≤ slot) ∧
      (other = hash → bound ≤ (s.cache.openSlot other now).1) := by
  unfold CompiledCache.openSlot
  split
  case h_1 slot hslot =>
    refine ⟨h.registered, ?_⟩
    rintro rfl
    exact h.registered slot (CompiledCache.mem_of_slot? hslot)
  case h_2 =>
    refine ⟨fun slot hmem => ?_, fun _ => h.cells⟩
    rcases List.mem_append.mp hmem with hmem | hmem
    · exact h.registered slot hmem
    · cases List.mem_singleton.mp hmem
      exact h.cells

/-- A call that began later has and gets new slots only. -/
theorem Beyond.turns {bound first : Nat} (h : s.Beyond hash bound first)
    (hcall : s.call? number = some call) (ht : s.Turns compiler call cache stage) :
    (∀ slot, (hash, slot) ∈ cache.registered → bound ≤ slot) ∧
      (first ≤ number → call.hash = hash → ∀ slot, stage.slot? = some slot → bound ≤ slot) := by
  have hown : first ≤ number → call.hash = hash →
      ∀ slot, call.stage.slot? = some slot → bound ≤ slot :=
    fun hn hhash slot => h.calls number call slot hn hcall hhash
  cases ht with
  | enters =>
    refine ⟨h.openSlot.1, ?_⟩
    rintro - hhash slot ⟨⟩
    exact h.openSlot.2 hhash
  | touches hstage | locks hstage | fails hstage =>
    rw [hstage] at hown
    exact ⟨h.registered, hown⟩
  | finds | fills => exact ⟨h.registered, nofun⟩
  | releases =>
    exact ⟨fun slot hmem => h.registered slot (CompiledCache.registered_release_subset hmem), nofun⟩

/-- Every step keeps to the new slots. -/
theorem Beyond.moves {bound first : Nat} (h : s.Beyond hash bound first)
    (hm : s.Moves compiler t s') : s'.Beyond hash bound first := by
  have hcells := Nat.le_trans h.cells hm.length_le.1
  cases hm with
  | stays => exact h
  | evicts now =>
    exact ⟨hcells, fun slot hmem => h.registered slot (CompiledCache.registered_evict_subset hmem),
      h.calls⟩
  | forgets other =>
    exact ⟨hcells, fun slot hmem => h.registered slot (CompiledCache.registered_forget_subset hmem),
      h.calls⟩
  | begins other now source =>
    refine ⟨hcells, fun slot hmem => ?_, fun n call slot hn hcall hhash hslot => ?_⟩
    · exact h.registered slot (CompiledCache.registered_evict_subset hmem)
    · rcases call?_begin hcall with hold | rfl
      · exact h.calls n call slot hn hold hhash hslot
      · cases hslot
  | @turns _ number call cache stage hcall ht =>
    obtain ⟨hregistered, hstage⟩ := h.turns hcall ht
    refine ⟨hcells, hregistered, fun n other slot hn hother hhash hslot => ?_⟩
    rw [call?_turn hcall] at hother
    split at hother
    case isTrue heq =>
      subst heq
      obtain rfl := Option.some.inj hother
      exact hstage hn hhash slot hslot
    case isFalse => exact h.calls n other slot hn hother hhash hslot

/-- The call has this slot, or has returned. -/
def KeepsTo (s : SharedCache) (m i : Nat) : Prop :=
  ∃ call, s.call? m = some call ∧
    (call.stage.slot? = some i ∨ ∃ outcome, call.stage = .returned outcome)

/-- A call has its first slot, or none. -/
theorem KeepsTo.moves (h : s.KeepsTo m i) (hm : s.Moves compiler t s') : s'.KeepsTo m i := by
  obtain ⟨call, hcall, hslot⟩ := h
  obtain ⟨stage, hafter, rfl | ht⟩ := hm.call? hcall
  · exact ⟨_, hafter, hslot⟩
  · exact ⟨_, hafter, ht.slot?_kept hslot⟩

/-- A call never has another slot than its first. -/
theorem slot_kept {before after : CallStage} (hab : a ≤ b)
    (ha : (stateAt compiler idleMs steps a).stage? m = some before) (hi : before.slot? = some i)
    (hb : (stateAt compiler idleMs steps b).stage? m = some after) (hj : after.slot? = some j) :
    i = j := by
  obtain ⟨call, hcall, rfl⟩ := stage?_eq_some.mp ha
  obtain ⟨later, hlater, rfl⟩ := stage?_eq_some.mp hb
  have hkeeps : (stateAt compiler idleMs steps a).KeepsTo m i := ⟨call, hcall, .inl hi⟩
  obtain ⟨call', hcall', hslot⟩ :=
    stateAt_kept (P := (·.KeepsTo m i)) (fun _ hm h => h.moves hm) hab hkeeps
  obtain rfl := Option.some.inj (hlater.symm.trans hcall')
  rcases hslot with hslot | ⟨outcome, hreturned⟩
  · exact Option.some.inj (hslot.symm.trans hj)
  · simp [hreturned, CallStage.slot?] at hj

/-- The call asks for the digest. -/
def AsksFor (s : SharedCache) (n : Nat) (hash : String) : Prop :=
  ∃ call, s.call? n = some call ∧ call.hash = hash

/-- A call asks for the digest that it began with. -/
theorem AsksFor.moves (h : s.AsksFor n hash) (hm : s.Moves compiler t s') : s'.AsksFor n hash := by
  obtain ⟨call, hcall, hhash⟩ := h
  obtain ⟨stage, hafter, -⟩ := hm.call? hcall
  exact ⟨_, hafter, hhash⟩

/-- A call asks for one digest, the one that it began with. -/
theorem hash_of_began (hb : At compiler idleMs steps b (.began n hash))
    (hcall : (stateAt compiler idleMs steps k).call? n = some call) : call.hash = hash := by
  obtain ⟨t, hstep, rfl, now, source, rfl⟩ := hb
  have hbegun : (stateAt compiler idleMs steps (b + 1)).AsksFor
      (stateAt compiler idleMs steps b).calls.length hash := by
    rw [stateAt_succ hstep]
    exact ⟨{ hash, now, source }, call?_last .., rfl⟩
  obtain ⟨call', hcall', hhash⟩ := stateAt_kept (P := (·.AsksFor _ hash))
    (fun _ hm h => h.moves hm) (lt_of_call (Nat.le_refl _) hcall) hbegun
  obtain rfl := Option.some.inj (hcall.symm.trans hcall')
  exact hhash

/-- Whoever begins to ask for a digest after it was forgotten has a slot that is newer. -/
theorem newer_of_forgotten (hf : At compiler idleMs steps a (.forgotten hash))
    (hb : At compiler idleMs steps b (.began n hash)) (hab : a < b)
    (hcall : (stateAt compiler idleMs steps k).call? n = some call)
    (hslot : call.stage.slot? = some i) :
    (stateAt compiler idleMs steps a).cache.cells.length ≤ i := by
  have hforgotten : (stateAt compiler idleMs steps (a + 1)).Beyond hash
      (stateAt compiler idleMs steps a).cache.cells.length
      (stateAt compiler idleMs steps a).calls.length := by
    obtain ⟨t, hstep, rfl⟩ := hf
    rw [stateAt_succ hstep]
    exact beyond_forget _ hash
  have hn : (stateAt compiler idleMs steps b).calls.length = n := hb.choose_spec.2.1.symm
  have hbk : b < k := lt_of_call (Nat.le_of_eq hn) hcall
  have hbeyond := stateAt_kept (P := (·.Beyond hash _ _)) (fun _ hm h => h.moves hm)
    (Nat.lt_trans hab hbk) hforgotten
  refine hbeyond.calls n call i ?_ hcall (hash_of_began hb hcall) hslot
  exact hn ▸ (length_le_stateAt (Nat.le_of_lt hab)).2

/-- A step that unregisters the slot of a digest for a call is that of a call which has failed in
this slot. -/
theorem failing_of_unregistered (hslot : s.cache.slot? hash = some i)
    (hgone : (s.release m).cache.slot? hash ≠ some i) :
    ∃ call error, s.call? m = some call ∧ call.stage = .failing i error := by
  unfold release at hgone
  split at hgone
  case h_1 other now source slot error hcall =>
    refine ⟨_, error, hcall, ?_⟩
    have hreleased : (s.cache.release other slot).slot? hash ≠ some i := hgone
    by_cases hhash : other = hash
    · subst hhash
      unfold CompiledCache.release at hreleased
      split at hreleased
      case isTrue hown =>
        obtain rfl := Option.some.inj (hown.symm.trans hslot)
        rfl
      case isFalse => exact absurd hslot hreleased
    · exact absurd ((CompiledCache.slot?_release_of_ne hhash).trans hslot) hreleased
  case h_2 => exact absurd hslot hgone

/-- The slot of a call that starts to compile was given out before. -/
theorem lt_of_started (h : At compiler idleMs steps k (.started m i)) :
    i < (stateAt compiler idleMs steps k).cache.cells.length := by
  obtain ⟨t, -, hwaiting, -⟩ := h
  obtain ⟨call, hcall, hstage⟩ := stage?_eq_some.mp hwaiting
  exact tidy_stateAt.sound.slot_lt (.inr ⟨call, mem_calls hcall, rfl, by rw [hstage]; rfl⟩)

/-! ## Generations -/

/-- Forgetting a digest is a barrier, and the generations of its slots do not interfere. A call
that returned an artifact had a slot then. The artifact was made in this slot, where nothing
else was ever made, by a call that started to compile after the digest had been forgotten,
whenever that was before the other call began. A call that fails unregisters no slot but the one
in which it compiled, and that one was there when it started. -/
theorem generations_apart (compiler : String → String → Except HookError CompiledScript)
    (idleMs : Nat) (steps : List CacheStep) :
    let At := At compiler idleMs steps
    (∀ k n artifact, (stateAt compiler idleMs steps k).stage? n = some (.returned (.ok artifact)) →
      ∃ returned < k, ∃ i, At returned (.returned n i artifact)) ∧
    (∀ k n i artifact, At k (.returned n i artifact) →
      ∃ m start made, At start (.started m i) ∧ At made (.made m i artifact) ∧
        start < made ∧ made ≤ k ∧ (∀ k' m' other, At k' (.made m' i other) → k' = made) ∧
        ∀ hash forget began, At forget (.forgotten hash) → At began (.began n hash) →
          forget < began → forget < start) ∧
    ∀ k m hash i, At k (.unregistered m hash i) →
      (∃ start < k, At start (.started m i)) ∧
        ∀ start j, At start (.started m j) → j = i ∧
          ∀ created n, At created (.created n hash i) → created < start := by
  intro At
  refine ⟨fun k n artifact => exists_returned, ?_, ?_⟩
  · intro k n i artifact hreturned
    obtain ⟨made, hle, m, hmade⟩ : ∃ made ≤ k, ∃ m, At made (.made m i artifact) := by
      rcases found_or_made hreturned with hfound | hmade
      · obtain ⟨made, hlt, hmade⟩ := exists_made hfound
        exact ⟨made, Nat.le_of_lt hlt, hmade⟩
      · exact ⟨k, Nat.le_refl k, n, hmade⟩
    obtain ⟨start, hlt, hstart⟩ := exists_started hmade.choose_spec.2.1
    refine ⟨m, start, made, hstart, hmade, hlt, hle, ?_, ?_⟩
    · intro k' m' other hother
      exact Nat.le_antisymm (made_unique hmade hother) (made_unique hother hmade)
    · intro hash forget began hforget hbegan hbefore
      obtain ⟨_, -, ⟨stage, hstage, hslot⟩, -⟩ := hreturned
      obtain ⟨call, hcall, rfl⟩ := stage?_eq_some.mp hstage
      have hnewer := newer_of_forgotten hforget hbegan hbefore hcall hslot
      exact lt_of_slot hnewer (lt_of_started hstart)
  · intro k m hash i hunregistered
    obtain ⟨_, hstep, rfl, hslot, hgone⟩ := hunregistered
    rw [stateAt_succ hstep] at hgone
    obtain ⟨call, error, hcall, hstage⟩ := failing_of_unregistered hslot hgone
    have hfailing := stage?_eq_some.mpr ⟨call, hcall, hstage⟩
    refine ⟨exists_started_of_failing hfailing, fun start j hstart => ?_⟩
    have hwaiting := hstart.choose_spec.2.1
    obtain rfl : j = i := by
      rcases Nat.le_total start k with hle | hle
      · exact slot_kept hle hwaiting rfl hfailing rfl
      · exact (slot_kept hle hfailing rfl hwaiting rfl).symm
    refine ⟨rfl, fun created n hcreated => ?_⟩
    obtain ⟨_, -, -, -, hnew⟩ := hcreated
    exact lt_of_slot (List.getElem?_eq_none_iff.mp hnew) (lt_of_started hstart)

/-- A digest is forgotten while a call compiles it. Another call asks for it before the first
one is done. -/
def forgottenMidway : List CacheStep :=
  [.begin "h" 0 (.ok "s"), .enter 0, .touch 0, .look 0, .forget "h", .begin "h" 0 (.ok "s"),
    .enter 1, .touch 1, .compile 0, .look 1, .compile 1]

/-- It does not get what the first one made. -/
theorem remade_once_forgotten :
    let At := At acceptAll 1 forgottenMidway
    At 4 (.forgotten "h") ∧ At 5 (.began 1 "h") ∧ At 8 (.returned 0 0 ⟨"h", "s"⟩) ∧
      At 10 (.returned 1 1 ⟨"h", "s"⟩) ∧
      ∃ m start made, At start (.started m 1) ∧ At made (.made m 1 ⟨"h", "s"⟩) ∧ 4 < start := by
  intro At
  have hforgotten : At 4 (.forgotten "h") := ⟨_, rfl, rfl⟩
  have hbegan : At 5 (.began 1 "h") := ⟨_, rfl, rfl, _, _, rfl⟩
  have hfirst : At 8 (.returned 0 0 ⟨"h", "s"⟩) := ⟨_, rfl, ⟨_, rfl, rfl⟩, rfl⟩
  have hsecond : At 10 (.returned 1 1 ⟨"h", "s"⟩) := ⟨_, rfl, ⟨_, rfl, rfl⟩, rfl⟩
  obtain ⟨m, start, made, hstart, hmade, -, -, -, hafter⟩ :=
    (generations_apart acceptAll 1 forgottenMidway).2.1 10 1 1 _ hsecond
  refine ⟨hforgotten, hbegan, hfirst, hsecond, m, start, made, hstart, hmade, ?_⟩
  exact hafter "h" 4 5 hforgotten hbegan (by decide)

end SharedCache

end ScriptHooks

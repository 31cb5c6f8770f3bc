/-
ScriptHooks.Proofs.Hook.SingleFlight — when a digest is compiled once only.

A call that fails gives the lock of its slot back before it unregisters the slot. Another
call may fill the slot in between. It is unregistered all the same, and the next call for the
digest gets a new slot and compiles again; so does a call that waits for a slot which is not
registered any more.

  §1 Moves   — what a step can do (`Moves`);
  §2 Settled — a state from which on nobody compiles (`Settled`), kept by every step that
               does not unregister the slot from outside;
  §3 Again   — from any other state, somebody can come to compile again;
  §4 United  — as long as no call for the digest failed, all of them have the same slot;
  §5 Flights — `single_flight_iff`.

`SingleFlight` is about the future: whatever steps follow that do not unregister the slot from
outside, no call for the digest compiles. `Settled` is about the present: the slot is registered
and filled, and each call for the digest is at a stage from which it comes to take the artifact
(`CallStage.Harmless`). §2 and §3 prove the two the same. In §3 each call is taken to where it
looks into its slot, by steps that are possible: it must not compile there, so it finds the artifact.

A call that fails in another slot is harmless, and one that fails in the slot of the digest is
not: it is going to unregister it. That is the case of `compiled_again`.

§4 shows that failures are the only way to get there. Without one, every call for the digest that
has a slot has the registered one, so that the call which fills it settles the digest.
-/
import ScriptHooks.Proofs.Hook.CacheCalls

namespace ScriptHooks

namespace CompiledCache

variable {cache : CompiledCache} {hash other : String} {now slot i : Nat}
  {artifact : CompiledScript}

/-- Where entries of other digests are dropped, the slot of this one stays. -/
theorem lookup_filter_of_ne (h : other ≠ hash) (registered : List (String × Nat)) :
    Json.lookup hash (registered.filter fun entry => entry.1 != other) =
      Json.lookup hash registered := by
  rw [Json.lookup, Json.lookup, List.find?_filter]
  congr 2
  funext entry
  by_cases heq : entry.1 = hash <;> simp [heq, h.symm]

/-- Another digest is forgotten. -/
theorem slot?_forget_of_ne (h : other ≠ hash) :
    (cache.forget other).slot? hash = cache.slot? hash :=
  lookup_filter_of_ne h cache.registered

theorem slot?_forget_self : (cache.forget hash).slot? hash = none := by
  rw [slot?, forget, Json.lookup, List.find?_filter, Option.map_eq_none_iff, List.find?_eq_none]
  simp

theorem slot?_release_of_ne (h : other ≠ hash) :
    (cache.release other i).slot? hash = cache.slot? hash := by
  unfold release
  split
  · exact slot?_forget_of_ne h
  · rfl

/-- A new slot is that of its digest. -/
theorem slot?_withSlot_self (h : cache.slot? hash = none) :
    (cache.withSlot now hash).slot? hash = some cache.cells.length := by
  have hnone : cache.registered.find? (fun entry => entry.1 == hash) = none :=
    Option.map_eq_none_iff.mp h
  simp [slot?, Json.lookup, withSlot, hnone]

/-- Another digest gets a slot. -/
theorem slot?_openSlot_of_ne (h : other ≠ hash) :
    (cache.openSlot other now).2.slot? hash = cache.slot? hash := by
  unfold openSlot
  split
  · rfl
  · simp [slot?, Json.lookup, List.find?_append, h]

/-- A new slot is empty, and the others keep what they hold. -/
theorem artifact?_openSlot : (cache.openSlot hash now).2.artifact? i = cache.artifact? i := by
  unfold openSlot
  split
  case h_1 => rfl
  case h_2 =>
    rw [artifact?_eq, artifact?_eq, List.getElem?_append]
    split
    case isTrue => rfl
    case isFalse hlt =>
      rw [List.getElem?_eq_none (Nat.le_of_not_lt hlt), List.getElem?_singleton]
      split <;> rfl

theorem artifact?_fill_of_ne (h : slot ≠ i) :
    (cache.fill slot artifact).artifact? i = cache.artifact? i := by
  simp only [artifact?_eq, fill, List.getElem?_modify_ne _ _ h]

/-- What is filled is found. -/
theorem artifact?_fill_self (h : slot < cache.cells.length) :
    (cache.fill slot artifact).artifact? slot = some artifact := by
  simp [artifact?_eq, fill, h]

theorem artifact?_release : (cache.release hash slot).artifact? i = cache.artifact? i := by
  simp [artifact?_eq]

end CompiledCache

namespace SharedCache

/-! ## Moves -/

section Moves

variable (compiler : String → String → Except HookError CompiledScript)

/-- What a call does next: the cache and the stage that it comes to. -/
inductive Turns (s : SharedCache) (call : CacheCall) : CompiledCache → CallStage → Prop
  | enters (h : call.stage = .begun) :
      Turns s call (s.cache.openSlot call.hash call.now).2
        (.opened (s.cache.openSlot call.hash call.now).1)
  | touches {slot} (h : call.stage = .opened slot) :
      Turns s call (s.cache.touch slot call.now) (.waiting slot)
  | finds {slot artifact} (h : call.stage = .waiting slot)
      (hfree : ∀ other ∈ s.calls, other.stage ≠ .compiling slot)
      (hfound : s.cache.artifact? slot = some artifact) :
      Turns s call s.cache (.returned (.ok artifact))
  | locks {slot} (h : call.stage = .waiting slot)
      (hfree : ∀ other ∈ s.calls, other.stage ≠ .compiling slot)
      (hempty : s.cache.artifact? slot = none) :
      Turns s call s.cache (.compiling slot)
  | fills {slot artifact} (h : call.stage = .compiling slot)
      (hok : call.compiled compiler = .ok artifact) :
      Turns s call (s.cache.fill slot artifact) (.returned (.ok artifact))
  | fails {slot error} (h : call.stage = .compiling slot)
      (herror : call.compiled compiler = .error error) :
      Turns s call s.cache (.failing slot error)
  | releases {slot error} (h : call.stage = .failing slot error) :
      Turns s call (s.cache.release call.hash slot) (.returned (.error error))

/-- What a step does. -/
inductive Moves (s : SharedCache) : CacheStep → SharedCache → Prop
  | stays {t} : Moves s t s
  | turns {t number call cache stage} (hcall : s.call? number = some call)
      (h : s.Turns compiler call cache stage) :
      Moves s t (turn { s with cache := cache } number stage)
  | begins (hash now source) : Moves s (.begin hash now source) (s.begin hash now source)
  | evicts (now) : Moves s (.evict now) { s with cache := s.cache.evict now }
  | forgets (hash) : Moves s (.forget hash) { s with cache := s.cache.forget hash }

end Moves

variable {compiler : String → String → Except HookError CompiledScript} {s s' : SharedCache}
  {number m slot i : Nat} {call : CacheCall} {cache : CompiledCache} {stage : CallStage}
  {hash : String} {artifact found : CompiledScript} {t : CacheStep}

/-- A call is blocked by one that compiles in the slot that it waits for. -/
theorem isBlocked_iff (hcall : s.call? number = some call) (hstage : call.stage = .waiting slot) :
    s.isBlocked number = true ↔ ∃ other ∈ s.calls, other.stage = .compiling slot := by
  obtain ⟨hash, now, source, stage⟩ := call
  obtain rfl : stage = .waiting slot := hstage
  rw [isBlocked, hcall]
  simp only [List.any_eq_true]
  refine exists_congr fun other => and_congr_right fun _ => ?_
  cases other.stage <;> simp

/-- Every step is one of the moves, or changes nothing. -/
theorem step_moves (s : SharedCache) (t : CacheStep) : s.Moves compiler t (s.step compiler t) := by
  cases t with
  | begin hash now source => exact .begins hash now source
  | enter number =>
    dsimp only [step, enter]
    split
    case h_1 hcall => exact .turns hcall (.enters rfl)
    case h_2 => exact .stays
  | touch number =>
    dsimp only [step, touch]
    split
    case h_1 hcall => exact .turns hcall (.touches rfl)
    case h_2 => exact .stays
  | look number =>
    dsimp only [step]
    split
    case isTrue => exact .stays
    case isFalse hfree =>
      unfold look
      split
      case h_1 hcall =>
        rw [isBlocked_iff hcall rfl] at hfree
        have hfree : ∀ other ∈ s.calls, other.stage ≠ .compiling _ :=
          fun other hmem hother => hfree ⟨other, hmem, hother⟩
        split
        case h_1 hfound => exact .turns hcall (.finds rfl hfree hfound)
        case h_2 hempty => exact .turns hcall (.locks rfl hfree hempty)
      case h_2 => exact .stays
  | compile number =>
    dsimp only [step, compile]
    split
    case h_1 hcall =>
      split
      case h_1 hok => exact .turns hcall (.fills rfl hok)
      case h_2 herror => exact .turns hcall (.fails rfl herror)
    case h_2 => exact .stays
  | release number =>
    dsimp only [step, release]
    split
    case h_1 hcall => exact .turns hcall (.releases rfl)
    case h_2 => exact .stays
  | evict now => exact .evicts now
  | forget hash => exact .forgets hash

/-- One call comes to another stage, and the others stay. -/
theorem call?_turn (hcall : s.call? number = some call) (cache : CompiledCache)
    (stage : CallStage) (m : Nat) :
    (turn { s with cache := cache } number stage).call? m =
      if number = m then some { call with stage := stage } else s.call? m := by
  rw [call?, turn, List.getElem?_modify]
  split
  case isTrue h =>
    subst h
    exact congrArg (Option.map _) hcall
  case isFalse => exact Option.map_id'

/-- A call that can compile fills its slot and returns the artifact. -/
theorem compile_of_ok (hcall : s.call? number = some call) (hstage : call.stage = .compiling slot)
    (hok : call.compiled compiler = .ok artifact) :
    s.compile compiler number =
      turn { s with cache := s.cache.fill slot artifact } number (.returned (.ok artifact)) := by
  obtain ⟨hash, now, source, stage⟩ := call
  obtain rfl : stage = .compiling slot := hstage
  have hok : source >>= compiler hash = .ok artifact := hok
  simp only [compile, hcall, hok]

/-- The call of a number that is there after a call began. -/
theorem call?_begin {now : Nat} {source : Except HookError String}
    (h : (s.begin hash now source).call? m = some call) :
    s.call? m = some call ∨ call = { hash, now, source } := by
  rw [call?, begin, List.getElem?_append] at h
  split at h
  · exact .inl h
  · exact .inr (List.mem_singleton.mp (List.mem_of_getElem? h))

/-- A call changes the slot of its own digest only. -/
theorem Turns.slot?_of_ne (h : s.Turns compiler call cache stage) (hne : call.hash ≠ hash) :
    cache.slot? hash = s.cache.slot? hash := by
  cases h with
  | enters => exact CompiledCache.slot?_openSlot_of_ne hne
  | releases => exact CompiledCache.slot?_release_of_ne hne
  | touches | finds | locks | fills | fails => rfl

/-- The window stays what it is. -/
theorem Turns.idleMs (h : s.Turns compiler call cache stage) : cache.idleMs = s.cache.idleMs := by
  cases h with
  | enters =>
    unfold CompiledCache.openSlot
    split <;> rfl
  | releases =>
    unfold CompiledCache.release
    split <;> rfl
  | touches | finds | locks | fills | fails => rfl

theorem Moves.idleMs (h : s.Moves compiler t s') : s'.cache.idleMs = s.cache.idleMs := by
  cases h with
  | turns _ h => exact h.idleMs
  | stays | begins | evicts | forgets => rfl

end SharedCache

/-- The slot of the digest is not unregistered from outside, neither by somebody who forgets
the digest nor by a sweep. -/
def CacheStep.Quiet (hash : String) (s : SharedCache) : CacheStep → Prop
  | .forget other => other ≠ hash
  | .begin _ now _ | .evict now => (s.cache.evict now).slot? hash = s.cache.slot? hash
  | _ => True

/-- A stage from which a call comes to take the artifact, if the slot stays what it is. -/
def CallStage.Harmless (cache : CompiledCache) (slot : Nat) (artifact : CompiledScript) :
    CallStage → Prop
  | .begun | .returned _ => True
  | .opened i | .waiting i => cache.artifact? i = some artifact
  | .compiling _ => False
  | .failing i _ => i ≠ slot

/-- Where slots keep the artifact, harmless stages remain harmless. -/
theorem CallStage.Harmless.mono {stage : CallStage} {cache cache' : CompiledCache} {slot : Nat}
    {artifact : CompiledScript} (h : stage.Harmless cache slot artifact)
    (hkept : ∀ i, stage.slot? = some i → cache.artifact? i = some artifact →
      cache'.artifact? i = some artifact) : stage.Harmless cache' slot artifact := by
  cases stage with
  | opened i => exact hkept i rfl h
  | waiting i => exact hkept i rfl h
  | begun | compiling | failing | returned => exact h

namespace SharedCache

variable {compiler : String → String → Except HookError CompiledScript} {s s' : SharedCache}
  {number m slot i : Nat} {call : CacheCall} {cache : CompiledCache} {stage : CallStage}
  {hash : String} {artifact found : CompiledScript} {t : CacheStep} {steps : List CacheStep}

variable (compiler) in
/-- Steps one after the other that do not unregister the slot from outside. -/
def QuietRun (hash : String) : SharedCache → List CacheStep → Prop
  | _, [] => True
  | s, t :: rest => t.Quiet hash s ∧ QuietRun hash (s.step compiler t) rest

variable (compiler) in
/-- From now on, as long as the slot is not unregistered from outside, no call for the digest
compiles, and each one that comes to return an artifact returns this one. -/
def SingleFlight (s : SharedCache) (hash : String) (artifact : CompiledScript) : Prop :=
  ∀ steps, QuietRun compiler hash s steps →
    ∀ number call, (s.run compiler steps).call? number = some call → call.hash = hash →
      (∀ slot, call.stage ≠ .compiling slot) ∧
      ∀ found, call.stage = .returned (.ok found) → found = artifact ∨ s.call? number = some call

/-! ## Settled -/

/-- The slot of the digest holds the artifact, and no call for the digest compiles, has an
empty slot or is about to unregister that of the digest. -/
structure SettledAt (s : SharedCache) (hash : String) (artifact : CompiledScript) (slot : Nat) :
    Prop where
  registered : s.cache.slot? hash = some slot
  filled : s.cache.artifact? slot = some artifact
  calls : ∀ call ∈ s.calls, call.hash = hash → call.stage.Harmless s.cache slot artifact

/-- Nobody has to compile the digest any more. -/
def Settled (s : SharedCache) (hash : String) (artifact : CompiledScript) : Prop :=
  ∃ slot, s.SettledAt hash artifact slot

namespace SettledAt

/-- What a step must not change. -/
theorem of_frame (h : s.SettledAt hash artifact slot)
    (hslot : s'.cache.slot? hash = s.cache.slot? hash)
    (hkept : ∀ i, s.Claims hash i → s.cache.artifact? i = some artifact →
      s'.cache.artifact? i = some artifact)
    (hcalls : ∀ call ∈ s'.calls, call.hash = hash →
      call ∈ s.calls ∨ call.stage.Harmless s'.cache slot artifact) :
    s'.SettledAt hash artifact slot where
  registered := hslot.trans h.registered
  filled := hkept slot (.inl (CompiledCache.mem_of_slot? h.registered)) h.filled
  calls call hmem hhash := by
    obtain hmem' | hstage := hcalls call hmem hhash
    · refine (h.calls call hmem' hhash).mono fun i hi => hkept i ?_
      exact .inr ⟨call, hmem', hhash, hi⟩
    · exact hstage

/-- A call comes to another stage. -/
theorem turn (h : s.SettledAt hash artifact slot)
    (hslot : cache.slot? hash = s.cache.slot? hash)
    (hkept : ∀ i, s.Claims hash i → s.cache.artifact? i = some artifact →
      cache.artifact? i = some artifact)
    (hcall : s.call? number = some call)
    (hstage : call.hash = hash → stage.Harmless cache slot artifact) :
    (turn { s with cache := cache } number stage).SettledAt hash artifact slot := by
  refine h.of_frame hslot hkept fun c hmem hhash => ?_
  obtain hmem | ⟨call', hcall', rfl⟩ := mem_turn hmem
  · exact .inl hmem
  · obtain rfl : call = call' := Option.some.inj (hcall.symm.trans hcall')
    exact .inr (hstage hhash)

/-- What calls do leaves a settled digest settled. -/
theorem turns (h : s.SettledAt hash artifact slot) (hs : Sound compiler s)
    (hcall : s.call? number = some call) (ht : s.Turns compiler call cache stage) :
    (SharedCache.turn { s with cache := cache } number stage).SettledAt hash artifact slot := by
  have hown : call.hash = hash → call.stage.Harmless s.cache slot artifact :=
    h.calls call (mem_calls hcall)
  have hslot : cache.slot? hash = s.cache.slot? hash := by
    by_cases hhash : call.hash = hash
    · cases ht with
      | enters => rw [hhash, CompiledCache.openSlot_of_some call.now h.registered]
      | @releases own error hstage =>
        have hne : own ≠ slot := by simpa [hstage, CallStage.Harmless] using hown hhash
        have hother : s.cache.slot? call.hash ≠ some own := by
          rw [hhash, h.registered]
          exact fun heq => hne (Option.some.inj heq).symm
        rw [CompiledCache.release, if_neg hother]
      | touches | finds | locks | fills | fails => rfl
    · exact ht.slot?_of_ne hhash
  cases ht with
  | enters =>
    refine h.turn hslot (fun i _ hi => CompiledCache.artifact?_openSlot.trans hi) hcall
      fun hhash => ?_
    rw [hhash, CompiledCache.openSlot_of_some call.now h.registered]
    exact h.filled
  | touches hstage =>
    refine h.turn hslot (fun i _ hi => by rwa [CompiledCache.artifact?_touch]) hcall fun hhash => ?_
    rw [CallStage.Harmless, CompiledCache.artifact?_touch]
    simpa [hstage, CallStage.Harmless] using hown hhash
  | finds => exact h.turn hslot (fun i _ hi => hi) hcall fun _ => trivial
  | locks hstage hfree hempty =>
    refine h.turn hslot (fun i _ hi => hi) hcall fun hhash => ?_
    have hfilled := hown hhash
    rw [hstage, CallStage.Harmless, hempty] at hfilled
    cases hfilled
  | @fills own found hstage hok =>
    have hne : call.hash ≠ hash := fun hhash => by
      simpa [hstage, CallStage.Harmless] using hown hhash
    refine h.turn hslot (fun i hi hfilled => ?_) hcall fun hhash => absurd hhash hne
    have hslots : own ≠ i := by
      rintro rfl
      exact hne (hs.claim_unique (.inr ⟨call, mem_calls hcall, rfl, by rw [hstage]; rfl⟩) hi)
    rw [CompiledCache.artifact?_fill_of_ne hslots]
    exact hfilled
  | fails hstage herror =>
    refine h.turn hslot (fun i _ hi => hi) hcall fun hhash => ?_
    exact absurd (hown hhash) (by simp [hstage, CallStage.Harmless])
  | releases =>
    refine h.turn hslot (fun i _ hi => ?_) hcall fun _ => trivial
    rwa [CompiledCache.artifact?_release]

/-- A settled digest stays so. -/
theorem step (h : s.SettledAt hash artifact slot) (hs : Sound compiler s)
    (hquiet : t.Quiet hash s) (hm : s.Moves compiler t s') : s'.SettledAt hash artifact slot := by
  cases hm with
  | stays => exact h
  | turns hcall ht => exact h.turns hs hcall ht
  | begins other now source =>
    refine h.of_frame hquiet (fun i _ hi => hi) fun call hmem _ => ?_
    obtain hmem | hmem := List.mem_append.mp hmem
    · exact .inl hmem
    · rw [List.mem_singleton.mp hmem]
      exact .inr trivial
  | evicts now => exact h.of_frame hquiet (fun i _ hi => hi) fun call hmem _ => .inl hmem
  | forgets other =>
    refine h.of_frame (CompiledCache.slot?_forget_of_ne hquiet) (fun i _ hi => hi) ?_
    exact fun call hmem _ => .inl hmem

/-- A call for a settled digest that comes to return something returns the artifact. -/
theorem returned (h : s.SettledAt hash artifact slot) (hm : s.Moves compiler t s')
    (hcall : s'.call? m = some call) (hhash : call.hash = hash)
    (hfound : call.stage = .returned (.ok found)) : found = artifact ∨ s.call? m = some call := by
  cases hm with
  | stays | evicts | forgets => exact .inr hcall
  | begins other now source =>
    obtain hcall | rfl := call?_begin hcall
    · exact .inr hcall
    · cases hfound
  | @turns _ number before cache stage hbefore ht =>
    rw [call?_turn hbefore] at hcall
    split at hcall
    case isFalse => exact .inr hcall
    case isTrue =>
      obtain rfl := Option.some.inj hcall
      obtain rfl : stage = .returned (.ok found) := hfound
      have hown := h.calls before (mem_calls hbefore) hhash
      cases ht with
      | finds hstage hfree hartifact =>
        rw [hstage, CallStage.Harmless, hartifact] at hown
        exact .inl (Option.some.inj hown)
      | fills hstage =>
        rw [hstage] at hown
        exact hown.elim

/-- What is settled is compiled once. -/
theorem singleFlight (h : s.SettledAt hash artifact slot) (hs : Sound compiler s) :
    SingleFlight compiler s hash artifact := by
  intro steps
  induction steps generalizing s with
  | nil =>
    intro _ number call hcall hhash
    refine ⟨fun slot hstage => ?_, fun found _ => .inr hcall⟩
    have hown := h.calls call (mem_calls hcall) hhash
    rw [hstage] at hown
    exact hown
  | cons t rest ih =>
    rintro ⟨hquiet, hrest⟩ number call hcall hhash
    have hm : s.Moves compiler t (s.step compiler t) := s.step_moves t
    obtain ⟨hcompiling, hreturned⟩ :=
      ih (h.step hs hquiet hm) (hs.step t) hrest number call hcall hhash
    refine ⟨hcompiling, fun found hfound => ?_⟩
    obtain heq | hcall := hreturned found hfound
    · exact .inl heq
    · exact h.returned hm hcall hhash hfound

end SettledAt

/-! ## Again -/

/-- A call that returned stays as it is. -/
theorem call?_of_returned {outcome : Except HookError CompiledScript}
    (hcall : s.call? m = some call) (houtcome : call.stage = .returned outcome)
    (hm : s.Moves compiler t s') : s'.call? m = some call := by
  cases hm with
  | stays | evicts | forgets => exact hcall
  | begins =>
    obtain ⟨hlt, -⟩ := List.getElem?_eq_some_iff.mp hcall
    exact (List.getElem?_append_left hlt).trans hcall
  | turns hbefore ht =>
    rw [call?_turn hbefore]
    split
    case isFalse => exact hcall
    case isTrue heq =>
      subst heq
      obtain rfl := Option.some.inj (hcall.symm.trans hbefore)
      cases ht <;> simp_all

/-- A sweep at the time zero unregisters nothing. -/
theorem Sound.evict_zero (hs : Sound compiler s) (hidle : 0 < s.cache.idleMs) :
    s.cache.evict 0 = s.cache := by
  have hfresh : ∀ entry ∈ s.cache.registered, s.cache.isFresh 0 entry.2 = true := by
    intro entry hmem
    have hlt : entry.2 < s.cache.cells.length := hs.slot_lt (.inl hmem)
    simp [CompiledCache.isFresh, CompiledCache.cell?, hlt, hidle]
  rw [CompiledCache.evict, List.filter_eq_self.mpr hfresh]

/-- What a call does next is a step. -/
theorem Turns.exists_step (ht : s.Turns compiler call cache stage)
    (hcall : s.call? number = some call) :
    ∃ t, (∀ hash, CacheStep.Quiet hash s t) ∧
      s.step compiler t = turn { s with cache := cache } number stage := by
  have hblocked : ∀ {slot}, call.stage = .waiting slot →
      (∀ other ∈ s.calls, other.stage ≠ .compiling slot) → ¬s.isBlocked number = true := by
    intro slot hstage hfree
    rw [isBlocked_iff hcall hstage]
    exact fun ⟨other, hmem, hother⟩ => hfree other hmem hother
  obtain ⟨hash, now, source, before⟩ := call
  cases ht with
  | enters hstage =>
    obtain rfl : before = .begun := hstage
    exact ⟨.enter number, fun _ => trivial, by simp only [step, enter, hcall]⟩
  | touches hstage =>
    obtain rfl := hstage
    exact ⟨.touch number, fun _ => trivial, by simp only [step, touch, hcall]⟩
  | finds hstage hfree hfound =>
    refine ⟨.look number, fun _ => trivial, ?_⟩
    rw [step, if_neg (hblocked hstage hfree)]
    obtain rfl := hstage
    simp only [look, hcall, hfound]
  | locks hstage hfree hempty =>
    refine ⟨.look number, fun _ => trivial, ?_⟩
    rw [step, if_neg (hblocked hstage hfree)]
    obtain rfl := hstage
    simp only [look, hcall, hempty]
  | fills hstage hok =>
    exact ⟨.compile number, fun _ => trivial, compile_of_ok hcall hstage hok⟩
  | fails hstage herror =>
    obtain rfl := hstage
    have herror : source >>= compiler hash = .error _ := herror
    exact ⟨.compile number, fun _ => trivial, by simp only [step, compile, hcall, herror]⟩
  | releases hstage =>
    obtain rfl := hstage
    exact ⟨.release number, fun _ => trivial, by simp only [step, release, hcall]⟩

namespace SingleFlight

/-- What holds of all futures holds of those behind a step. -/
theorem step (h : SingleFlight compiler s hash artifact) (hquiet : t.Quiet hash s) :
    SingleFlight compiler (s.step compiler t) hash artifact := by
  intro steps hsteps number call hcall hhash
  obtain ⟨hcompiling, hreturned⟩ := h (t :: steps) ⟨hquiet, hsteps⟩ number call hcall hhash
  refine ⟨hcompiling, fun found hfound => (hreturned found hfound).imp_right fun hbefore => ?_⟩
  exact call?_of_returned hbefore hfound (s.step_moves t)

/-- Nobody compiles the digest now. -/
theorem not_compiling (h : SingleFlight compiler s hash artifact) (hcall : call ∈ s.calls)
    (hhash : call.hash = hash) : call.stage ≠ .compiling slot := by
  obtain ⟨number, hcall⟩ := List.mem_iff_getElem?.mp hcall
  exact (h [] trivial number call hcall hhash).1 slot

/-- What a call may do next is among the futures. -/
theorem turns (h : SingleFlight compiler s hash artifact) (hs : Sound compiler s)
    (hcall : s.call? number = some call) (ht : s.Turns compiler call cache stage) :
    SingleFlight compiler (turn { s with cache := cache } number stage) hash artifact ∧
      Sound compiler (turn { s with cache := cache } number stage) ∧
      (turn { s with cache := cache } number stage).call? number =
        some { call with stage := stage } := by
  obtain ⟨t, hquiet, hstep⟩ := ht.exists_step hcall
  refine ⟨hstep ▸ h.step (hquiet hash), hstep ▸ hs.step t, ?_⟩
  rw [call?_turn hcall, if_pos rfl]

/-- A call that waits for its slot finds the artifact there. Nobody blocks it, and it must not
find the slot empty. -/
theorem artifact_of_waiting (h : SingleFlight compiler s hash artifact) (hs : Sound compiler s)
    (hcall : s.call? number = some call) (hhash : call.hash = hash)
    (hstage : call.stage = .waiting slot) : s.cache.artifact? slot = some artifact := by
  have hfree : ∀ other ∈ s.calls, other.stage ≠ .compiling slot := by
    intro other hmem hother
    have hclaim : s.Claims hash slot := .inr ⟨call, mem_calls hcall, hhash, by rw [hstage]; rfl⟩
    have hclaim' : s.Claims other.hash slot := .inr ⟨other, hmem, rfl, by rw [hother]; rfl⟩
    exact h.not_compiling hmem (hs.claim_unique hclaim' hclaim) hother
  cases hfound : s.cache.artifact? slot with
  | none =>
    obtain ⟨hflight, -, hcall'⟩ := h.turns hs hcall (.locks hstage hfree hfound)
    exact absurd rfl (hflight.not_compiling (mem_calls hcall') hhash)
  | some found =>
    obtain ⟨t, hquiet, hstep⟩ := (Turns.finds hstage hfree hfound).exists_step hcall
    have hcall' : (s.run compiler [t]).call? number =
        some { call with stage := .returned (.ok found) } := by
      rw [run, List.foldl_cons, List.foldl_nil, hstep, call?_turn hcall, if_pos rfl]
    obtain heq | hbefore := (h [t] ⟨hquiet hash, trivial⟩ number _ hcall' hhash).2 found rfl
    · rw [heq]
    · rw [hcall] at hbefore
      rw [Option.some.inj hbefore] at hstage
      cases hstage

/-- A call that has been given a slot finds the artifact there. -/
theorem artifact_of_opened (h : SingleFlight compiler s hash artifact) (hs : Sound compiler s)
    (hcall : s.call? number = some call) (hhash : call.hash = hash)
    (hstage : call.stage = .opened slot) : s.cache.artifact? slot = some artifact := by
  obtain ⟨hflight, hsound, hcall'⟩ := h.turns hs hcall (.touches hstage)
  rw [← CompiledCache.artifact?_touch slot]
  exact hflight.artifact_of_waiting hsound hcall' hhash rfl

/-- The slot of the digest holds the artifact: a call that begins now gets this slot, or one
that is empty. -/
theorem registered (h : SingleFlight compiler s hash artifact) (hs : Sound compiler s)
    (hidle : 0 < s.cache.idleMs) :
    ∃ slot, s.cache.slot? hash = some slot ∧ s.cache.artifact? slot = some artifact := by
  have hcache : s.cache.evict 0 = s.cache := hs.evict_zero hidle
  have hbegun : SingleFlight compiler (s.begin hash 0 (.ok "")) hash artifact :=
    h.step (t := .begin hash 0 (.ok "")) (by rw [CacheStep.Quiet, hcache])
  have hsound : Sound compiler (s.begin hash 0 (.ok "")) := hs.begin hash 0 (.ok "")
  have hcall : (s.begin hash 0 (.ok "")).call? s.calls.length = some ⟨hash, 0, .ok "", .begun⟩ :=
    call?_last _ _ _
  obtain ⟨hflight, hsound, hcall⟩ := hbegun.turns hsound hcall (.enters rfl)
  have hfound := hflight.artifact_of_opened hsound hcall rfl rfl
  dsimp only [turn, begin] at hfound
  rw [hcache] at hfound
  cases hslot : s.cache.slot? hash with
  | some slot =>
    rw [CompiledCache.openSlot_of_some 0 hslot] at hfound
    exact ⟨slot, rfl, hfound⟩
  | none =>
    rw [CompiledCache.openSlot_of_none 0 hslot] at hfound
    simp [CompiledCache.artifact?_eq, CompiledCache.withSlot] at hfound

/-- Nobody is about to unregister the slot of the digest. -/
theorem not_failing (h : SingleFlight compiler s hash artifact) (hs : Sound compiler s)
    (hidle : 0 < s.cache.idleMs) {error : HookError} (hcall : s.call? number = some call)
    (hhash : call.hash = hash) (hstage : call.stage = .failing i error)
    (hslot : s.cache.slot? hash = some slot) : i ≠ slot := by
  rintro rfl
  have ht : s.Turns compiler call (s.cache.release call.hash i) (.returned (.error error)) :=
    .releases hstage
  obtain ⟨hflight, hsound, -⟩ := h.turns hs hcall ht
  obtain ⟨other, hother, -⟩ := hflight.registered hsound (ht.idleMs.symm ▸ hidle)
  have hgone : (s.cache.release call.hash i).slot? hash = none := by
    rw [CompiledCache.release, hhash, if_pos hslot]
    exact CompiledCache.slot?_forget_self
  cases hgone.symm.trans hother

/-- A digest that nobody comes to compile is settled. -/
theorem settled (h : SingleFlight compiler s hash artifact) (hs : Sound compiler s)
    (hidle : 0 < s.cache.idleMs) : s.Settled hash artifact := by
  obtain ⟨slot, hslot, hfilled⟩ := h.registered hs hidle
  refine ⟨slot, hslot, hfilled, fun call hmem hhash => ?_⟩
  obtain ⟨number, hcall⟩ := List.mem_iff_getElem?.mp hmem
  cases hstage : call.stage with
  | begun | returned => trivial
  | opened i => exact h.artifact_of_opened hs hcall hhash hstage
  | waiting i => exact h.artifact_of_waiting hs hcall hhash hstage
  | compiling i => exact h.not_compiling hmem hhash hstage
  | failing i error => exact h.not_failing hs hidle hcall hhash hstage hslot

end SingleFlight

/-! ## United -/

/-- No two calls compile in one slot. -/
def Exclusive (s : SharedCache) : Prop :=
  ∀ m n a b slot, s.call? m = some a → s.call? n = some b →
    a.stage = .compiling slot → b.stage = .compiling slot → m = n

/-- No call for the digest has failed so far. -/
def Unfailed (s : SharedCache) (hash : String) : Prop :=
  ∀ call ∈ s.calls, call.hash = hash → ∀ error, call.stage.outcome? ≠ some (.error error)

/-- Every call for the digest that has a slot has the one that is registered. -/
def United (s : SharedCache) (hash : String) : Prop :=
  ∀ call ∈ s.calls, call.hash = hash → ∀ slot, call.stage.slot? = some slot →
    s.cache.slot? hash = some slot

/-- A call compiles only in a slot that nobody else compiles in. -/
theorem Exclusive.step (h : s.Exclusive) (hm : s.Moves compiler t s') : s'.Exclusive := by
  intro m n a b slot ha hb hsa hsb
  cases hm with
  | stays | evicts | forgets => exact h m n a b slot ha hb hsa hsb
  | begins =>
    obtain ha | rfl := call?_begin ha
    · obtain hb | rfl := call?_begin hb
      · exact h m n a b slot ha hb hsa hsb
      · cases hsb
    · cases hsa
  | @turns _ number call cache stage hcall ht =>
    -- A call gets a lock only while nobody else has it.
    have hlocks : stage = .compiling slot → ∀ other ∈ s.calls, other.stage ≠ .compiling slot := by
      rintro rfl
      cases ht with
      | locks _ hfree => exact hfree
    rw [call?_turn hcall] at ha hb
    split at ha
    case isTrue hma =>
      split at hb
      case isTrue hnb => exact hma.symm.trans hnb
      case isFalse =>
        obtain rfl := Option.some.inj ha
        exact absurd hsb (hlocks hsa b (mem_calls hb))
    case isFalse =>
      split at hb
      case isTrue =>
        obtain rfl := Option.some.inj hb
        exact absurd hsa (hlocks hsb a (mem_calls ha))
      case isFalse => exact h m n a b slot ha hb hsa hsb

/-- What failed stays failed. -/
theorem Unfailed.of_step (h : s'.Unfailed hash) (hm : s.Moves compiler t s') :
    s.Unfailed hash := by
  intro call hmem hhash error herror
  obtain ⟨m, hcall⟩ := List.mem_iff_getElem?.mp hmem
  cases hm with
  | stays | evicts | forgets => exact h call hmem hhash error herror
  | begins => exact h call (List.mem_append_left _ hmem) hhash error herror
  | @turns _ number before cache stage hbefore ht =>
    have hturn := call?_turn hbefore cache stage m
    split at hturn
    case isFalse => exact h call (mem_calls (hturn.trans hcall)) hhash error herror
    case isTrue heq =>
      subst heq
      obtain rfl := Option.some.inj (hcall.symm.trans hbefore)
      refine h _ (mem_calls hturn) hhash error ?_
      cases ht with
      | releases hstage => rwa [hstage] at herror
      | enters hstage | touches hstage | finds hstage | locks hstage | fills hstage
      | fails hstage => simp [hstage, CallStage.outcome?] at herror

namespace United

/-- A call comes to another stage. -/
theorem turn (h : s.United hash) (hslot : cache.slot? hash = s.cache.slot? hash)
    (hcall : s.call? number = some call)
    (hstage : call.hash = hash → ∀ i, stage.slot? = some i → call.stage.slot? = some i) :
    (turn { s with cache := cache } number stage).United hash := by
  intro c hmem hhash i hi
  refine hslot.trans ?_
  obtain hmem | ⟨call', hcall', rfl⟩ := mem_turn hmem
  · exact h c hmem hhash i hi
  · obtain rfl : call = call' := Option.some.inj (hcall.symm.trans hcall')
    exact h call (mem_calls hcall) hhash i (hstage hhash i hi)

/-- A call is given the registered slot, or a new one that is registered. -/
theorem enters (h : s.United hash) (hhash : call.hash = hash) :
    (SharedCache.turn { s with cache := (s.cache.openSlot call.hash call.now).2 } number
      (.opened (s.cache.openSlot call.hash call.now).1)).United hash := by
  intro c hmem hchash i hi
  obtain hmem | ⟨_, -, rfl⟩ := mem_turn hmem
  · have hslot := h c hmem hchash i hi
    dsimp only [SharedCache.turn]
    rw [hhash, CompiledCache.openSlot_of_some call.now hslot]
    exact hslot
  · obtain rfl := Option.some.inj hi
    dsimp only [SharedCache.turn]
    rw [hhash]
    cases hslot : s.cache.slot? hash with
    | some slot => rwa [CompiledCache.openSlot_of_some call.now hslot]
    | none =>
      rw [CompiledCache.openSlot_of_none call.now hslot]
      exact CompiledCache.slot?_withSlot_self hslot

/-- As long as no call failed, all calls have the same slot. -/
theorem step (h : s.United hash) (hquiet : t.Quiet hash s) (hm : s.Moves compiler t s')
    (hunfailed : s'.Unfailed hash) : s'.United hash := by
  cases hm with
  | stays => exact h
  | evicts now => exact fun call hmem hhash i hi => hquiet.trans (h call hmem hhash i hi)
  | forgets other =>
    intro call hmem hhash i hi
    exact (CompiledCache.slot?_forget_of_ne hquiet).trans (h call hmem hhash i hi)
  | begins other now source =>
    intro call hmem hhash i hi
    obtain hmem | hmem := List.mem_append.mp hmem
    · exact hquiet.trans (h call hmem hhash i hi)
    · rw [List.mem_singleton.mp hmem] at hi
      cases hi
  | @turns _ number call cache stage hcall ht =>
    by_cases hhash : call.hash = hash
    · have hnow := call?_turn hcall cache stage number
      rw [if_pos rfl] at hnow
      have hnot : ∀ error, stage.outcome? ≠ some (.error error) :=
        hunfailed _ (mem_calls hnow) hhash
      cases ht with
      | enters => exact h.enters hhash
      | touches hstage | locks hstage =>
        exact h.turn rfl hcall fun _ i hi => by rw [hstage]; exact hi
      | finds | fills => exact h.turn rfl hcall nofun
      | fails | releases => exact absurd rfl (hnot _)
    · exact h.turn (ht.slot?_of_ne hhash) hcall fun heq => absurd heq hhash

/-- A call that fills the slot of all calls settles the digest. -/
theorem settledAt (h : s.United hash) (he : s.Exclusive) (hs : Sound compiler s)
    (hunfailed : s.Unfailed hash) (hcall : s.call? number = some call) (hhash : call.hash = hash)
    (hstage : call.stage = .compiling slot) :
    (SharedCache.turn { s with cache := s.cache.fill slot artifact } number
      (.returned (.ok artifact))).SettledAt hash artifact slot := by
  have hslot : s.cache.slot? hash = some slot :=
    h call (mem_calls hcall) hhash slot (by rw [hstage]; rfl)
  have hfilled : (s.cache.fill slot artifact).artifact? slot = some artifact :=
    CompiledCache.artifact?_fill_self (hs.slot_lt (.inl (CompiledCache.mem_of_slot? hslot)))
  refine ⟨hslot, hfilled, fun c hmem hchash => ?_⟩
  obtain ⟨m, hc⟩ := List.mem_iff_getElem?.mp hmem
  have hturn := call?_turn hcall (s.cache.fill slot artifact) (.returned (.ok artifact)) m
  rw [call?, hc] at hturn
  split at hturn
  case isTrue =>
    rw [Option.some.inj hturn]
    trivial
  case isFalse hne =>
    have hown : ∀ i, c.stage.slot? = some i → i = slot := by
      intro i hi
      exact Option.some.inj ((h c (mem_calls hturn.symm) hchash i hi).symm.trans hslot)
    cases hcstage : c.stage with
    | begun | returned => trivial
    | opened i | waiting i =>
      obtain rfl := hown i (by rw [hcstage]; rfl)
      exact hfilled
    | compiling i =>
      obtain rfl := hown i (by rw [hcstage]; rfl)
      exact hne (he number m call c i hcall hturn.symm hstage hcstage)
    | failing i error =>
      refine absurd ?_ (hunfailed c (mem_calls hturn.symm) hchash error)
      rw [hcstage]
      rfl

end United

theorem Exclusive.run (h : s.Exclusive) (steps : List CacheStep) :
    (s.run compiler steps).Exclusive := by
  induction steps generalizing s with
  | nil => exact h
  | cons t rest ih => exact ih (h.step (s.step_moves t))

theorem idleMs_run (s : SharedCache) (steps : List CacheStep) :
    (s.run compiler steps).cache.idleMs = s.cache.idleMs := by
  induction steps generalizing s with
  | nil => rfl
  | cons t rest ih => exact (ih (s.step compiler t)).trans (s.step_moves t).idleMs

/-- Who has not failed in the end had not failed before. -/
theorem Unfailed.of_run (h : (s.run compiler steps).Unfailed hash) : s.Unfailed hash := by
  induction steps generalizing s with
  | nil => exact h
  | cons t rest ih =>
    have hm : s.Moves compiler t (s.step compiler t) := s.step_moves t
    exact (ih h).of_step hm

/-- As long as the slot is not unregistered from outside and no call for the digest fails. -/
theorem United.run (h : s.United hash) (hquiet : QuietRun compiler hash s steps)
    (hunfailed : (s.run compiler steps).Unfailed hash) : (s.run compiler steps).United hash := by
  induction steps generalizing s with
  | nil => exact h
  | cons t rest ih =>
    have hrest : ((s.step compiler t).run compiler rest).Unfailed hash := hunfailed
    exact ih (h.step hquiet.1 (s.step_moves t) hrest.of_run) hquiet.2 hrest

/-! ## Flights -/

variable (compiler) in
/-- A call compiles a digest. From then on nobody compiles it again, and all later calls return
this artifact, if and only if the digest is settled. It is if no call for it failed before, and
the slot was never unregistered from outside. -/
theorem single_flight_iff (idleMs : Nat) (hidle : 0 < idleMs) (steps : List CacheStep)
    (number slot : Nat) (call : CacheCall) (artifact : CompiledScript)
    (hcall : (run compiler { cache := { idleMs } } steps).call? number = some call)
    (hstage : call.stage = .compiling slot) (hok : call.compiled compiler = .ok artifact) :
    let before := run compiler { cache := { idleMs } } steps
    let after := before.step compiler (.compile number)
    (SingleFlight compiler after call.hash artifact ↔ after.Settled call.hash artifact) ∧
      (before.Unfailed call.hash → QuietRun compiler call.hash { cache := { idleMs } } steps →
        SingleFlight compiler after call.hash artifact) := by
  intro before after
  have hsound : Sound compiler before := sound_run steps (sound_new idleMs)
  have hafter : Sound compiler after := hsound.step _
  have hwindow : after.cache.idleMs = idleMs :=
    (before.step_moves (.compile number)).idleMs.trans (idleMs_run _ steps)
  refine ⟨⟨fun h => h.settled hafter (hwindow ▸ hidle), fun ⟨_, h⟩ => h.singleFlight hafter⟩, ?_⟩
  intro hunfailed hquiet
  have hunited : before.United call.hash :=
    United.run (fun call hmem => absurd hmem List.not_mem_nil) hquiet hunfailed
  have hexclusive : before.Exclusive := Exclusive.run (fun m n a b slot ha => by cases ha) steps
  have hsettled : after.SettledAt call.hash artifact slot := by
    rw [show after = _ from compile_of_ok hcall hstage hok]
    exact hunited.settledAt hexclusive hsound hunfailed hcall rfl hstage
  exact hsettled.singleFlight hafter

/-- A compiler that takes every source. -/
def acceptAll (hash source : String) : Except HookError CompiledScript := .ok ⟨hash, source⟩

/-- Two calls for a digest get one slot, and the first one its lock. -/
def twoCalls (first : Except HookError String) : List CacheStep :=
  [.begin "h" 0 first, .begin "h" 0 (.ok "s"), .enter 0, .enter 1, .touch 0, .touch 1, .look 0]

/-- Two calls for one digest, the first of which compiles. -/
theorem single_flight_of_first_ok :
    0 < 1 ∧
    (run acceptAll { cache := { idleMs := 1 } } (twoCalls (.ok "s"))).call? 0 =
      some ⟨"h", 0, .ok "s", .compiling 0⟩ ∧
    CacheCall.compiled acceptAll ⟨"h", 0, .ok "s", .compiling 0⟩ = .ok ⟨"h", "s"⟩ ∧
    SingleFlight acceptAll ((run acceptAll { cache := { idleMs := 1 } } (twoCalls (.ok "s"))).step
      acceptAll (.compile 0)) "h" ⟨"h", "s"⟩ := by
  have hcall : (run acceptAll { cache := { idleMs := 1 } } (twoCalls (.ok "s"))).call? 0 =
      some ⟨"h", 0, .ok "s", .compiling 0⟩ := rfl
  have hafter : (run acceptAll { cache := { idleMs := 1 } } (twoCalls (.ok "s"))).step acceptAll
      (.compile 0) = ⟨⟨1, [("h", 0)], [⟨some ⟨"h", "s"⟩, 0⟩], 1⟩,
        [⟨"h", 0, .ok "s", .returned (.ok ⟨"h", "s"⟩)⟩, ⟨"h", 0, .ok "s", .waiting 0⟩]⟩ := rfl
  refine ⟨Nat.one_pos, hcall, rfl, ?_⟩
  refine (single_flight_iff acceptAll 1 Nat.one_pos _ 0 0 _ _ hcall rfl rfl).1.mpr ?_
  rw [hafter]
  refine ⟨0, rfl, rfl, fun call hmem _ => ?_⟩
  obtain rfl | hmem := List.mem_cons.mp hmem
  · exact True.intro
  · obtain rfl := List.mem_singleton.mp hmem
    exact rfl

/-- The second call fills the slot that the first one is about to unregister. -/
def filledInBetween : List CacheStep :=
  twoCalls (.error (.store "gone")) ++ [.compile 0, .look 1, .compile 1]

/-- A third call gets a new slot then, and compiles again. -/
theorem compiled_again :
    (run acceptAll { cache := { idleMs := 1 } } filledInBetween).call? 1 =
        some ⟨"h", 0, .ok "s", .returned (.ok ⟨"h", "s"⟩)⟩ ∧
      ¬SingleFlight acceptAll (run acceptAll { cache := { idleMs := 1 } } filledInBetween)
        "h" ⟨"h", "s"⟩ := by
  refine ⟨rfl, fun h => ?_⟩
  have hthird := h [.release 0, .begin "h" 0 (.ok "s"), .enter 2, .touch 2, .look 2]
    ⟨trivial, rfl, trivial, trivial, trivial, trivial⟩ 2 ⟨"h", 0, .ok "s", .compiling 1⟩ rfl rfl
  exact hthird.1 1 rfl

end SharedCache

end ScriptHooks

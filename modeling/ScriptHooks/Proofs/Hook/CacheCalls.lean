/-
ScriptHooks.Proofs.Hook.CacheCalls — where compiled scripts come from.

Calls for compiled scripts overlap. A call claims the slot of its digest under the lock of the
cache, waits for the lock of the slot, compiles there if it finds nothing, and gives the locks back;
in between, the slot may be unregistered by those who forget the digest, by a sweep, or by a call
that failed. Is what a call returns always a compilation of what it asked for?

A digest claims a slot while the slot is registered for it or a call for it has the slot.
No slot is ever claimed by two digests, since a slot is given out for one digest only and
nobody else gets it once it is unregistered. So what is found in a slot was compiled by a
call for the digest that claims it, from the source of that call. `Sound` says so of a
shared cache: its fields are that claims are unique, that slots hold what was compiled for
the digest, and that calls end with such an artifact or with what went wrong with their own
source.

Every step keeps it (`Sound.step`), and with it every run (`sound_run`). The steps of calls
are of two kinds, and there is one lemma for each: a change of the cache (`withCache`,
`newSlot`, `fill`) and a call that comes to another stage (`turn`). Both rest on
`of_claims`: whoever claims a slot after the step claimed it before, or the slot is new.

`obtain_eq` relates the lookup of a call that runs alone to the sections of such a call, so
that what holds of overlapping calls holds of the plain function too.
-/
import ScriptHooks.Hook.CompiledCache

namespace ScriptHooks

/-! ## Slots of the cache -/

namespace CompiledCache

variable {cache : CompiledCache} {hash : String} {now slot : Nat}

theorem mem_of_slot? (h : cache.slot? hash = some slot) : (hash, slot) ∈ cache.registered := by
  obtain ⟨entry, hfind, rfl⟩ := Option.map_eq_some_iff.mp h
  have hkey : entry.1 = hash := by simpa using List.find?_some hfind
  exact hkey ▸ List.mem_of_find?_eq_some hfind

theorem registered_evict_subset : (cache.evict now).registered ⊆ cache.registered :=
  List.filter_sublist.subset

theorem registered_forget_subset : (cache.forget hash).registered ⊆ cache.registered :=
  List.filter_sublist.subset

theorem registered_release_subset : (cache.release hash slot).registered ⊆ cache.registered := by
  unfold release
  split
  · exact List.filter_sublist.subset
  · exact List.Subset.refl _

@[simp] theorem cells_release : (cache.release hash slot).cells = cache.cells := by
  unfold release
  split <;> rfl

variable (now) in
/-- The cache after a digest was given a new slot. -/
def withSlot (cache : CompiledCache) (hash : String) : CompiledCache :=
  { cache with
    registered := cache.registered ++ [(hash, cache.cells.length)]
    cells := cache.cells ++ [⟨none, now⟩] }

variable (now) in
/-- A digest that has a slot keeps it. -/
theorem openSlot_of_some (h : cache.slot? hash = some slot) :
    cache.openSlot hash now = (slot, cache) := by
  rw [openSlot, h]

variable (now) in
/-- A digest without a slot gets a new one. -/
theorem openSlot_of_none (h : cache.slot? hash = none) :
    cache.openSlot hash now = (cache.cells.length, cache.withSlot now hash) := by
  rw [openSlot, h]
  rfl

theorem artifact?_eq : cache.artifact? slot = cache.cells[slot]?.bind (·.artifact) := rfl

/-- A slot keeps what it holds when its use is noted. -/
theorem artifact?_touch (other : Nat) :
    (cache.touch slot now).artifact? other = cache.artifact? other := by
  simp only [artifact?_eq, touch, List.getElem?_modify]
  split
  · cases cache.cells[other]? <;> rfl
  · simp

/-- A slot that is filled holds the artifact; others keep what they hold. -/
theorem artifact?_fill {artifact found : CompiledScript} {other : Nat}
    (h : (cache.fill slot artifact).artifact? other = some found) :
    cache.artifact? other = some found ∨ other = slot ∧ found = artifact := by
  simp only [artifact?_eq, fill, List.getElem?_modify] at h ⊢
  split at h
  · rename_i heq
    refine .inr ⟨heq.symm, ?_⟩
    cases hcell : cache.cells[other]? with
    | none => simp [hcell] at h
    | some cell => simpa [hcell] using h.symm
  · exact .inl (by simpa using h)

end CompiledCache

/-! ## Claims -/

def CallStage.slot? : CallStage → Option Nat
  | .begun | .returned _ => none
  | .opened slot | .waiting slot | .compiling slot | .failing slot _ => some slot

/-- How a call ends that has come to this stage, if that is settled. -/
def CallStage.outcome? : CallStage → Option (Except HookError CompiledScript)
  | .failing _ error => some (.error error)
  | .returned outcome => some outcome
  | _ => none

/-- The source of a call, compiled. -/
def CacheCall.compiled (compiler : String → String → Except HookError CompiledScript)
    (call : CacheCall) : Except HookError CompiledScript :=
  call.source >>= compiler call.hash

/-- A call that has its source compiles it. -/
theorem CacheCall.compiled_of_ok {compiler : String → String → Except HookError CompiledScript}
    {call : CacheCall} {source : String} (h : call.source = .ok source) :
    call.compiled compiler = compiler call.hash source := by
  rw [compiled, h]
  rfl

/-- A call without its source has nothing to compile. -/
theorem CacheCall.compiled_of_error {compiler : String → String → Except HookError CompiledScript}
    {call : CacheCall} {error : HookError} (h : call.source = .error error) :
    call.compiled compiler = .error error := by
  rw [compiled, h]
  rfl

namespace SharedCache

variable {compiler : String → String → Except HookError CompiledScript}

/-- The slot is registered for the digest, or a call for it has the slot. -/
def Claims (s : SharedCache) (hash : String) (slot : Nat) : Prop :=
  (hash, slot) ∈ s.cache.registered ∨
    ∃ call ∈ s.calls, call.hash = hash ∧ call.stage.slot? = some slot

variable (compiler) in
/-- The artifact was compiled for the digest from the source of some call. -/
def Compiled (s : SharedCache) (hash : String) (artifact : CompiledScript) : Prop :=
  ∃ call ∈ s.calls, call.hash = hash ∧ call.compiled compiler = .ok artifact

variable (compiler) in
/-- A call may end like this: with an artifact that was compiled for its digest, or with
what went wrong with its own source. -/
def Warrants (s : SharedCache) (call : CacheCall) : Except HookError CompiledScript → Prop
  | .ok artifact => s.Compiled compiler call.hash artifact
  | .error error => call.compiled compiler = .error error

variable (compiler) in
/-- Slots are claimed by one digest each and hold what was compiled for it. -/
structure Sound (s : SharedCache) : Prop where
  slot_lt : ∀ {hash slot}, s.Claims hash slot → slot < s.cache.cells.length
  claim_unique : ∀ {a b slot}, s.Claims a slot → s.Claims b slot → a = b
  artifact : ∀ {hash slot found}, s.Claims hash slot → s.cache.artifact? slot = some found →
    s.Compiled compiler hash found
  outcome : ∀ {call outcome}, call ∈ s.calls → call.stage.outcome? = some outcome →
    s.Warrants compiler call outcome

/-- A cache that nobody used yet. -/
theorem sound_new (idleMs : Nat) : Sound compiler { cache := { idleMs } } where
  slot_lt h := by simp [Claims] at h
  claim_unique h := by simp [Claims] at h
  artifact h := by simp [Claims] at h
  outcome h := by simp at h

variable {s : SharedCache} {number : Nat} {call : CacheCall}

theorem mem_calls (h : s.call? number = some call) : call ∈ s.calls := List.mem_of_getElem? h

/-! ## Calls that come to another stage -/

/-- The calls of `s.turn number stage` are those of `s` but for one. -/
theorem mem_turn {stage : CallStage} {c : CacheCall} (h : c ∈ (s.turn number stage).calls) :
    c ∈ s.calls ∨ ∃ call, s.call? number = some call ∧ c = { call with stage := stage } := by
  obtain ⟨i, hi⟩ := List.mem_iff_getElem?.mp h
  rw [turn, List.getElem?_modify] at hi
  obtain ⟨call, hcall, hc⟩ := Option.map_eq_some_iff.mp hi
  split at hc
  · rename_i heq
    exact .inr ⟨call, heq ▸ hcall, hc.symm⟩
  · exact .inl (hc ▸ List.mem_of_getElem? hcall)

/-- The same calls are there for the same digests, whatever stage one of them comes to. -/
theorem mem_calls_turn (number : Nat) (stage : CallStage) (h : call ∈ s.calls) :
    ∃ c ∈ (s.turn number stage).calls, c.hash = call.hash ∧ c.source = call.source := by
  obtain ⟨i, hi⟩ := List.mem_iff_getElem?.mp h
  have hmem : (s.turn number stage).calls[i]? =
      some (if number = i then { call with stage := stage } else call) := by
    rw [turn, List.getElem?_modify, hi]
    split <;> rfl
  refine ⟨_, List.mem_of_getElem? hmem, ?_⟩
  split <;> exact ⟨rfl, rfl⟩

/-- What was compiled is so still. -/
theorem Compiled.turn {hash : String} {found : CompiledScript}
    (h : s.Compiled compiler hash found) (number : Nat) (stage : CallStage) :
    (s.turn number stage).Compiled compiler hash found := by
  obtain ⟨call, hmem, hhash, hfound⟩ := h
  obtain ⟨c, hc, hch, hcs⟩ := mem_calls_turn number stage hmem
  exact ⟨c, hc, hch.trans hhash, by rw [CacheCall.compiled, hch, hcs]; exact hfound⟩

theorem Warrants.mono {s' : SharedCache} {outcome : Except HookError CompiledScript}
    (h : s.Warrants compiler call outcome)
    (hcompiled : ∀ {hash found}, s.Compiled compiler hash found →
      s'.Compiled compiler hash found) : s'.Warrants compiler call outcome := by
  cases outcome with
  | ok found => exact hcompiled h
  | error error => exact h

namespace Sound

/-- Slots stay what they are, and nobody gets one that the digest did not claim before. -/
theorem of_claims (hs : Sound compiler s) {s' : SharedCache}
    (hclaims : ∀ {hash slot}, s'.Claims hash slot → s.Claims hash slot)
    (hlen : s'.cache.cells.length = s.cache.cells.length)
    (hart : ∀ slot, s'.cache.artifact? slot = s.cache.artifact? slot)
    (hcompiled : ∀ {hash found}, s.Compiled compiler hash found →
      s'.Compiled compiler hash found)
    (houtcome : ∀ {call outcome}, call ∈ s'.calls → call.stage.outcome? = some outcome →
      s.Warrants compiler call outcome) : Sound compiler s' where
  slot_lt h := hlen ▸ hs.slot_lt (hclaims h)
  claim_unique ha hb := hs.claim_unique (hclaims ha) (hclaims hb)
  artifact h hfound := hcompiled (hs.artifact (hclaims h) ((hart _).symm.trans hfound))
  outcome hcall hout := (houtcome hcall hout).mono hcompiled

/-- A call comes to a stage. It has no other slot than before, if any, and what it is to
return is warranted. -/
theorem turn (hs : Sound compiler s) (hcall : s.call? number = some call) {stage : CallStage}
    (hslot : ∀ slot, stage.slot? = some slot → s.Claims call.hash slot)
    (houtcome : ∀ outcome, stage.outcome? = some outcome → s.Warrants compiler call outcome) :
    Sound compiler (s.turn number stage) := by
  refine hs.of_claims ?_ rfl (fun _ => rfl) (fun h => h.turn number stage) ?_
  · rintro hash slot (hreg | ⟨c, hc, hch, hcs⟩)
    · exact .inl hreg
    · obtain hc | ⟨call', hcall', rfl⟩ := mem_turn hc
      · exact .inr ⟨c, hc, hch, hcs⟩
      · obtain rfl : call = call' := Option.some.inj (hcall.symm.trans hcall')
        exact hch ▸ hslot slot hcs
  · intro c outcome hc hout
    obtain hc | ⟨call', hcall', rfl⟩ := mem_turn hc
    · exact hs.outcome hc hout
    · obtain rfl : call = call' := Option.some.inj (hcall.symm.trans hcall')
      have hw := houtcome outcome hout
      cases outcome <;> exact hw

/-! ## Changes to the cache -/

/-- Slots may be unregistered and used, as long as they keep what they hold. -/
theorem withCache (hs : Sound compiler s) {cache : CompiledCache}
    (hreg : cache.registered ⊆ s.cache.registered)
    (hlen : cache.cells.length = s.cache.cells.length)
    (hart : ∀ slot, cache.artifact? slot = s.cache.artifact? slot) :
    Sound compiler { s with cache := cache } :=
  hs.of_claims (fun h => h.imp (fun h => hreg h) id) hlen hart id fun hc hout =>
    (hs.outcome hc hout).mono id

/-- Slots that were idle are unregistered. -/
theorem evict (hs : Sound compiler s) (now : Nat) :
    Sound compiler { s with cache := s.cache.evict now } :=
  hs.withCache CompiledCache.registered_evict_subset rfl fun _ => rfl

/-- A digest is forgotten. -/
theorem forget (hs : Sound compiler s) (hash : String) :
    Sound compiler { s with cache := s.cache.forget hash } :=
  hs.withCache CompiledCache.registered_forget_subset rfl fun _ => rfl

/-- A digest gets a slot that nobody claims yet, with nothing in it. -/
theorem newSlot (hs : Sound compiler s) {hash : String} {cache : CompiledCache} {now : Nat}
    (hreg : cache.registered = s.cache.registered ++ [(hash, s.cache.cells.length)])
    (hcells : cache.cells = s.cache.cells ++ [⟨none, now⟩]) :
    Sound compiler { s with cache := cache } := by
  -- A claim on the new slot is that of the digest; all others were there before.
  have hclaims : ∀ {other slot}, Claims { s with cache := cache } other slot →
      s.Claims other slot ∧ slot < s.cache.cells.length ∨
        other = hash ∧ slot = s.cache.cells.length := by
    rintro other slot (hmem | hcall)
    · obtain hmem | heq := List.mem_append.mp (hreg ▸ hmem)
      · exact .inl ⟨.inl hmem, hs.slot_lt (.inl hmem)⟩
      · exact .inr (by simpa using heq)
    · exact .inl ⟨.inr hcall, hs.slot_lt (.inr hcall)⟩
  constructor
  case slot_lt =>
    intro other slot h
    have := hclaims h
    rw [hcells, List.length_append, List.length_singleton]
    omega
  case claim_unique =>
    intro a b slot ha hb
    obtain ⟨ha, hlta⟩ | ⟨rfl, heqa⟩ := hclaims ha
    · obtain ⟨hb, -⟩ | ⟨-, heqb⟩ := hclaims hb
      · exact hs.claim_unique ha hb
      · omega
    · obtain ⟨-, hltb⟩ | ⟨rfl, -⟩ := hclaims hb
      · omega
      · rfl
  case artifact =>
    intro other slot found h hfound
    rw [CompiledCache.artifact?_eq, hcells] at hfound
    obtain ⟨h, hlt⟩ | ⟨-, rfl⟩ := hclaims h
    · rw [List.getElem?_append_left hlt] at hfound
      exact hs.artifact h hfound
    · simp at hfound
  case outcome => exact fun hc hout => (hs.outcome hc hout).mono id

/-- A digest gets the slot that is registered for it, or a new one. -/
theorem openSlot (hs : Sound compiler s) (hash : String) (now : Nat) :
    Sound compiler { s with cache := (s.cache.openSlot hash now).2 } ∧
      (hash, (s.cache.openSlot hash now).1) ∈ (s.cache.openSlot hash now).2.registered := by
  unfold CompiledCache.openSlot
  split
  case h_1 slot hslot => exact ⟨hs, CompiledCache.mem_of_slot? hslot⟩
  case h_2 => exact ⟨hs.newSlot rfl rfl, List.mem_append_right _ List.mem_cons_self⟩

/-- A call fills the slot that it has. -/
theorem fill (hs : Sound compiler s) {hash : String} {slot : Nat} {artifact : CompiledScript}
    (hclaim : s.Claims hash slot) (hcompiled : s.Compiled compiler hash artifact) :
    Sound compiler { s with cache := s.cache.fill slot artifact } := by
  constructor
  case slot_lt =>
    intro other slot' h
    simpa [CompiledCache.fill] using hs.slot_lt h
  case claim_unique => exact fun ha hb => hs.claim_unique ha hb
  case artifact =>
    intro other slot' found h hfound
    obtain hfound | ⟨rfl, rfl⟩ := CompiledCache.artifact?_fill hfound
    · exact hs.artifact h hfound
    · obtain rfl := hs.claim_unique h hclaim
      exact hcompiled
  case outcome => exact fun hc hout => (hs.outcome hc hout).mono id

/-! ## Steps -/

/-- A call begins with a sweep. -/
theorem begin (hs : Sound compiler s) (hash : String) (now : Nat)
    (source : Except HookError String) : Sound compiler (s.begin hash now source) := by
  have hmem : ∀ {c}, c ∈ (s.begin hash now source).calls →
      c ∈ s.calls ∨ c = { hash, now, source } := by
    intro c hc
    simpa [SharedCache.begin] using hc
  refine (hs.evict now).of_claims ?_ rfl (fun _ => rfl) ?_ ?_
  · rintro other slot (hreg | ⟨c, hc, hch, hcs⟩)
    · exact .inl hreg
    · obtain hc | rfl := hmem hc
      · exact .inr ⟨c, hc, hch, hcs⟩
      · cases hcs
  · rintro other found ⟨c, hc, hrest⟩
    exact ⟨c, List.mem_append_left _ hc, hrest⟩
  · intro c outcome hc hout
    obtain hc | rfl := hmem hc
    · exact (hs.outcome hc hout).mono id
    · cases hout

/-- A call is given the slot of its digest. -/
theorem enter (hs : Sound compiler s) (number : Nat) : Sound compiler (s.enter number) := by
  unfold SharedCache.enter
  split
  case h_1 hash now source hcall =>
    obtain ⟨hopened, hreg⟩ := hs.openSlot hash now
    refine hopened.turn hcall ?_ nofun
    rintro slot ⟨⟩
    exact .inl hreg
  case h_2 => exact hs

theorem touch (hs : Sound compiler s) (number : Nat) : Sound compiler (s.touch number) := by
  unfold SharedCache.touch
  split
  case h_1 hash now source slot hcall =>
    have htouched : Sound compiler { s with cache := s.cache.touch slot now } :=
      hs.withCache (List.Subset.refl _) (by simp [CompiledCache.touch])
        CompiledCache.artifact?_touch
    refine htouched.turn hcall ?_ nofun
    rintro _ ⟨⟩
    exact .inr ⟨_, mem_calls hcall, rfl, rfl⟩
  case h_2 => exact hs

/-- A call that holds the lock of its slot finds the artifact, or has to compile. -/
theorem look (hs : Sound compiler s) (number : Nat) : Sound compiler (s.look number) := by
  unfold SharedCache.look
  split
  case h_1 hash now source slot hcall =>
    have hclaim : s.Claims hash slot := .inr ⟨_, mem_calls hcall, rfl, rfl⟩
    split
    · refine hs.turn hcall nofun ?_
      rintro _ ⟨⟩
      exact hs.artifact hclaim ‹_›
    · refine hs.turn hcall ?_ nofun
      rintro _ ⟨⟩
      exact hclaim
  case h_2 => exact hs

/-- A call fills its slot, or fails. -/
theorem compile (hs : Sound compiler s) (number : Nat) :
    Sound compiler (s.compile compiler number) := by
  unfold SharedCache.compile
  split
  case h_1 hash now source slot hcall =>
    have hclaim : s.Claims hash slot := .inr ⟨_, mem_calls hcall, rfl, rfl⟩
    split
    · have hcompiled : s.Compiled compiler hash _ := ⟨_, mem_calls hcall, rfl, ‹_›⟩
      refine (hs.fill hclaim hcompiled).turn hcall nofun ?_
      rintro _ ⟨⟩
      exact hcompiled
    · refine hs.turn hcall ?_ ?_
      · rintro _ ⟨⟩
        exact hclaim
      · rintro _ ⟨⟩
        assumption
  case h_2 => exact hs

/-- A call that failed unregisters its slot. -/
theorem release (hs : Sound compiler s) (number : Nat) : Sound compiler (s.release number) := by
  unfold SharedCache.release
  split
  case h_1 hash now source slot error hcall =>
    have hreleased : Sound compiler { s with cache := s.cache.release hash slot } :=
      hs.withCache CompiledCache.registered_release_subset (by simp)
        fun _ => by simp [CompiledCache.artifact?_eq]
    refine hreleased.turn hcall nofun ?_
    rintro _ ⟨⟩
    exact hs.outcome (mem_calls hcall) rfl
  case h_2 => exact hs

/-- Every step. -/
theorem step (hs : Sound compiler s) (t : CacheStep) : Sound compiler (s.step compiler t) := by
  cases t with
  | begin hash now source => exact hs.begin hash now source
  | enter number => exact hs.enter number
  | touch number => exact hs.touch number
  | look number =>
    dsimp only [SharedCache.step]
    split
    · exact hs
    · exact hs.look number
  | compile number => exact hs.compile number
  | release number => exact hs.release number
  | evict now => exact hs.evict now
  | forget hash => exact hs.forget hash

end Sound

/-- Whatever callers do, in whatever order. -/
theorem sound_run (steps : List CacheStep) (hs : Sound compiler s) :
    Sound compiler (s.run compiler steps) := by
  induction steps generalizing s with
  | nil => exact hs
  | cons t rest ih => exact ih (hs.step t)

/-! ## A call that runs alone -/

variable (compiler) in
def callAlone (s : SharedCache) (hash : String) (now : Nat) (source : Except HookError String) :
    SharedCache :=
  let number := s.calls.length
  (((((s.begin hash now source).enter number).touch number).look number).compile compiler
    number).release number

/-- A call that runs alone is such steps. -/
theorem Sound.callAlone (hs : Sound compiler s) (hash : String) (now : Nat)
    (source : Except HookError String) : Sound compiler (s.callAlone compiler hash now source) :=
  (((((hs.begin hash now source).enter _).touch _).look _).compile _).release _

/-- The last call. -/
theorem call?_last (cache : CompiledCache) (calls : List CacheCall) (call : CacheCall) :
    call? ⟨cache, calls ++ [call]⟩ calls.length = some call :=
  List.getElem?_concat_length

/-- The last call comes to a stage. -/
theorem turn_last (cache : CompiledCache) (calls : List CacheCall) (call : CacheCall)
    (stage : CallStage) :
    turn ⟨cache, calls ++ [call]⟩ calls.length stage =
      ⟨cache, calls ++ [{ call with stage := stage }]⟩ := by
  refine congrArg (SharedCache.mk cache) ?_
  induction calls with
  | nil => rfl
  | cons first rest ih => exact congrArg (first :: ·) ih

/-- A call that runs alone finds what `obtain` finds, and leaves the same cache. -/
theorem callAlone_eq (s : SharedCache) (hash : String) (now : Nat)
    (source : Except HookError String) :
    let lookup := s.cache.obtain compiler hash now fun _ => source
    s.callAlone compiler hash now source =
      ⟨lookup.cache, s.calls ++ [⟨hash, now, source, .returned lookup.outcome⟩]⟩ := by
  obtain ⟨cache, calls⟩ := s
  simp only [callAlone, begin, enter, call?_last, turn_last, touch, CompiledCache.obtain]
  generalize (cache.evict now).openSlot hash now = opened
  obtain ⟨slot, cache⟩ := opened
  simp only [look, call?_last, turn_last]
  cases hart : (cache.touch slot now).artifact? slot with
  | some artifact => simp only [compile, release, call?_last]
  | none =>
    simp only [turn_last, compile, call?_last]
    cases source >>= compiler hash with
    | ok artifact => simp only [release, call?_last]
    | error error => simp only [turn_last, release, call?_last]

end SharedCache

end ScriptHooks

/-
ScriptHooks.Proofs.Hook.CacheHistory — the history of a cache decides what is found in it.

What a cache holds for a digest is its entry (`held?`): the cell of the slot that is
registered. A sweep keeps the entries that are fresh, and a call for a digest sets the entry
of that digest and leaves the others as the sweep left them (`Obtained`).

On the side of the history, an artifact is live (`Live`) from the successful call that
returned it until the digest is forgotten or a sweep finds the latest call for it too old.
That is said of a list of events, without a cache. The times are those that calls and sweeps
were given; they need not go up, and time that went backwards counts as none.

`Reflects` says that the entries are what is live; every action keeps it (`reflects_act`). Its
field `hit` is the one that needs a thought: an artifact that is live from a call which read no
source is live from one that did, because the first call for it read it. So a hit never makes
something live that was not compiled.

The main statement is `ClockedCache.obtain_decided_by_history`: what is returned, whether the
source is read, what is held afterwards and how often anything was compiled.

The entries of a cache are found by searching a list, which is why `Orderly` comes first: with
one slot for each digest, searching is membership, and a change of one entry is `Sets`.
-/
import Mathlib.Data.List.Nodup
import Mathlib.Data.List.Induction
import Mathlib.Data.Set.Card
import ScriptHooks.Proofs.Hook.CacheCalls

namespace ScriptHooks

namespace CompiledCache

variable {c c' : CompiledCache} {hash other : String} {cell : ArtifactCell} {slot now : Nat}

/-! ## Entries -/

def held? (c : CompiledCache) (hash : String) : Option ArtifactCell :=
  (c.slot? hash).bind c.cell?

theorem held?_of_slot? (h : c.slot? hash = some slot) : c.held? hash = c.cell? slot := by
  rw [held?, h, Option.bind_some]

/-- Each digest has a slot of its own. -/
structure Orderly (c : CompiledCache) : Prop where
  keys : (c.registered.map (·.1)).Nodup
  slots : (c.registered.map (·.2)).Nodup
  slot_lt : ∀ {hash slot}, (hash, slot) ∈ c.registered → slot < c.cells.length

theorem orderly_new (idleMs : Nat) : Orderly { idleMs } where
  keys := List.nodup_nil
  slots := List.nodup_nil
  slot_lt := nofun

/-- The slot of a digest is the one that is registered. -/
theorem Orderly.slot?_eq_some_iff (ho : c.Orderly) :
    c.slot? hash = some slot ↔ (hash, slot) ∈ c.registered := by
  refine ⟨mem_of_slot?, fun h => ?_⟩
  cases hs : c.slot? hash with
  | none =>
    have hnone := List.find?_eq_none.mp (Option.map_eq_none_iff.mp hs) _ h
    simp at hnone
  | some found =>
    have hpair := List.inj_on_of_nodup_map ho.keys (mem_of_slot? hs) h rfl
    exact congrArg (some ·.2) hpair

/-- What is held is the cell of the registered slot. -/
theorem Orderly.held?_eq_some_iff (ho : c.Orderly) :
    c.held? hash = some cell ↔
      ∃ slot, (hash, slot) ∈ c.registered ∧ c.cells[slot]? = some cell := by
  simp only [held?, Option.bind_eq_some_iff, ho.slot?_eq_some_iff, cell?]

/-- Where a digest is registered, something is held for it. -/
theorem Orderly.exists_held? (ho : c.Orderly) (h : (hash, slot) ∈ c.registered) :
    ∃ cell, c.held? hash = some cell :=
  ⟨c.cells.get ⟨slot, ho.slot_lt h⟩, ho.held?_eq_some_iff.mpr ⟨slot, h, by simp⟩⟩

/-- A digest is cached if something is held for it. -/
theorem Orderly.contains_iff (ho : c.Orderly) :
    c.contains hash = true ↔ ∃ cell, c.held? hash = some cell := by
  rw [contains, Option.isSome_iff_exists]
  constructor
  · rintro ⟨slot, hslot⟩
    exact ho.exists_held? (mem_of_slot? hslot)
  · rintro ⟨cell, hcell⟩
    obtain ⟨slot, hslot, -⟩ := Option.bind_eq_some_iff.mp hcell
    exact ⟨slot, hslot⟩

/-- Entries that stay are those of slots that stay. -/
theorem Orderly.filter (ho : c.Orderly) (keep : String × Nat → Bool) :
    Orderly { c with registered := c.registered.filter keep } where
  keys := ho.keys.sublist (List.filter_sublist.map _)
  slots := ho.slots.sublist (List.filter_sublist.map _)
  slot_lt h := ho.slot_lt (List.mem_of_mem_filter h)

/-- A sweep leaves what was used within the window. -/
theorem Orderly.held?_evict (ho : c.Orderly) :
    (c.evict now).held? hash = some cell ↔
      c.held? hash = some cell ∧ now - cell.lastAccess < c.idleMs := by
  have hfresh : ∀ {slot}, c.cells[slot]? = some cell →
      (c.isFresh now slot = true ↔ now - cell.lastAccess < c.idleMs) := by
    intro slot hcell
    rw [isFresh, cell?, hcell, decide_eq_true_iff]
  have hevict : (c.evict now).Orderly := ho.filter _
  rw [hevict.held?_eq_some_iff, ho.held?_eq_some_iff]
  constructor
  · rintro ⟨slot, hmem, hcell⟩
    obtain ⟨hmem, hkept⟩ := List.mem_filter.mp hmem
    exact ⟨⟨slot, hmem, hcell⟩, (hfresh hcell).mp hkept⟩
  · rintro ⟨⟨slot, hmem, hcell⟩, hlt⟩
    exact ⟨slot, List.mem_filter.mpr ⟨hmem, (hfresh hcell).mpr hlt⟩, hcell⟩

/-! ## Changes of one entry -/

/-- A change leaves the cell for the digest, or nothing, and all other entries as they were. -/
structure Sets (c c' : CompiledCache) (hash : String) (cell : Option ArtifactCell) : Prop where
  orderly : c'.Orderly
  idleMs : c'.idleMs = c.idleMs
  held? : ∀ other, c'.held? other = if other = hash then cell else c.held? other

/-- One change after the other, for the same digest. -/
theorem Sets.trans {c'' : CompiledCache} {before after : Option ArtifactCell}
    (h : Sets c c' hash before) (h' : Sets c' c'' hash after) : Sets c c'' hash after where
  orderly := h'.orderly
  idleMs := h'.idleMs.trans h.idleMs
  held? other := by
    rw [h'.held?, h.held?]
    split <;> rfl

/-- A digest that is forgotten has no entry. -/
theorem Orderly.sets_forget (ho : c.Orderly) (hash : String) :
    Sets c (c.forget hash) hash none where
  orderly := ho.filter _
  idleMs := rfl
  held? other := by
    have hforget : (c.forget hash).Orderly := ho.filter _
    refine Option.ext fun cell => ?_
    rw [hforget.held?_eq_some_iff]
    simp only [forget, List.mem_filter, bne_iff_ne]
    split
    case isTrue heq => simp [heq]
    case isFalse hne => simp [hne, ho.held?_eq_some_iff]

/-- The cell of a registered slot is changed. -/
theorem Orderly.sets_modify (ho : c.Orderly) (h : (hash, slot) ∈ c.registered)
    (f : ArtifactCell → ArtifactCell) (hreg : c'.registered = c.registered)
    (hcells : c'.cells = c.cells.modify slot f) (hidle : c'.idleMs = c.idleMs) :
    Sets c c' hash ((c.held? hash).map f) where
  orderly := by
    refine ⟨hreg ▸ ho.keys, hreg ▸ ho.slots, fun hmem => ?_⟩
    rw [hcells, List.length_modify]
    exact ho.slot_lt (hreg ▸ hmem)
  idleMs := hidle
  held? other := by
    have hslot? : c'.slot? other = c.slot? other := by rw [slot?, slot?, hreg]
    rw [CompiledCache.held?, hslot?, CompiledCache.held?, CompiledCache.held?]
    split
    case isTrue heq =>
      subst heq
      simp [ho.slot?_eq_some_iff.mpr h, cell?, hcells]
    case isFalse hne =>
      cases hother : c.slot? other with
      | none => rfl
      | some slot' =>
        have hslots : slot ≠ slot' := by
          rintro rfl
          have hpair := List.inj_on_of_nodup_map ho.slots h (mem_of_slot? hother) rfl
          exact hne (congrArg (·.1) hpair).symm
        simp [cell?, hcells, hslots]

/-- The use of a slot is noted. -/
theorem Orderly.sets_touch (ho : c.Orderly) (h : (hash, slot) ∈ c.registered) (now : Nat) :
    Sets c (c.touch slot now) hash
      ((c.held? hash).map fun cell => { cell with lastAccess := now }) :=
  ho.sets_modify h _ rfl rfl rfl

/-- A slot is filled. -/
theorem Orderly.sets_fill (ho : c.Orderly) (h : (hash, slot) ∈ c.registered)
    (artifact : CompiledScript) :
    Sets c (c.fill slot artifact) hash
      ((c.held? hash).map fun cell => { cell with artifact := some artifact }) :=
  ho.sets_modify h _ rfl rfl rfl

/-- A digest gets a new slot. -/
theorem Orderly.sets_newSlot (ho : c.Orderly) (h : c.slot? hash = none)
    (hreg : c'.registered = c.registered ++ [(hash, c.cells.length)])
    (hcells : c'.cells = c.cells ++ [cell]) (hidle : c'.idleMs = c.idleMs) :
    Sets c c' hash (some cell) := by
  have hkey : ∀ slot, (hash, slot) ∉ c.registered := by
    intro slot hmem
    rw [ho.slot?_eq_some_iff.mpr hmem] at h
    cases h
  have horderly : c'.Orderly := by
    constructor
    case keys =>
      rw [hreg, List.map_append, List.map_singleton, ← List.concat_eq_append]
      refine ho.keys.concat fun hmem => ?_
      obtain ⟨⟨key, slot⟩, hentry, rfl⟩ := List.mem_map.mp hmem
      exact hkey slot hentry
    case slots =>
      rw [hreg, List.map_append, List.map_singleton, ← List.concat_eq_append]
      refine ho.slots.concat fun hmem => ?_
      obtain ⟨⟨key, slot⟩, hentry, hslot⟩ := List.mem_map.mp hmem
      exact Nat.ne_of_lt (ho.slot_lt hentry) hslot
    case slot_lt =>
      intro other slot hmem
      rw [hcells, List.length_append, List.length_singleton]
      obtain hmem | heq := List.mem_append.mp (hreg ▸ hmem)
      · exact Nat.lt_succ_of_lt (ho.slot_lt hmem)
      · cases List.mem_singleton.mp heq
        exact Nat.lt_succ_self _
  refine ⟨horderly, hidle, fun other => Option.ext fun found => ?_⟩
  rw [horderly.held?_eq_some_iff, hreg, hcells]
  split
  case isTrue heq =>
    subst heq
    simp [hkey]
  case isFalse hne =>
    rw [ho.held?_eq_some_iff]
    refine exists_congr fun slot => ?_
    rw [List.mem_append]
    constructor
    · rintro ⟨hmem | heq, hfound⟩
      · rw [List.getElem?_append_left (ho.slot_lt hmem)] at hfound
        exact ⟨hmem, hfound⟩
      · cases List.mem_singleton.mp heq
        exact absurd rfl hne
    · rintro ⟨hmem, hfound⟩
      rw [List.getElem?_append_left (ho.slot_lt hmem)]
      exact ⟨.inl hmem, hfound⟩

/-! ## Calls -/

/-- What may come of a call for a digest: it finds an artifact, or nothing, and compiles. The
caches are that after the sweep and that after the call. -/
inductive Obtained (c : CompiledCache) (hash : String) (now : Nat)
    (compiled : Except HookError CompiledScript) : Lookup → Prop
  | hit {artifact last c'} (hfound : c.held? hash = some ⟨some artifact, last⟩)
      (hsets : Sets c c' hash (some ⟨some artifact, now⟩))
      (hcount : c'.compilations = c.compilations) :
      Obtained c hash now compiled ⟨.ok artifact, false, c'⟩
  | compiled {artifact c'} (habsent : c.held? hash = none) (hok : compiled = .ok artifact)
      (hsets : Sets c c' hash (some ⟨some artifact, now⟩))
      (hcount : c'.compilations = c.compilations + 1) :
      Obtained c hash now compiled ⟨.ok artifact, true, c'⟩
  | failed {error c'} (habsent : c.held? hash = none) (herror : compiled = .error error)
      (hsets : Sets c c' hash none) (hcount : c'.compilations = c.compilations) :
      Obtained c hash now compiled ⟨.error error, true, c'⟩

section Cases

variable (now : Nat) (compiled : Except HookError CompiledScript)

/-- A call that finds its slot filled. -/
theorem Orderly.obtained_hit (ho : c.Orderly) (h : c.slot? hash = some slot)
    (hcell : c.held? hash = some cell) {artifact : CompiledScript}
    (hartifact : cell.artifact = some artifact) :
    (c.touch slot now).artifact? slot = some artifact ∧
      Obtained c hash now compiled ⟨.ok artifact, false, c.touch slot now⟩ := by
  obtain ⟨held, last⟩ := cell
  obtain rfl : held = some artifact := hartifact
  have htouch := ho.sets_touch (mem_of_slot? h) now
  rw [hcell] at htouch
  refine ⟨?_, .hit hcell htouch rfl⟩
  rw [artifact?_touch, artifact?, ← held?_of_slot? h, hcell]
  rfl

/-- A call that is given a new slot fills it, or unregisters it again. -/
theorem Orderly.obtained_miss (ho : c.Orderly) (h : c.slot? hash = none) :
    let opened := (c.withSlot now hash).touch c.cells.length now
    opened.artifact? c.cells.length = none ∧
      (∀ artifact, compiled = .ok artifact → Obtained c hash now compiled
        ⟨.ok artifact, true, opened.fill c.cells.length artifact⟩) ∧
      ∀ error, compiled = .error error → Obtained c hash now compiled
        ⟨.error error, true, opened.release hash c.cells.length⟩ := by
  intro opened
  have habsent : c.held? hash = none := by rw [held?, h, Option.bind_none]
  have hslot : (hash, c.cells.length) ∈ opened.registered :=
    List.mem_append_right _ (List.mem_singleton_self _)
  have hnew : Sets c (c.withSlot now hash) hash (some ⟨none, now⟩) :=
    ho.sets_newSlot h rfl rfl rfl
  have htouch := hnew.orderly.sets_touch hslot now
  rw [hnew.held?, if_pos rfl] at htouch
  have hopened : Sets c opened hash (some ⟨none, now⟩) := hnew.trans htouch
  have hslot? : opened.slot? hash = some c.cells.length :=
    hopened.orderly.slot?_eq_some_iff.mpr hslot
  refine ⟨?_, fun artifact hok => ?_, fun error herror => ?_⟩
  · rw [artifact?_touch]
    simp [artifact?, cell?, withSlot]
  · have hfill := hopened.orderly.sets_fill hslot artifact
    rw [hopened.held?, if_pos rfl] at hfill
    exact .compiled habsent hok (hopened.trans hfill) rfl
  · have hrelease : opened.release hash c.cells.length = opened.forget hash := if_pos hslot?
    rw [hrelease]
    exact .failed habsent herror (hopened.trans (hopened.orderly.sets_forget hash)) rfl

end Cases

/-- A call on a cache whose slots are all filled. -/
theorem Orderly.obtained (ho : c.Orderly)
    (hfilled : ∀ {hash cell}, c.held? hash = some cell → cell.artifact ≠ none)
    (compiler : String → String → Except HookError CompiledScript) (hash : String) (now : Nat)
    (source : Except HookError String) :
    Obtained (c.evict now) hash now (source >>= compiler hash)
      (c.obtain compiler hash now fun _ => source) := by
  have hevict : (c.evict now).Orderly := ho.filter _
  cases hslot : (c.evict now).slot? hash with
  | some slot =>
    obtain ⟨cell, hcell⟩ := hevict.exists_held? (mem_of_slot? hslot)
    obtain ⟨artifact, hartifact⟩ :=
      Option.ne_none_iff_exists'.mp (hfilled (ho.held?_evict.mp hcell).1)
    obtain ⟨hfound, hobtained⟩ :=
      hevict.obtained_hit now (source >>= compiler hash) hslot hcell hartifact
    simp only [obtain, openSlot_of_some now hslot, hfound]
    exact hobtained
  | none =>
    obtain ⟨hempty, hok, herror⟩ := hevict.obtained_miss now (source >>= compiler hash) hslot
    simp only [obtain, openSlot_of_none now hslot, hempty]
    split
    case h_1 artifact hcompiled => exact hok artifact hcompiled
    case h_2 error hcompiled => exact herror error hcompiled

end CompiledCache

/-! ## Live artifacts -/

namespace CacheEvent

/-- The time of a sweep. Every call begins with one. -/
def sweptAt? : CacheEvent → Option Nat
  | .obtained _ time _ _ => some time
  | .evicted time => some time
  | .forgotten _ => none

def calledAt? (hash : String) : CacheEvent → Option Nat
  | .obtained other time _ _ => if other = hash then some time else none
  | _ => none

/-- Whether a source was compiled. -/
def isCompilation : CacheEvent → Bool
  | .obtained _ _ (.ok _) true => true
  | _ => false

end CacheEvent

/-- The time of the latest call for a digest. -/
def lastCall? (hash : String) (events : List CacheEvent) : Option Nat :=
  (events.filterMap (CacheEvent.calledAt? hash)).getLast?

/-- A call for the digest, which read the source or did not, returned the artifact; since then
the digest was not forgotten, and at no sweep had the latest call for the digest been the idle
window ago. Time that went backwards counts as none. -/
def LiveFrom (read : Bool) (idleMs : Nat) (events : List CacheEvent) (hash : String)
    (artifact : CompiledScript) : Prop :=
  ∃ older time newer,
    events = older ++ CacheEvent.obtained hash time (.ok artifact) read :: newer ∧
      .forgotten hash ∉ newer ∧
      ∀ before event after now, newer = before ++ event :: after → event.sweptAt? = some now →
        ∀ last,
          lastCall? hash (older ++ CacheEvent.obtained hash time (.ok artifact) read :: before) =
            some last → now - last < idleMs

/-- The artifact of some successful call is live. -/
def Live (idleMs : Nat) (events : List CacheEvent) (hash : String) (artifact : CompiledScript) :
    Prop :=
  ∃ read, LiveFrom read idleMs events hash artifact

variable {read : Bool} {idleMs now : Nat} {events : List CacheEvent} {event : CacheEvent}
  {hash other : String} {artifact : CompiledScript}

/-- The latest call is the last event, if that is a call for the digest. -/
theorem lastCall?_concat :
    lastCall? hash (events ++ [event]) = (event.calledAt? hash).or (lastCall? hash events) := by
  rw [lastCall?, List.filterMap_append, List.getLast?_append]
  cases h : event.calledAt? hash <;> simp [h, lastCall?]

/-- Nothing is live at the beginning. -/
theorem not_liveFrom_nil : ¬LiveFrom read idleMs [] hash artifact := by
  rintro ⟨older, time, newer, hevents, -⟩
  exact absurd hevents.symm (List.append_ne_nil_of_right_ne_nil _ (List.cons_ne_nil _ _))

/-- What is live after one more event. -/
theorem liveFrom_concat : LiveFrom read idleMs (events ++ [event]) hash artifact ↔
    (∃ time, event = .obtained hash time (.ok artifact) read) ∨
      LiveFrom read idleMs events hash artifact ∧ event ≠ .forgotten hash ∧
        ∀ now, event.sweptAt? = some now → ∀ last, lastCall? hash events = some last →
          now - last < idleMs := by
  constructor
  · rintro ⟨older, time, newer, hevents, hkept, hfresh⟩
    rcases List.eq_nil_or_concat newer with rfl | ⟨newer, latest, rfl⟩
    · obtain ⟨-, hevent⟩ := List.append_inj' hevents rfl
      exact .inl ⟨time, (List.cons.inj hevent).1⟩
    · rw [List.concat_eq_append] at hevents hkept hfresh
      rw [← List.cons_append, ← List.append_assoc] at hevents
      obtain ⟨rfl, hevent⟩ := List.append_inj' hevents rfl
      obtain rfl := (List.cons.inj hevent).1
      refine .inr ⟨⟨older, time, newer, rfl, ?_, ?_⟩, ?_, ?_⟩
      · exact fun hmem => hkept (List.mem_append_left _ hmem)
      · intro before e after now hnewer
        refine hfresh before e (after ++ [event]) now ?_
        rw [hnewer, List.append_assoc, List.cons_append]
      · rintro rfl
        exact hkept List.mem_concat_self
      · exact fun now => hfresh newer event [] now rfl
  · rintro (⟨time, rfl⟩ | ⟨⟨older, time, newer, rfl, hkept, hfresh⟩, hne, hlatest⟩)
    · refine ⟨events, time, [], rfl, List.not_mem_nil, fun before e after now hnewer => ?_⟩
      exact absurd hnewer.symm (List.append_ne_nil_of_right_ne_nil _ (List.cons_ne_nil _ _))
    · refine ⟨older, time, newer ++ [event], by simp, ?_, ?_⟩
      · rw [List.mem_append, List.mem_singleton]
        exact fun hmem => hmem.elim hkept fun h => hne h.symm
      · intro before e after now hnewer
        rcases List.eq_nil_or_concat after with rfl | ⟨after, final, rfl⟩
        · obtain ⟨rfl, he⟩ := List.append_inj' hnewer rfl
          obtain rfl := (List.cons.inj he).1
          exact hlatest now
        · rw [List.concat_eq_append, ← List.cons_append, ← List.append_assoc] at hnewer
          obtain ⟨hnewer, -⟩ := List.append_inj' hnewer rfl
          exact hfresh before e after now hnewer

/-- What is live after a sweep. -/
theorem liveFrom_evicted :
    LiveFrom read idleMs (events ++ [CacheEvent.evicted now]) hash artifact ↔
    LiveFrom read idleMs events hash artifact ∧
      ∀ last, lastCall? hash events = some last → now - last < idleMs := by
  rw [liveFrom_concat]
  simp [CacheEvent.sweptAt?]

/-- What is live after a call: what it returned, and what its sweep left. -/
theorem liveFrom_obtained {outcome : Except HookError CompiledScript} {read' : Bool} :
    LiveFrom read idleMs (events ++ [CacheEvent.obtained other now outcome read']) hash artifact ↔
      other = hash ∧ outcome = .ok artifact ∧ read' = read ∨
        LiveFrom read idleMs (events ++ [CacheEvent.evicted now]) hash artifact := by
  rw [liveFrom_concat, liveFrom_evicted]
  simp [CacheEvent.sweptAt?]

/-- What is forgotten is live no more, and nothing else changes. -/
theorem liveFrom_forgotten :
    LiveFrom read idleMs (events ++ [CacheEvent.forgotten other]) hash artifact ↔
    LiveFrom read idleMs events hash artifact ∧ other ≠ hash := by
  rw [liveFrom_concat]
  simp [CacheEvent.sweptAt?]

/-! ## The cache holds what is live -/

namespace CompiledCache

/-- A cache with the history that made it. -/
structure Reflects (idleMs : Nat) (events : List CacheEvent) (c : CompiledCache) : Prop where
  window : c.idleMs = idleMs
  orderly : c.Orderly
  cells : ∀ {hash cell}, c.held? hash = some cell →
    cell.artifact ≠ none ∧ lastCall? hash events = some cell.lastAccess
  compiled : ∀ {hash artifact}, LiveFrom true idleMs events hash artifact ↔
    ∃ last, c.held? hash = some ⟨some artifact, last⟩
  hit : ∀ {hash artifact}, LiveFrom false idleMs events hash artifact →
    LiveFrom true idleMs events hash artifact
  compilations : c.compilations = events.countP CacheEvent.isCompilation

variable {c : CompiledCache} {events : List CacheEvent} {hash : String}

/-- Nothing is held at the beginning, and nothing is live. -/
theorem reflects_new (idleMs : Nat) : Reflects idleMs [] { idleMs } where
  window := rfl
  orderly := orderly_new idleMs
  cells := nofun
  compiled := ⟨fun h => absurd h not_liveFrom_nil, nofun⟩
  hit h := absurd h not_liveFrom_nil
  compilations := rfl

/-- What is live is what is held. -/
theorem Reflects.live_iff (hr : Reflects idleMs events c) :
    Live idleMs events hash artifact ↔ ∃ last, c.held? hash = some ⟨some artifact, last⟩ := by
  rw [← hr.compiled]
  refine ⟨?_, fun h => ⟨true, h⟩⟩
  rintro ⟨_ | _, h⟩
  · exact hr.hit h
  · exact h

/-- What a sweep leaves is what stays live. -/
theorem Reflects.evict (hr : Reflects idleMs events c) (now : Nat) :
    Reflects idleMs (events ++ [CacheEvent.evicted now]) (c.evict now) where
  window := hr.window
  orderly := hr.orderly.filter _
  cells h := by
    rw [lastCall?_concat]
    exact hr.cells (hr.orderly.held?_evict.mp h).1
  compiled := by
    intro hash artifact
    simp only [liveFrom_evicted, hr.orderly.held?_evict, hr.compiled, hr.window]
    constructor
    · rintro ⟨⟨last, hentry⟩, hfresh⟩
      exact ⟨last, hentry, hfresh last (hr.cells hentry).2⟩
    · rintro ⟨last, hentry, hfresh⟩
      refine ⟨⟨last, hentry⟩, fun latest hlatest => ?_⟩
      rw [(hr.cells hentry).2] at hlatest
      cases hlatest
      exact hfresh
  hit := by
    intro hash artifact
    rw [liveFrom_evicted, liveFrom_evicted]
    exact And.imp_left hr.hit
  compilations := by
    rw [List.countP_append, ← hr.compilations]
    rfl

/-- A digest is forgotten. -/
theorem Reflects.forget (hr : Reflects idleMs events c) (hash : String) :
    Reflects idleMs (events ++ [CacheEvent.forgotten hash]) (c.forget hash) := by
  have hsets := hr.orderly.sets_forget hash
  constructor
  case window => exact hr.window
  case orderly => exact hsets.orderly
  case cells =>
    intro other cell hentry
    rw [hsets.held?] at hentry
    split at hentry
    case isTrue => cases hentry
    case isFalse =>
      rw [lastCall?_concat]
      exact hr.cells hentry
  case compiled =>
    intro other artifact
    rw [liveFrom_forgotten, hr.compiled, hsets.held?]
    split
    case isTrue heq => simp [heq]
    case isFalse hne => simp [Ne.symm hne]
  case hit =>
    intro other artifact
    rw [liveFrom_forgotten, liveFrom_forgotten]
    exact And.imp_left hr.hit
  case compilations =>
    rw [List.countP_append, ← hr.compilations]
    rfl

section Call

variable {c' : CompiledCache} {cell : Option ArtifactCell}
  {outcome : Except HookError CompiledScript} {read : Bool}

/-- A call changes the entry of its digest only. -/
theorem Reflects.set (hr : Reflects idleMs (events ++ [CacheEvent.evicted now]) c)
    (hsets : Sets c c' hash cell)
    (hcell : ∀ held ∈ cell, held.artifact ≠ none ∧ held.lastAccess = now)
    (hcompiled : ∀ artifact,
      LiveFrom true idleMs (events ++ [CacheEvent.obtained hash now outcome read]) hash artifact ↔
        ∃ last, cell = some ⟨some artifact, last⟩)
    (hhit : ∀ artifact,
      LiveFrom false idleMs (events ++ [CacheEvent.obtained hash now outcome read]) hash artifact →
        LiveFrom true idleMs (events ++ [CacheEvent.obtained hash now outcome read]) hash artifact)
    (hcount : c'.compilations =
      c.compilations + List.countP CacheEvent.isCompilation [.obtained hash now outcome read]) :
    Reflects idleMs (events ++ [CacheEvent.obtained hash now outcome read]) c' := by
  -- For another digest, the event is no more than its sweep.
  have hother : ∀ {other r artifact}, other ≠ hash →
      (LiveFrom r idleMs (events ++ [CacheEvent.obtained hash now outcome read]) other artifact ↔
        LiveFrom r idleMs (events ++ [CacheEvent.evicted now]) other artifact) := by
    intro other r artifact hne
    simp [liveFrom_obtained, hne.symm]
  constructor
  case window => exact hsets.idleMs.trans hr.window
  case orderly => exact hsets.orderly
  case cells =>
    intro other held hentry
    rw [hsets.held?] at hentry
    by_cases heq : other = hash
    · subst heq
      obtain ⟨hheld, hlast⟩ := hcell held ((if_pos rfl).symm.trans hentry)
      exact ⟨hheld, by simp [lastCall?_concat, CacheEvent.calledAt?, hlast]⟩
    · obtain ⟨hheld, hlast⟩ := hr.cells ((if_neg heq).symm.trans hentry)
      refine ⟨hheld, ?_⟩
      rw [lastCall?_concat] at hlast ⊢
      simpa [CacheEvent.calledAt?, Ne.symm heq] using hlast
  case compiled =>
    intro other artifact
    rw [hsets.held?]
    by_cases heq : other = hash
    · subst heq
      rw [if_pos rfl]
      exact hcompiled artifact
    · rw [if_neg heq, hother heq]
      exact hr.compiled
  case hit =>
    intro other artifact
    by_cases heq : other = hash
    · subst heq
      exact hhit artifact
    · rw [hother heq, hother heq]
      exact hr.hit
  case compilations =>
    rw [hcount, hr.compilations, List.countP_append, List.countP_append]
    rfl

/-- A call makes live what it returns. -/
theorem Reflects.obtained {compiled : Except HookError CompiledScript} {lookup : Lookup}
    (hr : Reflects idleMs (events ++ [CacheEvent.evicted now]) c)
    (h : Obtained c hash now compiled lookup) :
    Reflects idleMs (events ++ [CacheEvent.obtained hash now lookup.outcome lookup.sourceRead])
      lookup.cache := by
  have hentry : ∀ {artifact},
      LiveFrom true idleMs (events ++ [CacheEvent.evicted now]) hash artifact ↔
      ∃ last, c.held? hash = some ⟨some artifact, last⟩ := hr.compiled
  have hlive : ∀ {artifact},
      LiveFrom false idleMs (events ++ [CacheEvent.evicted now]) hash artifact →
      ∃ last, c.held? hash = some ⟨some artifact, last⟩ := fun h => hr.compiled.mp (hr.hit h)
  cases h with
  | hit hfound hsets hcount =>
    refine hr.set hsets (by simp) (fun artifact => ?_) (fun artifact => ?_) hcount
    · simp [liveFrom_obtained, hentry, hfound]
    · rw [liveFrom_obtained, liveFrom_obtained, hentry]
      rintro (⟨-, hok, -⟩ | hbefore)
      · cases hok
        exact .inr ⟨_, hfound⟩
      · exact .inr (hlive hbefore)
  | compiled habsent hok hsets hcount =>
    refine hr.set hsets (by simp) (fun artifact => ?_) (fun artifact => ?_) hcount
    · simp [liveFrom_obtained, hentry, habsent]
    · rw [liveFrom_obtained]
      rintro (⟨-, -, hread⟩ | hbefore)
      · cases hread
      · obtain ⟨last, hfound⟩ := hlive hbefore
        exact absurd (habsent.symm.trans hfound) nofun
  | failed habsent herror hsets hcount =>
    refine hr.set hsets (by simp) (fun artifact => ?_) (fun artifact => ?_) hcount
    · simp [liveFrom_obtained, hentry, habsent]
    · rw [liveFrom_obtained]
      rintro (⟨-, hok, -⟩ | hbefore)
      · cases hok
      · obtain ⟨last, hfound⟩ := hlive hbefore
        exact absurd (habsent.symm.trans hfound) nofun

end Call

/-- A call on a cache with its history. -/
theorem Reflects.obtain (hr : Reflects idleMs events c)
    (compiler : String → String → Except HookError CompiledScript) (hash : String) (now : Nat)
    (source : Except HookError String) :
    Obtained (c.evict now) hash now (source >>= compiler hash)
      (c.obtain compiler hash now fun _ => source) :=
  hr.orderly.obtained (fun h => (hr.cells h).1) compiler hash now source

/-- A digest is cached if something is live for it. -/
theorem Reflects.contains_iff (hr : Reflects idleMs events c) :
    c.contains hash = true ↔ ∃ artifact, Live idleMs events hash artifact := by
  rw [hr.orderly.contains_iff]
  constructor
  · rintro ⟨⟨held, last⟩, hentry⟩
    obtain ⟨artifact, rfl⟩ := Option.ne_none_iff_exists'.mp (hr.cells hentry).1
    exact ⟨artifact, hr.live_iff.mpr ⟨last, hentry⟩⟩
  · rintro ⟨artifact, hlive⟩
    obtain ⟨last, hentry⟩ := hr.live_iff.mp hlive
    exact ⟨_, hentry⟩

/-- The digests with something live are as many as the slots. -/
theorem Reflects.encard_live (hr : Reflects idleMs events c) :
    {hash | ∃ artifact, Live idleMs events hash artifact}.encard = c.size := by
  have hkeys : {hash | ∃ artifact, Live idleMs events hash artifact} =
      ((c.registered.map (·.1)).toFinset : Set String) := by
    ext hash
    rw [Set.mem_ofPred_eq, ← hr.contains_iff, contains, Option.isSome_iff_exists,
      Finset.mem_coe, List.mem_toFinset, List.mem_map]
    simp [hr.orderly.slot?_eq_some_iff]
  rw [hkeys, Set.encard_coe_eq_coe_finsetCard, List.toFinset_card_of_nodup hr.orderly.keys,
    List.length_map, size]

end CompiledCache

namespace ClockedCache

open CompiledCache

/-- Any action of a caller. -/
theorem reflects_act {s : ClockedCache} (hr : s.cache.Reflects idleMs s.history)
    (action : CacheAction) : (s.act action).cache.Reflects idleMs (s.act action).history := by
  cases action with
  | obtain hash compiler source =>
    exact (hr.evict s.now).obtained (hr.obtain compiler hash s.now source)
  | forget hash => exact hr.forget hash
  | evict => exact hr.evict s.now
  | contains hash => exact hr
  | advance ms => exact hr
  | set ms => exact hr

/-- Any actions one after the other. -/
theorem reflects_run {s : ClockedCache} (hr : s.cache.Reflects idleMs s.history)
    (actions : List CacheAction) :
    (s.run actions).cache.Reflects idleMs (s.run actions).history := by
  induction actions generalizing s with
  | nil => exact hr
  | cons action actions ih => exact ih (reflects_act hr action)

/-- After any actions of a single caller, the history alone decides what a call comes to. It
reads the source if and only if its own sweep leaves nothing live for the digest; otherwise it
returns the very artifact that was compiled. A call that fails leaves nothing registered. The
slots are as many as the digests with something live, and the compilations are the successful
calls that read the source. -/
theorem obtain_decided_by_history (idleMs : Nat) (start : UInt64) (actions : List CacheAction) :
    let s := run ⟨{ idleMs }, ⟨start⟩, []⟩ actions
    (∀ hash compiler source,
      let seen := s.history ++ [CacheEvent.evicted s.now]
      let lookup := s.lookup hash compiler source
      (lookup.sourceRead = true ↔ ¬∃ artifact, Live idleMs seen hash artifact) ∧
      (lookup.sourceRead = true → lookup.outcome = source >>= compiler hash) ∧
      (∀ artifact, Live idleMs seen hash artifact →
        lookup.outcome = .ok artifact ∧ LiveFrom true idleMs seen hash artifact) ∧
      (∀ error, lookup.outcome = .error error → lookup.cache.contains hash = false)) ∧
    (∀ hash, s.cache.contains hash = true ↔ ∃ artifact, Live idleMs s.history hash artifact) ∧
    {hash | ∃ artifact, Live idleMs s.history hash artifact}.encard = s.cache.size ∧
    s.cache.compilations = s.history.countP CacheEvent.isCompilation := by
  intro s
  have hr : s.cache.Reflects idleMs s.history := reflects_run (reflects_new idleMs) actions
  refine ⟨fun hash compiler source => ?_, fun hash => hr.contains_iff, hr.encard_live,
    hr.compilations⟩
  intro seen lookup
  have hseen : (s.cache.evict s.now).Reflects idleMs seen := hr.evict s.now
  have hobtained : Obtained (s.cache.evict s.now) hash s.now (source >>= compiler hash) lookup :=
    hr.obtain compiler hash s.now source
  generalize lookup = l at hobtained ⊢
  simp only [hseen.live_iff, hseen.compiled]
  cases hobtained with
  | hit hfound hsets hcount => simp [hfound]
  | compiled habsent hok hsets hcount => simp [habsent, hok]
  | @failed error c' habsent herror hsets hcount =>
    have hgone : c'.contains hash = false := by
      rw [Bool.eq_false_iff, Ne, hsets.orderly.contains_iff, hsets.held?]
      simp
    simp [habsent, herror, hgone]

end ClockedCache

end ScriptHooks

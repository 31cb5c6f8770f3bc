/-
ScriptHooks.Hook.CompiledCache — compiled scripts, kept by the digest of their
source.

A digest is registered to a slot; the first caller for it fills the slot, later
ones take what is there. A slot that fails to be filled is unregistered, and so is
one that nobody used for the idle window. Whoever still holds an unregistered slot
keeps it, so a slot is a number and its cell lives on.

Each function from `evict` to `release` is one critical section of a call: what it
does happens at once. `obtain` is the sequence of sections of a call that
runs alone: idle slots are swept, the digest is given its slot, its use is noted, and
what is in the slot is taken, or compiled and put there.

In a `SharedCache` several calls are under way, each in a section of its own, and take
their steps in any order. A call has a stage (`CallStage`): it has begun, has been given
a slot, waits for the lock of the slot, compiles in it, has failed and is about to
unregister it, or has returned. A call that waits is blocked while another one compiles in
its slot. The source is part of the call, as it was read before.

A `ClockedCache` has a single caller and a clock, which goes round. It keeps the history of
what happened, so that what is found in the cache can be compared with it.
-/
import ScriptHooks.Hook.Error

namespace ScriptHooks

/-- A script that was accepted and can be run. -/
structure CompiledScript where
  contentHash : String
  program : String
  deriving Repr, DecidableEq

/-- What a slot holds. -/
structure ArtifactCell where
  artifact : Option CompiledScript
  lastAccess : Nat
  deriving Repr, DecidableEq

/-- Compiled scripts by the digest of their source. -/
structure CompiledCache where
  /-- How long an entry may go unused, in milliseconds. -/
  idleMs : Nat
  /-- The slots by digest. -/
  registered : List (String × Nat) := []
  /-- What the slots hold, by their numbers. -/
  cells : List ArtifactCell := []
  /-- How many compilations succeeded. -/
  compilations : Nat := 0

namespace CompiledCache

def cell? (cache : CompiledCache) (slot : Nat) : Option ArtifactCell := cache.cells[slot]?

def slot? (cache : CompiledCache) (hash : String) : Option Nat :=
  Json.lookup hash cache.registered

def contains (cache : CompiledCache) (hash : String) : Bool := (cache.slot? hash).isSome

def size (cache : CompiledCache) : Nat := cache.registered.length

/-- Whether a slot was used within the idle window. Time that went backwards counts
as none. -/
def isFresh (cache : CompiledCache) (now slot : Nat) : Bool :=
  match cache.cell? slot with
  | some cell => now - cell.lastAccess < cache.idleMs
  | none => false

/-- Unregister the slots that went unused for the idle window. -/
def evict (cache : CompiledCache) (now : Nat) : CompiledCache :=
  { cache with registered := cache.registered.filter fun entry => cache.isFresh now entry.2 }

/-- How many slots `evict` unregisters. -/
def evictable (cache : CompiledCache) (now : Nat) : Nat := cache.size - (cache.evict now).size

/-- The slot for a digest, a new one if none is registered. -/
def openSlot (cache : CompiledCache) (hash : String) (now : Nat) : Nat × CompiledCache :=
  match cache.slot? hash with
  | some slot => (slot, cache)
  | none =>
    let slot := cache.cells.length
    (slot, { cache with
      registered := cache.registered ++ [(hash, slot)]
      cells := cache.cells ++ [⟨none, now⟩] })

/-- Note that a slot is used now. -/
def touch (cache : CompiledCache) (slot now : Nat) : CompiledCache :=
  { cache with cells := cache.cells.modify slot fun cell => { cell with lastAccess := now } }

def artifact? (cache : CompiledCache) (slot : Nat) : Option CompiledScript :=
  (cache.cell? slot).bind (·.artifact)

def fill (cache : CompiledCache) (slot : Nat) (artifact : CompiledScript) : CompiledCache :=
  { cache with
    cells := cache.cells.modify slot fun cell => { cell with artifact := some artifact }
    compilations := cache.compilations + 1 }

/-- Unregister a slot that could not be filled, unless the digest has another by now. -/
def release (cache : CompiledCache) (hash : String) (slot : Nat) : CompiledCache :=
  if cache.slot? hash = some slot then
    { cache with registered := cache.registered.filter fun entry => entry.1 != hash }
  else cache

def forget (cache : CompiledCache) (hash : String) : CompiledCache :=
  { cache with registered := cache.registered.filter fun entry => entry.1 != hash }

/-- How a call for a compiled script went: the outcome, whether the source was asked
for, and the cache after it. -/
structure Lookup where
  outcome : Except HookError CompiledScript
  sourceRead : Bool
  cache : CompiledCache

/-- The compiled script for a digest. The source is asked for only if the slot is
empty. -/
def obtain (cache : CompiledCache)
    (compile : String → String → Except HookError CompiledScript) (hash : String) (now : Nat)
    (source : Unit → Except HookError String) : Lookup :=
  let (slot, cache) := (cache.evict now).openSlot hash now
  let cache := cache.touch slot now
  match cache.artifact? slot with
  | some artifact => ⟨.ok artifact, false, cache⟩
  | none =>
    match source () >>= compile hash with
    | .ok artifact => ⟨.ok artifact, true, cache.fill slot artifact⟩
    | .error error => ⟨.error error, true, cache.release hash slot⟩

end CompiledCache

/-! ## Several callers -/

/-- How far a call for a compiled script has come. -/
inductive CallStage
  /-- The slots that went unused are unregistered. -/
  | begun
  /-- It has its slot. -/
  | opened (slot : Nat)
  /-- It waits for the lock of its slot. -/
  | waiting (slot : Nat)
  /-- The slot was empty. The call holds its lock and compiles. -/
  | compiling (slot : Nat)
  /-- The lock is given back; the slot is still to be unregistered. -/
  | failing (slot : Nat) (error : HookError)
  | returned (outcome : Except HookError CompiledScript)

/-- A call for a compiled script. -/
structure CacheCall where
  hash : String
  /-- The time at which it began. -/
  now : Nat
  /-- The source, should it be asked for. -/
  source : Except HookError String
  stage : CallStage := .begun

/-- A cache and all calls so far, by their numbers. -/
structure SharedCache where
  cache : CompiledCache
  calls : List CacheCall := []

namespace SharedCache

def call? (s : SharedCache) (number : Nat) : Option CacheCall := s.calls[number]?

/-- A call that has come to another stage. -/
def turn (s : SharedCache) (number : Nat) (stage : CallStage) : SharedCache :=
  { s with calls := s.calls.modify number fun call => { call with stage := stage } }

/-- A call begins: the slots that went unused are unregistered. -/
def begin (s : SharedCache) (hash : String) (now : Nat) (source : Except HookError String) :
    SharedCache :=
  { cache := s.cache.evict now, calls := s.calls ++ [{ hash, now, source }] }

/-- A call gets its slot. -/
def enter (s : SharedCache) (number : Nat) : SharedCache :=
  match s.call? number with
  | some ⟨hash, now, _, .begun⟩ =>
    let (slot, cache) := s.cache.openSlot hash now
    { s with cache := cache }.turn number (.opened slot)
  | _ => s

/-- A call notes that its slot is used. -/
def touch (s : SharedCache) (number : Nat) : SharedCache :=
  match s.call? number with
  | some ⟨_, now, _, .opened slot⟩ =>
    { s with cache := s.cache.touch slot now }.turn number (.waiting slot)
  | _ => s

/-- A call that gets the lock of its slot takes what is there, or has to compile. -/
def look (s : SharedCache) (number : Nat) : SharedCache :=
  match s.call? number with
  | some ⟨_, _, _, .waiting slot⟩ =>
    match s.cache.artifact? slot with
    | some artifact => s.turn number (.returned (.ok artifact))
    | none => s.turn number (.compiling slot)
  | _ => s

/-- Whether the slot that a call waits for is locked by another. -/
def isBlocked (s : SharedCache) (number : Nat) : Bool :=
  match s.call? number with
  | some ⟨_, _, _, .waiting slot⟩ => s.calls.any fun call =>
    match call.stage with
    | .compiling other => other == slot
    | _ => false
  | _ => false

/-- A call that compiles is done: it fills its slot, or has failed. -/
def compile (compiler : String → String → Except HookError CompiledScript) (s : SharedCache)
    (number : Nat) : SharedCache :=
  match s.call? number with
  | some ⟨hash, _, source, .compiling slot⟩ =>
    match source >>= compiler hash with
    | .ok artifact =>
      { s with cache := s.cache.fill slot artifact }.turn number (.returned (.ok artifact))
    | .error error => s.turn number (.failing slot error)
  | _ => s

/-- A call that failed unregisters its slot. -/
def release (s : SharedCache) (number : Nat) : SharedCache :=
  match s.call? number with
  | some ⟨hash, _, _, .failing slot error⟩ =>
    { s with cache := s.cache.release hash slot }.turn number (.returned (.error error))
  | _ => s

end SharedCache

/-- A step of a caller. Calls are given by their numbers. -/
inductive CacheStep
  | begin (hash : String) (now : Nat) (source : Except HookError String)
  | enter (call : Nat)
  | touch (call : Nat)
  | look (call : Nat)
  | compile (call : Nat)
  | release (call : Nat)
  | evict (now : Nat)
  | forget (hash : String)

namespace SharedCache

variable (compiler : String → String → Except HookError CompiledScript)

/-- A step. Nothing happens where it is not possible. -/
def step (s : SharedCache) : CacheStep → SharedCache
  | .begin hash now source => s.begin hash now source
  | .enter number => s.enter number
  | .touch number => s.touch number
  | .look number => if s.isBlocked number then s else s.look number
  | .compile number => s.compile compiler number
  | .release number => s.release number
  | .evict now => { s with cache := s.cache.evict now }
  | .forget hash => { s with cache := s.cache.forget hash }

def run (s : SharedCache) (steps : List CacheStep) : SharedCache := steps.foldl (step compiler) s

end SharedCache

/-- A clock that moves when told to, in milliseconds of sixty-four bits. -/
structure SettableClock where
  now : UInt64
  deriving Repr, DecidableEq

namespace SettableClock

/-- The clock so many milliseconds later; it wraps. -/
def advance (clock : SettableClock) (ms : UInt64) : SettableClock := ⟨clock.now + ms⟩

end SettableClock

/-! ## A single caller -/

/-- What a single caller does with a cache and its clock. Every call for a compiled script
may meet another compiler and another source. -/
inductive CacheAction
  | obtain (hash : String) (compiler : String → String → Except HookError CompiledScript)
      (source : Except HookError String)
  | forget (hash : String)
  | evict
  | contains (hash : String)
  | advance (ms : UInt64)
  | set (ms : UInt64)

/-- What happened to a cache. Times are those of its clock. -/
inductive CacheEvent
  | obtained (hash : String) (time : Nat) (outcome : Except HookError CompiledScript)
      (sourceRead : Bool)
  | forgotten (hash : String)
  | evicted (time : Nat)

/-- A cache with its clock and its history, the latest event last. -/
structure ClockedCache where
  cache : CompiledCache
  clock : SettableClock
  history : List CacheEvent := []

namespace ClockedCache

def now (s : ClockedCache) : Nat := s.clock.now.toNat

def lookup (s : ClockedCache) (hash : String)
    (compiler : String → String → Except HookError CompiledScript)
    (source : Except HookError String) : CompiledCache.Lookup :=
  s.cache.obtain compiler hash s.now fun _ => source

def act (s : ClockedCache) : CacheAction → ClockedCache
  | .obtain hash compiler source =>
    let lookup := s.lookup hash compiler source
    { s with
      cache := lookup.cache
      history := s.history ++ [.obtained hash s.now lookup.outcome lookup.sourceRead] }
  | .forget hash =>
    { s with cache := s.cache.forget hash, history := s.history ++ [.forgotten hash] }
  | .evict => { s with cache := s.cache.evict s.now, history := s.history ++ [.evicted s.now] }
  | .contains _ => s
  | .advance ms => { s with clock := s.clock.advance ms }
  | .set ms => { s with clock := ⟨ms⟩ }

def run (s : ClockedCache) (actions : List CacheAction) : ClockedCache := actions.foldl act s

end ClockedCache

end ScriptHooks

/-
ScriptHooks.Proofs.Hook.ResolvedVersion — an invocation runs the version of its script
that was resolved.

An invocation carries the definition that was resolved for it. By the time it runs, the script may
have another source, or none. What runs may come from the compiled scripts, from the store or from
the definition itself, and it should be the version that was resolved in each case.

The digest decides: whatever is compiled for a digest has that digest (`compileScript_eq_ok`), and
what a definition gives to be compiled has the digest of the definition (`contentHash_sourceFor`):
it takes the stored source only where that has the digest. With `SharedCache.sound_run` this holds
on every cache that callers can bring about, under way or done.

`RunsResolved` lists what may come of an invocation: the source that was resolved runs, or a store
that cannot be read, or a source that is refused for what it says. That digests do not collide is
asked only of the texts at hand (`textsAtHand`): the source of the definition, the stored one, and
those that the calls of the cache came with. `IsResolved` is the conclusion for one program: it has
the digest of the definition, and it is the source of the definition if no two of the texts at hand
share a digest.

`execute_runsResolved` has both parts of the result: for an invocation that runs alone, and for the
lookups that callers have under way. The witness runs the old version of a script while the store
has the new one.
-/
import ScriptHooks.Hook.Engine
import ScriptHooks.Proofs.Hook.CacheCalls

namespace ScriptHooks

/-! ## Compiling -/

section Compiling

variable {checkSyntax : String → String → Except HookError Unit} {hash source : String}

/-- What is compiled for a digest has the digest, is valid and is accepted by the engine. -/
theorem compileScript_eq_ok {artifact : CompiledScript}
    (h : compileScript checkSyntax hash source = .ok artifact) :
    artifact.program = source ∧ contentHash source = hash ∧
      (Script.validate source).isOk = true := by
  unfold compileScript at h
  split at h
  case isTrue => cases h
  case isFalse hhash =>
    split at h
    case h_1 => cases h
    case h_2 hvalid =>
      split at h
      case h_1 => cases h
      case h_2 =>
        cases h
        exact ⟨rfl, Classical.not_not.mp hhash, by rw [hvalid]; rfl⟩

/-- A source that has the digest is refused for what it says only. -/
theorem compileScript_eq_error {error : HookError} (hhash : contentHash source = hash)
    (h : compileScript checkSyntax hash source = .error error) :
    (∃ report, Script.validate source = .error report ∧ error = .compile hash report.summary) ∨
      (Script.validate source).isOk = true ∧ checkSyntax hash source = .error error := by
  rw [compileScript, if_neg (Classical.not_not.mpr hhash)] at h
  split at h
  case h_1 report hreport =>
    cases h
    exact .inl ⟨report, hreport, rfl⟩
  case h_2 hvalid =>
    split at h
    case h_1 hfailed =>
      cases h
      exact .inr ⟨by rw [hvalid]; rfl, hfailed⟩
    case h_2 => cases h

end Compiling

namespace Engine

/-! ## Versions -/

/-- A definition gives a source of its own digest to be compiled. -/
theorem contentHash_sourceFor {script : ScriptDefinition} (stored : Option String)
    (h : contentHash script.source = script.contentHash) :
    contentHash (sourceFor stored script) = script.contentHash := by
  unfold sourceFor
  split
  · split
    · assumption
    · exact h
  · exact h

/-- The texts that could be taken for a script: its own, the stored one, and those that
calls for compiled scripts gave. -/
def textsAtHand (script : ScriptDefinition) (stored : Except HookError (Option String))
    (calls : List CacheCall) : List String :=
  script.source :: stored.toOption.join.toList ++ calls.filterMap (·.source.toOption)

/-- The source of a call is at hand. -/
theorem mem_textsAtHand_of_call {script : ScriptDefinition}
    {stored : Except HookError (Option String)} {calls : List CacheCall} {call : CacheCall}
    {text : String} (hmem : call ∈ calls) (hsource : call.source = .ok text) :
    text ∈ textsAtHand script stored calls :=
  List.mem_append_right _ (List.mem_filterMap.mpr ⟨call, hmem, by rw [hsource]; rfl⟩)

/-- What is compiled comes from the definition and what the store gave. -/
theorem sourceFor_of_map_eq_ok {script : ScriptDefinition}
    {stored : Except HookError (Option String)} {text : String}
    (h : stored.map (sourceFor · script) = .ok text) :
    ∃ kept, stored = .ok kept ∧ sourceFor kept script = text := by
  cases stored with
  | error error => cases h
  | ok kept => exact ⟨kept, rfl, Except.ok.inj h⟩

/-- What a definition gives to be compiled is at hand. -/
theorem sourceFor_mem_textsAtHand {script : ScriptDefinition}
    {stored : Except HookError (Option String)} {kept : Option String} (calls : List CacheCall)
    (hstored : stored = .ok kept) : sourceFor kept script ∈ textsAtHand script stored calls := by
  subst hstored
  refine List.mem_append_left _ ?_
  unfold sourceFor
  split
  · split
    · exact List.mem_cons_of_mem _ List.mem_cons_self
    · exact List.mem_cons_self
  · exact List.mem_cons_self

/-- A program is the version of the script that was resolved: it has the digest, and is
the source of the definition unless the digests of two texts at hand collide. -/
structure IsResolved (texts : List String) (script : ScriptDefinition) (program : String) :
    Prop where
  hash : contentHash program = script.contentHash
  source : (∀ a ∈ texts, ∀ b ∈ texts, contentHash a = contentHash b → a = b) →
    program = script.source

/-- What may come of an invocation. The version that was resolved is run if it is valid.
Else nothing is run: the store could not be read, or this version is refused for what
it says. It is never refused for its digest. -/
inductive RunsResolved (runtime : ScriptRuntime) (texts : List String)
    (stored : Except HookError (Option String)) (invocation : Invocation) : CallResult → Prop
  | ran {program} (hp : IsResolved texts invocation.script program)
      (hvalid : (Script.validate program).isOk = true) :
      RunsResolved runtime texts stored invocation (runtime.call (invocation.callOf program))
  | unreadable {error} (h : stored = .error error) :
      RunsResolved runtime texts stored invocation
        ⟨.error (relabel invocation.script.id.text error), {}⟩
  | invalid {program report} (hp : IsResolved texts invocation.script program)
      (hinvalid : Script.validate program = .error report) :
      RunsResolved runtime texts stored invocation
        ⟨.error (.compile invocation.script.id.text report.summary), {}⟩
  | unparsable {program error} (hp : IsResolved texts invocation.script program)
      (hvalid : (Script.validate program).isOk = true)
      (hrefused : runtime.checkSyntax invocation.script.contentHash program = .error error) :
      RunsResolved runtime texts stored invocation
        ⟨.error (relabel invocation.script.id.text error), {}⟩

section Answers

variable {runtime : ScriptRuntime} {texts : List String} {script : ScriptDefinition}
  {stored : Except HookError (Option String)} {invocation : Invocation}

/-- A text at hand with the digest is the source that was resolved, if no digests collide. -/
theorem isResolved_of_mem {program : String} (hown : script.source ∈ texts)
    (h : contentHash script.source = script.contentHash) (hmem : program ∈ texts)
    (hhash : contentHash program = script.contentHash) : IsResolved texts script program where
  hash := hhash
  source hinj := hinj program hmem script.source hown (hhash.trans h.symm)

/-- A call for the script of an invocation, with the source that the definition gives, and
what comes of the invocation when the call returns. -/
theorem answer_runsResolved {s : SharedCache}
    (hs : SharedCache.Sound (compileScript runtime.checkSyntax) s)
    (h : contentHash invocation.script.source = invocation.script.contentHash)
    (hown : invocation.script.source ∈ texts)
    (htexts : ∀ call ∈ s.calls, ∀ text, call.source = .ok text → text ∈ texts)
    {call : CacheCall} (hcall : call ∈ s.calls) (hhash : call.hash = invocation.script.contentHash)
    (hsource : call.source = stored.map (sourceFor · invocation.script))
    {outcome : Except HookError CompiledScript} (hreturned : call.stage = .returned outcome) :
    RunsResolved runtime texts stored invocation (answer runtime invocation outcome) := by
  have hwarranted := hs.outcome hcall (by rw [hreturned]; rfl)
  cases outcome with
  | ok artifact =>
    obtain ⟨maker, hmaker, hmakerHash, hcompiled⟩ := hwarranted
    cases hgiven : maker.source with
    | error error =>
      rw [CacheCall.compiled_of_error hgiven] at hcompiled
      cases hcompiled
    | ok text =>
      rw [CacheCall.compiled_of_ok hgiven] at hcompiled
      obtain ⟨hprogram, htextHash, hvalid⟩ := compileScript_eq_ok hcompiled
      rw [answer, hprogram]
      exact .ran (isResolved_of_mem hown h (htexts maker hmaker text hgiven)
        (htextHash.trans (hmakerHash.trans hhash))) hvalid
  | error error =>
    have hfailed : call.compiled (compileScript runtime.checkSyntax) = .error error := hwarranted
    cases stored with
    | error unread =>
      rw [CacheCall.compiled_of_error hsource] at hfailed
      cases hfailed
      exact .unreadable rfl
    | ok kept =>
      have hkept : contentHash (sourceFor kept invocation.script) = invocation.script.contentHash :=
        contentHash_sourceFor kept h
      have hresolved : IsResolved texts invocation.script (sourceFor kept invocation.script) :=
        isResolved_of_mem hown h (htexts call hcall _ hsource) hkept
      rw [CacheCall.compiled_of_ok hsource, hhash] at hfailed
      obtain ⟨report, hreport, rfl⟩ | ⟨hvalid, hrefused⟩ := compileScript_eq_error hkept hfailed
      · exact .invalid hresolved hreport
      · exact .unparsable hresolved hvalid hrefused

/-- The lookup of an invocation that runs alone is a call of its own, which finds the cache
as the others left it. -/
theorem execute_runsResolved_of_sound {s : SharedCache}
    {stored : ScriptId → Except HookError (Option String)} {now : Nat}
    (hs : SharedCache.Sound (compileScript runtime.checkSyntax) s)
    (h : contentHash invocation.script.source = invocation.script.contentHash)
    (hown : invocation.script.source ∈ texts)
    (htexts : ∀ call ∈ s.calls, ∀ text, call.source = .ok text → text ∈ texts)
    (hgiven : ∀ kept, stored invocation.script.id = .ok kept →
      sourceFor kept invocation.script ∈ texts) :
    let result := execute ⟨runtime, s.cache⟩ stored now invocation
    RunsResolved runtime texts (stored invocation.script.id) invocation
      ⟨result.outcome, result.effects⟩ := by
  let source := (stored invocation.script.id).map (sourceFor · invocation.script)
  let lookup := s.cache.obtain (compileScript runtime.checkSyntax) invocation.script.contentHash
    now fun _ => source
  let alone : CacheCall :=
    ⟨invocation.script.contentHash, now, source, .returned lookup.outcome⟩
  have halone : SharedCache.Sound (compileScript runtime.checkSyntax)
      ⟨lookup.cache, s.calls ++ [alone]⟩ :=
    SharedCache.callAlone_eq s invocation.script.contentHash now source ▸
      hs.callAlone _ now source
  have htexts' : ∀ call ∈ s.calls ++ [alone], ∀ text, call.source = .ok text → text ∈ texts := by
    intro call hcall text hsource
    obtain hcall | hcall := List.mem_append.mp hcall
    · exact htexts call hcall text hsource
    · obtain rfl := List.mem_singleton.mp hcall
      obtain ⟨kept, hkept, rfl⟩ := sourceFor_of_map_eq_ok hsource
      exact hgiven kept hkept
  have hlast : alone ∈ s.calls ++ [alone] := List.mem_concat_self
  exact answer_runsResolved halone h hown htexts' hlast rfl rfl rfl

/-- An invocation whose script is accepted runs it, if no digests collide and the store can
be read. -/
theorem RunsResolved.eq_call {result : CallResult}
    (hr : RunsResolved runtime texts stored invocation result)
    (hinj : ∀ a ∈ texts, ∀ b ∈ texts, contentHash a = contentHash b → a = b)
    (hstored : stored.isOk = true)
    (hvalid : (Script.validate invocation.script.source).isOk = true)
    (haccepted : (runtime.checkSyntax invocation.script.contentHash
      invocation.script.source).isOk = true) :
    result = runtime.call (invocation.callOf invocation.script.source) := by
  cases hr with
  | ran hp => rw [hp.source hinj]
  | unreadable hunread =>
    rw [hunread] at hstored
    cases hstored
  | invalid hp hinvalid =>
    rw [hp.source hinj] at hinvalid
    rw [hinvalid] at hvalid
    cases hvalid
  | unparsable hp _ hrefused =>
    rw [hp.source hinj] at hrefused
    rw [hrefused] at haccepted
    cases haccepted

end Answers

/-- An invocation runs the version of its script that was resolved. Callers may have used the
cache in any way before, and calls may be under way; the store may hold the script, another
version or nothing. It is the same for an invocation whose lookup is one of those calls. -/
theorem execute_runsResolved (runtime : ScriptRuntime) (idleMs : Nat) (steps : List CacheStep)
    (stored : ScriptId → Except HookError (Option String)) (now : Nat) (invocation : Invocation)
    (h : contentHash invocation.script.source = invocation.script.contentHash) :
    let s := SharedCache.run (compileScript runtime.checkSyntax) { cache := { idleMs } } steps
    let script := invocation.script
    let texts := textsAtHand script (stored script.id) s.calls
    let result := execute ⟨runtime, s.cache⟩ stored now invocation
    RunsResolved runtime texts (stored script.id) invocation ⟨result.outcome, result.effects⟩ ∧
      ∀ call ∈ s.calls, call.hash = script.contentHash →
        call.source = (stored script.id).map (sourceFor · script) →
        ∀ outcome, call.stage = .returned outcome →
          RunsResolved runtime texts (stored script.id) invocation
            (answer runtime invocation outcome) := by
  intro s script texts result
  have hs : SharedCache.Sound (compileScript runtime.checkSyntax) s :=
    SharedCache.sound_run steps (SharedCache.sound_new idleMs)
  have hown : script.source ∈ texts := List.mem_cons_self
  have htexts : ∀ call ∈ s.calls, ∀ text, call.source = .ok text → text ∈ texts :=
    fun call hcall text hsource => mem_textsAtHand_of_call hcall hsource
  constructor
  · exact execute_runsResolved_of_sound hs h hown htexts
      fun kept hkept => sourceFor_mem_textsAtHand s.calls hkept
  · intro call hcall hhash hsource outcome hreturned
    exact answer_runsResolved hs h hown htexts hcall hhash hsource hreturned

/-- A runtime that gives back the program it is to run. -/
def echoRuntime : ScriptRuntime where
  call call := ⟨.ok (.string call.program), {}⟩
  checkSyntax _ _ := .ok ()

/-- A script that was replaced since. -/
def oldSource : String := "function executeScript() \x7b return 1; \x7d"

def newSource : String := "function executeScript() \x7b return 2; \x7d"

/-- An invocation that was resolved to the old version. -/
def staleInvocation : Invocation where
  script := {
    scope := .root, name := "greet", source := oldSource, contentHash := contentHash oldSource
    enabled := true, asyncCapable := false, subscribedEvents := ["created"], metadata := {} }
  event := "created"
  scope := .root
  payload := []
  output := none
  parameters := []
  returnClass := "Value"

/-- Another caller is about to compile the new version. -/
def updateSteps : List CacheStep :=
  [.begin (contentHash newSource) 0 (.ok newSource), .enter 0, .touch 0, .look 0]

/-- The old version runs though the store has the new one. -/
theorem execute_staleInvocation :
    let s := SharedCache.run (compileScript echoRuntime.checkSyntax) { cache := { idleMs := 10 } }
      updateSteps
    let stored : Except HookError (Option String) := .ok (some newSource)
    let texts := textsAtHand staleInvocation.script stored s.calls
    let result := execute ⟨echoRuntime, s.cache⟩ (fun _ => stored) 2 staleInvocation
    contentHash staleInvocation.script.source = staleInvocation.script.contentHash ∧
      RunsResolved echoRuntime texts stored staleInvocation ⟨result.outcome, result.effects⟩ ∧
      result.outcome = .ok (.string oldSource) := by
  intro s stored texts result
  have hruns := (execute_runsResolved echoRuntime 10 updateSteps (fun _ => stored) 2
    staleInvocation rfl).1
  have hne : contentHash newSource ≠ contentHash oldSource := by decide +kernel
  have htexts : ∀ text ∈ texts, text = oldSource ∨ text = newSource := by decide +kernel
  have hinj : ∀ a ∈ texts, ∀ b ∈ texts, contentHash a = contentHash b → a = b := by
    intro a ha b hb heq
    obtain rfl | rfl := htexts a ha <;> obtain rfl | rfl := htexts b hb
    · rfl
    · exact absurd heq.symm hne
    · exact absurd heq hne
    · rfl
  have hrun : ⟨result.outcome, result.effects⟩ =
      echoRuntime.call (staleInvocation.callOf oldSource) :=
    hruns.eq_call hinj rfl (by decide +kernel) rfl
  have houtcome : result.outcome = .ok (.string oldSource) := congrArg CallResult.outcome hrun
  exact ⟨rfl, hruns, houtcome⟩

end Engine

end ScriptHooks

/-
ScriptHooks.Proofs.Hook.Chains — what a chain of scripts runs, and what it comes to.

`Firing.Calls` says what a run of a chain is given, in particular the result of the run before
it; `HandsOver` that every run of a chain is given this and returns a value of the expected
type. `Ends` lists how a chain may end: all scripts that are due have run, or one of them fails
to compile, to run or to be converted, which is the last that happens. `fire_hands_over` says
that a chain that an event runs is of this kind: the calls that it makes are told by what they
leave behind, whatever the script engine answers.

  §1 Globals — what the globals of a run hold, and what they never hold;
  §2 Calls   — a compiled script has the digest of the definition that is run;
  §3 Chains  — one script after the other;
  §4 Firing  — the scripts that are due.

The script engine is a parameter: what it answers to a call may be anything. The call itself
is what the statements are about, and its globals are given name by name, so that a global that is
missing or one too many would show.

`runChain_ends` is the induction of §3. Its invariant is what the loop carries: the value of the
last run and the effects of all, which are those of the runs so far (`lastValue`, `effectsOf`). One
more run is handed the last value (`HandsOver.concat`), and a failure ends the list of runs.

A script is due unless a parameter that it requires has no value (`dueOf`). It is left out then, and
the chain goes on without it.
-/
import ScriptHooks.Proofs.Hook.CachedScripts
import ScriptHooks.Proofs.Hook.ParameterValues
import ScriptHooks.Proofs.Hook.ResolvedVersion
import ScriptHooks.Proofs.Hook.SwitchedScripts

namespace ScriptHooks

/-- An event that fires, and what is told to the scripts that it runs. -/
structure Firing where
  event : String
  /-- Where it fires. -/
  scope : ScopePath
  payload : Payload
  /-- The name of the type that the caller expects. -/
  returnClass : String

/-! ## Globals -/

/-- The globals of a run: what the engine gives, and of the payload what does not get in the way
of it or of the host. -/
structure Firing.Gives (firing : Firing) (store : ScriptStore) (script : ScriptDefinition)
    (output : Option Json) (globals : Payload) : Prop where
  sorted : Ordered.Sorted compareText globals
  event : Json.lookup "extensionEvent" globals = some (.string firing.event)
  output : Json.lookup "output" globals = some (output.getD .null)
  returnClass : Json.lookup "returnClass" globals = some (.string firing.returnClass)
  parameters : ∃ values, Json.lookup "extensionParameters" globals = some (.object values) ∧
    Ordered.Sorted compareText values ∧ ∀ name value, Json.lookup name values = some value ↔
      store.HasValue script.name firing.scope name value
  host : ∀ name ∈ ["log", "json", "simpleHttpClient", "utils"], Json.lookup name globals = none
  payload : ∀ name,
    name ∉ ["extensionEvent", "output", "returnClass", "extensionParameters", "log", "json",
      "simpleHttpClient", "utils"] →
    Json.lookup name globals = Json.valueOf name firing.payload

namespace Invocation

/-- The globals are in order, each name once. -/
theorem sorted_globals (invocation : Invocation) :
    Ordered.Sorted compareText invocation.globals :=
  Json.sorted_insertField (Json.sorted_insertField (Json.sorted_insertField
    (Json.sorted_insertField (Json.sorted_orderFields _) _ _) _ _) _ _) _ _

/-- What the globals hold, name by name. -/
theorem lookup_globals (invocation : Invocation) (name : String) :
    Json.lookup name invocation.globals =
      if "returnClass" = name then some (.string invocation.returnClass)
      else if "extensionParameters" = name then some (.object invocation.parameters)
      else if "output" = name then some (Json.orNull invocation.output)
      else if "extensionEvent" = name then some (.string invocation.event)
      else if hostGlobals.contains name then none
      else Json.valueOf name invocation.payload := by
  have hpayload := Json.valueOf_filter (fun name => !hostGlobals.contains name) name
    invocation.payload
  rw [Json.valueOf] at hpayload
  simp only [globals, Json.lookup_insertField, hpayload]
  cases hostGlobals.contains name <;> simp

end Invocation

/-- The globals of a run are those that a firing gives. -/
theorem Firing.gives_globals (firing : Firing) (store : ScriptStore) (script : ScriptDefinition)
    (output : Option Json) :
    firing.Gives store script output (Invocation.globals
      ⟨script, firing.event, firing.scope, firing.payload, output,
        Service.mergedParameters store script.name firing.scope, firing.returnClass⟩) where
  sorted := Invocation.sorted_globals _
  event := by simp [Invocation.lookup_globals]
  output := by cases output <;> simp [Invocation.lookup_globals, Json.orNull]
  returnClass := by simp [Invocation.lookup_globals]
  parameters := ⟨_, by simp [Invocation.lookup_globals], Service.sorted_mergedParameters ..,
    fun name value => Service.lookup_mergedParameters_iff⟩
  host name hname := by
    simp only [List.mem_cons, List.not_mem_nil, or_false] at hname
    rcases hname with rfl | rfl | rfl | rfl <;> simp [Invocation.lookup_globals, hostGlobals]
  payload name hname := by
    simp only [List.mem_cons, List.not_mem_nil, or_false, not_or] at hname
    obtain ⟨hevent, houtput, hclass, hparameters, hlog, hjson, hclient, hutils⟩ := hname
    simp [Invocation.lookup_globals, hostGlobals, Ne.symm hevent, Ne.symm houtput, Ne.symm hclass,
      Ne.symm hparameters, hlog, hjson, hclient, hutils]

/-! ## Calls -/

/-- The call by which a chain runs a script: its entry point, in a program of its digest that
is valid. -/
structure Firing.Calls (firing : Firing) (store : ScriptStore) (script : ScriptDefinition)
    (output : Option Json) (call : ScriptCall) : Prop where
  label : call.script = script.id.text
  digest : contentHash call.program = script.contentHash
  valid : (Script.validate call.program).isOk = true
  entry : call.entry = "executeScript"
  argument : call.argument = some (.string firing.event)
  context : call.context = ⟨script.id.text, firing.scope.text, firing.event⟩
  globals : firing.Gives store script output call.globals

namespace CompiledCache

/-- A cache that callers can bring about. -/
def Reachable (checkSyntax : String → String → Except HookError Unit) (cache : CompiledCache) :
    Prop :=
  ∃ s : SharedCache, s.cache = cache ∧ SharedCache.Sound (compileScript checkSyntax) s

/-- What a lookup may come to: a program of the digest that is valid, or what is wrong with the
source. -/
def Finds (checkSyntax : String → String → Except HookError Unit) (hash : String)
    (source : Except HookError String) : Except HookError CompiledScript → Prop
  | .ok artifact =>
    contentHash artifact.program = hash ∧ (Script.validate artifact.program).isOk = true
  | .error error => (source >>= compileScript checkSyntax hash) = .error error

variable {checkSyntax : String → String → Except HookError Unit} {cache : CompiledCache}

/-- What a lookup finds was compiled for the digest, and the cache stays reachable. -/
theorem Reachable.obtain (h : cache.Reachable checkSyntax) (hash : String) (now : Nat)
    (source : Except HookError String) :
    let lookup := cache.obtain (compileScript checkSyntax) hash now fun _ => source
    lookup.cache.Reachable checkSyntax ∧ Finds checkSyntax hash source lookup.outcome := by
  obtain ⟨s, rfl, hs⟩ := h
  intro lookup
  let alone : CacheCall := ⟨hash, now, source, .returned lookup.outcome⟩
  have halone : SharedCache.Sound (compileScript checkSyntax) ⟨lookup.cache, s.calls ++ [alone]⟩ :=
    SharedCache.callAlone_eq s hash now source ▸ hs.callAlone hash now source
  refine ⟨⟨_, rfl, halone⟩, ?_⟩
  have hmem : alone ∈ s.calls ++ [alone] := List.mem_concat_self
  have hwarranted := halone.outcome hmem rfl
  generalize lookup.outcome = outcome at hwarranted
  cases outcome with
  | error error => exact hwarranted
  | ok artifact =>
    obtain ⟨maker, -, hhash, hcompiled⟩ := hwarranted
    cases hgiven : maker.source with
    | error error =>
      rw [CacheCall.compiled_of_error hgiven] at hcompiled
      cases hcompiled
    | ok text =>
      rw [CacheCall.compiled_of_ok hgiven] at hcompiled
      obtain ⟨rfl, htext, hvalid⟩ := compileScript_eq_ok hcompiled
      exact ⟨htext.trans hhash, hvalid⟩

end CompiledCache

/-! ## Chains -/

/-- A run of a script in a chain that returned a value. -/
structure ChainRun where
  script : ScriptDefinition
  call : ScriptCall
  value : Json

section Chains

variable {α : Type} (firing : Firing) (runtime : ScriptRuntime) (store : ScriptStore)
  (type : ResultType α)

/-- What the last of some runs returned. -/
def lastValue (runs : List ChainRun) : Option Json := runs.getLast?.map (·.value)

def effectsOf (runs : List ChainRun) : Effects :=
  runs.foldl (fun effects run => effects ++ (runtime.call run.call).effects) {}

/-- Each run of a chain is given what the one before returned, and returns a value of the
expected type. -/
def Firing.HandsOver (runs : List ChainRun) : Prop :=
  ∀ before run after, runs = before ++ run :: after →
    firing.Calls store run.script (lastValue before) run.call ∧
      (runtime.call run.call).outcome = .ok run.value ∧
      (type.resultOf run.script.id.text run.value).isOk = true

/-- How a chain may end for which these scripts are due, after these runs: what comes of it, and
what it leaves behind. -/
inductive Firing.Ends (due : List ScriptDefinition) (default_ : α) :
    List ChainRun → Except HookError α → Effects → Prop
  /-- Nothing ran. -/
  | idle (h : due = []) : Ends due default_ [] (.ok default_) {}
  /-- The last of the scripts returned the result. -/
  | completed {before : List ChainRun} {run : ChainRun} {result : α}
      (hdue : due = (before ++ [run]).map (·.script))
      (h : type.resultOf run.script.id.text run.value = .ok result) :
      Ends due default_ (before ++ [run]) (.ok result) (effectsOf runtime (before ++ [run]))
  /-- The next script does not compile. -/
  | uncompiled {runs : List ChainRun} {script : ScriptDefinition} {rest : List ScriptDefinition}
      {error : HookError} (hdue : due = runs.map (·.script) ++ script :: rest)
      (h : compileScript runtime.checkSyntax script.contentHash script.source = .error error) :
      Ends due default_ runs (.error (Engine.relabel script.id.text error)) (effectsOf runtime runs)
  /-- The next script fails. -/
  | failed {runs : List ChainRun} {script : ScriptDefinition} {rest : List ScriptDefinition}
      {call : ScriptCall} {error : HookError} (hdue : due = runs.map (·.script) ++ script :: rest)
      (hcall : firing.Calls store script (lastValue runs) call)
      (h : (runtime.call call).outcome = .error error) :
      Ends due default_ runs (.error error) (effectsOf runtime runs ++ (runtime.call call).effects)
  /-- The next script returns a value that is not of the expected type. -/
  | unconverted {runs : List ChainRun} {script : ScriptDefinition} {rest : List ScriptDefinition}
      {call : ScriptCall} {value : Json} {error : HookError}
      (hdue : due = runs.map (·.script) ++ script :: rest)
      (hcall : firing.Calls store script (lastValue runs) call)
      (hvalue : (runtime.call call).outcome = .ok value)
      (h : type.resultOf script.id.text value = .error error) :
      Ends due default_ runs (.error error) (effectsOf runtime runs ++ (runtime.call call).effects)

end Chains

@[simp] theorem Effects.append_empty (effects : Effects) : effects ++ ({} : Effects) = effects :=
  congrArg₂ Effects.mk (List.append_nil _) (List.append_nil _)

namespace Firing

variable {α : Type} {firing : Firing} {runtime : ScriptRuntime} {store : ScriptStore}
  {type : ResultType α}

/-- No runs. -/
theorem handsOver_nil : firing.HandsOver runtime store type [] := by
  intro before run after h
  cases (List.append_eq_nil_iff.mp h.symm).2

/-- One more run is given what the last one returned. -/
theorem HandsOver.concat {runs : List ChainRun} {run : ChainRun}
    (h : firing.HandsOver runtime store type runs)
    (hcall : firing.Calls store run.script (lastValue runs) run.call)
    (hvalue : (runtime.call run.call).outcome = .ok run.value)
    (hresult : (type.resultOf run.script.id.text run.value).isOk = true) :
    firing.HandsOver runtime store type (runs ++ [run]) := by
  intro before other after hsplit
  rcases List.eq_nil_or_concat after with rfl | ⟨init, last, rfl⟩
  · obtain ⟨rfl, hlast⟩ := List.append_inj' hsplit rfl
    cases hlast
    exact ⟨hcall, hvalue, hresult⟩
  · rw [List.concat_eq_append, ← List.cons_append, ← List.append_assoc] at hsplit
    exact h before other init (List.append_inj' hsplit rfl).1

/-- The value of the last run. -/
@[simp] theorem lastValue_concat (runs : List ChainRun) (run : ChainRun) :
    lastValue (runs ++ [run]) = some run.value := by
  simp [lastValue]

/-- Effects come in the order of the runs. -/
@[simp] theorem effectsOf_concat (runs : List ChainRun) (run : ChainRun) :
    effectsOf runtime (runs ++ [run]) =
      effectsOf runtime runs ++ (runtime.call run.call).effects := by
  simp [effectsOf]

/-- A definition that is stored gives its own source to be compiled. -/
theorem sourceFor_of_stored {script : ScriptDefinition}
    (h : store.get script.id = some script) :
    Engine.sourceFor (store.sourceOf script.id) script = script.source := by
  rw [ScriptStore.sourceOf, h]
  exact ite_self _

variable (firing store) in
def invocation (script : ScriptDefinition) (output : Option Json) : Invocation :=
  ⟨script, firing.event, firing.scope, firing.payload, output,
    Service.mergedParameters store script.name firing.scope, firing.returnClass⟩

/-- The call by which the engine runs a program for a firing is as it should be. -/
theorem calls_callOf {script : ScriptDefinition} (output : Option Json) {program : String}
    (hdigest : contentHash program = script.contentHash)
    (hvalid : (Script.validate program).isOk = true) :
    firing.Calls store script output ((firing.invocation store script output).callOf program) where
  label := rfl
  digest := hdigest
  valid := hvalid
  entry := rfl
  argument := rfl
  context := rfl
  globals := firing.gives_globals store script output

variable (firing runtime store) in
/-- What a script may come to in a chain: it does not compile, or it is called. -/
inductive Answers (script : ScriptDefinition) (output : Option Json) :
    Except HookError Json → Effects → Prop
  | refused {error : HookError}
      (h : compileScript runtime.checkSyntax script.contentHash script.source = .error error) :
      Answers script output (.error (Engine.relabel script.id.text error)) {}
  | called {call : ScriptCall} (h : firing.Calls store script output call) :
      Answers script output (runtime.call call).outcome (runtime.call call).effects

/-- A script that is found compiled runs, and else its error ends the chain. -/
theorem answers_of_finds {script : ScriptDefinition} {output : Option Json}
    {found : Except HookError CompiledScript}
    (h : CompiledCache.Finds runtime.checkSyntax script.contentHash (.ok script.source) found) :
    let answer := Engine.answer runtime (firing.invocation store script output) found
    firing.Answers runtime store script output answer.outcome answer.effects := by
  cases found with
  | error error => exact .refused h
  | ok artifact => exact .called (calls_callOf output h.1 h.2)

variable (firing) in
/-- What a script of the store comes to in a chain, and the cache after it. -/
theorem execute_answers {cache : CompiledCache} (hcache : cache.Reachable runtime.checkSyntax)
    {script : ScriptDefinition} (hstored : store.get script.id = some script)
    (output : Option Json) (now : Nat) :
    let result := Engine.execute ⟨runtime, cache⟩ (fun id => .ok (store.sourceOf id)) now
      (firing.invocation store script output)
    result.cache.Reachable runtime.checkSyntax ∧
      firing.Answers runtime store script output result.outcome result.effects := by
  intro result
  let source : Except HookError String :=
    (Except.ok (store.sourceOf script.id)).map (Engine.sourceFor · script)
  have hsource : source = .ok script.source := congrArg Except.ok (sourceFor_of_stored hstored)
  obtain ⟨hreachable, hfinds⟩ := hcache.obtain script.contentHash now source
  refine ⟨hreachable, answers_of_finds ?_⟩
  rwa [← hsource]

end Firing

namespace Service

variable {α : Type} {runtime : ScriptRuntime} {store : ScriptStore} {type : ResultType α}
  {event : String} {scope : ScopePath} {payload : Payload}

variable (type) in
/-- What the last of some runs came to. -/
def lastResult (runs : List ChainRun) : Option α :=
  runs.getLast?.bind fun run => (type.resultOf run.script.id.text run.value).toOption

variable (store scope) in
/-- The scripts that have all the values that they require. -/
def dueOf (scripts : List ScriptDefinition) : List ScriptDefinition :=
  scripts.filter fun script => (parametersOf store script scope).isSome

/-- A script that lacks a value is left out. -/
theorem dueOf_cons_of_none {script : ScriptDefinition} (h : parametersOf store script scope = none)
    (rest : List ScriptDefinition) :
    dueOf store scope (script :: rest) = dueOf store scope rest := by
  simp [dueOf, h]

/-- A script that has its values is due. -/
theorem dueOf_cons_of_some {script : ScriptDefinition} {values : Payload}
    (h : parametersOf store script scope = some values) (rest : List ScriptDefinition) :
    dueOf store scope (script :: rest) = script :: dueOf store scope rest := by
  simp [dueOf, h]

/-- The result of a chain is that of its last run. -/
theorem lastResult_concat (runs : List ChainRun) (run : ChainRun) {result : α}
    (h : type.resultOf run.script.id.text run.value = .ok result) :
    lastResult type (runs ++ [run]) = some result := by
  simp [lastResult, h, Except.toOption]

/-- Where all scripts that are due have run, the chain ends with the last result. -/
theorem ends_of_handsOver {firing : Firing} {runs : List ChainRun}
    (h : firing.HandsOver runtime store type runs) (default_ : α) :
    firing.Ends runtime store type (runs.map (·.script)) default_ runs
      (.ok ((lastResult type runs).getD default_)) (effectsOf runtime runs) := by
  rcases List.eq_nil_or_concat runs with rfl | ⟨before, run, rfl⟩
  · exact .idle rfl
  · rw [List.concat_eq_append] at h ⊢
    obtain ⟨-, -, hok⟩ := h before run [] rfl
    cases hresult : type.resultOf run.script.id.text run.value with
    | error error => rw [hresult] at hok; cases hok
    | ok result =>
      rw [lastResult_concat before run hresult]
      exact .completed rfl hresult

/-- From some runs on, a chain goes on as it should: what it carries along is what these runs
returned, came to and left behind. -/
theorem runChain_ends (now : Nat) (dispatcher : Dispatcher) (default_ : α)
    (scripts : List ScriptDefinition) :
    ∀ (cache : CompiledCache) (runs : List ChainRun),
      (∀ script ∈ scripts, store.get script.id = some script) →
      cache.Reachable runtime.checkSyntax →
      Firing.HandsOver ⟨event, scope, payload, type.name⟩ runtime store type runs →
      let reply := runChain ⟨runtime, store, cache, dispatcher⟩ now type event scope payload scripts
        (lastValue runs) (lastResult type runs) (effectsOf runtime runs)
      ∃ runs', Firing.HandsOver ⟨event, scope, payload, type.name⟩ runtime store type runs' ∧
        Firing.Ends ⟨event, scope, payload, type.name⟩ runtime store type
          (runs.map (·.script) ++ dueOf store scope scripts) default_ runs'
          (reply.outcome.map (·.getD default_)) reply.effects := by
  induction scripts with
  | nil =>
    intro cache runs _ _ hruns
    refine ⟨runs, hruns, ?_⟩
    rw [dueOf, List.filter_nil, List.append_nil]
    exact ends_of_handsOver hruns default_
  | cons script rest ih =>
    intro cache runs hstored hcache hruns
    have hrest := fun other hother => hstored other (List.mem_cons_of_mem script hother)
    rw [runChain]
    cases hvalues : parametersOf store script scope with
    | none =>
      rw [dueOf_cons_of_none hvalues]
      exact ih cache runs hrest hcache hruns
    | some values =>
      rw [dueOf_cons_of_some hvalues]
      obtain rfl := parametersOf_eq_some hvalues
      obtain ⟨hreachable, hanswers⟩ := Firing.execute_answers
        ⟨event, scope, payload, type.name⟩ hcache (hstored script List.mem_cons_self)
        (lastValue runs) now
      rw [Firing.invocation] at hreachable hanswers
      dsimp only [engine]
      generalize Engine.execute ⟨runtime, cache⟩ _ now _ = result at hreachable hanswers ⊢
      obtain ⟨outcome, effects, cache'⟩ := result
      dsimp only at hreachable hanswers ⊢
      -- a script that does not compile leaves nothing behind, and the runs are those before it
      cases hanswers with
      | refused hrefused =>
        rw [Effects.append_empty]
        exact ⟨runs, hruns, .uncompiled rfl hrefused⟩
      | @called call hcall =>
        cases hvalue : (runtime.call call).outcome with
        | error error => exact ⟨runs, hruns, .failed rfl hcall hvalue⟩
        | ok value =>
          dsimp only
          cases hconverted : type.resultOf script.id.text value with
          | error error => exact ⟨runs, hruns, .unconverted rfl hcall hvalue hconverted⟩
          | ok converted =>
            -- only here the chain goes on, with one more run
            let run : ChainRun := ⟨script, call, value⟩
            have hconverts : (type.resultOf script.id.text value).isOk = true := by
              rw [hconverted]
              rfl
            have hgoesOn := ih cache' (runs ++ [run]) hrest hreachable
              (hruns.concat hcall hvalue hconverts)
            rw [Firing.lastValue_concat, lastResult_concat runs run hconverted,
              Firing.effectsOf_concat, List.map_append, List.append_assoc] at hgoesOn
            exact hgoesOn

/-! ## Firing -/

/-- The scripts that are due lack no value. -/
theorem mem_dueOf_iff {scripts : List ScriptDefinition} {script : ScriptDefinition} :
    script ∈ dueOf store scope scripts ↔ script ∈ scripts ∧ ¬ store.LacksValue script scope := by
  rw [dueOf, List.mem_filter, Option.isSome_iff_ne_none, ne_eq, parametersOf_eq_none_iff]

/-- An event runs the scripts that resolution finds for it in the order of their names, without
those that lack a value which they require. Each is given what the one before returned, `null`
if it is the first. The first that fails to compile, to run or to be converted is the last that
runs; if none does, the last one's result is the result. -/
theorem fire_hands_over {α : Type} (runtime : ScriptRuntime) (idleMs : Nat)
    (cacheSteps : List CacheStep) (changes : List StoreStep) (dispatcher : Dispatcher) (now : Nat)
    (type : ResultType α) (event : String) (scope : ScopePath) (payload : Payload)
    (default_ : α) :
    let store := ScriptStore.empty.run changes
    let cache := (SharedCache.run (compileScript runtime.checkSyntax) { cache := { idleMs } }
      cacheSteps).cache
    let service : Service := ⟨runtime, store, cache, dispatcher⟩
    let firing : Firing := ⟨event, scope, payload, type.name⟩
    let reply := service.fireAndWait now type event scope payload default_
    ∃ due runs,
      due.Pairwise (fun a b => a.name < b.name) ∧
      (∀ script, script ∈ due ↔
        script ∈ service.resolve event scope false ∧ ¬ store.LacksValue script scope) ∧
      firing.HandsOver runtime store type runs ∧
      firing.Ends runtime store type due default_ runs reply.outcome reply.effects := by
  intro store cache service firing reply
  have hstored : ∀ script ∈ service.resolve event scope false,
      store.get script.id = some script := fun script hscript =>
    (ScriptStore.kept_empty.run changes).mem_list_iff.mp
      (ScriptStore.mem_list_of_mem_resolve hscript)
  have hcache : cache.Reachable runtime.checkSyntax :=
    ⟨_, rfl, SharedCache.sound_run cacheSteps (SharedCache.sound_new idleMs)⟩
  obtain ⟨runs, hruns, hends⟩ := runChain_ends now dispatcher default_
    (service.resolve event scope false) cache [] hstored hcache Firing.handsOver_nil
  exact ⟨dueOf store scope (service.resolve event scope false), runs,
    store.pairwise_resolve.filter _, fun script => mem_dueOf_iff, hruns, hends⟩

end Service

end ScriptHooks

/-
ScriptHooks.Proofs.Script.ParseRuns — what a production does from one state.

`Runs p s a s'` says that from the state `s` the production gives `a` and leads to `s'`. `Fails p s
kind` says that it ends with a fault of some kind after taking some tokens. Together they describe
what happens on tokens that are known, where `Gives` and `StepRelation` say what may happen on any.
There is a rule for each step of `ParserState`, so that a proof about a production follows its
text.

`Onward` is the relation between a state and one behind it: some tokens are taken and counted, and
nothing else is changed. The tokens left and the tokens taken add up to the same number throughout
(`count`), which is what bounds the loops. That a failure ends in such a state is part of `Fails`:
the counters are restored and no issue is recorded on the way, so that recovery starts from what
was taken and from nothing else.

States are written out by their fields where a rule changes one of them. `nested` counts a level
up and back down, so the rule has the level of the inside one higher on both ends; `withoutIn` does
the same with the flag for `in`.

A loop has as many rounds of fuel as there are tokens left, and one more. `rounds_more` and
`rounds_done` take it a round at a time; `Runs.loop` starts it.
-/
import ScriptHooks.Proofs.Script.Spelling

namespace ScriptHooks.Script

open Parse

/-- The second state is reached from the first by taking tokens and nothing else. -/
def ParserState.Onward (s s' : ParserState) : Prop :=
  ∃ taken, s.rest = taken ++ s'.rest ∧
    s' = { s with rest := s'.rest, consumed := s.consumed + taken.length }

namespace ParserState.Onward

variable {s s' s'' : ParserState}

theorem refl (s : ParserState) : s.Onward s := ⟨[], rfl, rfl⟩

theorem trans (h : s.Onward s') (h' : s'.Onward s'') : s.Onward s'' := by
  obtain ⟨taken, hrest, hs'⟩ := h
  obtain ⟨taken', hrest', hs''⟩ := h'
  refine ⟨taken ++ taken', by rw [hrest, hrest', List.append_assoc], ?_⟩
  rw [hs'', hs', List.length_append, ← Nat.add_assoc]

/-- Tokens that are counted are tokens taken. -/
theorem of_taken (taken ts : List Token) (consumed functions nesting : Nat) (noIn : Bool)
    (issues : List Issue) :
    Onward ⟨taken ++ ts, consumed, functions, nesting, noIn, issues⟩
      ⟨ts, consumed + taken.length, functions, nesting, noIn, issues⟩ :=
  ⟨taken, rfl, rfl⟩

theorem pass (s : ParserState) : s.Onward s.pass := by
  unfold ParserState.pass
  split
  · exact refl s
  · rename_i token rest hrest
    split
    · exact refl s
    · exact ⟨[token], hrest, rfl⟩

/-- The tokens left are the last of those before. -/
theorem suffix (h : s.Onward s') : s'.rest <:+ s.rest := by
  obtain ⟨taken, hrest, -⟩ := h
  exact ⟨taken, hrest.symm⟩

/-- The tokens taken and those left add up. -/
theorem count (h : s.Onward s') :
    s'.consumed + s'.rest.length = s.consumed + s.rest.length := by
  obtain ⟨taken, hrest, hs'⟩ := h
  rw [hs', hrest, List.length_append]
  simp only
  omega

end ParserState.Onward

/-- From one state the production gives the value and leads to the other state. -/
def Runs (p : Parse α) (s : ParserState) (a : α) (s' : ParserState) : Prop := p s = .ok a s'

/-- From the state the production ends with a fault of this kind. -/
def Fails (p : Parse α) (s : ParserState) (kind : Fault → Prop) : Prop :=
  ∃ fault s', p s = .error fault s' ∧ kind fault ∧ s.Onward s'

variable {p : Parse α} {f : α → Parse β} {kind : Fault → Prop}

/-- Behind a part that runs, a sequence is its second part. -/
theorem Runs.bind_eq (h : Runs p s a s') : (p >>= f) s = f a s' := by
  simp only [Bind.bind, EStateM.bind]
  rw [h]

theorem Runs.bind (h : Runs p s a s') (hf : Runs (f a) s' b s'') : Runs (p >>= f) s b s'' :=
  h.bind_eq.trans hf

theorem Fails.mono {kind' : Fault → Prop} (h : Fails p s kind)
    (hkind : ∀ fault, kind fault → kind' fault) : Fails p s kind' := by
  obtain ⟨fault, s', hp, hk, hs'⟩ := h
  exact ⟨fault, s', hp, hkind fault hk, hs'⟩

/-- A sequence fails with its first part. -/
theorem Fails.bind (h : Fails p s kind) : Fails (p >>= f) s kind := by
  obtain ⟨fault, s', hp, hkind, hs'⟩ := h
  refine ⟨fault, s', ?_, hkind, hs'⟩
  simp only [Bind.bind, EStateM.bind]
  rw [hp]

/-- Or with its second, behind the first. -/
theorem Fails.after (h : Runs p s a s') (hs : s.Onward s') (hf : Fails (f a) s' kind) :
    Fails (p >>= f) s kind := by
  obtain ⟨fault, s'', hp, hkind, hs'⟩ := hf
  refine ⟨fault, s'', ?_, hkind, hs.trans hs'⟩
  simp only [Bind.bind, EStateM.bind]
  rw [h]
  exact hp

theorem Fails.fail {message : String} (h : kind (s.fault message)) :
    Fails (Parse.fail message : Parse α) s kind :=
  ⟨_, s, rfl, h, .refl s⟩

/-! ## Looking at tokens -/

/-- The next token is looked at and nothing changes. -/
theorem peek_bind {f : Token → Parse β} (hs : s.peek = token) :
    (Parse.peek >>= f) s = f token s := by
  subst hs
  rfl

theorem Runs.peek {f : Token → Parse β} (hs : s.peek = token) (h : Runs (f token) s b s') :
    Runs (Parse.peek >>= f) s b s' :=
  (peek_bind hs).trans h

theorem Fails.peek {f : Token → Parse β} (hs : s.peek = token) (h : Fails (f token) s kind) :
    Fails (Parse.peek >>= f) s kind := by
  unfold Fails
  rw [peek_bind hs]
  exact h

theorem Runs.tokenAhead {f : Token → Parse β} (hs : s.tokenAhead offset = token)
    (h : Runs (f token) s b s') : Runs (Parse.tokenAhead offset >>= f) s b s' := by
  subst hs
  exact h

theorem Runs.get {f : ParserState → Parse β} (h : Runs (f s) s b s') :
    Runs (get >>= f) s b s' := h

theorem Fails.get {f : ParserState → Parse β} (h : Fails (f s) s kind) :
    Fails (get >>= f) s kind := h

/-- A choice by a mark that does not come next. -/
theorem Runs.unlessMark {text : String} {p q : Parse α} (h : s.peek.isMark text = false)
    (hq : Runs q s a s') :
    Runs (acceptMark text >>= fun taken => if taken = true then p else q) s a s' := by
  have hskip : Runs (acceptMark text) s false s := by
    unfold acceptMark
    refine .peek rfl ?_
    rw [h]
    rfl
  exact hskip.bind hq

/-- A production on a list of its own leaves the state as it is but for the issues. -/
theorem Runs.onTokens {tokens : List Token}
    (h : Runs p (.start tokens s.functionDepth s.nesting) a s') :
    Runs (onTokens tokens p) s a { s with issues := s.issues ++ s'.issues } := by
  unfold Runs Parse.onTokens
  rw [h]

/-! ## Loops -/

section Rounds

variable {step : σ → Parse (Step σ β)} {fuel : Nat}

/-- A round after which the loop goes on. -/
theorem rounds_more (h : Runs (step acc) s (.more acc') s') :
    rounds step (fuel + 1) acc s = rounds step fuel acc' s' := by
  simp only [rounds, Bind.bind, EStateM.bind]
  rw [h]

/-- The last round. -/
theorem Runs.rounds_done (h : Runs (step acc) s (.done b) s') :
    Runs (rounds step (fuel + 1) acc) s b s' := by
  rw [rounds]
  exact h.bind rfl

/-- A loop has a round for each token that is left, and one more. -/
theorem Runs.loop (h : Runs (rounds step (s.rest.length + 1) init) s b s') :
    Runs (loop step init) s b s' := h

end Rounds

/-! ## Steps -/

section Runs

variable {a : α} {ts ts' : List Token} {token : Token} {taken taken' functions functions' : Nat}
  {nesting nesting' : Nat} {before noIn noIn' : Bool} {issues issues' : List Issue}

/-- A token that does not end the list is taken. -/
theorem Runs.pass (h : token.isEof = false) :
    Runs pass ⟨token :: ts, taken, functions, nesting, noIn, issues⟩ ()
      ⟨ts, taken + 1, functions, nesting, noIn, issues⟩ := by
  show EStateM.Result.ok () (ParserState.pass _) = _
  simp [ParserState.pass, h]

/-- A mark that comes next is taken. -/
theorem Runs.acceptMark {text : String} (h : token.isMark text = true) :
    Runs (acceptMark text) ⟨token :: ts, taken, functions, nesting, noIn, issues⟩ true
      ⟨ts, taken + 1, functions, nesting, noIn, issues⟩ := by
  have hpass : Runs Parse.pass ⟨token :: ts, taken, functions, nesting, noIn, issues⟩ ()
      ⟨ts, taken + 1, functions, nesting, noIn, issues⟩ :=
    .pass (Token.single_of_isMark h).notEof
  unfold Parse.acceptMark
  refine .peek (rfl : _ = token) ?_
  rw [h]
  exact hpass.bind rfl

/-- Inside, `in` is read as the flag says; outside, as before. -/
theorem Runs.withoutIn (h : Runs p ⟨ts, taken, functions, nesting, noIn, issues⟩ a
      ⟨ts', taken', functions', nesting', noIn', issues'⟩) :
    Runs (withoutIn noIn p) ⟨ts, taken, functions, nesting, before, issues⟩ a
      ⟨ts', taken', functions', nesting', before, issues'⟩ := by
  unfold Runs Parse.withoutIn
  rw [h]

/-- Inside, the level is one higher, before and after. -/
theorem Runs.nested (h : Runs p ⟨ts, taken, functions, nesting + 1, noIn, issues⟩ a
      ⟨ts', taken', functions', nesting' + 1, noIn', issues'⟩) (hn : nesting < maxNesting) :
    Runs (nested p) ⟨ts, taken, functions, nesting, noIn, issues⟩ a
      ⟨ts', taken', functions', nesting', noIn', issues'⟩ := by
  unfold Runs Parse.nested
  rw [if_neg (Nat.not_lt.mpr hn), h]
  rfl

/-- A guard around what runs makes no difference. -/
theorem Runs.recovering (h : Runs p s a s') : Runs (recovering p) s (some a) s' := by
  unfold Runs Parse.recovering
  rw [h]

theorem Fails.nested (h : Fails p { s with nesting := s.nesting + 1 } kind)
    (hn : s.nesting < maxNesting) : Fails (nested p) s kind := by
  obtain ⟨fault, s', hp, hkind, taken, hrest, hs'⟩ := h
  unfold Fails Parse.nested
  rw [if_neg (Nat.not_lt.mpr hn), hp]
  refine ⟨fault, _, rfl, hkind, taken, hrest, ?_⟩
  rw [hs']
  rfl

/-- Below the last level nothing runs. -/
theorem Fails.nested_of_le (hn : maxNesting ≤ s.nesting)
    (hdeep : ∀ position, kind ⟨"script nesting is too deep", position⟩) :
    Fails (Parse.nested p) s kind := by
  unfold Fails Parse.nested
  exact ⟨_, s, if_pos (Nat.lt_succ_of_le hn), hdeep _, .refl s⟩

end Runs

end ScriptHooks.Script

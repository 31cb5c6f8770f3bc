/-
ScriptHooks.Proofs.Script.ParseRules — what holds when a production succeeds.

`Gives p R` says that whenever `p` gives a value and no issue is recorded by then,
none was recorded before, and the tokens before, the value and the tokens left stand
in `R`. There is one rule for each step of `ParserState`, so that a proof about a
production follows its text:

* sequences (`bind`, `map`, `ite`, `branch`): the relation of what comes first is a
  premise inside the relation of what comes next, so a proof goes from the front to
  the back and collects what it has read;
* faults (`error`, `fail`, `recovering`): a step that fails, or that records a fault
  and goes on, gives whatever one likes, since the issue it leaves is never taken back;
* tokens (`peek`, `pass`, `acceptMark`, `eatWord`, `expect`): what was seen of the
  next token, and whether it was taken;
* insides (`nested`, `withoutIn`, `insideFunction`, `onTokens`): nothing but the
  last changes which tokens are read;
* loops (`rounds`, `loop`): a relation between what is gathered, the tokens and the
  outcome that each round carries back from the next (`Owes`).

That issues are never taken back is what makes a statement about accepted sources a
statement about productions without faults. A relation says nothing of positions or
of counters: `StateRelations` is for those.

`Passes` leaves the end token where it is. The parser's cursor does not move past the
end, and a relation that said "the first token is taken" would be wrong there.
-/
import ScriptHooks.Script.Parser

namespace ScriptHooks.Script

open Parse

/-- Whenever the production gives a value and no issue is recorded, none was before,
and the tokens before, the value and the tokens left stand in the relation. -/
def Gives (p : Parse α) (R : List Token → α → List Token → Prop) : Prop :=
  ∀ s a s', p s = .ok a s' → s'.issues = [] → s.issues = [] ∧ R s.rest a s'.rest

/-- What taking a token does to the tokens, unless the end token comes next. -/
def Passes (ts rest : List Token) : Prop :=
  (ts.headD default).isEof = false → ts = ts.headD default :: rest

namespace Gives

variable {α β σ : Type} {p : Parse α} {f : α → Parse β} {R S : List Token → α → List Token → Prop}
  {T : List Token → β → List Token → Prop}

/-! ## Sequences -/

/-- A value given at once takes no tokens. -/
theorem pure {a : α} (h : ∀ ts, R ts a ts) : Gives (Pure.pure a) R := by
  intro s b s' hp hi
  cases hp
  exact ⟨hi, h s.rest⟩

/-- A weaker relation. -/
theorem mono (hp : Gives p S) (h : ∀ ts a rest, S ts a rest → R ts a rest) : Gives p R := by
  intro s a s' hr hi
  obtain ⟨hn, hs⟩ := hp s a s' hr hi
  exact ⟨hn, h _ _ _ hs⟩

/-- A sequence. What is known of the first part is at hand in the proof for the second. -/
theorem bind (hp : Gives p S)
    (hf : ∀ a, Gives (f a) fun mid b rest => ∀ ts, S ts a mid → T ts b rest) :
    Gives (p >>= f) T := by
  intro s b s' hr hi
  simp only [Bind.bind, EStateM.bind] at hr
  split at hr
  case h_1 a mid hmid =>
    obtain ⟨hz, ht⟩ := hf a mid b s' hr hi
    obtain ⟨hn, hs⟩ := hp s a mid hmid hz
    exact ⟨hn, ht s.rest hs⟩
  case h_2 => cases hr

theorem pureBind {a : α} (hf : Gives (f a) T) : Gives (Pure.pure a >>= f) T := hf

theorem map {g : α → β} (hp : Gives p fun ts a rest => T ts (g a) rest) : Gives (g <$> p) T := by
  intro s b s' hr hi
  simp only [Functor.map, EStateM.map] at hr
  split at hr
  case h_1 a mid hmid =>
    cases hr
    exact hp s a _ hmid hi
  case h_2 => cases hr

/-- A choice that does not depend on the tokens. -/
theorem ite {c : Prop} [Decidable c] {q : Parse α} (hy : c → Gives p R) (hn : ¬c → Gives q R) :
    Gives (if c then p else q) R := by
  split
  case isTrue h => exact hy h
  case isFalse h => exact hn h

/-- A choice after which both sides go on in one way. -/
theorem branch {c : Prop} [Decidable c] {q : Parse α} (hy : c → Gives p S)
    (hn : ¬c → Gives q S)
    (hf : ∀ a, Gives (f a) fun mid b rest => ∀ ts, S ts a mid → T ts b rest) :
    Gives (if c then p >>= f else q >>= f) T :=
  ite (fun h => bind (hy h) hf) fun h => bind (hn h) hf

/-- The same for a choice that the tokens make. -/
theorem join {choice : Parse Bool} {q : Parse α}
    (h : Gives ((choice >>= fun c => if c = true then p else q) >>= f) T) :
    Gives (choice >>= fun c => if c = true then p >>= f else q >>= f) T := by
  have he : (choice >>= fun c => if c = true then p else q) >>= f =
      choice >>= fun c => if c = true then p >>= f else q >>= f := by
    rw [bind_assoc]
    congr 1
    funext c
    split <;> rfl
  exact he ▸ h

/-! ## Faults -/

/-- A step that fails without a look at what is asked for. -/
theorem error {fault : ParserState → Fault} (h : ∀ s, p s = .error (fault s) s) : Gives p R := by
  intro s a s' hr
  rw [h s] at hr
  cases hr

theorem fail {message : String} : Gives (fail message) R := error fun _ => rfl

theorem unexpected : Gives Parse.unexpected R := error fun _ => rfl

theorem unsupported {what : String} : Gives (unsupported what) R := fail

theorem failExpecting {what : String} : Gives (failExpecting what) R := error fun _ => rfl

/-- The issues after a fault is recorded. -/
theorem noting_issues_ne (s : ParserState) (fault : Fault) : (s.noting fault).issues ≠ [] := by
  unfold ParserState.noting
  split
  · simp
  · rename_i h
    intro hn
    simp [hn, maxIssues] at h

theorem pass_issues (s : ParserState) : s.pass.issues = s.issues := by
  unfold ParserState.pass
  split
  · rfl
  · split <;> rfl

/-- Skipping to where parsing can go on records nothing. -/
theorem skipToBoundary_issues (fuel depth : Nat) (s : ParserState) :
    (ParserState.skipToBoundary fuel depth s).issues = s.issues := by
  induction fuel generalizing depth s with
  | zero => rfl
  | succ fuel ih =>
    rw [ParserState.skipToBoundary]
    dsimp only
    repeat' split
    all_goals simp [ih, pass_issues]

/-- Nor does recovering from a fault. -/
theorem recover_issues (s : ParserState) (start : Nat) : (s.recover start).issues = s.issues := by
  unfold ParserState.recover
  rw [skipToBoundary_issues]
  split
  · exact pass_issues s
  · rfl

/-- Inside a guard a production gives what it gives outside, since a fault would leave an issue. -/
theorem recovering (hp : Gives p R) :
    Gives (recovering p) fun ts r rest => ∃ a, r = some a ∧ R ts a rest := by
  intro s r s' hr hi
  unfold Parse.recovering at hr
  split at hr
  case h_1 a mid hmid =>
    cases hr
    obtain ⟨hn, h⟩ := hp s a _ hmid hi
    exact ⟨hn, a, rfl, h⟩
  case h_2 fault mid hmid =>
    cases hr
    rw [recover_issues] at hi
    exact absurd hi (noting_issues_ne mid fault)

/-- A fault that is noted without stopping. -/
theorem set_noting {s : ParserState} {fault : Fault} {f : PUnit → Parse α} (hf : Gives (f ⟨⟩) S) :
    Gives (set (s.noting fault).pass >>= f) R := by
  intro before a s' hr hi
  have hz : (s.noting fault).pass.issues = [] := (hf _ a s' hr hi).1
  rw [pass_issues] at hz
  exact absurd hz (noting_issues_ne s fault)

/-! ## Looking at tokens -/

/-- The state may be looked at, and its tokens are those before. -/
theorem get {f : ParserState → Parse β}
    (hf : ∀ s, Gives (f s) fun ts b rest => s.rest = ts → T ts b rest) :
    Gives (get >>= f) T := by
  intro s b s' hr hi
  obtain ⟨hn, ht⟩ := hf s s b s' hr hi
  exact ⟨hn, ht rfl⟩

/-- The next token may be looked at; at the end of the list it is the default token. -/
theorem peek {f : Token → Parse β}
    (hf : ∀ t, Gives (f t) fun ts b rest => ts.headD default = t → T ts b rest) :
    Gives (peek >>= f) T := by
  intro s b s' hr hi
  obtain ⟨hn, ht⟩ := hf s.peek s b s' hr hi
  exact ⟨hn, ht rfl⟩

/-- A token further on may be looked at. Nothing is learnt from it. -/
theorem tokenAhead {offset : Nat} {f : Token → Parse β} (hf : ∀ t, Gives (f t) T) :
    Gives (tokenAhead offset >>= f) T :=
  fun s b s' hr hi => hf (s.tokenAhead offset) s b s' hr hi

/-- A look at whether the end is reached. -/
theorem isAtEnd {f : Bool → Parse β}
    (hf : ∀ b, Gives (f b) fun ts v rest => (ts.headD default).isEof = b → T ts v rest) :
    Gives (isAtEnd >>= f) T := by
  intro s v s' hr hi
  obtain ⟨hn, ht⟩ := hf s.isAtEnd s v s' hr hi
  exact ⟨hn, ht rfl⟩

/-! ## Taking tokens -/

theorem pass_rest (s : ParserState) : Passes s.rest s.pass.rest := by
  intro h
  unfold ParserState.pass
  split
  · rename_i hs
    simp [hs, default, Token.isEof, Token.kind] at h
  · rename_i t rest hs
    rw [hs] at h ⊢
    simp only [List.headD_cons] at h ⊢
    simp [h]

/-- The next token is taken, unless it ends the list. -/
theorem pass : Gives pass fun ts _ rest => Passes ts rest := by
  intro s a s' hr hi
  cases hr
  rw [pass_issues] at hi
  exact ⟨hi, pass_rest s⟩

/-- A mark is taken if it comes next. -/
theorem acceptMark {text : String} : Gives (acceptMark text) fun ts taken rest =>
    (ts.headD default).isMark text = taken ∧ if taken then Passes ts rest else rest = ts := by
  unfold Parse.acceptMark
  refine peek fun t => ite (fun h => ?_) (fun h => ?_)
  · refine bind pass fun _ => .pure ?_
    rintro mid ts hp rfl
    exact ⟨h, hp⟩
  · refine .pure ?_
    rintro ts rfl
    exact ⟨by simpa using h, rfl⟩

/-- A word is taken if it comes next. -/
theorem eatWord {name : String} : Gives (eatWord name) fun ts taken rest =>
    (ts.headD default).isWord name = taken ∧ if taken then Passes ts rest else rest = ts := by
  unfold Parse.eatWord
  refine peek fun t => ite (fun h => ?_) (fun h => ?_)
  · refine bind pass fun _ => .pure ?_
    rintro mid ts hp rfl
    exact ⟨h, hp⟩
  · refine .pure ?_
    rintro ts rfl
    exact ⟨by simpa using h, rfl⟩

/-- A choice by the mark that comes next, which is taken in the first case. -/
theorem ifMark {text : String} {q : Parse β} {p : Parse β}
    (hy : Gives p fun mid b rest =>
      ∀ ts, (ts.headD default).isMark text = true → Passes ts mid → T ts b rest)
    (hn : Gives q T) :
    Gives (Parse.acceptMark text >>= fun taken => if taken = true then p else q) T := by
  refine bind acceptMark fun taken => ?_
  cases taken with
  | true => exact hy.mono fun mid b rest ht ts hs => ht ts hs.1 hs.2
  | false =>
    refine hn.mono ?_
    rintro mid b rest ht ts ⟨-, rfl⟩
    exact ht

/-- A choice by the word that comes next, which is taken in the first case. -/
theorem ifWord {name : String} {q : Parse β} {p : Parse β}
    (hy : Gives p fun mid b rest =>
      ∀ ts, (ts.headD default).isWord name = true → Passes ts mid → T ts b rest)
    (hn : Gives q T) :
    Gives (Parse.eatWord name >>= fun taken => if taken = true then p else q) T := by
  refine bind eatWord fun taken => ?_
  cases taken with
  | true => exact hy.mono fun mid b rest ht ts hs => ht ts hs.1 hs.2
  | false =>
    refine hn.mono ?_
    rintro mid b rest ht ts ⟨-, rfl⟩
    exact ht

/-- A mark that must come next. -/
theorem expect {text : String} : Gives (expect text) fun ts _ rest =>
    (ts.headD default).isMark text = true ∧ Passes ts rest :=
  ifMark (.pure fun _ _ hm hp => ⟨hm, hp⟩) failExpecting

/-- A word that must come next. -/
theorem expectWord {name : String} : Gives (expectWord name) fun ts _ rest =>
    (ts.headD default).isWord name = true ∧ Passes ts rest :=
  ifWord (.pure fun _ _ hm hp => ⟨hm, hp⟩) failExpecting

/-! ## Running inside something -/

theorem nested (hp : Gives p R) : Gives (nested p) R := by
  intro s a s' hr hi
  unfold Parse.nested at hr
  split at hr
  · cases hr
  · split at hr
    case h_1 b mid hmid =>
      cases hr
      obtain ⟨hn, h⟩ := hp _ _ _ hmid hi
      exact ⟨hn, h⟩
    case h_2 => cases hr

theorem withoutIn {noIn : Bool} (hp : Gives p R) : Gives (withoutIn noIn p) R := by
  intro s a s' hr hi
  unfold Parse.withoutIn at hr
  split at hr
  case h_1 b mid hmid =>
    cases hr
    obtain ⟨hn, h⟩ := hp _ _ _ hmid hi
    exact ⟨hn, h⟩
  case h_2 => cases hr

theorem insideFunction (hp : Gives p R) : Gives (insideFunction p) R := by
  intro s a s' hr hi
  unfold Parse.insideFunction at hr
  split at hr
  case h_1 b mid hmid =>
    cases hr
    obtain ⟨hn, h⟩ := withoutIn hp _ _ _ hmid hi
    exact ⟨hn, h⟩
  case h_2 => cases hr

/-- A production on a list of its own leaves the tokens outside as they are. -/
theorem onTokens {tokens : List Token} (hp : Gives p R) :
    Gives (onTokens tokens p) fun ts a rest => rest = ts ∧ ∃ left, R tokens a left := by
  intro s a s' hr hi
  unfold Parse.onTokens at hr
  split at hr
  case h_1 b inner hin =>
    cases hr
    obtain ⟨hs, hq⟩ := List.append_eq_nil_iff.mp hi
    exact ⟨hs, rfl, inner.rest, (hp _ _ _ hin hq).2⟩
  case h_2 => cases hr

/-! ## Loops -/

/-- What a step of a loop owes: if it goes on, whatever holds from there holds from
where it started. -/
def Owes (I : σ → List Token → β → List Token → Prop) (acc : σ) (ts : List Token) :
    Step σ β → List Token → Prop
  | .more next, mid => ∀ b rest, I next mid b rest → I acc ts b rest
  | .done b, rest => I acc ts b rest

variable {step : σ → Parse (Step σ β)} {I : σ → List Token → β → List Token → Prop}

/-- A loop, by induction on its fuel. Without fuel it fails and there is nothing to show. -/
theorem rounds (hs : ∀ acc, Gives (step acc) fun ts r rest => Owes I acc ts r rest)
    (fuel : Nat) (acc : σ) : Gives (rounds step fuel acc) (I acc) := by
  induction fuel generalizing acc with
  | zero => exact unexpected
  | succ fuel ih =>
    rw [Parse.rounds]
    refine bind (hs acc) fun r => ?_
    cases r with
    | more next => exact (ih next).mono fun mid b rest h ts ho => ho b rest h
    | done b => exact .pure fun _ _ ho => ho

/-- The relation that each step of a loop keeps, looking back from its end. -/
theorem loop {init : σ} (hs : ∀ acc, Gives (step acc) fun ts r rest => Owes I acc ts r rest) :
    Gives (loop step init) (I init) := by
  unfold Parse.loop
  exact get fun s => (rounds hs _ init).mono fun _ _ _ h _ => h

end Gives

end ScriptHooks.Script

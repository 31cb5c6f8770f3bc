/-
ScriptHooks.Proofs.Script.MirroredRuns — two runs of the parser that do the same.

A script may stand behind another one, or be cut off, or be read by another grammar. Then a
production is run on two token lists, of which the second holds the tokens of the first at other
places. A `Mirror` says which lists belong together and what the parser may look at in both: the
next token, the one behind a word, and what an opening bracket leads to. From some place on the
first list may say nothing about the second (`lost`), and whether a line ends before a token counts
only in lists that are short enough (`top`).

`M.Alike n v p p'`: from states that belong together, with fewer than `n` tokens left, both
productions give values or faults that belong together (`v` says how), and leave such states, unless
the place is lost. There is one rule for each step of the parser, so that a proof about a production
follows its text.

The number of tokens is part of it because the two grammars may have different levels to spare, and
then what is known is what they do on fewer tokens, not what they do a level further down. A
production that has taken a token may use what is known of fewer (`first`, `passFirst`,
`expectFirst`).

A loop may have a different number of rounds to spare in each run (`rounds`), for the same reason.
Each of its rounds takes a token if it goes on, so that neither runs out.

That the place is lost must not come back: what is left later is an end of what was left before, and
`lost` passes on to ends (`not_lost_of_leaves`). So one look at what a production leaves is enough
to know that it was never lost on the way (`of_kept`).
-/
import ScriptHooks.Proofs.Script.MovedTrees
import ScriptHooks.Proofs.Script.ParserCounters
import ScriptHooks.Proofs.Script.TokensTaken

namespace ScriptHooks.Script

open Parse

/-- The step with its accumulator or value at another place. -/
def Parse.Step.map (u : σ → τ) (v : α → β) : Step σ α → Step τ β
  | .more acc => .more (u acc)
  | .done value => .done (v value)

@[simp] theorem Parse.Step.map_more (u : σ → τ) (v : α → β) (acc : σ) :
    (Step.more acc : Step σ α).map u v = .more (u acc) := rfl

@[simp] theorem Parse.Step.map_done (u : σ → τ) (v : α → β) (value : α) :
    (Step.done value : Step σ α).map u v = .done (v value) := rfl

/-! ## Tokens at two places -/

def Fault.move (f : Position → Position) (fault : Fault) : Fault :=
  ⟨fault.message, f fault.position⟩

/-- The second token is the first one at another place. Whether a line ends before it may
differ. -/
structure Token.Twin (f : Position → Position) (t t' : Token) : Prop where
  kind : t'.kind = t.kind.move f
  position : t'.position = f t.position

theorem Token.twin_move (f : Position → Position) (t : Token) : t.Twin f (t.move f) := by
  obtain ⟨kind, position, newline⟩ := t
  exact ⟨rfl, rfl⟩

namespace Token.Twin

variable {f : Position → Position} {t t' : Token}

/-- The kinds differ only where there are substitutions. -/
theorem kind_cases (h : t.Twin f t') :
    (∃ parts, t.kind = .template parts ∧ t'.kind = .template (moveParts f parts)) ∨
      ((∀ parts, t.kind ≠ .template parts) ∧ t'.kind = t.kind) := by
  by_cases hk : ∃ parts, t.kind = .template parts
  · obtain ⟨parts, hk⟩ := hk
    exact .inl ⟨parts, hk, by rw [h.kind, hk]; rfl⟩
  · rw [not_exists] at hk
    exact .inr ⟨hk, by rw [h.kind, TokenKind.move_eq hk]⟩

/-- The twin of a mark is that mark. -/
theorem isMark (h : t.Twin f t') (text : String) : t'.isMark text = t.isMark text := by
  rw [Token.isMark, Token.isMark, h.kind]
  cases t.kind <;> rfl

theorem isWord (h : t.Twin f t') (name : String) : t'.isWord name = t.isWord name := by
  rw [Token.isWord, Token.isWord, h.kind]
  cases t.kind <;> rfl

/-- The twin of a word is that word. -/
theorem word? (h : t.Twin f t') : t'.word? = t.word? := by
  rw [Token.word?, Token.word?, h.kind]
  cases t.kind <;> rfl

theorem isEof (h : t.Twin f t') : t'.isEof = t.isEof := by
  rw [Token.isEof, Token.isEof, h.kind]
  cases t.kind <;> rfl

theorem isName (h : t.Twin f t') : t'.isName = t.isName := by
  rw [Token.isName, Token.isName, h.word?]

theorem startsKey (h : t.Twin f t') : t'.startsKey = t.startsKey := by
  rw [Token.startsKey, Token.startsKey, h.kind]
  cases t.kind <;> rfl

theorem prefixOperator? (h : t.Twin f t') : t'.prefixOperator? = t.prefixOperator? := by
  rw [Token.prefixOperator?, Token.prefixOperator?, h.kind]
  cases t.kind <;> rfl

theorem binaryOperator? (h : t.Twin f t') (noIn : Bool) :
    t'.binaryOperator? noIn = t.binaryOperator? noIn := by
  rw [Token.binaryOperator?, Token.binaryOperator?, h.kind]
  cases t.kind <;> rfl

/-- The texts of faults are the same. -/
theorem describe (h : t.Twin f t') : t'.describe = t.describe := by
  rw [Token.describe, Token.describe, h.kind]
  cases t.kind <;> rfl

end Token.Twin

/-! ## Lists at two places -/

/-- Which lists belong together, and in what the parser finds them alike. -/
structure Mirror where
  /-- Where the places of the first list are in the second. -/
  move : Position → Position
  /-- The list belongs to the first one. -/
  lists : List Token → List Token → Prop
  /-- What is left of the first list says nothing about the second. -/
  lost : List Token → Prop
  /-- In shorter lists a line ends before the same tokens. -/
  top : Nat
  /-- How much longer the second list is. -/
  gap : Nat
  /-- How many more tokens have been taken before it. -/
  offset : Nat
  lost_suffix {ts ts' : List Token} (h : ts' <:+ ts) : lost ts → lost ts'
  ne_nil {ts ts' : List Token} (h : lists ts ts') : ts ≠ []
  length {ts ts' : List Token} (h : lists ts ts') : ts'.length = ts.length + gap
  tail {t t' : Token} {ts ts' : List Token} (h : lists (t :: ts) (t' :: ts'))
    (ht : t.isEof = false) (hl : ¬lost ts) : lists ts ts'
  head {ts ts' : List Token} (h : lists ts ts') (hl : ¬lost ts) :
    (ts.headD default).Twin move (ts'.headD default)
  newline {ts ts' : List Token} (h : lists ts ts') (hl : ¬lost ts) (hlt : ts.length < top) :
    (ts'.headD default).newlineBefore = (ts.headD default).newlineBefore
  second {ts ts' : List Token} (h : lists ts ts') (hl : ¬lost ts) {name : String}
    (hw : (ts.headD default).word? = some name) :
    ((ts.drop 1).headD default).Twin move ((ts'.drop 1).headD default)
  arrow {ts ts' : List Token} (h : lists ts ts') (hl : ¬lost ts)
    (hm : (ts.headD default).isMark "(" = true) : arrowAfterGroup 0 ts' = arrowAfterGroup 0 ts

namespace Mirror

variable {M : Mirror}

/-- The states belong together: the same was done with the tokens of one list and the other. -/
structure Rel (M : Mirror) (s s' : ParserState) : Prop where
  lists : M.lists s.rest s'.rest
  consumed : s'.consumed = s.consumed + M.offset
  counters : s.SameCounters s'
  issues : s'.issues = s.issues.map (Issue.move M.move)

/-- The runs gave values or faults that belong together, and left such states. -/
inductive Outcome (M : Mirror) (v : α → β) :
    EStateM.Result Fault ParserState α → EStateM.Result Fault ParserState β → Prop
  | ok (a : α) (h : M.Rel s s') : Outcome M v (.ok a s) (.ok (v a) s')
  | error (fault : Fault) (h : M.Rel s s') :
    Outcome M v (.error fault s) (.error (fault.move M.move) s')

/-- From these states the productions do the same, unless that leads to a place that is lost. -/
structure AlikeFrom (M : Mirror) (v : α → β) (p : Parse α) (p' : Parse β) (s s' : ParserState) :
    Prop where
  moves : StepRelation.cursor.KeepsFrom p s
  outcome (hl : ¬M.lost (leaves p s).rest) : M.Outcome v (p s) (p' s')

/-- From states that belong together, with fewer than `n` tokens left, the productions do the
same. -/
structure Alike (M : Mirror) (n : Nat) (v : α → β) (p : Parse α) (p' : Parse β) : Prop where
  moves : StepRelation.cursor.Keeps p
  run {s s' : ParserState} (h : M.Rel s s') (hn : s.rest.length < n) : M.AlikeFrom v p p' s s'

/-! ### States -/

namespace Rel

variable {s s' : ParserState}

/-- The next tokens are twins. -/
theorem twin (h : M.Rel s s') (hl : ¬M.lost s.rest) : s.peek.Twin M.move s'.peek :=
  M.head h.lists hl

/-- Behind a word the next ones are twins too. -/
theorem second (h : M.Rel s s') (hl : ¬M.lost s.rest) {name : String}
    (hw : s.peek.word? = some name) : (s.tokenAhead 1).Twin M.move (s'.tokenAhead 1) :=
  M.second h.lists hl hw

/-- Where it counts, a line ends before both or before neither. -/
theorem newline (h : M.Rel s s') (hl : ¬M.lost s.rest) (hlt : s.rest.length < M.top) :
    s'.peek.newlineBefore = s.peek.newlineBefore := M.newline h.lists hl hlt

theorem isAtEnd (h : M.Rel s s') (hl : ¬M.lost s.rest) : s'.isAtEnd = s.isAtEnd :=
  (h.twin hl).isEof

/-- Faults at twins belong together. -/
theorem fault (h : M.Rel s s') (hl : ¬M.lost s.rest) (message : String) :
    s'.fault message = (s.fault message).move M.move :=
  congrArg (Fault.mk message) (h.twin hl).position

theorem unexpected (h : M.Rel s s') (hl : ¬M.lost s.rest) :
    s'.unexpected = s.unexpected.move M.move := by
  rw [ParserState.unexpected, (h.twin hl).describe]
  exact h.fault hl _

/-- An arrow starts in both lists or in neither. -/
theorem startsArrow (h : M.Rel s s') (hl : ¬M.lost s.rest) : s'.startsArrow = s.startsArrow := by
  rw [ParserState.startsArrow, ParserState.startsArrow, (h.twin hl).isName, (h.twin hl).isMark]
  by_cases hname : s.peek.isName = true
  · obtain ⟨name, hw, -⟩ := Token.word_of_isName hname
    rw [if_pos hname, if_pos hname, (h.second hl hw).isMark]
  · rw [if_neg hname, if_neg hname]
    by_cases hmark : s.peek.isMark "(" = true
    · rw [M.arrow h.lists hl hmark]
    · rw [Bool.not_eq_true] at hmark
      rw [hmark, Bool.false_and, Bool.false_and]

/-- So does a declaration with `let`. -/
theorem letDeclares (h : M.Rel s s') (hl : ¬M.lost s.rest) {name : String}
    (hw : s.peek.word? = some name) : s'.letDeclares = s.letDeclares := by
  have htwin := h.second hl hw
  rw [ParserState.letDeclares, ParserState.letDeclares, htwin.isMark, htwin.isMark, htwin.isName]

theorem declares (h : M.Rel s s') (hl : ¬M.lost s.rest) : s'.declares = s.declares := by
  have htwin := h.twin hl
  rw [ParserState.declares, ParserState.declares, htwin.isWord, htwin.isWord, htwin.isWord]
  by_cases hlet : s.peek.isWord "let" = true
  · rw [h.letDeclares hl (Token.isWord_iff.mp hlet)]
  · rw [Bool.not_eq_true] at hlet
    rw [hlet, Bool.false_and, Bool.false_and]

/-- Taking the next token of both. -/
theorem pass (h : M.Rel s s') (hl : ¬M.lost s.pass.rest) : M.Rel s.pass s'.pass := by
  obtain ⟨ts, consumed, functions, nesting, noIn, issues⟩ := s
  obtain ⟨ts', consumed', functions', nesting', noIn', issues'⟩ := s'
  obtain ⟨hlists, hconsumed, hcounters, hissues⟩ := h
  dsimp only at hlists hconsumed hcounters hissues
  obtain ⟨t, ts, rfl⟩ := List.exists_cons_of_ne_nil (M.ne_nil hlists)
  have hlength := M.length hlists
  obtain ⟨t', ts', rfl⟩ : ∃ t' us, ts' = t' :: us :=
    List.exists_cons_of_length_pos (by rw [hlength, List.length_cons]; omega)
  have hopen : ¬M.lost (t :: ts) := by
    refine fun hlost => hl (M.lost_suffix ?_ hlost)
    exact (ParserState.MovesTo.pass ⟨t :: ts, consumed, functions, nesting, noIn, issues⟩).suffix
  have htwin : t.Twin M.move t' := M.head hlists hopen
  unfold ParserState.pass at hl ⊢
  dsimp only at hl ⊢
  rw [htwin.isEof]
  by_cases ht : t.isEof = true
  · rw [if_pos ht, if_pos ht]
    exact ⟨hlists, hconsumed, hcounters, hissues⟩
  · rw [if_neg ht] at hl
    rw [if_neg ht, if_neg ht]
    refine ⟨M.tail hlists (Bool.eq_false_iff.mpr ht) hl, ?_,
      ⟨hcounters.functionDepth, hcounters.nesting, hcounters.noIn⟩, hissues⟩
    show consumed' + 1 = consumed + 1 + M.offset
    omega

/-- Recording faults that belong together. -/
theorem noting (h : M.Rel s s') (fault : Fault) :
    M.Rel (s.noting fault) (s'.noting (fault.move M.move)) := by
  have hlength : s'.issues.length = s.issues.length := by rw [h.issues, List.length_map]
  unfold ParserState.noting
  rw [hlength]
  split
  · refine ⟨h.lists, h.consumed,
      ⟨h.counters.functionDepth, h.counters.nesting, h.counters.noIn⟩, ?_⟩
    show s'.issues ++ [(fault.move M.move).issue] = (s.issues ++ [fault.issue]).map _
    rw [h.issues, List.map_append]
    rfl
  · exact h

/-- Recovery decides alike at each token. -/
theorem boundaryMove (h : M.Rel s s') (hl : ¬M.lost s.rest) (hlt : s.rest.length < M.top)
    (depth : Nat) : s'.boundaryMove depth = s.boundaryMove depth := by
  have htwin := h.twin hl
  simp only [ParserState.boundaryMove, h.isAtEnd hl, htwin.isMark, h.newline hl hlt]

/-- Recovery stops at the same place in both, whatever fuel each has left. -/
theorem skipToBoundary {fuel fuel' depth : Nat} (h : M.Rel s s') (hlt : s.rest.length < M.top)
    (hfuel : s.rest.length < fuel) (hfuel' : s'.rest.length < fuel')
    (hl : ¬M.lost (ParserState.skipToBoundary fuel depth s).rest) :
    M.Rel (ParserState.skipToBoundary fuel depth s)
      (ParserState.skipToBoundary fuel' depth s') := by
  induction fuel generalizing fuel' depth s s' with
  | zero => exact absurd hfuel (Nat.not_lt_zero _)
  | succ fuel ih =>
    obtain ⟨fuel', rfl⟩ := Nat.exists_eq_add_one_of_ne_zero (Nat.ne_zero_of_lt hfuel')
    have hopen : ¬M.lost s.rest := fun hlost => hl (M.lost_suffix
      (StepRelation.Keeps.skipToBoundary .cursor (fuel + 1) depth s).suffix hlost)
    rw [ParserState.skipToBoundary_succ] at hl ⊢
    rw [ParserState.skipToBoundary_succ, h.boundaryMove hopen hlt]
    cases hmove : s.boundaryMove depth with
    | stay => exact h
    | pass =>
      rw [hmove] at hl
      exact h.pass hl
    | goOn depth =>
      rw [hmove] at hl
      have hpass := h.pass fun hlost => hl (M.lost_suffix
        (StepRelation.Keeps.skipToBoundary .cursor fuel depth s.pass).suffix hlost)
      have hless := Past.pass_length_lt (ParserState.isAtEnd_of_goOn hmove)
      have hgap := M.length h.lists
      have hgap' := M.length hpass.lists
      exact ih hpass (by omega) (by omega) (by omega) hl

/-- After a fault both go on from states that belong together. -/
theorem recover {start : Nat} (h : M.Rel s s')
    (hlt : (if s.consumed = start then s.pass else s).rest.length < M.top)
    (hl : ¬M.lost (s.recover start).rest) :
    M.Rel (s.recover start) (s'.recover (start + M.offset)) := by
  have hsame : s'.consumed = start + M.offset ↔ s.consumed = start := by
    rw [h.consumed, Nat.add_right_cancel_iff]
  unfold ParserState.recover at hl ⊢
  dsimp only at hl ⊢
  by_cases hc : s.consumed = start
  · rw [if_pos hc] at hl hlt
    rw [if_pos hc, if_pos (hsame.mpr hc)]
    have hpass := h.pass fun hlost => hl (M.lost_suffix
      (StepRelation.Keeps.skipToBoundary .cursor _ 0 s.pass).suffix hlost)
    exact hpass.skipToBoundary hlt (Nat.lt_succ_self _) (Nat.lt_succ_self _) hl
  · rw [if_neg hc] at hl hlt
    rw [if_neg hc, if_neg (mt hsame.mp hc)]
    exact h.skipToBoundary hlt (Nat.lt_succ_self _) (Nat.lt_succ_self _) hl

end Rel

/-! ### From two states -/

section Rules

variable {α β γ δ σ τ : Type} {n : Nat} {u : α → β} {v : γ → δ} {p : Parse α} {p' : Parse β}
  {q r : Parse γ} {q' r' : Parse δ} {f : α → Parse γ} {f' : β → Parse δ} {s s' : ParserState}

/-- What a production moves from does not stop counting before what it leaves. -/
theorem not_lost_of_leaves (hp : StepRelation.cursor.KeepsFrom p s)
    (hl : ¬M.lost (leaves p s).rest) : ¬M.lost s.rest :=
  fun hlost => hl (M.lost_suffix hp.suffix hlost)

namespace AlikeFrom

/-- Productions that leave the states they start from. -/
theorem stay (hs : leaves p s = s) (h : ¬M.lost s.rest → M.Outcome u (p s) (p' s')) :
    M.AlikeFrom u p p' s s' := by
  refine ⟨?_, fun hl => h (hs ▸ hl)⟩
  rw [StepRelation.KeepsFrom, hs]
  exact .refl s

/-- Only what counts has to be looked at. -/
theorem of_kept (hm : StepRelation.cursor.KeepsFrom p s)
    (h : ¬M.lost s.rest → M.AlikeFrom u p p' s s') : M.AlikeFrom u p p' s s' :=
  ⟨hm, fun hl => (h (not_lost_of_leaves hm hl)).outcome hl⟩

/-- What two productions do next is alike wherever the first steps have led. -/
theorem seq (hp : M.AlikeFrom u p p' s s') (hm : ∀ a, StepRelation.cursor.Keeps (f a))
    (hf : ∀ a mid mid', p s = .ok a mid → M.Rel mid mid' →
      M.AlikeFrom v (f a) (f' (u a)) mid mid') :
    M.AlikeFrom v (p >>= f) (p' >>= f') s s' := by
  refine ⟨hp.moves.bind hm, fun hl => ?_⟩
  rw [leaves_bind] at hl
  have hout := hp.outcome
  simp only [Bind.bind, EStateM.bind]
  unfold leaves at hout
  cases hr : p s with
  | ok a mid =>
    rw [hr] at hl hout
    have hout := hout (not_lost_of_leaves (hm a mid) hl)
    generalize p' s' = result at hout ⊢
    cases hout with
    | ok a hrel => exact (hf a mid _ hr hrel).outcome hl
  | error fault mid =>
    rw [hr] at hl hout
    have hout := hout hl
    generalize p' s' = result at hout ⊢
    cases hout with
    | error fault hrel => exact .error fault hrel

/-- A sequence, from two states. -/
theorem bind (hp : M.AlikeFrom u p p' s s') (hn : s.rest.length < n)
    (hf : ∀ a, M.Alike n v (f a) (f' (u a))) : M.AlikeFrom v (p >>= f) (p' >>= f') s s' := by
  refine hp.seq (fun a => (hf a).moves) fun a mid mid' hr hrel => (hf a).run hrel ?_
  have hmoves := hp.moves.suffix.length_le
  unfold leaves at hmoves
  rw [hr] at hmoves
  exact Nat.lt_of_le_of_lt hmoves hn

/-- Once a token is taken, what follows need be alike for fewer tokens only. -/
theorem first {kind : Token → Prop} (hp : M.AlikeFrom u p p' s s')
    (ht : TakesFrom kind (fun _ => True) p s) (hn : s.rest.length < n + 1)
    (hf : ∀ a, M.Alike n v (f a) (f' (u a))) : M.AlikeFrom v (p >>= f) (p' >>= f') s s' := by
  refine hp.seq (fun a => (hf a).moves) fun a mid mid' hr hrel => (hf a).run hrel ?_
  have hless := (ht a mid hr trivial).length_lt
  omega

theorem pass (h : M.Rel s s') : M.AlikeFrom id Parse.pass Parse.pass s s' :=
  ⟨StepRelation.Keeps.pass s, fun hl => .ok PUnit.unit (h.pass hl)⟩

/-- A token that comes next is taken. -/
theorem passFirst {f : PUnit → Parse γ} {f' : PUnit → Parse δ} (h : M.Rel s s')
    (hopen : s.peek.isEof = false) (hn : s.rest.length < n + 1)
    (hf : M.Alike n v (f ⟨⟩) (f' ⟨⟩)) :
    M.AlikeFrom v (Parse.pass >>= f) (Parse.pass >>= f') s s' :=
  (pass h).first (.pass hopen trivial : TakesFrom (fun _ => True) _ _ s) hn fun _ => hf

theorem peek {f : Token → Parse γ} {f' : Token → Parse δ}
    (h : M.AlikeFrom v (f s.peek) (f' s'.peek) s s') :
    M.AlikeFrom v (peek >>= f) (peek >>= f') s s' := ⟨h.moves, h.outcome⟩

theorem tokenAhead {offset : Nat} {f : Token → Parse γ} {f' : Token → Parse δ}
    (h : M.AlikeFrom v (f (s.tokenAhead offset)) (f' (s'.tokenAhead offset)) s s') :
    M.AlikeFrom v (tokenAhead offset >>= f) (tokenAhead offset >>= f') s s' :=
  ⟨h.moves, h.outcome⟩

theorem get {f : ParserState → Parse γ} {f' : ParserState → Parse δ}
    (h : M.AlikeFrom v (f s) (f' s') s s') : M.AlikeFrom v (get >>= f) (get >>= f') s s' :=
  ⟨h.moves, h.outcome⟩

theorem ite {c c' : Prop} [Decidable c] [Decidable c'] (hc : c' ↔ c)
    (hq : c → M.AlikeFrom v q q' s s') (hr : ¬c → M.AlikeFrom v r r' s s') :
    M.AlikeFrom v (if c then q else r) (if c' then q' else r') s s' := by
  by_cases h : c
  · rw [if_pos h, if_pos (hc.mpr h)]
    exact hq h
  · rw [if_neg h, if_neg (mt hc.mp h)]
    exact hr h

/-- Both runs take what tokens they take at once, to states that belong together if the place
counts. -/
theorem set {f : PUnit → Parse γ} {f' : PUnit → Parse δ} {mid mid' : ParserState}
    (hm : s.MovesTo mid) (h : ¬M.lost mid.rest → M.Rel mid mid') (hn : s.rest.length < n)
    (hf : M.Alike n v (f ⟨⟩) (f' ⟨⟩)) :
    M.AlikeFrom v (set mid >>= f) (set mid' >>= f') s s' := by
  refine ⟨.set hm hf.moves, fun hl => ?_⟩
  have hmid : ¬M.lost mid.rest := not_lost_of_leaves (hf.moves mid) hl
  exact (hf.run (h hmid) (Nat.lt_of_le_of_lt hm.suffix.length_le hn)).outcome hl

/-- A choice by a mark. Where it does not come next, the states are the same. -/
theorem ifMark {text : String} (h : M.Rel s s') (hn : s.rest.length < n) (hl : ¬M.lost s.rest)
    (hq : M.Alike n v q q') (hr : M.AlikeFrom v r r' s s') :
    M.AlikeFrom v (acceptMark text >>= fun taken => if taken = true then q else r)
      (acceptMark text >>= fun taken => if taken = true then q' else r') s s' := by
  refine ⟨.ifMark hq.moves hr.moves, fun hleaves => ?_⟩
  rw [leaves_ifMark] at hleaves
  have hmark := (h.twin hl).isMark text
  simp only [Bind.bind, EStateM.bind, acceptMark_eq, hmark]
  by_cases hnext : s.peek.isMark text = true
  · rw [if_pos hnext] at hleaves
    rw [if_pos hnext, if_pos hnext]
    have hpass := h.pass (not_lost_of_leaves (hq.moves s.pass) hleaves)
    have hshort := (ParserState.MovesTo.pass s).suffix.length_le
    exact (hq.run hpass (Nat.lt_of_le_of_lt hshort hn)).outcome hleaves
  · rw [if_neg hnext] at hleaves
    rw [if_neg hnext, if_neg hnext]
    exact hr.outcome hleaves

/-- A fault is recorded in both runs, and both go on behind the same tokens. -/
theorem recovering (hp : M.AlikeFrom u p p' s s') (h : M.Rel s s')
    (hn : s.rest.length ≤ M.top) (hopen : s.peek.isEof = false) :
    M.AlikeFrom (Option.map u) (Parse.recovering p) (Parse.recovering p') s s' := by
  have hmoves := hp.moves
  have hout := hp.outcome
  unfold StepRelation.KeepsFrom leaves at hmoves
  unfold leaves at hout
  cases hr : p s with
  | ok a mid =>
    rw [hr] at hmoves hout
    have hs : Parse.recovering p s = .ok (some a) mid := by rw [Parse.recovering, hr]
    have hleaves : leaves (Parse.recovering p) s = mid := by rw [leaves, hs]
    refine ⟨by rw [StepRelation.KeepsFrom, hleaves]; exact hmoves, fun hl => ?_⟩
    rw [hleaves] at hl
    have hout := hout hl
    rw [hs, Parse.recovering]
    generalize p' s' = result at hout ⊢
    cases hout with
    | ok a hrel => exact .ok (some a) hrel
  | error fault mid =>
    rw [hr] at hmoves hout
    have hs : Parse.recovering p s = .ok none ((mid.noting fault).recover s.consumed) := by
      rw [Parse.recovering, hr]
    have hleaves : leaves (Parse.recovering p) s = (mid.noting fault).recover s.consumed := by
      rw [leaves, hs]
    have hnoted : s.MovesTo (mid.noting fault) := hmoves.trans (.noting mid fault)
    have hrecover := StepRelation.Keeps.recover .cursor (mid.noting fault) s.consumed
    refine ⟨by rw [StepRelation.KeepsFrom, hleaves]; exact hnoted.trans hrecover, fun hl => ?_⟩
    rw [hleaves] at hl
    have hnotedLost : ¬M.lost (mid.noting fault).rest :=
      fun hlost => hl (M.lost_suffix hrecover.suffix hlost)
    have hout := hout fun hlost => hnotedLost
      (M.lost_suffix (ParserState.MovesTo.noting mid fault).suffix hlost)
    rw [hs, Parse.recovering]
    generalize p' s' = result at hout ⊢
    cases hout with
    | error fault hrel =>
      have hless := Past.length_onward_lt hnoted hopen
      refine .ok none ?_
      rw [h.consumed]
      exact (hrel.noting fault).recover (Nat.lt_of_lt_of_le hless hn) hl

end AlikeFrom

/-! ### From all states that belong together -/

namespace Alike

theorem mono {m : Nat} (h : M.Alike n u p p') (hm : m ≤ n) : M.Alike m u p p' :=
  ⟨h.moves, fun hrel hn => h.run hrel (Nat.lt_of_lt_of_le hn hm)⟩

/-- With fewer tokens left, the productions are still alike. -/
theorem late (h : M.Alike (n + 1) u p p') : M.Alike n u p p' := h.mono (Nat.le_succ n)

/-- Productions that move onward have to be looked at only where the place is not lost. -/
theorem of_state (hm : StepRelation.cursor.Keeps p)
    (h : ∀ s s', M.Rel s s' → s.rest.length < n → ¬M.lost s.rest → M.AlikeFrom u p p' s s') :
    M.Alike n u p p' := ⟨hm, fun {s s'} hrel hn => .of_kept (hm s) (h s s' hrel hn)⟩

theorem pure {a : α} {b : β} (h : b = u a) : M.Alike n u (Pure.pure a) (Pure.pure b) := by
  subst h
  exact ⟨.pure, fun hrel _ => .stay rfl fun _ => .ok a hrel⟩

theorem fail {message : String} : M.Alike n u (Parse.fail message) (Parse.fail message) :=
  .of_state .fail fun s s' hrel _ hl => .stay rfl fun _ => by
    show M.Outcome u (.error (s.fault message) s) (.error (s'.fault message) s')
    rw [hrel.fault hl]
    exact .error _ hrel

theorem unexpected : M.Alike n u Parse.unexpected Parse.unexpected :=
  .of_state .unexpected fun s s' hrel _ hl => .stay rfl fun _ => by
    show M.Outcome u (.error s.unexpected s) (.error s'.unexpected s')
    rw [hrel.unexpected hl]
    exact .error _ hrel

theorem bind (hp : M.Alike n u p p') (hf : ∀ a, M.Alike n v (f a) (f' (u a))) :
    M.Alike n v (p >>= f) (p' >>= f') :=
  ⟨hp.moves.bind fun a => (hf a).moves, fun hrel hn => (hp.run hrel hn).bind hn hf⟩

/-- Once a token is taken, what follows need be alike for fewer tokens only. -/
theorem first {kind : Token → Prop} (hp : M.Alike (n + 1) u p p') (ht : Takes kind p)
    (hf : ∀ a, M.Alike n v (f a) (f' (u a))) : M.Alike (n + 1) v (p >>= f) (p' >>= f') :=
  ⟨hp.moves.bind fun a => (hf a).moves, fun hrel hn => (hp.run hrel hn).first (ht _) hn hf⟩

theorem map {g : α → γ} {g' : β → δ} (hp : M.Alike n u p p') (hg : ∀ a, g' (u a) = v (g a)) :
    M.Alike n v (g <$> p) (g' <$> p') := by
  refine ⟨hp.moves.map, fun {s s'} hrel hn => ⟨hp.moves.map s, fun hl => ?_⟩⟩
  rw [leaves_map] at hl
  have hout := (hp.run hrel hn).outcome hl
  simp only [Functor.map, EStateM.map]
  generalize p s = result, p' s' = result' at hout
  cases hout with
  | ok a h =>
    show M.Outcome v (.ok (g a) _) (.ok (g' (u a)) _)
    rw [hg a]
    exact .ok (g a) h
  | error fault h => exact .error fault h

theorem ite {c c' : Prop} [Decidable c] [Decidable c'] (hc : c' ↔ c) (hq : M.Alike n v q q')
    (hr : M.Alike n v r r') : M.Alike n v (if c then q else r) (if c' then q' else r') :=
  ⟨.ite hq.moves hr.moves,
    fun hrel hn => .ite hc (fun _ => hq.run hrel hn) fun _ => hr.run hrel hn⟩

/-! #### Looking at tokens -/

/-- What is done with a token is alike for twins. -/
theorem peek {f : Token → Parse γ} {f' : Token → Parse δ}
    (hf : ∀ t t', t.Twin M.move t' → M.Alike n v (f t) (f' t')) :
    M.Alike n v (peek >>= f) (peek >>= f') :=
  .of_state (.peek fun t => (hf t _ (t.twin_move M.move)).moves) fun _ _ hrel hn hl =>
    have h := (hf _ _ (hrel.twin hl)).run hrel hn
    ⟨h.moves, h.outcome⟩

/-- Where it counts whether a line ends before the token. -/
theorem peekLine {f : Token → Parse γ} {f' : Token → Parse δ} (hn : n ≤ M.top)
    (hf : ∀ t t', t.Twin M.move t' → t'.newlineBefore = t.newlineBefore →
      M.Alike n v (f t) (f' t')) :
    M.Alike n v (Parse.peek >>= f) (Parse.peek >>= f') := by
  have hmoves : ∀ t, StepRelation.cursor.Keeps (f t) := by
    intro t
    obtain ⟨kind, position, newline⟩ := t
    exact (hf (.mk kind position newline) (.mk (kind.move M.move) (M.move position) newline)
      ⟨rfl, rfl⟩ rfl).moves
  refine .of_state (.peek hmoves) fun s s' hrel hs hl => ?_
  have h := (hf _ _ (hrel.twin hl) (hrel.newline hl (Nat.lt_of_lt_of_le hs hn))).run hrel hs
  exact ⟨h.moves, h.outcome⟩

theorem isAtEnd {f : Bool → Parse γ} {f' : Bool → Parse δ}
    (hf : ∀ b, M.Alike n v (f b) (f' b)) : M.Alike n v (isAtEnd >>= f) (isAtEnd >>= f') :=
  .of_state (.isAtEnd fun b => (hf b).moves) fun s s' hrel hn hl =>
    have h : M.AlikeFrom v (f s.isAtEnd) (f' s'.isAtEnd) s s' :=
      hrel.isAtEnd hl ▸ (hf s.isAtEnd).run hrel hn
    ⟨h.moves, h.outcome⟩

theorem failExpecting {what : String} :
    M.Alike n v (Parse.failExpecting what) (Parse.failExpecting what) :=
  .peek fun _ _ ht => ht.describe ▸ .fail

/-! #### Taking tokens -/

theorem pass : M.Alike n id Parse.pass Parse.pass := ⟨.pass, fun hrel _ => .pass hrel⟩

theorem acceptMark {text : String} : M.Alike n id (acceptMark text) (acceptMark text) :=
  .peek fun _ _ ht => .ite (by rw [ht.isMark]) (.bind .pass fun _ => .pure rfl) (.pure rfl)

theorem eatWord {name : String} : M.Alike n id (eatWord name) (eatWord name) :=
  .peek fun _ _ ht => .ite (by rw [ht.isWord]) (.bind .pass fun _ => .pure rfl) (.pure rfl)

theorem ifMark {text : String} (hq : M.Alike n v q q') (hr : M.Alike n v r r') :
    M.Alike n v (Parse.acceptMark text >>= fun taken => if taken = true then q else r)
      (Parse.acceptMark text >>= fun taken => if taken = true then q' else r') :=
  .bind .acceptMark fun _ => .ite Iff.rfl hq hr

theorem ifWord {name : String} (hq : M.Alike n v q q') (hr : M.Alike n v r r') :
    M.Alike n v (Parse.eatWord name >>= fun taken => if taken = true then q else r)
      (Parse.eatWord name >>= fun taken => if taken = true then q' else r') :=
  .bind .eatWord fun _ => .ite Iff.rfl hq hr

theorem expect {text : String} : M.Alike n id (expect text) (expect text) :=
  .ifMark (.pure rfl) .failExpecting

/-- A mark that has to come next is taken. -/
theorem expectFirst {text : String} {f : PUnit → Parse γ} {f' : PUnit → Parse δ}
    (hf : M.Alike n v (f ⟨⟩) (f' ⟨⟩)) :
    M.Alike (n + 1) v (Parse.expect text >>= f) (Parse.expect text >>= f') :=
  first expect (.expect fun _ _ => trivial : Takes (fun _ => True) _) fun _ => hf

theorem expectWord {name : String} : M.Alike n id (expectWord name) (expectWord name) :=
  .ifWord (.pure rfl) .failExpecting

/-- A semicolon may be left out at the same places, if line ends count there. -/
theorem semicolon (hn : n ≤ M.top) : M.Alike n id semicolon semicolon :=
  .ifMark (.pure rfl) (.peekLine hn fun _ _ ht hline =>
    .ite (by rw [ht.isMark, ht.isEof, hline]) (.pure rfl) .failExpecting)

/-! #### Running inside something -/

/-- A level is spent in both. -/
theorem nested (hp : M.Alike n u p p') : M.Alike n u (nested p) (nested p') := by
  refine .of_state hp.moves.nested fun s s' hrel hn hlost => ⟨hp.moves.nested s, fun hl => ?_⟩
  rw [leaves_nested] at hl
  unfold Parse.nested
  rw [hrel.counters.nesting]
  by_cases hdeep : maxNesting < s.nesting + 1
  · rw [if_pos hdeep, if_pos hdeep, hrel.fault hlost]
    exact .error _ hrel
  · rw [if_neg hdeep] at hl
    rw [if_neg hdeep, if_neg hdeep]
    have hinner : M.Rel { s with nesting := s.nesting + 1 }
        { s' with nesting := s.nesting + 1 } :=
      ⟨hrel.lists, hrel.consumed, ⟨hrel.counters.functionDepth, rfl, hrel.counters.noIn⟩,
        hrel.issues⟩
    have hout := (hp.run hinner hn).outcome hl
    generalize p { s with nesting := s.nesting + 1 } = result,
      p' { s' with nesting := s.nesting + 1 } = result' at hout
    cases hout with
    | ok a h =>
      exact .ok a ⟨h.lists, h.consumed, ⟨h.counters.functionDepth,
        congrArg (· - 1) h.counters.nesting, h.counters.noIn⟩, h.issues⟩
    | error fault h =>
      exact .error fault ⟨h.lists, h.consumed, ⟨h.counters.functionDepth,
        congrArg (· - 1) h.counters.nesting, h.counters.noIn⟩, h.issues⟩

theorem withoutIn {noIn : Bool} (hp : M.Alike n u p p') :
    M.Alike n u (withoutIn noIn p) (withoutIn noIn p') := by
  refine ⟨hp.moves.withoutIn, fun {s s'} hrel hn => ⟨hp.moves.withoutIn s, fun hl => ?_⟩⟩
  rw [leaves_withoutIn] at hl
  have hinner : M.Rel { s with noIn := noIn } { s' with noIn := noIn } :=
    ⟨hrel.lists, hrel.consumed, ⟨hrel.counters.functionDepth, hrel.counters.nesting, rfl⟩,
      hrel.issues⟩
  have hout := (hp.run hinner hn).outcome hl
  unfold Parse.withoutIn
  generalize p { s with noIn := noIn } = result, p' { s' with noIn := noIn } = result' at hout
  cases hout with
  | ok a h =>
    exact .ok a ⟨h.lists, h.consumed, ⟨h.counters.functionDepth, h.counters.nesting,
      hrel.counters.noIn⟩, h.issues⟩
  | error fault h =>
    exact .error fault ⟨h.lists, h.consumed, ⟨h.counters.functionDepth, h.counters.nesting,
      hrel.counters.noIn⟩, h.issues⟩

theorem insideFunction (hp : M.Alike n u p p') :
    M.Alike n u (insideFunction p) (insideFunction p') := by
  have hmoves := hp.moves.insideFunction
  refine ⟨hmoves, fun {s s'} hrel hn => ⟨hmoves s, fun hl => ?_⟩⟩
  rw [leaves_insideFunction] at hl
  have hinner : M.Rel { s with functionDepth := s.functionDepth + 1 }
      { s' with functionDepth := s'.functionDepth + 1 } :=
    ⟨hrel.lists, hrel.consumed, ⟨congrArg (· + 1) hrel.counters.functionDepth,
      hrel.counters.nesting, hrel.counters.noIn⟩, hrel.issues⟩
  have hout := (hp.withoutIn.run hinner hn).outcome hl
  unfold Parse.insideFunction
  generalize Parse.withoutIn false p { s with functionDepth := s.functionDepth + 1 } = result,
    Parse.withoutIn false p' { s' with functionDepth := s'.functionDepth + 1 } = result' at hout
  cases hout with
  | ok a h =>
    exact .ok a ⟨h.lists, h.consumed, ⟨congrArg (· - 1) h.counters.functionDepth,
      h.counters.nesting, h.counters.noIn⟩, h.issues⟩
  | error fault h =>
    exact .error fault ⟨h.lists, h.consumed, ⟨congrArg (· - 1) h.counters.functionDepth,
      h.counters.nesting, h.counters.noIn⟩, h.issues⟩

end Alike

/-! ### Loops -/

/-- A round that goes on takes a token, so that the runs do the same however many rounds more than
tokens each may have. -/
theorem AlikeFrom.rounds {step : σ → Parse (Step σ γ)} {step' : τ → Parse (Step τ δ)}
    {w : σ → τ} (hs : ∀ a, M.Alike n (Step.map w v) (step a) (step' (w a)))
    (ht : ∀ a, TakesFor (fun _ => True) Step.GoesOn (step a)) {fuel fuel' : Nat} (a : σ)
    (h : M.Rel s s') (hn : s.rest.length < n) (hfuel : s.rest.length < fuel)
    (hfuel' : s'.rest.length < fuel') :
    M.AlikeFrom v (rounds step fuel a) (rounds step' fuel' (w a)) s s' := by
  induction fuel generalizing fuel' a s s' with
  | zero => exact absurd hfuel (Nat.not_lt_zero _)
  | succ fuel ih =>
    obtain ⟨fuel', rfl⟩ := Nat.exists_eq_add_one_of_ne_zero (Nat.ne_zero_of_lt hfuel')
    have hmoves : ∀ a, StepRelation.cursor.Keeps (step a) := fun a => (hs a).moves
    rw [Parse.rounds, Parse.rounds]
    refine ((hs a).run h hn).seq (fun r => ?_) fun r mid mid' hr hrel => ?_
    · cases r with
      | more a => exact .rounds hmoves fuel a
      | done b => exact .pure
    · cases r with
      | more a' =>
        have hless := (ht a s _ mid hr trivial).length_lt
        have hgap := M.length h.lists
        have hgap' := M.length hrel.lists
        exact ih a' hrel (by omega) (by omega) (by omega)
      | done b => exact .stay rfl fun _ => .ok b hrel

theorem Alike.loop {step : σ → Parse (Step σ γ)} {step' : τ → Parse (Step τ δ)} {w : σ → τ}
    {init : σ} {init' : τ} (hinit : init' = w init)
    (hs : ∀ a, M.Alike n (Step.map w v) (step a) (step' (w a)))
    (ht : ∀ a, TakesFor (fun _ => True) Step.GoesOn (step a)) :
    M.Alike n v (loop step init) (loop step' init') := by
  subst hinit
  refine ⟨.loop fun a => (hs a).moves, fun {s s'} h hn => ?_⟩
  have hrounds := AlikeFrom.rounds hs ht init h hn (Nat.lt_succ_self _) (Nat.lt_succ_self _)
  exact ⟨hrounds.moves, hrounds.outcome⟩

end Rules

end Mirror

end ScriptHooks.Script

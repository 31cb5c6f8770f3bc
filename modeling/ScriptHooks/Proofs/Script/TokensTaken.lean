/-
ScriptHooks.Proofs.Script.TokensTaken — which tokens a production takes, and which one last.

The cursor only moves onward, over tokens that do not end the list (`StepRelation.cursor`), and a
production that gives a value has taken at least one token (`Takes`). What it took last tells
expressions from statements: an expression never ends with a semicolon. So there are two
judgements, both over the kind of the last token:

* `Takes kind p`, for productions that have to take a token: the last one is of the kind;
* `Ends kind p`, for those that may also leave the cursor where it is: the last one is of the kind
  if there is one.

Both come with a form for one state (`TakesFrom`, `EndsFrom`), for productions whose caller has
looked at the next token. What follows the last token that has to be taken is all that counts, so
most steps are passed over (`TakesFor.after`, `TakesFor.first`).

A round of a loop need take a token only if the loop goes on after it, or only if it does not:
`TakesFor` says which values count. The last section has the first kind for each loop of the parser,
which is what makes the loops end; `switchRound_done` has the second, since a `switch` ends with the
brace that its last round takes.

Two facts about faults complete the picture: behind a fault the cursor has moved onward as well
(`StepRelation.cursor`), and recovery passes over a token if nothing was taken
(`length_onward_lt`). So a statement that fails takes a token all the same (`recovering`).
-/
import ScriptHooks.Proofs.Script.LoopRounds
import ScriptHooks.Proofs.Script.ProductionRelations
import ScriptHooks.Proofs.Script.Spelling

namespace ScriptHooks.Script

open Parse

/-! ## The cursor -/

namespace ParserState

/-- The end token is not taken. -/
theorem pass_of_isEof {s : ParserState} (h : s.peek.isEof = true) : s.pass = s := by
  obtain ⟨ts, consumed, functions, nesting, noIn, issues⟩ := s
  cases ts with
  | nil => rfl
  | cons t ts => exact if_pos h

/-- The cursor has moved from one state to the other, over tokens that do not end the list. -/
structure MovesTo (s s' : ParserState) : Prop where
  exists_taken : ∃ taken, s.rest = taken ++ s'.rest ∧ (∀ t ∈ taken, t.isEof = false) ∧
    s'.consumed = s.consumed + taken.length

namespace MovesTo

variable {s s' s'' : ParserState}

theorem refl (s : ParserState) : s.MovesTo s := ⟨[], rfl, List.forall_mem_nil _, rfl⟩

theorem trans (h : s.MovesTo s') (h' : s'.MovesTo s'') : s.MovesTo s'' := by
  obtain ⟨taken, hrest, heof, hconsumed⟩ := h.exists_taken
  obtain ⟨taken', hrest', heof', hconsumed'⟩ := h'.exists_taken
  refine ⟨taken ++ taken', by rw [hrest, hrest', List.append_assoc], ?_, ?_⟩
  · exact List.forall_mem_append.mpr ⟨heof, heof'⟩
  · rw [hconsumed', hconsumed, List.length_append, Nat.add_assoc]

theorem pass (s : ParserState) : s.MovesTo s.pass := by
  unfold ParserState.pass
  split
  · exact refl s
  case h_2 token rest hrest =>
    split
    · exact refl s
    case isFalse h =>
      exact ⟨[token], hrest, List.forall_mem_singleton.mpr (Bool.eq_false_iff.mpr h), rfl⟩

theorem noting (s : ParserState) (fault : Fault) : s.MovesTo (s.noting fault) := by
  unfold ParserState.noting
  split
  · exact ⟨[], rfl, List.forall_mem_nil _, rfl⟩
  · exact refl s

/-- Only the list and the count of taken tokens matter. -/
theorem congr {u u' : ParserState} (h : s.MovesTo s') (hrest : u.rest = s.rest)
    (hconsumed : u.consumed = s.consumed) (hrest' : u'.rest = s'.rest)
    (hconsumed' : u'.consumed = s'.consumed) : u.MovesTo u' := by
  obtain ⟨taken, h, heof, hcount⟩ := h.exists_taken
  exact ⟨taken, by rw [hrest, h, hrest'], heof, by rw [hconsumed', hcount, hconsumed]⟩

/-- What is left is the end of what was left before. -/
theorem suffix (h : s.MovesTo s') : s'.rest <:+ s.rest := by
  obtain ⟨taken, hrest, -, -⟩ := h.exists_taken
  exact ⟨taken, hrest.symm⟩

/-- The tokens taken and those left add up. -/
theorem count (h : s.MovesTo s') :
    s'.consumed + s'.rest.length = s.consumed + s.rest.length := by
  obtain ⟨taken, hrest, -, hconsumed⟩ := h.exists_taken
  rw [hconsumed, hrest, List.length_append, Nat.add_assoc]

/-- Where more is taken less is left. -/
theorem lt_iff (h : s.MovesTo s') :
    s.consumed < s'.consumed ↔ s'.rest.length < s.rest.length := by
  have := h.count
  omega

end MovesTo

end ParserState

/-- Every step moves the cursor onward, or leaves it where it is. -/
def StepRelation.cursor : StepRelation where
  rel := ParserState.MovesTo
  refl := .refl
  trans := .trans
  pass := .pass
  noting := .noting
  nested h := h.congr rfl rfl rfl rfl
  withoutIn h := h.congr rfl rfl rfl rfl
  insideFunction h := h.congr rfl rfl rfl rfl
  template {s _ _} _ _ _ := (ParserState.MovesTo.pass s).congr rfl rfl rfl rfl

/-- A template moves the cursor over one token, wherever it is read from. -/
theorem StepRelation.KeepsGrammar.templateLiteral_cursor {g : Grammar}
    (hg : StepRelation.cursor.KeepsGrammar g) (parts : List (List Token)) :
    StepRelation.cursor.Keeps (g.templateLiteral parts) := by
  intro s
  obtain ⟨inner, -, -, hs⟩ := hg.substitutions parts s.pass
  have hleaves : leaves (g.templateLiteral parts) s = leaves (g.substitutions parts) s.pass :=
    leaves_map s.pass Expr.template
  rw [KeepsFrom, hleaves, hs]
  exact (ParserState.MovesTo.pass s).congr rfl rfl rfl rfl

/-! ## Past a token -/

/-- What is left of a list after some of its tokens, the last of which is of this kind. -/
def Past (kind : Token → Prop) (ts ts' : List Token) : Prop :=
  ∃ taken last, ts = taken ++ last :: ts' ∧ kind last

namespace Past

variable {kind : Token → Prop} {ts ts' ts'' : List Token} {s s' s'' : ParserState}

/-- Fewer tokens are left. -/
theorem length_lt (h : Past kind ts ts') : ts'.length < ts.length := by
  obtain ⟨taken, last, rfl, -⟩ := h
  simp only [List.length_append, List.length_cons]
  omega

theorem mono {kind' : Token → Prop} (h : Past kind ts ts') (hkind : ∀ t, kind t → kind' t) :
    Past kind' ts ts' := by
  obtain ⟨taken, last, hts, hlast⟩ := h
  exact ⟨taken, last, hts, hkind last hlast⟩

/-- Some tokens, and then one of the kind. -/
theorem of_suffix (h : ts' <:+ ts) (h' : Past kind ts' ts'') : Past kind ts ts'' := by
  obtain ⟨before, rfl⟩ := h
  obtain ⟨taken, last, rfl, hlast⟩ := h'
  exact ⟨before ++ taken, last, (List.append_assoc ..).symm, hlast⟩

/-- One past the other. -/
theorem trans {kind' : Token → Prop} (h : Past kind' ts ts') (h' : Past kind ts' ts'') :
    Past kind ts ts'' := by
  obtain ⟨taken, last, rfl, -⟩ := h
  exact of_suffix ⟨taken ++ [last], by simp⟩ h'

/-- A token that does not end the list is taken. -/
theorem pass (h : s.peek.isEof = false) (hkind : kind s.peek) : Past kind s.rest s.pass.rest := by
  obtain ⟨ts, consumed, functions, nesting, noIn, issues⟩ := s
  cases ts with
  | nil => cases h
  | cons token ts =>
    have htoken : token.isEof = false := h
    refine ⟨[], token, ?_, hkind⟩
    simp [ParserState.pass, htoken]

theorem pass_length_lt (h : s.peek.isEof = false) : s.pass.rest.length < s.rest.length :=
  length_lt (pass h trivial : Past (fun _ => True) s.rest s.pass.rest)

/-- After a fault behind which nothing was taken one token is passed over, so that parsing goes on
with less in any case. -/
theorem length_onward_lt (h : s.MovesTo s') (hopen : s.peek.isEof = false) :
    (if s'.consumed = s.consumed then s'.pass else s').rest.length < s.rest.length := by
  have hcount := h.count
  split
  case isTrue hsame =>
    have hrest : s'.rest = s.rest := h.suffix.eq_of_length (by omega)
    have hpeek : s'.peek.isEof = false := by
      rwa [ParserState.peek, ParserState.tokenAhead, hrest]
    exact hrest ▸ pass_length_lt hpeek
  case isFalse hother =>
    have := h.suffix.length_le
    omega

/-- What moves the cursor on has taken a token. -/
theorem of_length_lt (h : s.MovesTo s') (hlt : s'.rest.length < s.rest.length) :
    Past (fun _ => True) s.rest s'.rest := by
  obtain ⟨taken, hrest, -, -⟩ := h.exists_taken
  obtain rfl | ⟨taken, last, rfl⟩ := List.eq_nil_or_concat taken
  · rw [hrest] at hlt
    exact absurd hlt (Nat.lt_irrefl _)
  · exact ⟨taken, last, by rw [hrest, List.concat_append], trivial⟩

end Past

/-! ## Productions that take a token -/

/-- From this state, whenever the production gives a value that counts, it has taken tokens, the
last one of this kind. -/
def TakesFrom (kind : Token → Prop) (counts : α → Prop) (p : Parse α) (s : ParserState) : Prop :=
  ∀ a s', p s = .ok a s' → counts a → Past kind s.rest s'.rest

/-- Whenever the production gives a value that counts, it has taken tokens, the last one of this
kind. -/
def TakesFor (kind : Token → Prop) (counts : α → Prop) (p : Parse α) : Prop :=
  ∀ s, TakesFrom kind counts p s

/-- Whenever the production gives a value, it has taken tokens, the last one of this kind. -/
abbrev Takes (kind : Token → Prop) (p : Parse α) : Prop := TakesFor kind (fun _ => True) p

/-- From this state, whenever the production gives a value, it has taken no token, or the last one
it has taken is of this kind. -/
def EndsFrom (kind : Token → Prop) (p : Parse α) (s : ParserState) : Prop :=
  ∀ a s', p s = .ok a s' → s'.rest = s.rest ∨ Past kind s.rest s'.rest

/-- Whenever the production gives a value, it has taken no token, or the last one it has taken is
of this kind. -/
def Ends (kind : Token → Prop) (p : Parse α) : Prop := ∀ s, EndsFrom kind p s

section Steps

variable {α β : Type} {p : Parse α} {f : α → Parse β} {s : ParserState}

/-- A sequence gives a value if its parts do. -/
theorem bind_eq_ok {b : β} {s' : ParserState} (h : (p >>= f) s = .ok b s') :
    ∃ a mid, p s = .ok a mid ∧ f a mid = .ok b s' := by
  simp only [Bind.bind, EStateM.bind] at h
  split at h
  case h_1 a mid hp => exact ⟨a, mid, hp, h⟩
  case h_2 => cases h

theorem map_eq_ok {g : α → β} {b : β} {s' : ParserState} (h : (g <$> p) s = .ok b s') :
    ∃ a, p s = .ok a s' ∧ g a = b := by
  simp only [Functor.map, EStateM.map] at h
  split at h
  case h_1 a mid hp =>
    cases h
    exact ⟨a, hp, rfl⟩
  case h_2 => cases h

/-- A mark is taken if it comes next. -/
theorem acceptMark_eq (text : String) (s : ParserState) :
    acceptMark text s = if s.peek.isMark text then .ok true s.pass else .ok false s := by
  show (if s.peek.isMark text = true then _ else _ : Parse Bool) s = _
  split <;> rfl

theorem eatWord_eq (name : String) (s : ParserState) :
    eatWord name s = if s.peek.isWord name then .ok true s.pass else .ok false s := by
  show (if s.peek.isWord name = true then _ else _ : Parse Bool) s = _
  split <;> rfl

/-- A production that runs inside something gives what it gives there, with the same tokens
left. -/
theorem nested_eq_ok {a : α} {s' : ParserState} (h : nested p s = .ok a s') :
    ∃ inner, p { s with nesting := s.nesting + 1 } = .ok a inner ∧ s'.rest = inner.rest := by
  unfold nested at h
  split at h
  · cases h
  · split at h
    case h_1 a inner hp =>
      cases h
      exact ⟨inner, hp, rfl⟩
    case h_2 => cases h

theorem withoutIn_eq_ok {noIn : Bool} {a : α} {s' : ParserState}
    (h : withoutIn noIn p s = .ok a s') :
    ∃ inner, p { s with noIn := noIn } = .ok a inner ∧ s'.rest = inner.rest := by
  unfold withoutIn at h
  split at h
  case h_1 a inner hp =>
    cases h
    exact ⟨inner, hp, rfl⟩
  case h_2 => cases h

/-- The tokens left are those that the production leaves. -/
theorem insideFunction_eq_ok {a : α} {s' : ParserState} (h : insideFunction p s = .ok a s') :
    ∃ outer inner, outer.rest = s.rest ∧ p outer = .ok a inner ∧ s'.rest = inner.rest := by
  unfold insideFunction at h
  split at h
  case h_1 a inner hp =>
    cases h
    obtain ⟨last, hlast, hrest⟩ := withoutIn_eq_ok hp
    exact ⟨{ s with functionDepth := s.functionDepth + 1, noIn := false }, last, rfl, hlast, hrest⟩
  case h_2 => cases h

/-- Where a production gives a value, the relation holds between the states. -/
theorem StepRelation.Keeps.of_ok {R : StepRelation} {a : α} {s' : ParserState}
    (hp : R.Keeps p) (h : p s = .ok a s') : R.rel s s' := by
  have hs := hp s
  unfold KeepsFrom leaves at hs
  rw [h] at hs
  exact hs

end Steps

section Rules

variable {α β σ : Type} {kind : Token → Prop} {counts : β → Prop} {p : Parse α} {f : α → Parse β}
  {q r : Parse β} {s : ParserState}

/-! ### Nothing, or a last token of the kind -/

/-- What has taken a token of the kind ends with it. -/
theorem EndsFrom.of_takes (h : TakesFrom kind (fun _ => True) p s) : EndsFrom kind p s :=
  fun a s' hr => .inr (h a s' hr trivial)

theorem EndsFrom.peek {f : Token → Parse β} (h : EndsFrom kind (f s.peek) s) :
    EndsFrom kind (peek >>= f) s := h

theorem EndsFrom.ite {c : Prop} [Decidable c] (hy : c → EndsFrom kind q s)
    (hn : ¬c → EndsFrom kind r s) : EndsFrom kind (if c then q else r) s := by
  split
  case isTrue h => exact hy h
  case isFalse h => exact hn h

/-- A choice by a mark of the kind. -/
theorem EndsFrom.ifMark {text : String} (hkind : ∀ t : Token, t.isMark text = true → kind t)
    (hq : Ends kind q) (hr : EndsFrom kind r s) :
    EndsFrom kind (acceptMark text >>= fun taken => if taken = true then q else r) s := by
  intro b s' h
  obtain ⟨taken, mid, hmark, h⟩ := bind_eq_ok h
  rw [acceptMark_eq] at hmark
  split at hmark
  case isTrue hnext =>
    cases hmark
    rw [if_pos rfl] at h
    have hpass : Past kind s.rest s.pass.rest :=
      .pass (Token.single_of_isMark hnext).notEof (hkind _ hnext)
    obtain heq | hend := hq _ b s' h
    · exact .inr (heq ▸ hpass)
    · exact .inr (hpass.trans hend)
  case isFalse =>
    cases hmark
    exact hr b s' h

namespace Ends

theorem of_takes (h : Takes kind p) : Ends kind p := fun s => .of_takes (h s)

/-- If any last token will do, then it is enough that the cursor does not move back. -/
theorem of_moves (h : StepRelation.cursor.Keeps p) : Ends (fun _ => True) p := by
  intro s a s' hr
  have hmoves : s.MovesTo s' := h.of_ok hr
  obtain heq | hlt := Nat.eq_or_lt_of_le hmoves.suffix.length_le
  · exact .inl (hmoves.suffix.eq_of_length heq)
  · exact .inr (.of_length_lt hmoves hlt)

theorem pure {a : α} : Ends kind (Pure.pure a) := by
  intro s a s' hr
  cases hr
  exact .inl rfl

theorem fail {message : String} : Ends kind (Parse.fail message : Parse α) := by
  intro s a s' hr
  cases hr

/-- In a sequence what comes second decides, if it takes anything. -/
theorem bind (hp : Ends kind p) (hf : ∀ a, Ends kind (f a)) : Ends kind (p >>= f) := by
  intro s b s' h
  obtain ⟨a, mid, hp', hf'⟩ := bind_eq_ok h
  obtain hmid | hmid := hp s a mid hp' <;> obtain hend | hend := hf a mid b s' hf'
  · exact .inl (hend.trans hmid)
  · exact .inr (hmid ▸ hend)
  · exact .inr (hend ▸ hmid)
  · exact .inr (hmid.trans hend)

theorem ite {c : Prop} [Decidable c] (hq : Ends kind q) (hr : Ends kind r) :
    Ends kind (if c then q else r) := fun s => .ite (fun _ => hq s) fun _ => hr s

theorem peek {f : Token → Parse β} (h : ∀ t, Ends kind (f t)) : Ends kind (peek >>= f) :=
  fun s => h s.peek s

theorem acceptMark {text : String} (hkind : ∀ t : Token, t.isMark text = true → kind t) :
    Ends kind (acceptMark text) := by
  intro s a s' hr
  rw [acceptMark_eq] at hr
  split at hr
  case isTrue h =>
    cases hr
    exact .inr (.pass (Token.single_of_isMark h).notEof (hkind _ h))
  case isFalse =>
    cases hr
    exact .inl rfl

theorem withoutIn {noIn : Bool} (hp : Ends kind p) : Ends kind (withoutIn noIn p) := by
  intro s a s' hr
  obtain ⟨inner, hp', hrest⟩ := withoutIn_eq_ok hr
  have hinner := hp _ a inner hp'
  rwa [← hrest] at hinner

/-- A loop ends as its rounds do, however many there are. -/
theorem rounds {step : σ → Parse (Step σ β)} (h : ∀ acc, Ends kind (step acc)) (fuel : Nat)
    (acc : σ) : Ends kind (rounds step fuel acc) := by
  induction fuel generalizing acc with
  | zero => exact fun s a s' hr => by cases hr
  | succ fuel ih =>
    rw [Parse.rounds]
    refine bind (h acc) fun r => ?_
    cases r with
    | more next => exact ih next
    | done b => exact pure

theorem loop {step : σ → Parse (Step σ β)} {init : σ} (h : ∀ acc, Ends kind (step acc)) :
    Ends kind (loop step init) := fun s => rounds h _ init s

end Ends

/-! ### A last token of the kind -/

namespace TakesFrom

theorem peek {f : Token → Parse β} (h : TakesFrom kind counts (f s.peek) s) :
    TakesFrom kind counts (peek >>= f) s := h

theorem ite {c : Prop} [Decidable c] (hy : c → TakesFrom kind counts q s)
    (hn : ¬c → TakesFrom kind counts r s) : TakesFrom kind counts (if c then q else r) s := by
  split
  case isTrue h => exact hy h
  case isFalse h => exact hn h

/-- Once a token of the kind is taken, what follows takes no other one last. -/
theorem first (hp : TakesFrom kind (fun _ => True) p s) (hf : ∀ a, Ends kind (f a)) :
    TakesFrom kind counts (p >>= f) s := by
  intro b s' h _
  obtain ⟨a, mid, hp', hf'⟩ := bind_eq_ok h
  have hmid := hp a mid hp' trivial
  obtain heq | hend := hf a mid b s' hf'
  · rwa [heq]
  · exact hmid.trans hend

theorem pass (h : s.peek.isEof = false) (hkind : kind s.peek) :
    TakesFrom kind (fun _ => True) pass s := by
  intro a s' hr _
  cases hr
  exact Past.pass h hkind

/-- A production after which parsing goes on takes a token, even if it fails. -/
theorem recovering (hp : StepRelation.cursor.Keeps p) (ht : Takes (fun _ => True) p)
    (h : s.peek.isEof = false) : TakesFrom (fun _ => True) (fun _ => True) (recovering p) s := by
  intro r s' hr _
  unfold Parse.recovering at hr
  split at hr
  case h_1 a mid hmid =>
    cases hr
    exact ht s a _ hmid trivial
  case h_2 fault mid hmid =>
    cases hr
    have hmoves : s.MovesTo mid := by
      have hs := hp s
      unfold StepRelation.KeepsFrom leaves at hs
      rw [hmid] at hs
      exact hs
    have hnoted : s.MovesTo (mid.noting fault) := hmoves.trans (.noting mid fault)
    have hrecover := hnoted.trans (StepRelation.Keeps.recover .cursor _ s.consumed)
    refine .of_length_lt hrecover (Nat.lt_of_le_of_lt ?_ (Past.length_onward_lt hnoted h))
    exact (StepRelation.Keeps.skipToBoundary .cursor _ _ _).suffix.length_le

end TakesFrom

namespace TakesFor

/-- A choice by a word. -/
theorem ifWord {name : String} (hq : Ends (fun _ => True) q)
    (hr : TakesFor (fun _ => True) counts r) :
    TakesFor (fun _ => True) counts
      (eatWord name >>= fun taken => if taken = true then q else r) := by
  intro s b s' h hb
  obtain ⟨taken, mid, hword, h⟩ := bind_eq_ok h
  rw [eatWord_eq] at hword
  split at hword
  case isTrue hnext =>
    cases hword
    rw [if_pos rfl] at h
    have hpass : Past (fun _ => True) s.rest s.pass.rest :=
      .pass (Token.single_of_word (Token.isWord_iff.mp hnext)).notEof trivial
    obtain heq | hend := hq _ b s' h
    · rwa [heq]
    · exact hpass.trans hend
  case isFalse =>
    cases hword
    exact hr _ b s' h hb

/-- What follows takes a token of the kind. -/
theorem after (hp : StepRelation.cursor.Keeps p) (hf : ∀ a, TakesFor kind counts (f a)) :
    TakesFor kind counts (p >>= f) := by
  intro s b s' h hb
  obtain ⟨a, mid, hp', hf'⟩ := bind_eq_ok h
  have hmoves : s.MovesTo mid := hp.of_ok hp'
  exact (hf a mid b s' hf' hb).of_suffix hmoves.suffix

theorem first (hp : Takes kind p) (hf : ∀ a, Ends kind (f a)) :
    TakesFor kind counts (p >>= f) := fun s => .first (hp s) hf

theorem mono {kind' : Token → Prop} {counts : α → Prop} (h : TakesFor kind counts p)
    (hkind : ∀ t, kind t → kind' t) : TakesFor kind' counts p :=
  fun s a s' hr ha => (h s a s' hr ha).mono hkind

/-- A value that does not count. -/
theorem pure {b : β} (h : ¬counts b) : TakesFor kind counts (Pure.pure b) := by
  intro s a s' hr ha
  cases hr
  exact absurd ha h

theorem fail {message : String} : TakesFor kind counts (Parse.fail message) := by
  intro s a s' hr
  cases hr

theorem unexpected : TakesFor kind counts (Parse.unexpected : Parse β) := by
  intro s a s' hr
  cases hr

theorem failExpecting {what : String} : TakesFor kind counts (Parse.failExpecting what) := by
  intro s a s' hr
  cases hr

theorem ite {c : Prop} [Decidable c] (hq : TakesFor kind counts q)
    (hr : TakesFor kind counts r) : TakesFor kind counts (if c then q else r) :=
  fun s => .ite (fun _ => hq s) fun _ => hr s

theorem get {f : ParserState → Parse β} (h : ∀ s, TakesFor kind counts (f s)) :
    TakesFor kind counts (get >>= f) := fun s => h s s

theorem peek {f : Token → Parse β} (h : ∀ t, TakesFor kind counts (f t)) :
    TakesFor kind counts (peek >>= f) := fun s => h s.peek s

theorem isAtEnd {f : Bool → Parse β} (h : ∀ b, TakesFor kind counts (f b)) :
    TakesFor kind counts (isAtEnd >>= f) := fun s => h s.isAtEnd s

theorem map {g : α → β} (hp : Takes kind p) : TakesFor kind counts (g <$> p) := by
  intro s b s' hr _
  obtain ⟨a, hp', -⟩ := map_eq_ok hr
  exact hp s a s' hp' trivial

/-- A choice by a mark of the kind. -/
theorem ifMark {text : String} (hkind : ∀ t : Token, t.isMark text = true → kind t)
    (hq : Ends kind q) (hr : TakesFor kind counts r) :
    TakesFor kind counts (acceptMark text >>= fun taken => if taken = true then q else r) := by
  intro s b s' h hb
  obtain ⟨taken, mid, hmark, h⟩ := bind_eq_ok h
  rw [acceptMark_eq] at hmark
  split at hmark
  case isTrue hnext =>
    cases hmark
    rw [if_pos rfl] at h
    have hpass : Past kind s.rest s.pass.rest :=
      .pass (Token.single_of_isMark hnext).notEof (hkind _ hnext)
    obtain heq | hend := hq _ b s' h
    · rwa [heq]
    · exact hpass.trans hend
  case isFalse =>
    cases hmark
    exact hr _ b s' h hb

theorem expect {text : String} (hkind : ∀ t : Token, t.isMark text = true → kind t) :
    Takes kind (expect text) := by
  unfold Parse.expect
  exact ifMark hkind .pure .failExpecting

theorem nested {counts : α → Prop} (hp : TakesFor kind counts p) :
    TakesFor kind counts (nested p) := by
  intro s a s' hr ha
  obtain ⟨inner, hp', hrest⟩ := nested_eq_ok hr
  have hinner := hp _ a inner hp' ha
  rwa [← hrest] at hinner

theorem withoutIn {noIn : Bool} {counts : α → Prop} (hp : TakesFor kind counts p) :
    TakesFor kind counts (withoutIn noIn p) := by
  intro s a s' hr ha
  obtain ⟨inner, hp', hrest⟩ := withoutIn_eq_ok hr
  have hinner := hp _ a inner hp' ha
  rwa [← hrest] at hinner

/-- There is at least one round. -/
theorem loop {step : σ → Parse (Step σ β)} {init : σ} (h : ∀ acc, Takes kind (step acc)) :
    TakesFor kind counts (loop step init) := by
  refine fun s => first (h init) (fun r => ?_) s
  cases r with
  | more acc => exact Ends.rounds (fun acc => .of_takes (h acc)) _ acc
  | done b => exact .pure

/-- What a loop takes last is what its last round takes, whatever the others take. -/
theorem loopDone {step : σ → Parse (Step σ β)} {init : σ}
    (hm : ∀ acc, StepRelation.cursor.Keeps (step acc))
    (h : ∀ acc, TakesFor kind (fun r => ¬r.GoesOn) (step acc)) :
    TakesFor kind counts (Parse.loop step init) := by
  have hrounds : ∀ fuel acc, TakesFor kind counts (rounds step fuel acc) := by
    intro fuel
    induction fuel with
    | zero => exact fun _ => unexpected
    | succ fuel ih =>
      intro acc s b s' hr hb
      rw [Parse.rounds] at hr
      obtain ⟨r, mid, hstep, hr⟩ := bind_eq_ok hr
      cases r with
      | more acc' =>
        have hmoves : s.MovesTo mid := (hm acc).of_ok hstep
        exact (ih acc' mid b s' hr hb).of_suffix hmoves.suffix
      | done b' =>
        cases hr
        exact h acc s _ _ hstep id
  exact fun s => hrounds _ init s

theorem insideFunction {counts : α → Prop} (hp : TakesFor kind counts p) :
    TakesFor kind counts (insideFunction p) := by
  intro s a s' hr ha
  obtain ⟨outer, inner, houter, hp', hrest⟩ := insideFunction_eq_ok hr
  have hinner := hp _ a inner hp' ha
  rwa [← hrest, houter] at hinner

end TakesFor

end Rules

/-! ## Expressions -/

/-- A token that is no semicolon. -/
def NotSemicolon (t : Token) : Prop := t.isMark ";" = false

theorem Ends.eatWord {name : String} : Ends NotSemicolon (eatWord name) := by
  intro s a s' hr
  rw [eatWord_eq] at hr
  split at hr
  case isTrue h =>
    cases hr
    have hw := Token.isWord_iff.mp h
    refine .inr (.pass (Token.single_of_word hw).notEof ?_)
    simp [NotSemicolon, Token.isMark, Token.word?_iff.mp hw]
  case isFalse =>
    cases hr
    exact .inl rfl

/-- Another mark is no semicolon. -/
theorem notSemicolon_of_isMark {text : String} (htext : text ≠ ";") (t : Token)
    (h : t.isMark text = true) : NotSemicolon t := by
  simp [NotSemicolon, Token.isMark, Token.isMark_iff.mp h, htext]

theorem TakesFrom.pass_of_kind {k : TokenKind} {s : ParserState} (h : s.peek.kind = k)
    (heof : k ≠ .eof) (hsemicolon : k ≠ .punct ";") :
    TakesFrom NotSemicolon (fun _ => True) Parse.pass s := by
  refine .pass ?_ ?_
  · rw [← Bool.not_eq_true, Token.isEof_iff, h]
    exact heof
  · unfold NotSemicolon
    rw [← Bool.not_eq_true, Token.isMark_iff, h]
    exact hsemicolon

namespace Grammar

/-- The productions that recursion goes through move the cursor onward. To give a value they take
a token, and an expression does not end with a semicolon. -/
structure TakesTokens (g : Grammar) : Prop where
  moves : StepRelation.cursor.KeepsGrammar g
  statement : Takes (fun _ => True) g.statement
  assignment : Takes NotSemicolon g.assignment
  unary : Takes NotSemicolon g.unary
  operand (precedence : Nat) : Takes NotSemicolon (g.operand precedence)
  innerNew : Takes NotSemicolon g.innerNew

namespace TakesTokens

variable {g : Grammar}

theorem expect {text : String} (h : text ≠ ";") : Takes NotSemicolon (expect text) :=
  .expect (notSemicolon_of_isMark h)

theorem acceptMark {text : String} (h : text ≠ ";") : Ends NotSemicolon (acceptMark text) :=
  .acceptMark (notSemicolon_of_isMark h)

theorem boundDepth (e : Expr) : Ends NotSemicolon (boundDepth e) := .ite .fail .pure

theorem expression (hg : g.TakesTokens) : Takes NotSemicolon g.expression := by
  unfold Grammar.expression
  refine .first hg.assignment fun first => .peek fun token => .ite ?_ .pure
  refine .bind (.loop fun items => ?_) fun items => .pure
  exact .bind (acceptMark (by decide)) fun taken =>
    .ite (.bind (.of_takes hg.assignment) fun item => .pure) .pure

theorem parenthesized (hg : g.TakesTokens) : Takes NotSemicolon g.parenthesized := by
  unfold Grammar.parenthesized
  refine .after .expect fun _ => .after (.withoutIn hg.moves.expression) fun e => ?_
  exact .first (expect (by decide)) fun _ => .pure

theorem item (hg : g.TakesTokens) : Takes NotSemicolon g.item := by
  unfold Grammar.item
  refine .ifMark (notSemicolon_of_isMark (by decide)) ?_ hg.assignment
  exact .bind (.of_takes hg.assignment) fun e => .pure

theorem arrayLiteral (hg : g.TakesTokens) : Takes NotSemicolon g.arrayLiteral := by
  unfold Grammar.arrayLiteral
  refine .first (expect (by decide)) fun _ => .withoutIn (.loop fun items => ?_)
  refine .bind (acceptMark (by decide)) fun taken => .ite .pure ?_
  refine .bind (acceptMark (by decide)) fun taken => .ite .pure ?_
  refine .bind (.of_takes hg.item) fun item => .bind (acceptMark (by decide)) fun taken => ?_
  exact .ite .pure (.bind (.of_takes (expect (by decide))) fun _ => .pure)

/-- Items between commas up to a closing mark. -/
theorem itemsUntil {p : Parse Expr} (hp : Ends NotSemicolon p) {close : String}
    (hclose : close ≠ ";") :
    Ends NotSemicolon (loop (fun items => do
      if ← Parse.acceptMark close then
        return .done items.reverse
      let item ← p
      unless ← Parse.acceptMark "," do
        Parse.expect close
        return .done (item :: items).reverse
      return .more (item :: items)) []) := by
  refine .loop fun items => .bind (acceptMark hclose) fun taken => .ite .pure ?_
  refine .bind hp fun item => .bind (acceptMark (by decide)) fun taken => .ite .pure ?_
  exact .bind (.of_takes (expect hclose)) fun _ => .pure

theorem arguments (hg : g.TakesTokens) : Takes NotSemicolon g.arguments := by
  unfold Grammar.arguments
  refine .first (expect (by decide)) fun _ => .withoutIn ?_
  exact itemsUntil (.of_takes hg.item) (by decide)

theorem block (hg : g.TakesTokens) : Takes NotSemicolon g.block := by
  unfold Grammar.block
  refine .after .expect fun _ => .after (hg.moves.statementsUntil _) fun body => ?_
  exact .first (expect (by decide)) fun _ => .pure

/-! ### Patterns and objects -/

theorem propertyKey (hg : g.TakesTokens) : Takes NotSemicolon g.propertyKey := by
  intro s
  unfold Grammar.propertyKey
  refine .peek ?_
  split
  case h_1 | h_2 | h_3 =>
    exact .first (.pass_of_kind (by assumption) (by simp) (by simp)) fun _ => .pure
  case h_4 =>
    refine TakesFor.after .pass (fun _ => .after hg.moves.assignment fun key => ?_) s
    exact .first (expect (by decide)) fun _ => .pure
  case h_5 => exact TakesFor.failExpecting s

theorem propertyName : Takes NotSemicolon Grammar.propertyName := by
  intro s
  unfold Grammar.propertyName
  refine .peek ?_
  split
  case h_1 name h =>
    exact .first (.pass_of_kind (Token.word?_iff.mp h) (by simp) (by simp)) fun _ => .pure
  case h_2 => exact TakesFor.ite .fail .failExpecting s

theorem bindingTargetOver (hg : g.TakesTokens) {objectPattern : Parse Expr}
    (hp : Takes NotSemicolon objectPattern) :
    Takes NotSemicolon (g.bindingTargetOver objectPattern) := by
  intro s
  unfold Grammar.bindingTargetOver
  refine .peek (.ite (fun _ => hg.arrayLiteral s) fun _ => .ite (fun _ => hp s) fun _ => ?_)
  split
  case h_1 name h =>
    refine .ite (fun _ => TakesFor.failExpecting s) fun _ => ?_
    exact .first (.pass_of_kind (Token.word?_iff.mp h) (by simp) (by simp)) fun _ => .pure
  case h_2 => exact TakesFor.failExpecting s

theorem parameter (hg : g.TakesTokens) {target : Parse Expr} (ht : Takes NotSemicolon target) :
    Takes NotSemicolon (g.parameter target) := by
  unfold Grammar.parameter
  refine .ifMark (notSemicolon_of_isMark (by decide)) (.bind (.of_takes ht) fun e => .pure) ?_
  refine .first ht fun pattern => .bind (acceptMark (by decide)) fun taken => .ite ?_ .pure
  exact .bind (.of_takes hg.assignment) fun e => .pure

/-- A function ends with the brace of its body. -/
theorem functionRest (hg : g.TakesTokens) {target : Parse Expr}
    (ht : StepRelation.cursor.Keeps target) (name : Option String) (position : Position) :
    Takes NotSemicolon (g.functionRest target name position) := by
  unfold Grammar.functionRest
  refine .after .expect fun _ => .after (hg.moves.parameters ht) fun parameters => ?_
  exact .first (.insideFunction hg.block) fun body => .pure

/-- Behind a key: a method, a value, or nothing. -/
theorem propertyRest (hg : g.TakesTokens) {target : Parse Expr}
    (ht : StepRelation.cursor.Keeps target) (token : Token) (key : PropertyKey) :
    Ends NotSemicolon (g.propertyRest target token key) := by
  unfold Grammar.propertyRest
  refine .bind (acceptMark (by decide)) fun taken => .ite ?_ (.peek fun next => .ite ?_ ?_)
  · exact .bind (.of_takes hg.assignment) fun e => .pure
  · exact .bind (.of_takes (hg.functionRest ht _ _)) fun f => .pure
  split
  · refine .ite (.of_takes .failExpecting) (.bind (acceptMark (by decide)) fun taken => ?_)
    exact .ite (.bind (.of_takes hg.assignment) fun e => .pure) .pure
  · exact .of_takes .failExpecting

theorem property (hg : g.TakesTokens) {target : Parse Expr}
    (ht : StepRelation.cursor.Keeps target) : Takes NotSemicolon (g.property target) := by
  unfold Grammar.property
  refine .ifMark (notSemicolon_of_isMark (by decide)) ?_ (.peek fun token => .ite .fail ?_)
  · exact .bind (.of_takes hg.assignment) fun e => .pure
  refine .after (.tokenAhead fun _ => .pure) fun next => .ite ?_ (.ite .fail ?_)
  · refine .after .pass fun _ => .after hg.moves.propertyKey fun key => ?_
    exact .first (hg.functionRest ht _ _) fun f => .pure
  · exact .first hg.propertyKey fun key => hg.propertyRest ht token key

theorem objectLiteralOver (hg : g.TakesTokens) {objectPattern : Parse Expr}
    (hp : StepRelation.cursor.Keeps objectPattern) :
    Takes NotSemicolon (g.objectLiteralOver objectPattern) := by
  have ht := hg.moves.bindingTargetOver hp
  unfold Grammar.objectLiteralOver
  refine .peek fun token => .first (expect (by decide)) fun _ => .withoutIn (.loop ?_)
  refine fun properties => .bind (acceptMark (by decide)) fun taken => .ite .pure ?_
  refine .bind (.of_takes (hg.property ht)) fun p => .bind (acceptMark (by decide)) fun taken => ?_
  exact .ite .pure (.bind (.of_takes (expect (by decide))) fun _ => .pure)

theorem objectLiteralWithin (hg : g.TakesTokens) (bound : Nat) :
    Takes NotSemicolon (g.objectLiteralWithin bound) := by
  cases bound with
  | zero => exact .unexpected
  | succ bound => exact hg.objectLiteralOver (hg.moves.objectLiteralWithin bound)

theorem objectLiteral (hg : g.TakesTokens) : Takes NotSemicolon g.objectLiteral := by
  unfold Grammar.objectLiteral
  exact .get fun s => hg.objectLiteralWithin _

theorem bindingTarget (hg : g.TakesTokens) : Takes NotSemicolon g.bindingTarget :=
  hg.bindingTargetOver hg.objectLiteral

/-! ### Functions -/

theorem function (hg : g.TakesTokens) (isDeclaration : Bool) :
    Takes NotSemicolon (g.function isDeclaration) := by
  have hrest := hg.functionRest hg.moves.bindingTarget
  unfold Grammar.function
  refine .peek fun start => .after .pass fun _ => .peek fun token => .ite .fail ?_
  exact .ite (.after .pass fun _ => hrest _ _) (.ite .fail (hrest _ _))

theorem arrowBody (hg : g.TakesTokens) : Takes NotSemicolon g.arrowBody := by
  unfold Grammar.arrowBody
  exact .peek fun token => .ite hg.block (.first hg.assignment fun e => .pure)

theorem arrow (hg : g.TakesTokens) : Takes NotSemicolon g.arrow := by
  unfold Grammar.arrow
  refine .peek fun token => ?_
  dsimp only
  split
  · refine .after .pass fun _ => .after .pure fun parameters => .after .expect fun _ => ?_
    exact .first (.insideFunction hg.arrowBody) fun body => .pure
  · refine .after .expect fun _ => .after (hg.moves.parameters hg.moves.bindingTarget) fun ps => ?_
    exact .after .expect fun _ => .first (.insideFunction hg.arrowBody) fun body => .pure

/-! ### Operands -/

/-- A template that comes next is one token. -/
theorem templateLiteral (hg : g.TakesTokens) {parts : List (List Token)} {s : ParserState}
    (h : s.peek.kind = .template parts) :
    TakesFrom NotSemicolon (fun _ => True) (g.templateLiteral parts) s := by
  intro a s' hr _
  have hleaves := leaves_map (p := g.substitutions parts) s.pass Expr.template
  obtain ⟨inner, -, -, hs⟩ := hg.moves.substitutions parts s.pass
  have hrest : s'.rest = s.pass.rest := by
    have hrun : (Expr.template <$> g.substitutions parts) s.pass = .ok a s' := hr
    rw [hs, leaves, hrun] at hleaves
    exact (congrArg ParserState.rest hleaves :)
  rw [hrest]
  exact TakesFrom.pass_of_kind h (by simp) (by simp) () _ rfl trivial

/-- A word that comes next is taken. -/
theorem primaryWord (hg : g.TakesTokens) {name : String} {s : ParserState}
    (h : s.peek.kind = .word name) (position : Position) :
    TakesFrom NotSemicolon (fun _ => True) (g.primaryWord name position) s := by
  have hpass : TakesFrom NotSemicolon (fun _ => True) Parse.pass s :=
    .pass_of_kind h (by simp) (by simp)
  unfold Grammar.primaryWord
  split
  · exact .first (hg.function false s) fun f => .pure
  iterate 4 exact .first hpass fun _ => .pure
  iterate 4 exact TakesFor.fail s
  refine TakesFrom.ite (fun _ => TakesFor.fail s) fun _ => ?_
  exact .ite (fun _ => TakesFor.fail s) fun _ => .first hpass fun _ => .pure

theorem primary (hg : g.TakesTokens) : Takes NotSemicolon g.primary := by
  intro s
  unfold Grammar.primary
  refine .peek ?_
  split
  case h_1 name h => exact hg.primaryWord h _
  case h_2 | h_3 | h_4 =>
    exact .first (.pass_of_kind (by assumption) (by simp) (by simp)) fun _ => .pure
  case h_5 parts h => exact hg.templateLiteral h
  case h_6 => exact TakesFor.fail s
  case h_7 =>
    refine TakesFor.after .pass (fun _ => .after (.withoutIn hg.moves.expression) fun e => ?_) s
    exact .first (expect (by decide)) fun _ => .pure
  case h_8 => exact hg.arrayLiteral s
  case h_9 => exact hg.objectLiteral s
  case h_10 => exact TakesFor.unexpected s

/-! ### Chains -/

theorem computedProperty (hg : g.TakesTokens) : Takes NotSemicolon g.computedProperty := by
  unfold Grammar.computedProperty
  refine .after (.withoutIn hg.moves.expression) fun e => ?_
  exact .first (expect (by decide)) fun _ => .pure

theorem newLinks (hg : g.TakesTokens) (room : Nat) (callee : Expr) :
    Ends NotSemicolon (g.newLinks room callee) := by
  induction room generalizing callee with
  | zero => exact .pure
  | succ room ih =>
    unfold Grammar.newLinks
    refine .bind (acceptMark (by decide)) fun taken => .ite ?_ ?_
    · exact .bind (.of_takes propertyName) fun _ => ih _
    refine .bind (acceptMark (by decide)) fun taken => .ite ?_ .pure
    exact .bind (.of_takes hg.computedProperty) fun _ => ih _

theorem newExpression (hg : g.TakesTokens) : Takes NotSemicolon g.newExpression := by
  have hrest : ∀ first position, Ends NotSemicolon (do
      let callee ← g.newLinks maxChain first
      let args ← if (← Parse.peek).isMark "(" then g.arguments else pure []
      Grammar.boundDepth (.call callee args true position)) := by
    refine fun first position => .bind (hg.newLinks _ _) fun callee => .peek fun next => .ite ?_ ?_
    · exact .bind (.of_takes hg.arguments) fun args => boundDepth _
    · exact .bind .pure fun args => boundDepth _
  unfold Grammar.newExpression
  refine .peek fun start => .after .pass fun _ => .peek fun token => .ite .fail ?_
  refine .peek fun token => .ite ?_ ?_
  · exact .first hg.innerNew fun first => hrest first _
  · exact .first hg.primary fun first => hrest first _

/-- A link of a chain, if there is one. -/
theorem link (hg : g.TakesTokens) (e : Expr) : Ends NotSemicolon (g.link e) := by
  intro s
  unfold Grammar.link
  have hdot : Ends NotSemicolon (do return some (Expr.member e (← Grammar.propertyName))) :=
    .bind (.of_takes propertyName) fun _ => .pure
  have hindex : Ends NotSemicolon (do return some (Expr.index e (← g.computedProperty))) :=
    .bind (.of_takes hg.computedProperty) fun _ => .pure
  have hcall : ∀ position, Ends NotSemicolon (do
      return some (Expr.call e (← g.arguments) false position)) := fun position =>
    .bind (.of_takes hg.arguments) fun _ => .pure
  refine .peek (.ifMark (notSemicolon_of_isMark (by decide)) hdot ?_)
  refine .ifMark (notSemicolon_of_isMark (by decide)) ?_ ?_
  · refine .peek fun next => .ite (hcall _) (.bind (acceptMark (by decide)) fun taken => ?_)
    exact .ite hindex hdot
  refine .ifMark (notSemicolon_of_isMark (by decide)) hindex ?_
  refine .ite (fun _ => hcall _ s) fun _ => ?_
  split
  case h_1 parts h => exact .of_takes (.first (hg.templateLiteral h) fun _ => .pure)
  case h_2 => exact Ends.pure s

theorem links (hg : g.TakesTokens) (room : Nat) (linked : Bool) (e : Expr) :
    Ends NotSemicolon (g.links room linked e) := by
  induction room generalizing linked e with
  | zero => exact .fail
  | succ room ih =>
    unfold Grammar.links
    refine .bind (hg.link e) fun r => ?_
    cases r with
    | some e => exact ih true e
    | none => exact .ite (boundDepth e) .pure

theorem chain (hg : g.TakesTokens) : Takes NotSemicolon g.chain := by
  unfold Grammar.chain
  refine .peek fun token => .ite ?_ ?_
  · exact .first hg.newExpression fun first => hg.links _ _ _
  · exact .first hg.primary fun first => hg.links _ _ _

/-! ### Operators -/

theorem unaryInner (hg : g.TakesTokens) : Takes NotSemicolon g.unaryInner := by
  unfold Grammar.unaryInner
  refine .peek fun token => .ite .fail ?_
  split
  · exact .after .pass fun _ => .first hg.unary fun e => .pure
  · refine .first hg.chain fun e s => .peek (.ite (fun h => ?_) fun _ => Ends.pure s)
    simp only [Bool.and_eq_true, Bool.or_eq_true] at h
    refine .of_takes (.first (.pass ?_ ?_) fun _ => .pure)
    · exact h.2.elim (fun h => (Token.single_of_isMark h).notEof)
        fun h => (Token.single_of_isMark h).notEof
    · exact h.2.elim (notSemicolon_of_isMark (by decide) _)
        (notSemicolon_of_isMark (by decide) _)

theorem operators (hg : g.TakesTokens) (precedence room : Nat) (chained : Bool) (left : Expr) :
    Ends NotSemicolon (g.operators precedence room chained left) := by
  have hnext : Ends NotSemicolon (nextOperator precedence) := by
    intro s a s' hr
    cases hr
    exact .inl rfl
  induction room generalizing chained left with
  | zero =>
    unfold Grammar.operators
    refine .bind hnext fun r => ?_
    cases r with
    | none => exact .ite (boundDepth left) .pure
    | some entry => exact .fail
  | succ room ih =>
    unfold Grammar.operators
    refine .bind hnext fun r => ?_
    cases r with
    | none => exact .ite (boundDepth left) .pure
    | some entry =>
      exact .of_takes (.after .pass fun _ => .first (hg.operand _) fun right => ih true _)

theorem binary (hg : g.TakesTokens) (precedence : Nat) :
    Takes NotSemicolon (g.binary precedence) := by
  unfold Grammar.binary
  exact .first hg.unary fun left => hg.operators _ _ _ _

theorem conditional (hg : g.TakesTokens) : Takes NotSemicolon g.conditional := by
  unfold Grammar.conditional
  refine .first (hg.binary 1) fun test => .bind (acceptMark (by decide)) fun taken => .ite ?_ .pure
  refine .bind (.of_takes (.withoutIn hg.assignment)) fun consequent => ?_
  refine .bind (.of_takes (expect (by decide))) fun _ => ?_
  exact .bind (.of_takes hg.assignment) fun alternate => .pure

theorem assignmentInner (hg : g.TakesTokens) : Takes NotSemicolon g.assignmentInner := by
  unfold Grammar.assignmentInner
  refine .get fun s => .ite hg.arrow (.first hg.conditional fun left => .peek fun token => ?_)
  split
  · exact .ite (.of_takes (.after .pass fun _ => .first hg.assignment fun right => .pure)) .pure
  · exact .pure

/-! ## Statements -/

/-- An expression takes a token, whichever it is. -/
theorem ofExpression {p : Parse α} {counts : α → Prop} (hp : TakesFor NotSemicolon counts p) :
    TakesFor (fun _ => True) counts p := hp.mono fun _ _ => trivial

theorem declarator (hg : g.TakesTokens) : Takes NotSemicolon g.declarator := by
  unfold Grammar.declarator
  refine .first hg.bindingTarget fun target => .bind (acceptMark (by decide)) fun taken => ?_
  exact .ite (.bind (.of_takes hg.assignment) fun e => .pure) .pure

/-- Declarators end with an expression or a pattern. -/
theorem declarators (hg : g.TakesTokens) : Takes NotSemicolon g.declarators := by
  unfold Grammar.declarators
  refine .after .pass fun _ => .loop fun taken => .first hg.declarator fun d => ?_
  exact .bind (acceptMark (by decide)) fun next => .ite .pure .pure

theorem declaration (hg : g.TakesTokens) (kind : VarKind) :
    Takes (fun _ => True) (g.declaration kind) := by
  unfold Grammar.declaration
  refine .first (ofExpression hg.declarators) fun ds => .of_moves ?_
  exact .bind .semicolon fun _ => .pure

theorem expressionStatement (hg : g.TakesTokens) :
    Takes (fun _ => True) g.expressionStatement := by
  unfold Grammar.expressionStatement
  refine .first (ofExpression hg.expression) fun e => .of_moves ?_
  exact .bind .semicolon fun _ => .pure

theorem ifStatement (hg : g.TakesTokens) : Takes (fun _ => True) g.ifStatement := by
  unfold Grammar.ifStatement
  refine .after .pass fun _ => .after hg.moves.parenthesized fun test => ?_
  refine .first hg.statement fun c => .of_moves (.bind .eatWord fun taken => .ite ?_ .pure)
  exact .bind hg.moves.statement fun a => .pure

theorem forStatement (hg : g.TakesTokens) : Takes (fun _ => True) g.forStatement := by
  unfold Grammar.forStatement
  refine .after .pass fun _ => .peek fun token => .ite .fail ?_
  refine .first (.expect fun _ _ => trivial) fun _ => .of_moves (.peek fun next => .ite ?_ ?_)
  · exact hg.moves.forRest none
  · refine .bind hg.moves.forHead fun head => .peek fun next => ?_
    exact .ite (hg.moves.forInRest head) (hg.moves.forRest (some head))

theorem forHead (hg : g.TakesTokens) : Takes NotSemicolon g.forHead := by
  refine .withoutIn (.get fun s => ?_)
  split
  · exact .first hg.declarators fun ds => .pure
  · exact .first hg.expression fun e => .pure

theorem forSubject (hg : g.TakesTokens) : Takes NotSemicolon g.forSubject := by
  unfold Grammar.forSubject
  exact .after .eatWord fun taken => .ite hg.assignment (.after .pass fun _ => hg.expression)

theorem whileStatement (hg : g.TakesTokens) (position : Position) :
    Takes (fun _ => True) (g.whileStatement position) := by
  unfold Grammar.whileStatement
  refine .after .pass fun _ => .after hg.moves.parenthesized fun test => ?_
  exact .first hg.statement fun body => .pure

theorem doStatement (hg : g.TakesTokens) (position : Position) :
    Takes (fun _ => True) (g.doStatement position) := by
  unfold Grammar.doStatement
  refine .after .pass fun _ => .after hg.moves.statement fun body => .after .expectWord fun _ => ?_
  refine .first (ofExpression hg.parenthesized) fun test => .of_moves ?_
  exact .bind .acceptMark fun _ => .pure

theorem withStatement (hg : g.TakesTokens) (position : Position) :
    Takes (fun _ => True) (g.withStatement position) := by
  unfold Grammar.withStatement
  refine .after .pass fun _ => .after hg.moves.parenthesized fun object => ?_
  exact .first hg.statement fun body => .pure

theorem catchClause (hg : g.TakesTokens) : Takes NotSemicolon g.catchClause := by
  unfold Grammar.catchClause
  refine .ifMark (notSemicolon_of_isMark (by decide)) ?_ (.first hg.block fun body => .pure)
  refine .bind (.of_takes hg.bindingTarget) fun target => ?_
  refine .bind (.of_takes (expect (by decide))) fun _ => ?_
  exact .bind (.of_takes hg.block) fun body => .pure

theorem tryStatement (hg : g.TakesTokens) : Takes NotSemicolon g.tryStatement := by
  have hend : ∀ (body : List Stmt) (handler : Option CatchClause), Ends NotSemicolon (do
      let finalizer ← if ← eatWord "finally" then some <$> g.block else pure none
      if handler.isNone && finalizer.isNone then
        fail "'try' without 'catch' or 'finally'"
      else return Stmt.try_ body handler finalizer) := fun body handler => by
    refine .bind .eatWord fun taken => .ite ?_ ?_
    · exact .bind (.of_takes (.map hg.block)) fun finalizer => .ite .fail .pure
    · exact .bind .pure fun finalizer => .ite .fail .pure
  unfold Grammar.tryStatement
  refine .after .pass fun _ => .first hg.block fun body => .bind .eatWord fun taken => .ite ?_ ?_
  · exact .bind (.of_takes (.map hg.catchClause)) fun handler => hend body handler
  · exact .bind .pure fun handler => hend body handler

theorem caseTest (hg : g.TakesTokens) : Takes (fun _ => True) g.caseTest := by
  unfold Grammar.caseTest
  refine .ifWord (.of_moves (.bind hg.moves.expression fun e => .pure)) ?_
  exact .ifWord .pure .failExpecting

theorem switchCase (hg : g.TakesTokens) : Takes (fun _ => True) g.switchCase := by
  unfold Grammar.switchCase
  refine .first hg.caseTest fun test => .of_moves (.bind .expect fun _ => ?_)
  exact .bind (hg.moves.statementsUntil _) fun body => .pure

/-- The last round of a `switch` takes its closing brace. -/
theorem switchRound_done (hg : g.TakesTokens) (discriminant : Expr) (cases : List SwitchCase) :
    TakesFor NotSemicolon (fun r => ¬r.GoesOn) (g.switchRound discriminant cases) := by
  unfold Grammar.switchRound
  refine .ifMark (notSemicolon_of_isMark (by decide)) .pure ?_
  exact .after hg.moves.switchCase fun case => .isAtEnd fun ended => .ite .fail (.pure (· trivial))

theorem switchStatement (hg : g.TakesTokens) : Takes NotSemicolon g.switchStatement := by
  rw [Grammar.switchStatement_eq]
  refine .after .pass fun _ => .after hg.moves.parenthesized fun discriminant => ?_
  refine .after .expect fun _ => .loopDone ?_ ?_
  · exact hg.moves.switchRound discriminant
  · exact hg.switchRound_done discriminant

theorem throwStatement (hg : g.TakesTokens) : Takes (fun _ => True) g.throwStatement := by
  unfold Grammar.throwStatement
  refine .after .pass fun _ => .peek fun next => .ite .fail ?_
  refine .first (ofExpression hg.expression) fun e => .of_moves ?_
  exact .bind .semicolon fun _ => .pure

theorem jumpLabel : Ends NotSemicolon Grammar.jumpLabel := by
  refine fun s => .peek (.ite (fun h => ?_) fun _ => Ends.pure s)
  obtain ⟨name, hw, -⟩ := Token.word_of_isName (Bool.and_eq_true_iff.mp h).1
  have hk : s.peek.kind = .word name := Token.word?_iff.mp hw
  exact .of_takes (.first (.pass_of_kind hk (by simp) (by simp)) fun _ => .pure)

/-- A word that comes next is taken. -/
theorem passWord {name : String} {s : ParserState} {f : PUnit → Parse β} {counts : β → Prop}
    (h : s.peek.kind = .word name) (hf : StepRelation.cursor.Keeps (f ⟨⟩)) :
    TakesFrom (fun _ => True) counts (Parse.pass >>= f) s :=
  .first (.pass (by simp [Token.isEof, h]) trivial) fun _ => .of_moves hf

/-- The word comes next. -/
theorem returnStatement (hg : g.TakesTokens) {name : String} {s : ParserState}
    (h : s.peek.kind = .word name) :
    TakesFrom (fun _ => True) (fun _ => True) g.returnStatement s := by
  unfold Grammar.returnStatement
  refine TakesFrom.ite (fun _ => TakesFor.fail s) fun _ => passWord h (.peek fun next => ?_)
  exact hg.moves.expressionUnless _ fun argument => .bind .semicolon fun _ => .pure

theorem wordStatement (hg : g.TakesTokens) {name : String} {s : ParserState}
    (h : s.peek.kind = .word name) (position : Position) :
    TakesFrom (fun _ => True) (fun _ => True) (g.wordStatement name position) s := by
  unfold Grammar.wordStatement
  split
  · exact hg.declaration .var s
  · exact hg.declaration .const s
  · exact .first (ofExpression (hg.function true) s) fun f => .pure
  · exact hg.ifStatement s
  · exact hg.forStatement s
  · exact hg.whileStatement position s
  · exact hg.doStatement position s
  · exact hg.withStatement position s
  · exact hg.returnStatement h
  · exact hg.throwStatement s
  · exact ofExpression hg.tryStatement s
  · exact ofExpression hg.switchStatement s
  iterate 2
    exact passWord h (.bind StepRelation.KeepsGrammar.jumpLabel fun label =>
      .bind .semicolon fun _ => .pure)
  · exact passWord h (.bind .semicolon fun _ => .pure)
  iterate 3 exact TakesFor.fail s
  refine TakesFrom.ite (fun _ => hg.declaration .let_ s) fun _ => ?_
  refine .ite (fun _ => TakesFor.fail s) fun _ => .ite (fun _ => ?_) fun _ => ?_
  · exact passWord h (.bind .pass fun _ => .bind hg.moves.statement fun body => .pure)
  · exact hg.expressionStatement s

theorem statementInner (hg : g.TakesTokens) : Takes (fun _ => True) g.statementInner := by
  intro s
  unfold Grammar.statementInner
  refine .peek (.ite (fun _ => ?_) fun _ => .ite (fun h => ?_) fun _ => ?_)
  · exact .first (ofExpression hg.block s) fun body => .pure
  · exact .first (.pass (Token.single_of_isMark h).notEof trivial) fun _ => .pure
  split
  case h_1 name h => exact hg.wordStatement (Token.word?_iff.mp h) _
  case h_2 => exact hg.expressionStatement s

/-! ## Levels -/

/-- Without a level nothing is given. -/
theorem exhausted : exhausted.TakesTokens where
  moves := .exhausted
  statement := .fail
  assignment := .fail
  unary := .fail
  operand := fun _ => .fail
  innerNew := .fail

/-- One more level. -/
theorem next (hg : g.TakesTokens) : g.next.TakesTokens where
  moves := hg.moves.next
  statement := .nested hg.statementInner
  assignment := .nested hg.assignmentInner
  unary := .nested hg.unaryInner
  operand := fun precedence => .nested (hg.binary precedence)
  innerNew := .nested hg.newExpression

/-- Any number of levels. -/
theorem levels (n : Nat) : (levels n).TakesTokens := by
  induction n with
  | zero => exact exhausted
  | succ n ih => exact ih.next

/-! ## Loops

A round after which the loop goes on has taken a token. -/

theorem sequenceRound (hg : g.TakesTokens) (items : List Expr) :
    TakesFor (fun _ => True) Step.GoesOn (g.sequenceRound items) := by
  unfold Grammar.sequenceRound
  refine .ifMark (fun _ _ => trivial) (.of_moves ?_) (.pure id)
  exact .bind hg.moves.assignment fun item => .pure

theorem arrayRound (hg : g.TakesTokens) (items : List Expr) :
    TakesFor (fun _ => True) Step.GoesOn (g.arrayRound items) := by
  unfold Grammar.arrayRound
  refine .ifMark (fun _ _ => trivial) .pure (.ifMark (fun _ _ => trivial) .pure ?_)
  refine .first (ofExpression hg.item) fun item => .of_moves (.bind .acceptMark fun taken => ?_)
  exact .ite .pure (.bind .expect fun _ => .pure)

theorem itemsRound {p : Parse Expr} (hp : Takes NotSemicolon p) (close : String)
    (items : List Expr) :
    TakesFor (fun _ => True) Step.GoesOn (Grammar.itemsRound p close items) := by
  unfold Grammar.itemsRound
  refine .ifMark (fun _ _ => trivial) .pure ?_
  refine .first (ofExpression hp) fun item => .of_moves (.bind .acceptMark fun taken => ?_)
  exact .ite .pure (.bind .expect fun _ => .pure)

/-- After a round another property follows, or the closing brace, and both take a token. -/
theorem propertiesRound (hg : g.TakesTokens) {target : Parse Expr}
    (ht : StepRelation.cursor.Keeps target) (position : Position) (properties : List Property) :
    TakesFor (fun _ => True) Step.GoesOn (g.propertiesRound target position properties) := by
  unfold Grammar.propertiesRound
  refine .ifMark (fun _ _ => trivial) .pure ?_
  refine .first (ofExpression (hg.property ht)) fun p => .of_moves ?_
  exact .bind .acceptMark fun taken => .ite .pure (.bind .expect fun _ => .pure)

theorem declaratorsRound (hg : g.TakesTokens) (taken : List Declarator) :
    TakesFor (fun _ => True) Step.GoesOn (g.declaratorsRound taken) := by
  unfold Grammar.declaratorsRound
  refine .first (ofExpression hg.declarator) fun d => .of_moves (.bind .acceptMark fun next => ?_)
  exact .ite .pure .pure

/-- A statement takes a token, also if it fails. -/
theorem statementsRound (hg : g.TakesTokens) (stop : Token → Bool) (body : List Stmt) :
    TakesFor (fun _ => True) Step.GoesOn (g.statementsRound stop body) := by
  intro s
  unfold Grammar.statementsRound
  refine .peek (.ite (fun _ => TakesFor.pure id s) fun h => ?_)
  rw [Bool.or_eq_true, not_or, Bool.not_eq_true] at h
  refine .first (.recovering hg.moves.statement hg.statement h.1) fun r => ?_
  cases r <;> exact .pure

theorem switchRound (hg : g.TakesTokens) (discriminant : Expr) (cases : List SwitchCase) :
    TakesFor (fun _ => True) Step.GoesOn (g.switchRound discriminant cases) := by
  unfold Grammar.switchRound
  refine .ifMark (fun _ _ => trivial) .pure ?_
  refine .first hg.switchCase fun case => .of_moves (.isAtEnd fun ended => .ite .fail .pure)

/-- So does a statement of a script, or the brace too many. -/
theorem programRound (hg : g.TakesTokens) (body : List Stmt) :
    TakesFor (fun _ => True) Step.GoesOn (g.programRound body) := by
  intro s
  have hrest : (s.noting s.unexpected).rest = s.rest := by
    unfold ParserState.noting
    split <;> rfl
  unfold Grammar.programRound
  refine TakesFrom.ite (fun _ => TakesFor.pure id s) fun hopen => ?_
  refine .ite (fun _ => ?_) fun _ => ?_
  · intro r s' hr _
    cases hr
    have hpeek : (s.noting s.unexpected).peek.isEof = false := by
      rw [ParserState.peek, ParserState.tokenAhead, hrest]
      exact Bool.eq_false_iff.mpr hopen
    exact hrest ▸ .pass hpeek trivial
  · refine .first (.recovering hg.moves.statement hg.statement ?_) fun r => ?_
    · exact Bool.eq_false_iff.mpr hopen
    · cases r <;> exact .pure

end TakesTokens

end Grammar

end ScriptHooks.Script

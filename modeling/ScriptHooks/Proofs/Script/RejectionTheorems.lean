/-
ScriptHooks.Proofs.Script.RejectionTheorems — which constructs the walk over a program reports.

`Branch.refused?` names the constructs that could stall the host, with the issue that reports
each: loops that do not count or iterate, `with`, labels and the jumps to them.
`Program.violations_eq` says that the walk reports exactly those that are reached, one issue each
and in the order of the source, and nothing else: it descends everywhere except into the methods
of object patterns.

`Program.violations_complete_iff` draws the line. The yardstick is the plain syntax tree
(`Program.nodes`), in which nothing is left out. The walk reports every such construct of the tree
if and only if none stands in a method of an object pattern.

## How the proof goes

* `Part.violations_harvest` reads the issues off one level of the walk: outside idle methods, a
  part reports what it is itself and passes on what the parts under it report.
* `Program.flatMap_reached` carries this to the program.
* `Program.filterMap_branch?` says that the constructs among the occurrences are those among the
  nodes. So what goes unreported are the constructs at occurrences that are not reached, and
  `filterMap_filter_perm_iff` counts them.

It is enough to ask for a permutation of what is reported and what there is: if any construct is
left out, then the numbers differ already.
-/
import ScriptHooks.Proofs.Script.PartHarvests

namespace ScriptHooks.Script

/-! ## One level of the walk -/

/-- The construct that a part is, if it could stall the host, as the issue that reports it. -/
def Part.refused? (p : Part) : Option Issue := p.branch?.bind Branch.refused?

/-- Outside idle methods, a part reports what it is itself and what the parts under it report. -/
theorem Part.violations_harvest {p : Part} (hp : p.isIdle = false) :
    p.harvest.violations = p.refused?.toList ++ p.below.flatMap (·.harvest.violations) := by
  rw [harvest_eq, ← violations_gather]
  cases p with
  | expr e => cases e <;> rfl
  | pattern declares e => cases e <;> rfl
  | stmt s => rfl
  | function f =>
    obtain ⟨name, parameters, body, isArrow, position⟩ := f
    rfl
  | idle key f => cases hp

/-! ## The whole program -/

/-- Leaving out some entries leaves out no result exactly if those give none. -/
theorem filterMap_filter_perm_iff {α β : Type} (f : α → Option β) (p : α → Bool) (l : List α) :
    ((l.filter p).filterMap f).Perm (l.filterMap f) ↔ ∀ x ∈ l, p x = false → f x = none := by
  constructor
  · intro h
    have hlen := h.length_eq
    rw [List.length_filterMap_eq_countP, List.length_filterMap_eq_countP,
      List.countP_eq_countP_filter_add l _ p] at hlen
    have hzero : (l.filter fun x => !p x).countP (fun x => (f x).isSome) = 0 := by omega
    intro x hx hp
    have := List.countP_eq_zero.mp hzero x (List.mem_filter.mpr ⟨hx, by simp [hp]⟩)
    simpa using this
  · intro h
    rw [List.filterMap_filter]
    refine .of_eq (List.filterMap_congr fun x hx => ?_)
    cases hp : p x with
    | true => simp
    | false => simp [h x hx hp]

/-- The walk reports every construct that could stall the host and is reached, each once and in
the order of the source, and nothing else. -/
theorem Program.violations_eq (program : Program) :
    program.violations =
      (program.occurrences.filter (·.reached)).filterMap (·.part.refused?) := by
  rw [← flatMap_reached (fun p => p.violations_harvest) (fun _ _ => ⟨rfl, rfl⟩), violations,
    ← Part.gather_stmts, Part.violations_gather, List.flatMap_map]

/-- The constructs of a program that could stall the host are those at its occurrences. -/
theorem Program.filterMap_refused? (program : Program) :
    program.occurrences.filterMap (·.part.refused?) = program.nodes.filterMap Branch.refused? :=
  program.filterMap_branch? fun _ _ => rfl

/-- The walk reports the constructs that could stall the host, wherever they stand
except in methods of object patterns; so it reports all of them exactly if those
methods hold none. -/
theorem Program.violations_complete_iff (program : Program) :
    program.violations =
        (program.occurrences.filter (·.reached)).filterMap (·.part.refused?) ∧
      (program.violations.Perm (program.nodes.filterMap Branch.refused?) ↔
        ∀ p ∈ program.occurrences, p.reached = false → p.part.refused? = none) := by
  refine ⟨program.violations_eq, ?_⟩
  rw [program.violations_eq, ← program.filterMap_refused?]
  exact filterMap_filter_perm_iff _ _ _

/-- A loop in a method of a binding pattern goes unreported, and the script is
accepted. -/
theorem Program.idle_loop_unreported :
    (validate "var { f() { while (1) {} } } = o;").isOk = true
      ∧ ¬ (∀ tokens, (Program.ofTokens tokens).1.violations.Perm
        ((Program.ofTokens tokens).1.nodes.filterMap Branch.refused?)) := by
  refine ⟨by decide +kernel, fun h => ?_⟩
  have := h (Lexer.tokensOf "var { f() { while (1) {} } } = o;").1
  revert this
  decide +kernel

end ScriptHooks.Script

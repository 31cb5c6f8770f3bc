/-
ScriptHooks.Proofs.Script.TreeNodes — every node of a syntax tree.

`Branch.nodes` lists a node and all below it, each before what is below it and in the order of
the source. It follows `Branch.children`, by which expressions are measured, and knows nothing of
how a node is read: a target of a declaration and an operand are both expressions here. It is the
yardstick for what later modules say of the tree as it is read: "every loop of the program" and
"all that the program calls" are picked from this list, and no walk that builds a symbol tree is
made from it.

`nodes` recurs on the size of a node, since what stands under one is spread over declarators,
properties, handlers and options. `sizeOf_lt_of_mem_children` reads the decrease off
`weightOfAll_children`, and `nodes_eq` is the equation that all else uses.
-/
import Mathlib.Data.List.Basic
import ScriptHooks.Script.Depth

namespace ScriptHooks.Script

/-! ## Children are smaller -/

namespace Branch

theorem sizeOf_eq (b : Branch) : sizeOf b = 1 + b.weight := by
  cases b <;> rfl

theorem weight_le_weightOfAll {bs : List Branch} {c : Branch} (h : c ∈ bs) :
    c.weight ≤ weightOfAll bs := by
  obtain ⟨before, after, rfl⟩ := List.append_of_mem h
  rw [weightOfAll_append, weightOfAll_cons]
  omega

/-- What stands directly under a node is smaller than it. -/
theorem sizeOf_lt_of_mem_children (b : Branch) : ∀ c ∈ b.children, sizeOf c < sizeOf b := by
  intro c h
  have hle := weight_le_weightOfAll h
  have hlt := weightOfAll_children b
  rw [sizeOf_eq, sizeOf_eq]
  omega

/-- What holds of a node when it holds of all directly under it holds of every node. -/
theorem ofChildren {motive : Branch → Prop}
    (step : ∀ b : Branch, (∀ c ∈ b.children, motive c) → motive b) (b : Branch) : motive b :=
  step b fun c _ => ofChildren step c
termination_by sizeOf b
decreasing_by exact sizeOf_lt_of_mem_children b c ‹_›

/-! ## Nodes -/

/-- The node and all below it, each before what is below it. -/
def nodes (b : Branch) : List Branch := b :: b.children.attach.flatMap fun c => nodes c.1
termination_by sizeOf b
decreasing_by exact sizeOf_lt_of_mem_children b c.1 c.2

theorem nodes_eq (b : Branch) : b.nodes = b :: b.children.flatMap nodes := by
  rw [nodes]
  simp only [List.flatMap_subtype, List.unattach_attach]

end Branch

/-- Every node of a program, in the order of the source. -/
def Program.nodes (program : Program) : List Branch :=
  program.body.flatMap fun s => (Branch.stmt s).nodes

end ScriptHooks.Script

/-
ScriptHooks.Proofs.Script.TreeDepth — how deep a syntax tree is, and how much of that is due to
methods.

Both are weights of a path from a node downwards (`Branch.longest`): each step has a cost, and the
longest path is the one that costs most. `height` counts the nodes on it; `methodNesting` counts the
steps from an object into the parameters of one of its methods, which the parser takes without
spending any of its nesting budget. So one definition carries both, and they are compared by
comparing costs (`longest_mono`).

A step knows whether it goes into a parameter of a method, which a child as such does not. `steps`
gives them, and `steps_branch` says that they lead to the children and to no others.

The second part is about the test for too deep a tree. It works off a stack of nodes, each with its
depth, and stops at the first that lies beyond the limit. `anyBeyond_iff` is its invariant: the
search succeeds if and only if the tree of one of the nodes on the stack goes beyond the limit. The
step is `Visit.exists_below_iff`, where a node that is within the limit is exchanged for its
children. With one node on the stack, the test is about the height (`Expr.isDeeperThan_iff`).
-/
import Mathlib.Data.List.MinMax
import Mathlib.Order.Nat
import ScriptHooks.Proofs.Script.TreeNodes

namespace ScriptHooks.Script

/-- The greatest number of a list, zero if there is none. -/
def greatest (ns : List Nat) : Nat := ns.foldr max 0

/-- The greatest is the least bound. -/
theorem greatest_le_iff {ns : List Nat} {n : Nat} : greatest ns ≤ n ↔ ∀ k ∈ ns, k ≤ n :=
  ⟨fun h _ hk => le_trans (List.le_max_of_le hk le_rfl) h, List.max_le_of_forall_le ns n⟩

namespace Branch

/-! ## Steps -/

/-- A node under another one, and whether it is a parameter of a method there. -/
structure Step where
  intoParameter : Bool
  branch : Branch

namespace Step

def all (intoParameter : Bool) (branches : List Branch) : List Step :=
  branches.map (Step.mk intoParameter)

@[simp] theorem all_map_branch (intoParameter : Bool) (branches : List Branch) :
    (all intoParameter branches).map branch = branches := by
  simp [all, Function.comp_def]

def ofProperty : Property → List Step
  | .method key (.mk _ parameters body _ _) =>
    all false (ofKey key) ++ (all true (parameters.map .expr) ++ all false (body.map .stmt))
  | property => all false (Branch.ofProperty property)

theorem ofProperty_branch (p : Property) :
    (ofProperty p).map branch = Branch.ofProperty p := by
  unfold ofProperty
  split
  · simp [Branch.ofProperty, Branch.ofFunction]
  · exact all_map_branch _ _

end Step

/-- The steps from a node to those directly under it. -/
def steps : Branch → List Step
  | .expr (.object properties _) => properties.flatMap Step.ofProperty
  | b => Step.all false b.children

/-- Steps lead to the children. -/
theorem steps_branch (b : Branch) : b.steps.map Step.branch = b.children := by
  unfold steps
  split
  · simp [children, ofExpr, List.map_flatMap, Step.ofProperty_branch]
  · exact Step.all_map_branch _ _

theorem mem_children_of_mem_steps {b : Branch} {step : Step} (h : step ∈ b.steps) :
    step.branch ∈ b.children := by
  rw [← steps_branch]
  exact List.mem_map_of_mem h

/-! ## Paths -/

/-- The greatest weight of a path from the node downwards, where each step has a cost. -/
def longest (cost : Bool → Nat) (b : Branch) : Nat :=
  greatest (b.steps.attach.map fun step => cost step.1.intoParameter + longest cost step.1.branch)
termination_by sizeOf b
decreasing_by exact sizeOf_lt_of_mem_children b _ (mem_children_of_mem_steps step.2)

variable {b : Branch} {cost cost' : Bool → Nat} {limit n : Nat}

/-- A bound for the longest path is a bound for every first step and what follows it. -/
theorem longest_le_iff : b.longest cost ≤ n ↔
    ∀ step ∈ b.steps, cost step.intoParameter + step.branch.longest cost ≤ n := by
  rw [longest, greatest_le_iff, List.forall_mem_map]
  exact ⟨fun h step hstep => h ⟨step, hstep⟩ (List.mem_attach _ _), fun h step _ => h step.1 step.2⟩

theorem le_longest (cost : Bool → Nat) {step : Step} (h : step ∈ b.steps) :
    cost step.intoParameter + step.branch.longest cost ≤ b.longest cost :=
  longest_le_iff.mp le_rfl step h

/-- Paths cost more where steps do. -/
theorem longest_mono (hcost : ∀ kind, cost kind ≤ cost' kind) (b : Branch) :
    b.longest cost ≤ b.longest cost' := by
  induction b using ofChildren with
  | step b ih =>
    refine longest_le_iff.mpr fun step hstep => ?_
    have hbelow := ih step.branch (mem_children_of_mem_steps hstep)
    have hcost := hcost step.intoParameter
    have := le_longest cost' hstep
    omega

/-- The nodes on the longest path from the node downwards, the node included. -/
def height (b : Branch) : Nat := 1 + b.longest fun _ => 1

/-- How often a path from the node downwards enters the parameters of a method. -/
def methodNesting (b : Branch) : Nat := b.longest Bool.toNat

theorem height_pos (b : Branch) : 0 < b.height := by
  unfold height
  omega

/-- One more than a bound for the children. -/
theorem height_le_succ_iff : b.height ≤ n + 1 ↔ ∀ c ∈ b.children, c.height ≤ n := by
  have hsteps : b.height ≤ n + 1 ↔ ∀ step ∈ b.steps, step.branch.height ≤ n := by
    unfold height
    rw [Nat.add_comm 1, Nat.add_le_add_iff_right, longest_le_iff]
  rw [hsteps, ← steps_branch, List.forall_mem_map]

/-- A node is one higher than the highest of its children. -/
theorem height_eq (b : Branch) : b.height = 1 + greatest (b.children.map height) := by
  refine eq_of_forall_ge_iff fun n => ?_
  cases n with
  | zero =>
    have := b.height_pos
    omega
  | succ n =>
    rw [height_le_succ_iff, Nat.add_comm 1, Nat.add_le_add_iff_right, greatest_le_iff,
      List.forall_mem_map]

theorem height_lt_of_mem_children {c : Branch} (h : c ∈ b.children) : c.height < b.height := by
  obtain ⟨n, hn⟩ : ∃ n, b.height = n + 1 := Nat.exists_eq_add_one.mpr b.height_pos
  have := height_le_succ_iff.mp hn.le c h
  omega

/-- Methods are some of the steps, and a node is on every path. -/
theorem methodNesting_lt_height (b : Branch) : b.methodNesting < b.height := by
  have : b.longest Bool.toNat ≤ b.longest fun _ => 1 := longest_mono Bool.toNat_le b
  unfold methodNesting height
  omega

/-! ## The search -/

/-- The tree of a node that is within the limit goes beyond it if and only if that of a node
directly under it does. -/
theorem Visit.exists_below_iff {visit : Visit} (h : visit.level ≤ limit) :
    (∃ v ∈ visit.below, limit + 1 < v.level + v.branch.height) ↔
      limit + 1 < visit.level + visit.branch.height := by
  obtain ⟨room, rfl⟩ := Nat.exists_eq_add_of_le h
  have hroom : room + 1 < visit.branch.height ↔ ∃ c ∈ visit.branch.children, room < c.height := by
    rw [← not_le, height_le_succ_iff]
    simp only [not_forall, not_le, exists_prop]
  calc (∃ v ∈ visit.below, visit.level + room + 1 < v.level + v.branch.height)
    _ ↔ ∃ c ∈ visit.branch.children, room < c.height := by
      simp only [Visit.below, List.mem_map, exists_exists_and_eq_and]
      refine exists_congr fun c => and_congr_right fun _ => ?_
      omega
    _ ↔ visit.level + room + 1 < visit.level + visit.branch.height := by
      rw [← hroom]
      omega

/-- The search finds out whether the tree of one of the nodes on the stack goes beyond the limit. -/
theorem anyBeyond_iff {stack : List Visit} :
    anyBeyond limit stack = true ↔ ∃ v ∈ stack, limit + 1 < v.level + v.branch.height := by
  fun_induction anyBeyond limit stack with
  | case1 => simp
  | case2 visit stack hbeyond =>
    have hpos := visit.branch.height_pos
    exact iff_of_true rfl ⟨visit, List.mem_cons_self, by omega⟩
  | case3 visit stack hlevel ih =>
    -- the order in which the stack is worked off does not matter
    rw [ih, List.exists_mem_cons_iff, ← Visit.exists_below_iff (Nat.le_of_not_lt hlevel)]
    simp only [List.mem_append, List.mem_reverse, or_and_right, exists_or]

end Branch

/-- The test is about the height. -/
theorem Expr.isDeeperThan_iff {e : Expr} {limit : Nat} :
    e.isDeeperThan limit = true ↔ limit < (Branch.expr e).height := by
  rw [isDeeperThan, Branch.anyBeyond_iff]
  simp only [List.mem_singleton, exists_eq_left]
  omega

namespace Program

/-- The most nodes on a path through the tree of a program. -/
def depth (program : Program) : Nat :=
  greatest (program.body.map fun s => (Branch.stmt s).height)

/-- The most often that a path through the tree of a program enters the parameters of a method. -/
def methodNesting (program : Program) : Nat :=
  greatest (program.body.map fun s => (Branch.stmt s).methodNesting)

variable {program : Program} {n : Nat}

/-- A bound for a program is a bound for its statements. -/
theorem depth_le_iff : program.depth ≤ n ↔ ∀ s ∈ program.body, (Branch.stmt s).height ≤ n := by
  rw [depth, greatest_le_iff, List.forall_mem_map]

theorem methodNesting_le_iff :
    program.methodNesting ≤ n ↔ ∀ s ∈ program.body, (Branch.stmt s).methodNesting ≤ n := by
  rw [methodNesting, greatest_le_iff, List.forall_mem_map]

end Program

end ScriptHooks.Script

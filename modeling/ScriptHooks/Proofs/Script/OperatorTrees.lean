/-
ScriptHooks.Proofs.Script.OperatorTrees — the trees that operators make of a row of operands.

From left to right a tree is its leftmost operand and then each operator with the operand after it
(`Expr.inOrder`). A tree is `Layered` if every operator is the loosest of its range and, of those
that are equally loose, the rightmost one, or for powers the leftmost one. That is what precedence
and associativity ask for, said of trees and of no algorithm.

A reading has exactly one layered tree. It is built by `Expr.attach`, which hangs one operator and
its operand into a tree, as far down on the right as the operators there leave it to their right
operands. Three facts make it the one:

* what it builds is layered (`Layered.attachAll`);
* what it builds has the reading it is built from (`inOrder_attachAll`);
* each layered tree is what it builds from its own reading (`Layered.attachAll_inOrder`).

Which of two operators takes the other is decided by `takesLeft_iff`, for which it matters that no
other operator binds as tightly as a power. `rightFloor` turns the question into a comparison of
numbers, the one that the parser makes.

The last part is about what a tree costs. A turn to the right is a level of nesting while the tree
is read, and the nodes on a path are counted when it is done; `Affordable` asks for both. Trees
only grow while operators are hung into them, so what affords the whole affords what there is so
far (`Affordable.of_attachAll`), and a right operand is afforded a level further down
(`Affordable.of_binary`).
-/
import ScriptHooks.Proofs.Script.TreeDepth
import ScriptHooks.Script.Parser

namespace ScriptHooks.Script

/-! ## How tightly operators bind -/

/-- How tightly an operator binds. -/
def operatorStrength (op : String) : Nat :=
  if op = "in" ∨ op = "instanceof" then relationPrecedence
  else (binaryOperators.lookup op).getD 0

/-- The least strength of the operators that belong to the right operand of an operator. -/
def rightFloor (op : String) : Nat :=
  if op == "**" then operatorStrength op else operatorStrength op + 1

/-- An operator takes another one to its left into its operand: it is looser or, at the same
strength, no power. -/
def TakesLeft (op other : String) : Prop :=
  operatorStrength op < operatorStrength other ∨
    operatorStrength op = operatorStrength other ∧ op ≠ "**"

/-- An operator takes another one to its right into its operand: it is looser or, at the same
strength, a power. -/
def TakesRight (op other : String) : Prop :=
  operatorStrength op < operatorStrength other ∨
    operatorStrength op = operatorStrength other ∧ op = "**"

theorem strength_le_rightFloor (op : String) : operatorStrength op ≤ rightFloor op := by
  unfold rightFloor
  split
  · exact le_rfl
  · exact Nat.le_succ _

/-- What is found in a table is one of its entries. -/
theorem mem_of_lookup {entries : List (String × Nat)} {key : String} {value : Nat}
    (h : entries.lookup key = some value) : (key, value) ∈ entries := by
  obtain ⟨before, after, rfl, -⟩ := List.lookup_eq_some_iff.mp h
  simp

/-- No operator binds as tightly as a power. -/
theorem eq_power_of_strength {op : String} (h : operatorStrength op = operatorStrength "**") :
    op = "**" := by
  have hpower : operatorStrength "**" = 12 := by decide
  have htable : ∀ entry ∈ binaryOperators, entry.2 = 12 → entry.1 = "**" := by decide
  rw [hpower] at h
  unfold operatorStrength at h
  split at h
  · cases h
  · cases hentry : binaryOperators.lookup op with
    | none =>
      rw [hentry] at h
      cases h
    | some strength =>
      rw [hentry] at h
      exact htable _ (mem_of_lookup hentry) h

/-- What an operator takes to its right is told by a bound. -/
theorem takesRight_iff {op other : String} :
    TakesRight op other ↔ rightFloor op ≤ operatorStrength other := by
  unfold TakesRight rightFloor
  by_cases hop : op = "**"
  · simp only [hop, beq_self_eq_true, if_true, and_true]
    exact le_iff_lt_or_eq.symm
  · simp only [hop, and_false, or_false, beq_iff_eq, if_false]
    exact Nat.lt_iff_add_one_le

/-- Of two operators, exactly one takes the other. -/
theorem takesLeft_iff {op other : String} :
    TakesLeft op other ↔ operatorStrength op < rightFloor other := by
  have hpower : operatorStrength op = operatorStrength other → (op = "**" ↔ other = "**") := by
    intro hsame
    constructor
    · rintro rfl
      exact eq_power_of_strength hsame.symm
    · rintro rfl
      exact eq_power_of_strength hsame
  unfold TakesLeft rightFloor
  by_cases hother : other = "**"
  · simp only [hother, beq_self_eq_true, if_true]
    constructor
    · rintro (hlt | ⟨hsame, hop⟩)
      · exact hlt
      · exact absurd ((hpower (hother ▸ hsame)).mpr hother) hop
    · exact Or.inl
  · simp only [beq_iff_eq, hother, if_false, Nat.lt_succ_iff]
    constructor
    · rintro (hlt | ⟨hsame, -⟩)
      · exact hlt.le
      · exact hsame.le
    · intro hle
      rcases hle.lt_or_eq with hlt | hsame
      · exact .inl hlt
      · exact .inr ⟨hsame, fun hop => hother ((hpower hsame).mp hop)⟩

namespace Expr

/-! ## Reading a tree -/

/-- Whether the expression is an operator between two operands. -/
def isJoined : Expr → Bool
  | .binary _ _ _ => true
  | _ => false

/-- The leftmost operand of a tree, and from left to right each operator with the operand after
it. -/
def inOrder : Expr → Expr × List (String × Expr)
  | .binary op left right =>
    (left.inOrder.1, left.inOrder.2 ++ (op, right.inOrder.1) :: right.inOrder.2)
  | operand => (operand, [])

/-- Every operator takes those of its left and of its right operand. -/
def Layered : Expr → Prop
  | .binary op left right =>
    (∀ link ∈ left.inOrder.2, TakesLeft op link.1) ∧
      (∀ link ∈ right.inOrder.2, TakesRight op link.1) ∧ left.Layered ∧ right.Layered
  | _ => True

variable {tree left right operand : Expr} {op outer : String} {row : List (String × Expr)}

theorem inOrder_of_operand (h : operand.isJoined = false) : operand.inOrder = (operand, []) := by
  cases operand with
  | binary => cases h
  | _ => rfl

/-- An operand without operators. -/
theorem layered_of_operand (h : operand.isJoined = false) : operand.Layered := by
  cases operand with
  | binary => cases h
  | _ => trivial

/-- The operator at the root of a layered tree is the loosest one. -/
theorem Layered.strength_le (h : (Expr.binary outer left right).Layered) :
    ∀ link ∈ (Expr.binary outer left right).inOrder.2,
      operatorStrength outer ≤ operatorStrength link.1 := by
  obtain ⟨hleft, hright, -, -⟩ := h
  intro link hlink
  rcases List.mem_append.mp hlink with hmem | hmem
  · rcases hleft link hmem with hlt | ⟨hsame, -⟩
    · exact hlt.le
    · exact hsame.le
  · rcases List.mem_cons.mp hmem with rfl | hmem
    · exact le_rfl
    · exact (strength_le_rightFloor outer).trans (takesRight_iff.mp (hright link hmem))

/-! ## Building a tree -/

/-- The tree with one more operator and operand at its right end. -/
def attach (tree : Expr) (op : String) (operand : Expr) : Expr :=
  match tree with
  | .binary outer left right =>
    if rightFloor outer ≤ operatorStrength op then .binary outer left (right.attach op operand)
    else .binary op (.binary outer left right) operand
  | other => .binary op other operand

/-- The tree with a row of operators and operands at its right end. -/
def attachAll (tree : Expr) (row : List (String × Expr)) : Expr :=
  row.foldl (fun tree link => tree.attach link.1 link.2) tree

/-- The operator at the root, if there is one, does not leave the other one to its right
operand. -/
def Closed (tree : Expr) (op : String) : Prop :=
  match tree with
  | .binary outer _ _ => operatorStrength op < rightFloor outer
  | _ => True

/-- Nothing can be hung into an operand. -/
theorem closed_of_operand (h : operand.isJoined = false) (op : String) : operand.Closed op := by
  cases operand with
  | binary => cases h
  | _ => trivial

/-- An operator that cannot be hung further down becomes the root. -/
theorem Closed.attach (h : tree.Closed op) : tree.attach op operand = .binary op tree operand := by
  cases tree with
  | binary outer left right =>
    rw [Expr.attach, if_neg (Nat.not_le.mpr h)]
  | _ => rfl

/-- An operator that binds tightly enough goes to the right operand. -/
theorem attach_binary (h : rightFloor outer ≤ operatorStrength op) :
    (Expr.binary outer left right).attach op operand =
      .binary outer left (right.attach op operand) := by
  rw [attach, if_pos h]

theorem attachAll_append (tree : Expr) (row row' : List (String × Expr)) :
    tree.attachAll (row ++ row') = (tree.attachAll row).attachAll row' :=
  List.foldl_append

/-- Operators that belong to the right operand of the root go there. -/
theorem attachAll_binary (h : ∀ link ∈ row, rightFloor outer ≤ operatorStrength link.1) :
    (Expr.binary outer left right).attachAll row = .binary outer left (right.attachAll row) := by
  induction row generalizing right with
  | nil => rfl
  | cons link row ih =>
    obtain ⟨hlink, hrow⟩ := List.forall_mem_cons.mp h
    calc (Expr.binary outer left right).attachAll (link :: row)
        = ((Expr.binary outer left right).attach link.1 link.2).attachAll row := rfl
      _ = (Expr.binary outer left (right.attach link.1 link.2)).attachAll row := by
        rw [attach_binary hlink]
      _ = .binary outer left (right.attachAll (link :: row)) := ih hrow

/-- An operator that goes to the root, with all those after it that belong to its right operand. -/
theorem attachAll_cons (h : tree.Closed op)
    (hrow : ∀ link ∈ row, rightFloor op ≤ operatorStrength link.1) :
    tree.attachAll ((op, operand) :: row) = .binary op tree (operand.attachAll row) := by
  calc tree.attachAll ((op, operand) :: row)
      = (tree.attach op operand).attachAll row := rfl
    _ = (Expr.binary op tree operand).attachAll row := by rw [h.attach]
    _ = .binary op tree (operand.attachAll row) := attachAll_binary hrow

/-! ## One tree for each reading -/

/-- The operator and its operand come last in the reading. -/
theorem inOrder_attach (h : operand.isJoined = false) :
    (tree.attach op operand).inOrder =
      (tree.inOrder.1, tree.inOrder.2 ++ [(op, operand)]) := by
  fun_induction attach tree op operand with
  | case1 outer left right hfloor ih =>
    simp [inOrder, ih]
  | case2 outer left right hfloor =>
    simp [inOrder, inOrder_of_operand h]
  | case3 other hother =>
    rw [inOrder, inOrder_of_operand h]

/-- What is attached is read in the order in which it was attached. -/
theorem inOrder_attachAll (htree : tree.isJoined = false)
    (hrow : ∀ link ∈ row, link.2.isJoined = false) :
    (tree.attachAll row).inOrder = (tree, row) := by
  induction row using List.reverseRecOn with
  | nil => exact inOrder_of_operand htree
  | append_singleton row link ih =>
    have hbefore := ih fun other hother => hrow other (List.mem_append_left _ hother)
    have hlink : link.2.isJoined = false := hrow link (by simp)
    rw [attachAll_append]
    show ((tree.attachAll row).attach link.1 link.2).inOrder = (tree, row ++ [link])
    rw [inOrder_attach hlink, hbefore]

/-- One more operator keeps a tree layered. -/
theorem Layered.attach (htree : tree.Layered) (h : operand.isJoined = false) :
    (tree.attach op operand).Layered := by
  fun_induction Expr.attach tree op operand with
  | case1 outer left right hfloor ih =>
    obtain ⟨hleft, hright, hleftLayered, hrightLayered⟩ := htree
    refine ⟨hleft, ?_, hleftLayered, ih hrightLayered⟩
    intro link hlink
    rw [inOrder_attach h] at hlink
    rcases List.mem_append.mp hlink with hmem | hmem
    · exact hright link hmem
    · obtain rfl := List.mem_singleton.mp hmem
      exact takesRight_iff.mpr hfloor
  | case2 outer left right hfloor =>
    -- the new root is at most as strong as the old one, which is the loosest so far
    refine ⟨fun link hlink => ?_, by simp [inOrder_of_operand h], htree, layered_of_operand h⟩
    have hloosest := htree.strength_le link hlink
    have houter : TakesLeft op outer := takesLeft_iff.mpr (Nat.not_le.mp hfloor)
    rcases houter with hlt | ⟨hsame, hpower⟩
    · exact .inl (hlt.trans_le hloosest)
    · rw [← hsame] at hloosest
      rcases hloosest.lt_or_eq with hlt | heq
      · exact .inl hlt
      · exact .inr ⟨heq, hpower⟩
  | case3 other hother =>
    have hleft : other.inOrder = (other, []) := by
      refine inOrder_of_operand ?_
      cases other with
      | binary outer left right => exact absurd rfl (hother outer left right)
      | _ => rfl
    refine ⟨by simp [hleft], by simp [inOrder_of_operand h], htree, layered_of_operand h⟩

/-- What is built of operands is layered. -/
theorem Layered.attachAll (htree : tree.Layered) (hrow : ∀ link ∈ row, link.2.isJoined = false) :
    (tree.attachAll row).Layered := by
  induction row generalizing tree with
  | nil => exact htree
  | cons link row ih =>
    obtain ⟨hlink, hrow⟩ := List.forall_mem_cons.mp hrow
    exact ih (htree.attach hlink) hrow

/-- A layered tree is what is built from its reading. -/
theorem Layered.attachAll_inOrder (h : tree.Layered) :
    tree.inOrder.1.attachAll tree.inOrder.2 = tree := by
  fun_induction inOrder tree with
  | case1 op left right ihLeft ihRight =>
    obtain ⟨hleft, hright, hleftLayered, hrightLayered⟩ := h
    have hclosed : left.Closed op := by
      cases left with
      | binary outer left' right' =>
        have houter : TakesLeft op outer := hleft (outer, right'.inOrder.1) (by simp [inOrder])
        exact takesLeft_iff.mp houter
      | _ => trivial
    have hfloor : ∀ link ∈ right.inOrder.2, rightFloor op ≤ operatorStrength link.1 :=
      fun link hlink => takesRight_iff.mp (hright link hlink)
    rw [attachAll_append, ihLeft hleftLayered, attachAll_cons hclosed hfloor,
      ihRight hrightLayered]
  | case2 operand => rfl

/-- Differences are grouped from the left, powers from the right. -/
example : Expr.literal.attachAll
    [("-", .literal), ("**", .literal), ("**", .literal), ("-", .literal)] =
      .binary "-"
        (.binary "-" .literal (.binary "**" .literal (.binary "**" .literal .literal)))
        .literal := by
  rfl

/-! ## What a tree costs -/

/-- How often a path through the operators of a tree goes to the right. -/
def rightTurns : Expr → Nat
  | .binary _ left right => max left.rightTurns (right.rightTurns + 1)
  | _ => 0

theorem rightTurns_of_operand (h : operand.isJoined = false) : operand.rightTurns = 0 := by
  cases operand with
  | binary => cases h
  | _ => rfl

/-- A tree fits at a depth of nesting: each operand, the production of which is one level below that
of the tree and one more for each turn to the right, is within the bound, and so are the levels. -/
structure Affordable (nesting : Nat) (tree : Expr) : Prop where
  nesting_le : nesting + 1 + tree.rightTurns ≤ maxNesting
  height_le : (Branch.expr tree).height ≤ maxExpressionDepth

/-- A node above its operands. -/
theorem height_binary (op : String) (left right : Expr) :
    (Branch.expr (.binary op left right)).height =
      max (Branch.expr left).height (Branch.expr right).height + 1 := by
  rw [Branch.height_eq, Nat.add_comm]
  simp [Branch.children, Branch.ofExpr, greatest]

/-- A tree turns right no less often with more hung into it. -/
theorem rightTurns_le_attach (tree : Expr) (op : String) (operand : Expr) :
    tree.rightTurns ≤ (tree.attach op operand).rightTurns := by
  fun_induction attach tree op operand with
  | case1 outer left right hfloor ih =>
    simp only [rightTurns]
    omega
  | case2 => exact le_max_left _ _
  | case3 => exact le_max_left _ _

/-- Nor is it lower. -/
theorem height_le_attach (tree : Expr) (op : String) (operand : Expr) :
    (Branch.expr tree).height ≤ (Branch.expr (tree.attach op operand)).height := by
  fun_induction attach tree op operand with
  | case1 outer left right hfloor ih =>
    rw [height_binary, height_binary]
    omega
  | case2 outer left right hfloor =>
    rw [height_binary op]
    omega
  | case3 other hother =>
    rw [height_binary op]
    omega

/-- What affords a tree affords every stage of it. -/
theorem Affordable.of_attachAll {nesting : Nat} (h : (tree.attachAll row).Affordable nesting) :
    tree.Affordable nesting := by
  induction row generalizing tree with
  | nil => exact h
  | cons link row ih =>
    have hnext : (tree.attach link.1 link.2).Affordable nesting := ih h
    have hturns := rightTurns_le_attach tree link.1 link.2
    have hheight := height_le_attach tree link.1 link.2
    exact ⟨by have := hnext.nesting_le; omega, hheight.trans hnext.height_le⟩

/-- A right operand may cost what is left a level further down. -/
theorem Affordable.of_binary {nesting : Nat} (h : (Expr.binary op left right).Affordable nesting) :
    right.Affordable (nesting + 1) := by
  have hnesting := h.nesting_le
  have hheight := h.height_le
  rw [height_binary] at hheight
  simp only [rightTurns] at hnesting
  exact ⟨by omega, by omega⟩

end Expr

end ScriptHooks.Script

/-
ScriptHooks.Script.Depth — whether a syntax tree is deeper than a limit.

The nodes that are still to be looked at wait on a stack, each with the level it
stands on, so that nothing recurses into the tree: the test is there because a tree
may be too deep to recurse into. It ends with the first node beyond the limit.

The search ends in any case because a node weighs more than all that stands directly
under it (`weightOfAll_children`), and taking a node off the stack for its children
makes the stack lighter. The weight is the size of the tree, and there is a lemma for
each form that has parts.
-/
import ScriptHooks.Script.Tree

namespace ScriptHooks.Script

namespace Branch

/-! ## Weights -/

/-- The size of the expression or statement that a node is. Being a node counts
nothing: else the three parts of a conditional would together outweigh it. -/
noncomputable def weight : Branch → Nat
  | .expr e => sizeOf e
  | .stmt s => sizeOf s

noncomputable def weightOfAll : List Branch → Nat
  | [] => 0
  | b :: bs => b.weight + weightOfAll bs

@[simp] theorem weightOfAll_nil : weightOfAll [] = 0 := rfl

@[simp] theorem weightOfAll_cons (b : Branch) (bs : List Branch) :
    weightOfAll (b :: bs) = b.weight + weightOfAll bs := rfl

@[simp] theorem weightOfAll_append (as bs : List Branch) :
    weightOfAll (as ++ bs) = weightOfAll as + weightOfAll bs := by
  induction as with
  | nil => simp
  | cons a as ih => simp [ih, Nat.add_assoc]

@[simp] theorem weightOfAll_reverse (bs : List Branch) :
    weightOfAll bs.reverse = weightOfAll bs := by
  induction bs with
  | nil => rfl
  | cons b bs ih => simp [ih, Nat.add_comm]

section Lists

variable {α : Type} [SizeOf α]

theorem weightOfAll_map {f : α → Branch} (hf : ∀ x, (f x).weight = sizeOf x) (xs : List α) :
    weightOfAll (xs.map f) < sizeOf xs := by
  induction xs with
  | nil => simp
  | cons x xs ih =>
    simp only [List.map_cons, weightOfAll_cons, hf, List.cons.sizeOf_spec]
    omega

theorem weightOfAll_flatMap {f : α → List Branch} (hf : ∀ x, weightOfAll (f x) < sizeOf x)
    (xs : List α) : weightOfAll (xs.flatMap f) < sizeOf xs := by
  induction xs with
  | nil => simp
  | cons x xs ih =>
    have := hf x
    simp only [List.flatMap_cons, weightOfAll_append, List.cons.sizeOf_spec]
    omega

theorem weightOfAll_option {f : α → List Branch} (hf : ∀ x, weightOfAll (f x) < sizeOf x)
    (o : Option α) : weightOfAll (o.toList.flatMap f) < sizeOf o := by
  cases o with
  | none => simp
  | some x =>
    have := hf x
    simp only [Option.toList_some, List.flatMap_cons, List.flatMap_nil, List.append_nil,
      Option.some.sizeOf_spec]
    omega

end Lists

theorem weightOfAll_exprs (es : List Expr) : weightOfAll (es.map .expr) < sizeOf es :=
  weightOfAll_map (fun _ => rfl) es

theorem weightOfAll_stmts (ss : List Stmt) : weightOfAll (ss.map .stmt) < sizeOf ss :=
  weightOfAll_map (fun _ => rfl) ss

theorem weightOfAll_expr? (o : Option Expr) : weightOfAll (o.toList.map .expr) < sizeOf o := by
  cases o <;> simp [weight]

theorem weightOfAll_stmt? (o : Option Stmt) : weightOfAll (o.toList.map .stmt) < sizeOf o := by
  cases o <;> simp [weight]

theorem weightOfAll_body? (o : Option (List Stmt)) :
    weightOfAll ((o.getD []).map .stmt) < sizeOf o := by
  cases o with
  | none => simp
  | some body =>
    have := weightOfAll_stmts body
    simp only [Option.getD_some, Option.some.sizeOf_spec]
    omega

theorem weightOfAll_ofKey (key : PropertyKey) : weightOfAll (ofKey key) < sizeOf key := by
  cases key with
  | named name =>
    simp only [ofKey, weightOfAll_nil, PropertyKey.named.sizeOf_spec]
    omega
  | computed key => simp [ofKey, weight]

theorem weightOfAll_ofFunction (f : Function) : weightOfAll (ofFunction f) < sizeOf f := by
  obtain ⟨name, parameters, body, isArrow, position⟩ := f
  have := weightOfAll_exprs parameters
  have := weightOfAll_stmts body
  simp only [ofFunction, weightOfAll_append, Function.mk.sizeOf_spec]
  omega

theorem weightOfAll_ofProperty (p : Property) : weightOfAll (ofProperty p) < sizeOf p := by
  cases p with
  | keyValue key value =>
    have := weightOfAll_ofKey key
    simp only [ofProperty, weightOfAll_append, weightOfAll_cons, weightOfAll_nil, weight,
      Property.keyValue.sizeOf_spec]
    omega
  | shorthand name position fallback =>
    have := weightOfAll_expr? fallback
    simp only [ofProperty, Property.shorthand.sizeOf_spec]
    omega
  | method key f =>
    have := weightOfAll_ofKey key
    have := weightOfAll_ofFunction f
    simp only [ofProperty, weightOfAll_append, Property.method.sizeOf_spec]
    omega
  | spread operand => simp [ofProperty, weight]

theorem weightOfAll_ofDeclarator (d : Declarator) : weightOfAll (ofDeclarator d) < sizeOf d := by
  obtain ⟨target, init⟩ := d
  have := weightOfAll_expr? init
  simp only [ofDeclarator, weightOfAll_cons, weight, Declarator.mk.sizeOf_spec]
  omega

theorem weightOfAll_ofHead (head : ForHead) : weightOfAll (ofHead head) < sizeOf head := by
  cases head with
  | declare kind declarators =>
    have := weightOfAll_flatMap weightOfAll_ofDeclarator declarators
    simp only [ofHead, ForHead.declare.sizeOf_spec]
    omega
  | expr e => simp [ofHead, weight]

theorem weightOfAll_ofCase (k : SwitchCase) : weightOfAll (ofCase k) < sizeOf k := by
  obtain ⟨test, body⟩ := k
  have := weightOfAll_expr? test
  have := weightOfAll_stmts body
  simp only [ofCase, weightOfAll_append, SwitchCase.mk.sizeOf_spec]
  omega

theorem weightOfAll_ofCatch (k : CatchClause) : weightOfAll (ofCatch k) < sizeOf k := by
  obtain ⟨parameter, body⟩ := k
  have := weightOfAll_expr? parameter
  have := weightOfAll_stmts body
  simp only [ofCatch, weightOfAll_append, CatchClause.mk.sizeOf_spec]
  omega

theorem weightOfAll_ofExpr (e : Expr) : weightOfAll (ofExpr e) < sizeOf e := by
  cases e with
  | template items | array items | sequence items =>
    have := weightOfAll_exprs items
    simp only [ofExpr, Expr.template.sizeOf_spec, Expr.array.sizeOf_spec, Expr.sequence.sizeOf_spec]
    omega
  | object properties position =>
    have := weightOfAll_flatMap weightOfAll_ofProperty properties
    simp only [ofExpr, Expr.object.sizeOf_spec]
    omega
  | function f =>
    have := weightOfAll_ofFunction f
    simp only [ofExpr, Expr.function.sizeOf_spec]
    omega
  | call callee arguments isNew position =>
    have := weightOfAll_exprs arguments
    simp only [ofExpr, weightOfAll_cons, weight, Expr.call.sizeOf_spec]
    omega
  | ident | literal | member | index | unary | binary | conditional | spread =>
    simp [ofExpr, weight] <;> omega

theorem weightOfAll_ofStmt (s : Stmt) : weightOfAll (ofStmt s) < sizeOf s := by
  cases s with
  | declare kind declarators =>
    have := weightOfAll_flatMap weightOfAll_ofDeclarator declarators
    simp only [ofStmt, Stmt.declare.sizeOf_spec]
    omega
  | function f =>
    have := weightOfAll_ofFunction f
    simp only [ofStmt, Stmt.function.sizeOf_spec]
    omega
  | block body =>
    have := weightOfAll_stmts body
    simp only [ofStmt, Stmt.block.sizeOf_spec]
    omega
  | if_ test consequent alternate =>
    have := weightOfAll_stmt? alternate
    simp only [ofStmt, weightOfAll_cons, weight, Stmt.if_.sizeOf_spec]
    omega
  | for_ init test update body =>
    have := weightOfAll_option weightOfAll_ofHead init
    have := weightOfAll_expr? test
    have := weightOfAll_expr? update
    simp only [ofStmt, weightOfAll_append, weightOfAll_cons, weightOfAll_nil, weight,
      Stmt.for_.sizeOf_spec]
    omega
  | forIn head subject body =>
    have := weightOfAll_ofHead head
    simp only [ofStmt, weightOfAll_append, weightOfAll_cons, weightOfAll_nil, weight,
      Stmt.forIn.sizeOf_spec]
    omega
  | return_ argument =>
    have := weightOfAll_expr? argument
    simp only [ofStmt, Stmt.return_.sizeOf_spec]
    omega
  | try_ block handler finalizer =>
    have := weightOfAll_stmts block
    have := weightOfAll_option weightOfAll_ofCatch handler
    have := weightOfAll_body? finalizer
    simp only [ofStmt, weightOfAll_append, Stmt.try_.sizeOf_spec]
    omega
  | switch discriminant cases =>
    have := weightOfAll_flatMap weightOfAll_ofCase cases
    simp only [ofStmt, weightOfAll_cons, weight, Stmt.switch.sizeOf_spec]
    omega
  | expr | while_ | doWhile | with_ | labeled | break_ | continue_ | throw_ | empty =>
    simp [ofStmt, weight] <;> omega

/-- All that stands directly under a node is together lighter than the node. -/
theorem weightOfAll_children (b : Branch) : weightOfAll b.children < b.weight := by
  cases b with
  | expr e => exact weightOfAll_ofExpr e
  | stmt s => exact weightOfAll_ofStmt s

/-! ## The search -/

/-- A node that is still to be looked at, and the level it stands on. -/
structure Visit where
  level : Nat
  branch : Branch

/-- What stands directly under a node is to be looked at one level below it. -/
def Visit.below (visit : Visit) : List Visit :=
  visit.branch.children.map (Visit.mk (visit.level + 1))

/-- To put what stands under a node in its place makes a stack lighter. -/
theorem weightOfAll_below (visit : Visit) (stack : List Visit) :
    weightOfAll ((visit.below.reverse ++ stack).map Visit.branch) <
      weightOfAll ((visit :: stack).map Visit.branch) := by
  have hchildren := weightOfAll_children visit.branch
  have hbelow : visit.below.map Visit.branch = visit.branch.children := by
    simp [Visit.below, Function.comp_def]
  rw [List.map_append, weightOfAll_append, List.map_reverse, hbelow, weightOfAll_reverse,
    List.map_cons, weightOfAll_cons]
  omega

/-- Whether a node on the stack, or one under such a node, stands below the level
`limit`. -/
def anyBeyond (limit : Nat) : List Visit → Bool
  | [] => false
  | visit :: stack =>
    if limit < visit.level then true
    else anyBeyond limit (visit.below.reverse ++ stack)
termination_by stack => weightOfAll (stack.map Visit.branch)
decreasing_by exact weightOfAll_below visit stack

end Branch

/-- Whether an expression has more than `limit` levels, those of the functions in
it included. -/
def Expr.isDeeperThan (expr : Expr) (limit : Nat) : Bool :=
  Branch.anyBeyond limit [⟨1, .expr expr⟩]

end ScriptHooks.Script

/-
ScriptHooks.Proofs.Script.StructuralDepth — the depth of a tree, form by form.

`Expr.depth` and `Stmt.depth` go down the forms of the syntax themselves: one more than the
greatest depth of an expression or statement directly inside, whichever property, function,
declarator, head, case or handler it stands in. What is no node of its own adds no level.

They use none of the lists of children that the search for too deep a tree goes by. So
`Branch.depth_eq` tells that no child is left out of those lists: there is one lemma for each form
that has parts (`depth_property`, `depth_function`, `depth_case`), which says that its depth is
that of the deepest child it is listed with, and they are put together by `depth_expr` and
`depth_stmt`.

From there `height_eq_depth` is one induction over the tree, and `isDeeperThan_iff_lt_depth` says
that the search measures this depth, for every expression and every limit.

The definition is one mutual recursion, with a function for each kind of list and option in the
syntax, because the depth of a list is no application of a function on lists there. The lemmas
with `All`, `Option` and `Body` in their names bring them back to `deepest`.
-/
import ScriptHooks.Proofs.Script.TreeDepth

namespace ScriptHooks.Script

/-! ## The depth of each form -/

mutual

/-- The nodes on the longest path from an expression downwards. -/
def Expr.depth : Expr → Nat
  | .ident _ _ => 1
  | .literal => 1
  | .template parts => 1 + Expr.depthAll parts
  | .array items => 1 + Expr.depthAll items
  | .object properties _ => 1 + Property.depthAll properties
  | .function f => 1 + f.depth
  | .call callee arguments _ _ => 1 + max callee.depth (Expr.depthAll arguments)
  | .member object _ => 1 + object.depth
  | .index object property => 1 + max object.depth property.depth
  | .unary _ operand => 1 + operand.depth
  | .binary _ left right => 1 + max left.depth right.depth
  | .conditional test consequent alternate =>
    1 + max test.depth (max consequent.depth alternate.depth)
  | .sequence items => 1 + Expr.depthAll items
  | .spread operand => 1 + operand.depth

/-- The greatest depth of the expressions, zero if there is none. -/
def Expr.depthAll : List Expr → Nat
  | [] => 0
  | e :: es => max e.depth (Expr.depthAll es)

/-- The depth of the expression, zero if there is none. -/
def Expr.depthOption : Option Expr → Nat
  | none => 0
  | some e => e.depth

def Property.depthAll : List Property → Nat
  | [] => 0
  | p :: ps => max p.depth (Property.depthAll ps)

/-- The greatest depth inside a property: of its key, its value or default, its method. -/
def Property.depth : Property → Nat
  | .keyValue key value => max key.depth value.depth
  | .shorthand _ _ fallback => Expr.depthOption fallback
  | .method key f => max key.depth f.depth
  | .spread operand => operand.depth

/-- The depth of a computed key; a name has none. -/
def PropertyKey.depth : PropertyKey → Nat
  | .named _ => 0
  | .computed key => key.depth

/-- The greatest depth of the parameters and of the body. -/
def Function.depth : Function → Nat
  | .mk _ parameters body _ _ => max (Expr.depthAll parameters) (Stmt.depthAll body)

def Declarator.depthAll : List Declarator → Nat
  | [] => 0
  | d :: ds => max d.depth (Declarator.depthAll ds)

/-- The greatest depth of the pattern and of the initial value. -/
def Declarator.depth : Declarator → Nat
  | .mk target init => max target.depth (Expr.depthOption init)

/-- The greatest depth inside the head of a loop. -/
def ForHead.depth : ForHead → Nat
  | .declare _ declarators => Declarator.depthAll declarators
  | .expr e => e.depth

/-- The greatest depth inside the head of a loop, zero if there is none. -/
def ForHead.depthOption : Option ForHead → Nat
  | none => 0
  | some head => head.depth

def SwitchCase.depthAll : List SwitchCase → Nat
  | [] => 0
  | k :: ks => max k.depth (SwitchCase.depthAll ks)

/-- The greatest depth of the test and of the body. -/
def SwitchCase.depth : SwitchCase → Nat
  | .mk test body => max (Expr.depthOption test) (Stmt.depthAll body)

/-- The greatest depth of the parameter and of the body. -/
def CatchClause.depth : CatchClause → Nat
  | .mk parameter body => max (Expr.depthOption parameter) (Stmt.depthAll body)

/-- The greatest depth inside a handler, zero if there is none. -/
def CatchClause.depthOption : Option CatchClause → Nat
  | none => 0
  | some clause => clause.depth

/-- The nodes on the longest path from a statement downwards. -/
def Stmt.depth : Stmt → Nat
  | .declare _ declarators => 1 + Declarator.depthAll declarators
  | .function f => 1 + f.depth
  | .expr e => 1 + e.depth
  | .block body => 1 + Stmt.depthAll body
  | .if_ test consequent alternate =>
    1 + max test.depth (max consequent.depth (Stmt.depthOption alternate))
  | .for_ init test update body =>
    1 + max (ForHead.depthOption init)
      (max (Expr.depthOption test) (max (Expr.depthOption update) body.depth))
  | .forIn head subject body => 1 + max head.depth (max subject.depth body.depth)
  | .while_ test body _ => 1 + max test.depth body.depth
  | .doWhile body test _ => 1 + max body.depth test.depth
  | .with_ object body _ => 1 + max object.depth body.depth
  | .labeled _ body _ => 1 + body.depth
  | .break_ _ _ => 1
  | .continue_ _ _ => 1
  | .return_ argument => 1 + Expr.depthOption argument
  | .throw_ argument => 1 + argument.depth
  | .try_ block handler finalizer =>
    1 + max (Stmt.depthAll block) (max (CatchClause.depthOption handler) (Stmt.depthBody finalizer))
  | .switch discriminant cases => 1 + max discriminant.depth (SwitchCase.depthAll cases)
  | .empty => 1

/-- The greatest depth of the statements, zero if there is none. -/
def Stmt.depthAll : List Stmt → Nat
  | [] => 0
  | s :: ss => max s.depth (Stmt.depthAll ss)

/-- The depth of the statement, zero if there is none. -/
def Stmt.depthOption : Option Stmt → Nat
  | none => 0
  | some s => s.depth

/-- The greatest depth of the statements, zero if there are none. -/
def Stmt.depthBody : Option (List Stmt) → Nat
  | none => 0
  | some body => Stmt.depthAll body

end

namespace Branch

/-- The nodes on the longest path from a node downwards. -/
def depth : Branch → Nat
  | .expr e => e.depth
  | .stmt s => s.depth

/-- The greatest depth of the nodes, zero if there is none. -/
def deepest (branches : List Branch) : Nat := greatest (branches.map depth)

@[simp] theorem deepest_nil : deepest [] = 0 := rfl

@[simp] theorem deepest_cons (b : Branch) (bs : List Branch) :
    deepest (b :: bs) = max b.depth (deepest bs) := rfl

@[simp] theorem deepest_append (as bs : List Branch) :
    deepest (as ++ bs) = max (deepest as) (deepest bs) := by
  induction as with
  | nil => simp
  | cons a as ih => simp [ih, max_assoc]

/-! ## No child is left out -/

theorem depthAll_exprs (es : List Expr) : Expr.depthAll es = deepest (es.map .expr) := by
  induction es with
  | nil => rfl
  | cons e es ih => simp [Expr.depthAll, ih, depth]

theorem depthOption_expr (o : Option Expr) :
    Expr.depthOption o = deepest (o.toList.map .expr) := by
  cases o <;> simp [Expr.depthOption, depth]

theorem depthAll_stmts (ss : List Stmt) : Stmt.depthAll ss = deepest (ss.map .stmt) := by
  induction ss with
  | nil => rfl
  | cons s ss ih => simp [Stmt.depthAll, ih, depth]

theorem depthOption_stmt (o : Option Stmt) :
    Stmt.depthOption o = deepest (o.toList.map .stmt) := by
  cases o <;> simp [Stmt.depthOption, depth]

theorem depthBody_stmts (o : Option (List Stmt)) :
    Stmt.depthBody o = deepest ((o.getD []).map .stmt) := by
  cases o <;> simp [Stmt.depthBody, depthAll_stmts]

/-- A computed key has the depth of its expression. -/
theorem depth_key (key : PropertyKey) : key.depth = deepest (ofKey key) := by
  cases key <;> simp [PropertyKey.depth, ofKey, depth]

/-- Parameters and body. -/
theorem depth_function (f : Function) : f.depth = deepest (ofFunction f) := by
  obtain ⟨name, parameters, body, isArrow, position⟩ := f
  simp [Function.depth, ofFunction, depthAll_exprs, depthAll_stmts]

/-- A property adds no level of its own. -/
theorem depth_property (p : Property) : p.depth = deepest (ofProperty p) := by
  cases p <;>
    simp [Property.depth, ofProperty, depth_key, depth_function, depthOption_expr, depth]

theorem depthAll_properties (ps : List Property) :
    Property.depthAll ps = deepest (ps.flatMap ofProperty) := by
  induction ps with
  | nil => rfl
  | cons p ps ih => simp [Property.depthAll, ih, depth_property]

theorem depth_declarator (d : Declarator) : d.depth = deepest (ofDeclarator d) := by
  obtain ⟨target, init⟩ := d
  simp [Declarator.depth, ofDeclarator, depthOption_expr, depth]

theorem depthAll_declarators (ds : List Declarator) :
    Declarator.depthAll ds = deepest (ds.flatMap ofDeclarator) := by
  induction ds with
  | nil => rfl
  | cons d ds ih => simp [Declarator.depthAll, ih, depth_declarator]

theorem depth_head (head : ForHead) : head.depth = deepest (ofHead head) := by
  cases head <;> simp [ForHead.depth, ofHead, depthAll_declarators, depth]

theorem depthOption_head (o : Option ForHead) :
    ForHead.depthOption o = deepest (o.toList.flatMap ofHead) := by
  cases o <;> simp [ForHead.depthOption, depth_head]

theorem depth_case (k : SwitchCase) : k.depth = deepest (ofCase k) := by
  obtain ⟨test, body⟩ := k
  simp [SwitchCase.depth, ofCase, depthOption_expr, depthAll_stmts]

theorem depthAll_cases (ks : List SwitchCase) :
    SwitchCase.depthAll ks = deepest (ks.flatMap ofCase) := by
  induction ks with
  | nil => rfl
  | cons k ks ih => simp [SwitchCase.depthAll, ih, depth_case]

theorem depth_catch (clause : CatchClause) : clause.depth = deepest (ofCatch clause) := by
  obtain ⟨parameter, body⟩ := clause
  simp [CatchClause.depth, ofCatch, depthOption_expr, depthAll_stmts]

theorem depthOption_catch (o : Option CatchClause) :
    CatchClause.depthOption o = deepest (o.toList.flatMap ofCatch) := by
  cases o <;> simp [CatchClause.depthOption, depth_catch]

/-- An expression is one deeper than what stands directly inside. -/
theorem depth_expr (e : Expr) : e.depth = 1 + deepest (ofExpr e) := by
  cases e with
  | template | array | sequence | call =>
    simp [Expr.depth, ofExpr, depthAll_exprs, depth]
  | object => simp [Expr.depth, ofExpr, depthAll_properties]
  | function => simp [Expr.depth, ofExpr, depth_function]
  | ident | literal | member | index | unary | binary | conditional | spread =>
    simp [Expr.depth, ofExpr, depth]

/-- So is a statement. -/
theorem depth_stmt (s : Stmt) : s.depth = 1 + deepest (ofStmt s) := by
  cases s with
  | declare => simp [Stmt.depth, ofStmt, depthAll_declarators]
  | function => simp [Stmt.depth, ofStmt, depth_function]
  | block => simp [Stmt.depth, ofStmt, depthAll_stmts]
  | if_ => simp [Stmt.depth, ofStmt, depthOption_stmt, depth]
  | for_ => simp [Stmt.depth, ofStmt, depthOption_head, depthOption_expr, depth]
  | forIn => simp [Stmt.depth, ofStmt, depth_head, depth]
  | return_ => simp [Stmt.depth, ofStmt, depthOption_expr]
  | try_ => simp [Stmt.depth, ofStmt, depthAll_stmts, depthOption_catch, depthBody_stmts]
  | switch => simp [Stmt.depth, ofStmt, depthAll_cases, depth]
  | expr | while_ | doWhile | with_ | labeled | break_ | continue_ | throw_ | empty =>
    simp [Stmt.depth, ofStmt, depth]

/-- A node is one deeper than the deepest of its children. -/
theorem depth_eq (b : Branch) : b.depth = 1 + deepest b.children := by
  cases b with
  | expr e => exact depth_expr e
  | stmt s => exact depth_stmt s

/-- The longest path through the lists of children is that through the forms. -/
theorem height_eq_depth (b : Branch) : b.height = b.depth := by
  induction b using ofChildren with
  | step b ih =>
    rw [height_eq, depth_eq, deepest]
    exact congrArg (1 + greatest ·) (List.map_congr_left ih)

end Branch

/-- The levels of a program are those of its statements. -/
theorem Program.depth_eq (program : Program) : program.depth = Stmt.depthAll program.body := by
  rw [depth, Branch.depthAll_stmts, Branch.deepest, List.map_map]
  exact congrArg greatest (List.map_congr_left fun s _ => Branch.height_eq_depth (.stmt s))

/-- The search with a stack measures the depth: an expression is found to be deeper than a limit
exactly if it is. -/
theorem Expr.isDeeperThan_iff_lt_depth (e : Expr) (limit : Nat) :
    e.isDeeperThan limit = true ↔ limit < e.depth := by
  have hdepth : (Branch.expr e).height = e.depth := Branch.height_eq_depth (.expr e)
  rw [isDeeperThan_iff, hdepth]

/-- The deepest node is the item of the list that is the default of the parameter of the method. -/
example :
    let e : Expr := .object [.method (.computed .literal)
      (.mk none [.binary "=" (.ident "a" ⟨1, 6⟩) (.array [.literal])] [.empty] false ⟨1, 2⟩)] ⟨1, 1⟩
    e.depth = 4 ∧ e.isDeeperThan 3 = true ∧ e.isDeeperThan 4 = false := by
  decide +kernel

end ScriptHooks.Script

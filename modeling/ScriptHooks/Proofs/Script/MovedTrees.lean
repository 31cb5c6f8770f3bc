/-
ScriptHooks.Proofs.Script.MovedTrees — syntax trees whose positions are moved.

A tree keeps the positions of names, objects, functions, calls and of some statements. Moving them
changes nothing else about the tree. Two facts are needed by those who read the same tokens at other
places:

* it has as many levels (`Expr.isDeeperThan_move`). The search works off a stack of nodes, so the
  lemma is about stacks: what stands directly under a moved node is what stood under it, moved
  (`children_move`, with a lemma for each form that has parts), and hence a round of the search on
  a moved stack is the round on the stack, moved;
* moved by nothing it is the same tree (`Stmt.move_id`), by one induction over all forms. It is for
  two runs on the same tokens.

The definition is a mutual recursion, with a function for each kind of list and option in the
syntax. The lemmas that end in `_eq` bring these back to `map`, and nothing else opens them.
-/
import ScriptHooks.Proofs.Script.TokenLists
import ScriptHooks.Script.Depth

namespace ScriptHooks.Script

mutual

/-- The expression at another place. -/
def Expr.move (f : Position → Position) : Expr → Expr
  | .ident name position => .ident name (f position)
  | .literal => .literal
  | .template parts => .template (Expr.moveAll f parts)
  | .array items => .array (Expr.moveAll f items)
  | .object properties position => .object (Property.moveAll f properties) (f position)
  | .function g => .function (g.move f)
  | .call callee arguments isNew position =>
    .call (callee.move f) (Expr.moveAll f arguments) isNew (f position)
  | .member object property => .member (object.move f) property
  | .index object property => .index (object.move f) (property.move f)
  | .unary operator operand => .unary operator (operand.move f)
  | .binary operator left right => .binary operator (left.move f) (right.move f)
  | .conditional test consequent alternate =>
    .conditional (test.move f) (consequent.move f) (alternate.move f)
  | .sequence items => .sequence (Expr.moveAll f items)
  | .spread operand => .spread (operand.move f)

/-- The expressions at other places. -/
def Expr.moveAll (f : Position → Position) : List Expr → List Expr
  | [] => []
  | e :: es => e.move f :: Expr.moveAll f es

/-- The expression at another place, if there is one. -/
def Expr.moveOption (f : Position → Position) : Option Expr → Option Expr
  | none => none
  | some e => some (e.move f)

/-- The properties at other places. -/
def Property.moveAll (f : Position → Position) : List Property → List Property
  | [] => []
  | p :: ps => p.move f :: Property.moveAll f ps

def Property.move (f : Position → Position) : Property → Property
  | .keyValue key value => .keyValue (key.move f) (value.move f)
  | .shorthand name position fallback =>
    .shorthand name (f position) (Expr.moveOption f fallback)
  | .method key g => .method (key.move f) (g.move f)
  | .spread operand => .spread (operand.move f)

def PropertyKey.move (f : Position → Position) : PropertyKey → PropertyKey
  | .named name => .named name
  | .computed key => .computed (key.move f)

def Function.move (f : Position → Position) : Function → Function
  | .mk name parameters body isArrow position =>
    .mk name (Expr.moveAll f parameters) (Stmt.moveAll f body) isArrow (f position)

/-- The declarators at other places. -/
def Declarator.moveAll (f : Position → Position) : List Declarator → List Declarator
  | [] => []
  | d :: ds => d.move f :: Declarator.moveAll f ds

def Declarator.move (f : Position → Position) : Declarator → Declarator
  | .mk target init => .mk (target.move f) (Expr.moveOption f init)

/-- The head of a loop at another place. -/
def ForHead.move (f : Position → Position) : ForHead → ForHead
  | .declare kind declarators => .declare kind (Declarator.moveAll f declarators)
  | .expr e => .expr (e.move f)

/-- The head of a loop at another place, if there is one. -/
def ForHead.moveOption (f : Position → Position) : Option ForHead → Option ForHead
  | none => none
  | some head => some (head.move f)

/-- The cases at other places. -/
def SwitchCase.moveAll (f : Position → Position) : List SwitchCase → List SwitchCase
  | [] => []
  | k :: ks => k.move f :: SwitchCase.moveAll f ks

def SwitchCase.move (f : Position → Position) : SwitchCase → SwitchCase
  | .mk test body => .mk (Expr.moveOption f test) (Stmt.moveAll f body)

/-- The handler at another place. -/
def CatchClause.move (f : Position → Position) : CatchClause → CatchClause
  | .mk parameter body => .mk (Expr.moveOption f parameter) (Stmt.moveAll f body)

/-- The handler at another place, if there is one. -/
def CatchClause.moveOption (f : Position → Position) : Option CatchClause → Option CatchClause
  | none => none
  | some clause => some (clause.move f)

/-- The statement at another place. -/
def Stmt.move (f : Position → Position) : Stmt → Stmt
  | .declare kind declarators => .declare kind (Declarator.moveAll f declarators)
  | .function g => .function (g.move f)
  | .expr e => .expr (e.move f)
  | .block body => .block (Stmt.moveAll f body)
  | .if_ test consequent alternate =>
    .if_ (test.move f) (consequent.move f) (Stmt.moveOption f alternate)
  | .for_ init test update body =>
    .for_ (ForHead.moveOption f init) (Expr.moveOption f test) (Expr.moveOption f update)
      (body.move f)
  | .forIn head subject body => .forIn (head.move f) (subject.move f) (body.move f)
  | .while_ test body position => .while_ (test.move f) (body.move f) (f position)
  | .doWhile body test position => .doWhile (body.move f) (test.move f) (f position)
  | .with_ object body position => .with_ (object.move f) (body.move f) (f position)
  | .labeled label body position => .labeled label (body.move f) (f position)
  | .break_ label position => .break_ label (f position)
  | .continue_ label position => .continue_ label (f position)
  | .return_ argument => .return_ (Expr.moveOption f argument)
  | .throw_ argument => .throw_ (argument.move f)
  | .try_ block handler finalizer =>
    .try_ (Stmt.moveAll f block) (CatchClause.moveOption f handler) (Stmt.moveBody f finalizer)
  | .switch discriminant cases => .switch (discriminant.move f) (SwitchCase.moveAll f cases)
  | .empty => .empty

/-- The statements at other places. -/
def Stmt.moveAll (f : Position → Position) : List Stmt → List Stmt
  | [] => []
  | s :: ss => s.move f :: Stmt.moveAll f ss

/-- The statement at another place, if there is one. -/
def Stmt.moveOption (f : Position → Position) : Option Stmt → Option Stmt
  | none => none
  | some s => some (s.move f)

/-- The statements at other places, if there are some. -/
def Stmt.moveBody (f : Position → Position) : Option (List Stmt) → Option (List Stmt)
  | none => none
  | some body => some (Stmt.moveAll f body)

end

def Program.move (f : Position → Position) (program : Program) : Program :=
  ⟨Stmt.moveAll f program.body⟩

/-! ## Lists -/

section Lists

variable (f : Position → Position)

/-- Lists are moved one by one. -/
theorem Expr.moveAll_eq (es : List Expr) : Expr.moveAll f es = es.map (move f) := by
  induction es with
  | nil => rfl
  | cons e es ih => rw [moveAll, ih, List.map_cons]

theorem Property.moveAll_eq (ps : List Property) : Property.moveAll f ps = ps.map (move f) := by
  induction ps with
  | nil => rfl
  | cons p ps ih => rw [moveAll, ih, List.map_cons]

theorem Declarator.moveAll_eq (ds : List Declarator) :
    Declarator.moveAll f ds = ds.map (move f) := by
  induction ds with
  | nil => rfl
  | cons d ds ih => rw [moveAll, ih, List.map_cons]

theorem SwitchCase.moveAll_eq (ks : List SwitchCase) :
    SwitchCase.moveAll f ks = ks.map (move f) := by
  induction ks with
  | nil => rfl
  | cons k ks ih => rw [moveAll, ih, List.map_cons]

theorem Stmt.moveAll_eq (ss : List Stmt) : Stmt.moveAll f ss = ss.map (move f) := by
  induction ss with
  | nil => rfl
  | cons s ss ih => rw [moveAll, ih, List.map_cons]

theorem Expr.moveOption_eq (e : Option Expr) : Expr.moveOption f e = e.map (move f) := by
  cases e <;> rfl

theorem ForHead.moveOption_eq (head : Option ForHead) :
    ForHead.moveOption f head = head.map (move f) := by
  cases head <;> rfl

theorem CatchClause.moveOption_eq (clause : Option CatchClause) :
    CatchClause.moveOption f clause = clause.map (move f) := by
  cases clause <;> rfl

theorem Stmt.moveBody_eq (body : Option (List Stmt)) :
    Stmt.moveBody f body = body.map (List.map (move f)) := by
  cases body with
  | none => rfl
  | some body => rw [moveBody, moveAll_eq, Option.map_some]

end Lists

/-! ## Levels -/

namespace Branch

/-- The node at another place. -/
def move (f : Position → Position) : Branch → Branch
  | .expr e => .expr (e.move f)
  | .stmt s => .stmt (s.move f)

/-- The node on a stack at another place, on the same level. -/
def Visit.move (f : Position → Position) (visit : Visit) : Visit :=
  ⟨visit.level, visit.branch.move f⟩

variable (f : Position → Position)

@[simp] theorem move_comp_expr : move f ∘ expr = expr ∘ Expr.move f := rfl

@[simp] theorem move_comp_stmt : move f ∘ stmt = stmt ∘ Stmt.move f := rfl

theorem ofKey_move (key : PropertyKey) : ofKey (key.move f) = (ofKey key).map (move f) := by
  cases key <;> rfl

/-- What stands under a moved function is what stood under it, moved. -/
theorem ofFunction_move (g : Function) :
    ofFunction (g.move f) = (ofFunction g).map (move f) := by
  cases g
  simp [Function.move, ofFunction, Expr.moveAll_eq, Stmt.moveAll_eq]

theorem ofProperty_move (p : Property) :
    ofProperty (p.move f) = (ofProperty p).map (move f) := by
  cases p with
  | shorthand name position fallback => cases fallback <;> rfl
  | _ => simp [Property.move, ofProperty, ofKey_move, ofFunction_move, move]

theorem ofDeclarator_move (d : Declarator) :
    ofDeclarator (d.move f) = (ofDeclarator d).map (move f) := by
  obtain ⟨target, init⟩ := d
  cases init <;> rfl

theorem ofHead_move (head : ForHead) : ofHead (head.move f) = (ofHead head).map (move f) := by
  cases head <;>
    simp [ForHead.move, ofHead, Declarator.moveAll_eq, List.flatMap_map, List.map_flatMap,
      ofDeclarator_move, move]

theorem ofCase_move (k : SwitchCase) : ofCase (k.move f) = (ofCase k).map (move f) := by
  obtain ⟨test, body⟩ := k
  cases test <;> simp [SwitchCase.move, ofCase, Expr.moveOption, Stmt.moveAll_eq, move]

theorem ofCatch_move (k : CatchClause) : ofCatch (k.move f) = (ofCatch k).map (move f) := by
  obtain ⟨parameter, body⟩ := k
  cases parameter <;> simp [CatchClause.move, ofCatch, Expr.moveOption, Stmt.moveAll_eq, move]

theorem ofExpr_move (e : Expr) : ofExpr (e.move f) = (ofExpr e).map (move f) := by
  cases e <;>
    simp [Expr.move, ofExpr, Expr.moveAll_eq, Property.moveAll_eq, List.flatMap_map,
      List.map_flatMap, ofProperty_move, ofFunction_move, move]

theorem ofStmt_move (s : Stmt) : ofStmt (s.move f) = (ofStmt s).map (move f) := by
  cases s with
  | if_ test consequent alternate => cases alternate <;> rfl
  | for_ init test update body =>
    cases init <;> cases test <;> cases update <;>
      simp [Stmt.move, ofStmt, Expr.moveOption, ForHead.moveOption, ofHead_move, move]
  | return_ argument => cases argument <;> rfl
  | try_ block handler finalizer =>
    cases handler <;> cases finalizer <;>
      simp [Stmt.move, ofStmt, CatchClause.moveOption, Stmt.moveBody, Stmt.moveAll_eq, ofCatch_move]
  | _ =>
    simp [Stmt.move, ofStmt, Stmt.moveAll_eq, Declarator.moveAll_eq, SwitchCase.moveAll_eq,
      List.flatMap_map, List.map_flatMap, ofDeclarator_move, ofFunction_move, ofHead_move,
      ofCase_move, move]

/-- What stands directly under a moved node is what stood under it, moved. -/
theorem children_move (b : Branch) : (b.move f).children = b.children.map (move f) := by
  cases b with
  | expr e => exact ofExpr_move f e
  | stmt s => exact ofStmt_move f s

/-- A moved node is as deep. -/
@[simp] theorem Visit.level_move (visit : Visit) : (visit.move f).level = visit.level := rfl

/-- A step of the search on a moved node. -/
theorem Visit.below_move (visit : Visit) :
    (visit.move f).below = visit.below.map (Visit.move f) := by
  simp [below, Visit.move, children_move, Function.comp_def]

/-- The search finds the same on a moved stack. -/
theorem anyBeyond_move (limit : Nat) (stack : List Visit) :
    anyBeyond limit (stack.map (Visit.move f)) = anyBeyond limit stack := by
  fun_induction anyBeyond limit stack with
  | case1 => rw [List.map_nil, anyBeyond]
  | case2 visit stack hbeyond =>
    rw [List.map_cons, anyBeyond, Visit.level_move, if_pos hbeyond]
  | case3 visit stack hlevel ih =>
    rw [List.map_cons, anyBeyond, Visit.level_move, if_neg hlevel, Visit.below_move,
      ← List.map_reverse, ← List.map_append, ih]

end Branch

/-- A moved expression has as many levels. -/
@[simp] theorem Expr.isDeeperThan_move (f : Position → Position) (e : Expr) (limit : Nat) :
    (e.move f).isDeeperThan limit = e.isDeeperThan limit :=
  Branch.anyBeyond_move f limit [⟨1, .expr e⟩]

/-! ## Moved by nothing -/

mutual

/-- An expression, together with all that may stand in it. -/
theorem Expr.move_id (e : Expr) : e.move id = e := by
  cases e <;> simp [Expr.move, Expr.move_id, Expr.moveAll_id, Property.moveAll_id, Function.move_id]

theorem Expr.moveAll_id (es : List Expr) : Expr.moveAll id es = es := by
  cases es <;> simp [Expr.moveAll, Expr.move_id, Expr.moveAll_id]

theorem Expr.moveOption_id (e : Option Expr) : Expr.moveOption id e = e := by
  cases e <;> simp [Expr.moveOption, Expr.move_id]

theorem Property.moveAll_id (ps : List Property) : Property.moveAll id ps = ps := by
  cases ps <;> simp [Property.moveAll, Property.move_id, Property.moveAll_id]

theorem Property.move_id (p : Property) : p.move id = p := by
  cases p <;>
    simp [Property.move, Expr.move_id, Expr.moveOption_id, PropertyKey.move_id, Function.move_id]

theorem PropertyKey.move_id (key : PropertyKey) : key.move id = key := by
  cases key <;> simp [PropertyKey.move, Expr.move_id]

theorem Function.move_id (g : Function) : g.move id = g := by
  cases g
  simp [Function.move, Expr.moveAll_id, Stmt.moveAll_id]

theorem Declarator.moveAll_id (ds : List Declarator) : Declarator.moveAll id ds = ds := by
  cases ds <;> simp [Declarator.moveAll, Declarator.move_id, Declarator.moveAll_id]

theorem Declarator.move_id (d : Declarator) : d.move id = d := by
  cases d
  simp [Declarator.move, Expr.move_id, Expr.moveOption_id]

theorem ForHead.move_id (head : ForHead) : head.move id = head := by
  cases head <;> simp [ForHead.move, Expr.move_id, Declarator.moveAll_id]

theorem ForHead.moveOption_id (head : Option ForHead) : ForHead.moveOption id head = head := by
  cases head <;> simp [ForHead.moveOption, ForHead.move_id]

theorem SwitchCase.moveAll_id (ks : List SwitchCase) : SwitchCase.moveAll id ks = ks := by
  cases ks <;> simp [SwitchCase.moveAll, SwitchCase.move_id, SwitchCase.moveAll_id]

theorem SwitchCase.move_id (k : SwitchCase) : k.move id = k := by
  cases k
  simp [SwitchCase.move, Expr.moveOption_id, Stmt.moveAll_id]

theorem CatchClause.move_id (k : CatchClause) : k.move id = k := by
  cases k
  simp [CatchClause.move, Expr.moveOption_id, Stmt.moveAll_id]

theorem CatchClause.moveOption_id (k : Option CatchClause) :
    CatchClause.moveOption id k = k := by
  cases k <;> simp [CatchClause.moveOption, CatchClause.move_id]

theorem Stmt.move_id (s : Stmt) : s.move id = s := by
  cases s <;>
    simp [Stmt.move, Expr.move_id, Expr.moveOption_id, Declarator.moveAll_id, Function.move_id,
      Stmt.moveAll_id, Stmt.move_id, Stmt.moveOption_id, Stmt.moveBody_id, ForHead.move_id,
      ForHead.moveOption_id, CatchClause.moveOption_id, SwitchCase.moveAll_id]

theorem Stmt.moveAll_id (ss : List Stmt) : Stmt.moveAll id ss = ss := by
  cases ss <;> simp [Stmt.moveAll, Stmt.move_id, Stmt.moveAll_id]

theorem Stmt.moveOption_id (s : Option Stmt) : Stmt.moveOption id s = s := by
  cases s <;> simp [Stmt.moveOption, Stmt.move_id]

theorem Stmt.moveBody_id (body : Option (List Stmt)) : Stmt.moveBody id body = body := by
  cases body <;> simp [Stmt.moveBody, Stmt.moveAll_id]

end

mutual

/-- A token, together with its substitutions. -/
theorem Token.move_id : (t : Token) → t.move id = t
  | .mk kind position newline => by rw [Token.move, kind.move_id, id]

theorem TokenKind.move_id (kind : TokenKind) : kind.move id = kind := by
  cases kind with
  | template parts => rw [TokenKind.move, moveParts_id]
  | word | number | string | regex | punct | eof => rfl

theorem moveParts_id (parts : List (List Token)) : moveParts id parts = parts := by
  cases parts with
  | nil => rfl
  | cons part parts => rw [moveParts, moveTokens_id, moveParts_id]

theorem moveTokens_id (ts : List Token) : moveTokens id ts = ts := by
  cases ts with
  | nil => rfl
  | cons t ts => rw [moveTokens, t.move_id, moveTokens_id]

end

end ScriptHooks.Script

/-
ScriptHooks.Proofs.Script.PartHarvests — one level of the walk that builds a symbol tree.

The walk is made of many mutually recursive functions, one for each kind of node and one more
for each list or option of nodes. `Part.harvest` and `Part.gather` put them under two names: what
a part contributes, and what parts contribute one after the other.

`Part.harvest_eq` opens one level: what a part contributes is what the parts directly under it
contribute, in a shell of its own (`Part.shell`). A name adds itself to the uses; an object, a call
and a function wrap what is in them into a node; a construct that could stall the host adds its
issue; an idle method contributes nothing; all else passes on what is under it.

Nothing later opens the walk. That the validator refuses what it should, that names are listed
where they belong and that the symbol tree has the shape of the script each read one field of
this equation, and carry it to the whole program by `Occurrence.walk_reached`.

The lemmas tagged `simp` say what `gather` makes of each list of parts that `Part.below` is made
of. They are the only place where the functions of the walk are matched with the parts.
-/
import ScriptHooks.Proofs.Script.NameOwners
import ScriptHooks.Script.Validation

namespace ScriptHooks.Script

/-! ## Harvests -/

namespace Harvest

variable (a b c : Harvest)

@[simp] theorem mk_nil : (⟨[], [], []⟩ : Harvest) = empty := rfl

@[simp] theorem empty_append : empty ++ a = a := rfl

@[simp] theorem append_empty : a ++ empty = a := by
  obtain ⟨nodes, uses, violations⟩ := a
  exact congr (congr (congrArg mk (List.append_nil _)) (List.append_nil _)) (List.append_nil _)

theorem append_assoc : a ++ b ++ c = a ++ (b ++ c) := by
  change mk (a.nodes ++ b.nodes ++ c.nodes) (a.uses ++ b.uses ++ c.uses)
    (a.violations ++ b.violations ++ c.violations) = _
  rw [List.append_assoc, List.append_assoc, List.append_assoc]
  rfl

@[simp] theorem nodes_append : (a ++ b).nodes = a.nodes ++ b.nodes := rfl

@[simp] theorem uses_append : (a ++ b).uses = a.uses ++ b.uses := rfl

@[simp] theorem violations_append : (a ++ b).violations = a.violations ++ b.violations := rfl

end Harvest

namespace SymbolNode

theorem walk_eq (node : SymbolNode) : node.walk = node :: walkAll node.children := by
  cases node
  rw [walk]
  rfl

theorem walkAll_append (as bs : List SymbolNode) :
    walkAll (as ++ bs) = walkAll as ++ walkAll bs := by
  induction as with
  | nil => rw [walkAll, List.nil_append, List.nil_append]
  | cons a as ih => rw [List.cons_append, walkAll, walkAll, ih, List.append_assoc]

theorem walkAll_flatMap {α : Type} (f : α → List SymbolNode) (xs : List α) :
    walkAll (xs.flatMap f) = xs.flatMap fun x => walkAll (f x) := by
  induction xs with
  | nil => rfl
  | cons x xs ih => rw [List.flatMap_cons, walkAll_append, ih, List.flatMap_cons]

end SymbolNode

/-! ## One level of the walk -/

/-- The construct that a node is, if it could stall the host, as the issue that
reports it. -/
def Branch.refused? : Branch → Option Issue
  | .stmt (.while_ _ _ position) =>
    some ⟨.disallowedConstruct, "'while' loops are not allowed", position⟩
  | .stmt (.doWhile _ _ position) =>
    some ⟨.disallowedConstruct, "'do ... while' loops are not allowed", position⟩
  | .stmt (.with_ _ _ position) =>
    some ⟨.disallowedConstruct, "'with' statements are not allowed", position⟩
  | .stmt (.labeled label _ position) =>
    some ⟨.disallowedConstruct, "labeled statement '" ++ label ++ "' is not allowed", position⟩
  | .stmt (.break_ (some label) position) =>
    some ⟨.disallowedConstruct, "labeled 'break " ++ label ++ "' is not allowed", position⟩
  | .stmt (.continue_ (some label) position) =>
    some ⟨.disallowedConstruct, "labeled 'continue " ++ label ++ "' is not allowed", position⟩
  | _ => none

namespace Part

def harvest : Part → Harvest
  | .expr e => e.harvest
  | .pattern _ e => e.harvestPattern
  | .stmt s => s.harvest
  | .function f => f.harvest
  | .idle _ _ => .empty

/-- What parts contribute, one after the other. -/
def gather : List Part → Harvest
  | [] => .empty
  | p :: ps => p.harvest ++ gather ps

/-- What a part makes of what the parts under it contribute. -/
def shell : Part → Harvest → Harvest
  | .expr (.ident name _), inner => .use name ++ inner
  | .expr (.object _ position), inner => inner.wrap .object none position.line
  | .expr (.call callee _ _ position), inner => inner.wrap .call callee.dottedName position.line
  | .pattern _ (.call callee _ _ position), inner =>
    inner.wrap .call callee.dottedName position.line
  | .stmt s, inner => ⟨[], [], (Branch.refused? (.stmt s)).toList⟩ ++ inner
  | .function (.mk name parameters body isArrow position), inner =>
    inner.close name position.line (Function.mk name parameters body isArrow position).declared
  | .idle _ _, _ => .empty
  | _, inner => inner

@[simp] theorem shell_stmt (s : Stmt) (inner : Harvest) :
    (stmt s).shell inner = ⟨[], [], (Branch.refused? (.stmt s)).toList⟩ ++ inner := rfl

@[simp] theorem shell_function (name : Option String) (parameters : List Expr) (body : List Stmt)
    (isArrow : Bool) (position : Position) (inner : Harvest) :
    (function (.mk name parameters body isArrow position)).shell inner =
      inner.close name position.line
        (Function.mk name parameters body isArrow position).declared := rfl

@[simp] theorem harvest_of_expr (e : Expr) : (expr e).harvest = e.harvest := rfl

@[simp] theorem harvest_of_pattern (declares : Bool) (e : Expr) :
    (pattern declares e).harvest = e.harvestPattern := rfl

@[simp] theorem harvest_of_stmt (s : Stmt) : (stmt s).harvest = s.harvest := rfl

@[simp] theorem harvest_of_function (f : Function) : (function f).harvest = f.harvest := rfl

@[simp] theorem harvest_of_idle (key : PropertyKey) (f : Function) :
    (idle key f).harvest = .empty := rfl

@[simp] theorem gather_nil : gather [] = .empty := rfl

@[simp] theorem gather_cons (p : Part) (ps : List Part) :
    gather (p :: ps) = p.harvest ++ gather ps := rfl

@[simp] theorem gather_append (ps qs : List Part) : gather (ps ++ qs) = gather ps ++ gather qs := by
  induction ps with
  | nil => rfl
  | cons p ps ih => rw [List.cons_append, gather_cons, gather_cons, ih, Harvest.append_assoc]

@[simp] theorem gather_exprs (es : List Expr) : gather (es.map expr) = Expr.harvestAll es := by
  induction es with
  | nil => simp [Expr.harvestAll]
  | cons e es ih => simp [Expr.harvestAll, ih]

@[simp] theorem harvestAll_toList (o : Option Expr) :
    Expr.harvestAll o.toList = Expr.harvestOption o := by
  cases o <;> simp [Expr.harvestAll, Expr.harvestOption]

@[simp] theorem gather_patterns (declares : Bool) (es : List Expr) :
    gather (es.map (pattern declares)) = Expr.harvestPatterns es := by
  induction es with
  | nil => simp [Expr.harvestPatterns]
  | cons e es ih => simp [Expr.harvestPatterns, ih]

@[simp] theorem gather_stmts (ss : List Stmt) : gather (ss.map stmt) = Stmt.harvestAll ss := by
  induction ss with
  | nil => simp [Stmt.harvestAll]
  | cons s ss ih => simp [Stmt.harvestAll, ih]

@[simp] theorem gather_key (key : PropertyKey) : gather (ofKey key) = key.harvest := by
  cases key <;> simp [ofKey, Branch.ofKey, ofBranch, PropertyKey.harvest]

@[simp] theorem gather_properties (ps : List Property) :
    gather (ps.flatMap (ofProperty .expr)) = Property.harvestAll ps := by
  induction ps with
  | nil => simp [Property.harvestAll]
  | cons p ps ih =>
    rw [List.flatMap_cons, gather_append, ih, Property.harvestAll]
    cases p <;> simp [ofProperty, Property.harvest, Expr.harvest]

@[simp] theorem gather_patternProperties (declares : Bool) (ps : List Property) :
    gather (ps.flatMap (ofPatternProperty declares)) = Property.harvestPatterns ps := by
  induction ps with
  | nil => simp [Property.harvestPatterns]
  | cons p ps ih =>
    rw [List.flatMap_cons, gather_append, ih, Property.harvestPatterns]
    cases p <;>
      simp [ofPatternProperty, ofProperty, Property.harvestPattern, Expr.harvestPattern]

@[simp] theorem gather_declarators (ds : List Declarator) :
    gather (ds.flatMap ofDeclarator) = Declarator.harvestAll ds := by
  induction ds with
  | nil => simp [Declarator.harvestAll]
  | cons d ds ih =>
    obtain ⟨target, init⟩ := d
    rw [List.flatMap_cons, gather_append, ih, Declarator.harvestAll]
    simp [ofDeclarator]

@[simp] theorem gather_head (head : Option ForHead) :
    gather (head.toList.flatMap ofHead) = ForHead.harvest head := by
  rcases head with _ | (⟨kind, declarators⟩ | e) <;> simp [ofHead, ForHead.harvest]

@[simp] theorem gather_target (head : ForHead) : gather (ofTarget head) = head.harvestTarget := by
  cases head <;> simp [ofTarget, ForHead.harvestTarget]

@[simp] theorem gather_catch (handler : Option CatchClause) :
    gather (handler.toList.flatMap ofCatch) = CatchClause.harvest handler := by
  rcases handler with _ | ⟨_ | parameter, body⟩ <;> simp [ofCatch, CatchClause.harvest]

@[simp] theorem harvestAll_getD (body : Option (List Stmt)) :
    Stmt.harvestAll (body.getD []) = Stmt.harvestFinally body := by
  cases body <;> simp [Stmt.harvestAll, Stmt.harvestFinally]

@[simp] theorem harvestAll_stmt_toList (s : Option Stmt) :
    Stmt.harvestAll s.toList = Stmt.harvestOption s := by
  cases s <;> simp [Stmt.harvestAll, Stmt.harvestOption]

@[simp] theorem gather_cases (ks : List SwitchCase) :
    gather ((ks.flatMap Branch.ofCase).map ofBranch) = SwitchCase.harvestAll ks := by
  induction ks with
  | nil => simp [SwitchCase.harvestAll]
  | cons k ks ih =>
    rw [List.flatMap_cons, List.map_append, gather_append, ih]
    obtain ⟨_ | test, body⟩ := k <;>
      simp [Branch.ofCase, ofBranch, SwitchCase.harvestAll, Harvest.append_assoc]

theorem harvest_expr (e : Expr) : e.harvest = (expr e).shell (gather (ofExpr e)) := by
  cases e <;> simp [Expr.harvest, ofExpr, Branch.ofExpr, ofBranch, Harvest.append_assoc] <;> rfl

theorem harvest_pattern (declares : Bool) (e : Expr) :
    e.harvestPattern = (pattern declares e).shell (gather (ofPattern declares e)) := by
  cases e with
  | binary operator left right =>
    by_cases h : operator = "=" <;> simp [Expr.harvestPattern, ofPattern, h] <;> rfl
  | _ =>
    simp [Expr.harvestPattern, ofPattern, ofExpr, Branch.ofExpr, ofBranch, Harvest.append_assoc]
    rfl

theorem harvest_stmt (s : Stmt) : s.harvest = (stmt s).shell (gather (ofStmt s)) := by
  cases s with
  | break_ label position | continue_ label position =>
    cases label <;>
      simp [Stmt.harvest, ofStmt, Branch.ofStmt, Branch.refused?, Harvest.violation]
  | _ =>
    simp [Stmt.harvest, ofStmt, Branch.ofStmt, Branch.refused?, ofBranch, Harvest.violation,
      Harvest.append_assoc]

theorem harvest_function (f : Function) :
    f.harvest = (function f).shell (gather (ofFunction f)) := by
  obtain ⟨name, parameters, body, isArrow, position⟩ := f
  simp [Function.harvest, ofFunction, Function.declared]

/-- What a part contributes is what the parts under it contribute, in its shell. -/
theorem harvest_eq (p : Part) : p.harvest = p.shell (gather p.below) := by
  cases p with
  | expr e => exact harvest_expr e
  | pattern declares e => exact harvest_pattern declares e
  | stmt s => exact harvest_stmt s
  | function f => exact harvest_function f
  | idle key f => rfl

/-- Whatever is read off harvests one after the other is read off what parts contribute. -/
theorem flatMap_gather {α : Type} {read : Harvest → List α} (hempty : read .empty = [])
    (happend : ∀ a b, read (a ++ b) = read a ++ read b) (ps : List Part) :
    read (gather ps) = ps.flatMap fun p => read p.harvest := by
  induction ps with
  | nil => exact hempty
  | cons p ps ih => rw [gather_cons, happend, ih, List.flatMap_cons]

theorem uses_gather (ps : List Part) : (gather ps).uses = ps.flatMap (·.harvest.uses) :=
  flatMap_gather rfl Harvest.uses_append ps

theorem violations_gather (ps : List Part) :
    (gather ps).violations = ps.flatMap (·.harvest.violations) :=
  flatMap_gather rfl Harvest.violations_append ps

theorem nodes_gather (ps : List Part) : (gather ps).nodes = ps.flatMap (·.harvest.nodes) :=
  flatMap_gather rfl Harvest.nodes_append ps

theorem walkAll_gather (ps : List Part) :
    SymbolNode.walkAll (gather ps).nodes =
      ps.flatMap fun p => SymbolNode.walkAll p.harvest.nodes := by
  rw [nodes_gather, SymbolNode.walkAll_flatMap]

end Part

end ScriptHooks.Script

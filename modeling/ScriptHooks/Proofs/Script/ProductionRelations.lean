/-
ScriptHooks.Proofs.Script.ProductionRelations — every production keeps what its steps keep.

If the productions that recursion goes through keep a relation of states (`KeepsGrammar`), so does
each production over them: one lemma for each, in the order of the grammar. A level of nesting
keeps it then (`KeepsGrammar.next`), and so the relation holds between the start of a program and
the state that reading it leaves (`StepRelation.ofTokens`).

The proofs follow the text of the productions by the rules of `StateRelations` and have no argument
of their own, with two exceptions:

* a template keeps the relation only from a state in which it comes next, which is why `primary`
  looks at the token first (`templateLiteral`, by `substitutions`);
* object patterns inside each other are an induction on their bound (`objectLiteralWithin`).

Three relations are run through this module: the counters are put back, the cursor moves onward, and
no more issues are recorded than allowed. A production that is added to the grammar needs a lemma
here, and all three hold of it.
-/
import ScriptHooks.Proofs.Script.LoopRounds
import ScriptHooks.Proofs.Script.StateRelations

namespace ScriptHooks.Script

open Parse

namespace StepRelation

/-- The productions that recursion goes through keep the relation. -/
structure KeepsGrammar (R : StepRelation) (g : Grammar) : Prop where
  statement : R.Keeps g.statement
  assignment : R.Keeps g.assignment
  unary : R.Keeps g.unary
  operand (precedence : Nat) : R.Keeps (g.operand precedence)
  innerNew : R.Keeps g.innerNew

namespace KeepsGrammar

variable {R : StepRelation} {g : Grammar}

/-! ## Expressions -/

theorem boundDepth (e : Expr) : R.Keeps (Grammar.boundDepth e) := by
  unfold Grammar.boundDepth
  exact .ite .fail .pure

theorem expression (hg : R.KeepsGrammar g) : R.Keeps g.expression := by
  unfold Grammar.expression
  refine .bind hg.assignment fun first => .peek fun token => .ite ?_ .pure
  refine .bind (.loop fun items => ?_) fun items => .pure
  exact .bind .acceptMark fun taken => .ite (.bind hg.assignment fun item => .pure) .pure

theorem parenthesized (hg : R.KeepsGrammar g) : R.Keeps g.parenthesized := by
  unfold Grammar.parenthesized
  refine .bind .expect fun _ => .bind (.withoutIn hg.expression) fun e => ?_
  exact .bind .expect fun _ => .pure

theorem item (hg : R.KeepsGrammar g) : R.Keeps g.item := by
  unfold Grammar.item
  refine .bind .acceptMark fun taken => .ite ?_ hg.assignment
  exact .bind hg.assignment fun e => .pure

theorem arrayLiteral (hg : R.KeepsGrammar g) : R.Keeps g.arrayLiteral := by
  unfold Grammar.arrayLiteral
  refine .bind .expect fun _ => .withoutIn (.loop fun items => ?_)
  refine .bind .acceptMark fun taken => .ite .pure (.bind .acceptMark fun taken => .ite .pure ?_)
  refine .bind hg.item fun item => .bind .acceptMark fun taken => .ite .pure ?_
  exact .bind .expect fun _ => .pure

/-- Items between commas up to a closing mark. -/
theorem itemsUntil {p : Parse Expr} (hp : R.Keeps p) (close : String) :
    R.Keeps (loop (fun items => do
      if ← acceptMark close then
        return .done items.reverse
      let item ← p
      unless ← acceptMark "," do
        expect close
        return .done (item :: items).reverse
      return .more (item :: items)) []) := by
  refine .loop fun items => .bind .acceptMark fun taken => .ite .pure ?_
  refine .bind hp fun item => .bind .acceptMark fun taken => .ite .pure ?_
  exact .bind .expect fun _ => .pure

theorem arguments (hg : R.KeepsGrammar g) : R.Keeps g.arguments := by
  unfold Grammar.arguments
  exact .bind .expect fun _ => .withoutIn (itemsUntil hg.item ")")

theorem statementsRound (hg : R.KeepsGrammar g) (stop : Token → Bool) (body : List Stmt) :
    R.Keeps (g.statementsRound stop body) := by
  unfold Grammar.statementsRound
  refine .peek fun token => .ite .pure (.bind (.recovering hg.statement) fun r => ?_)
  cases r with
  | some s => exact .pure
  | none => exact .pure

theorem statementsUntil (hg : R.KeepsGrammar g) (stop : Token → Bool) :
    R.Keeps (g.statementsUntil stop) := .loop (hg.statementsRound stop)

theorem block (hg : R.KeepsGrammar g) : R.Keeps g.block := by
  unfold Grammar.block
  refine .bind .expect fun _ => .bind (hg.statementsUntil _) fun body => ?_
  exact .bind .expect fun _ => .pure

/-! ### Patterns and objects -/

theorem propertyKey (hg : R.KeepsGrammar g) : R.Keeps g.propertyKey := by
  unfold Grammar.propertyKey
  refine .peek fun token => ?_
  split
  case h_1 | h_2 | h_3 => exact .bind .pass fun _ => .pure
  case h_4 =>
    exact .bind .pass fun _ => .bind hg.assignment fun key => .bind .expect fun _ => .pure
  case h_5 => exact .failExpecting

theorem propertyName : R.Keeps Grammar.propertyName := by
  unfold Grammar.propertyName
  refine .peek fun token => ?_
  split
  · exact .bind .pass fun _ => .pure
  · exact .ite .unsupported .failExpecting

theorem bindingTargetOver (hg : R.KeepsGrammar g) {objectPattern : Parse Expr}
    (hp : R.Keeps objectPattern) : R.Keeps (g.bindingTargetOver objectPattern) := by
  unfold Grammar.bindingTargetOver
  refine .peek fun token => .ite hg.arrayLiteral (.ite hp ?_)
  split
  · exact .ite .failExpecting (.bind .pass fun _ => .pure)
  · exact .failExpecting

theorem parameter (hg : R.KeepsGrammar g) {target : Parse Expr} (ht : R.Keeps target) :
    R.Keeps (g.parameter target) := by
  unfold Grammar.parameter
  refine .bind .acceptMark fun taken => .ite (.bind ht fun e => .pure) ?_
  refine .bind ht fun pattern => .bind .acceptMark fun taken => .ite ?_ .pure
  exact .bind hg.assignment fun e => .pure

theorem parameters (hg : R.KeepsGrammar g) {target : Parse Expr} (ht : R.Keeps target) :
    R.Keeps (g.parameters target) := by
  unfold Grammar.parameters
  exact itemsUntil (hg.parameter ht) ")"

theorem functionRest (hg : R.KeepsGrammar g) {target : Parse Expr} (ht : R.Keeps target)
    (name : Option String) (position : Position) :
    R.Keeps (g.functionRest target name position) := by
  unfold Grammar.functionRest
  refine .bind .expect fun _ => .bind (hg.parameters ht) fun parameters => ?_
  exact .bind (.insideFunction hg.block) fun body => .pure

theorem propertyRest (hg : R.KeepsGrammar g) {target : Parse Expr} (ht : R.Keeps target)
    (token : Token) (key : PropertyKey) : R.Keeps (g.propertyRest target token key) := by
  unfold Grammar.propertyRest
  refine .bind .acceptMark fun taken => .ite (.bind hg.assignment fun e => .pure) ?_
  refine .peek fun next => .ite (.bind (hg.functionRest ht _ _) fun f => .pure) ?_
  split
  · refine .ite .failExpecting (.bind .acceptMark fun taken => .ite ?_ .pure)
    exact .bind hg.assignment fun e => .pure
  · exact .failExpecting

theorem property (hg : R.KeepsGrammar g) {target : Parse Expr} (ht : R.Keeps target) :
    R.Keeps (g.property target) := by
  unfold Grammar.property
  refine .bind .acceptMark fun taken => .ite (.bind hg.assignment fun e => .pure) ?_
  refine .peek fun token => .ite .unsupported (.tokenAhead fun next => .ite ?_ ?_)
  · refine .bind .pass fun _ => .bind hg.propertyKey fun key => ?_
    exact .bind (hg.functionRest ht _ _) fun f => .pure
  · exact .ite .unsupported (.bind hg.propertyKey fun key => hg.propertyRest ht token key)

theorem objectLiteralOver (hg : R.KeepsGrammar g) {objectPattern : Parse Expr}
    (hp : R.Keeps objectPattern) : R.Keeps (g.objectLiteralOver objectPattern) := by
  unfold Grammar.objectLiteralOver
  refine .peek fun token => .bind .expect fun _ => .withoutIn (.loop fun properties => ?_)
  refine .bind .acceptMark fun taken => .ite .pure ?_
  refine .bind (hg.property (hg.bindingTargetOver hp)) fun property => ?_
  exact .bind .acceptMark fun taken => .ite .pure (.bind .expect fun _ => .pure)

/-- Objects and the patterns in them, by induction on the bound for patterns. -/
theorem objectLiteralWithin (hg : R.KeepsGrammar g) (bound : Nat) :
    R.Keeps (g.objectLiteralWithin bound) := by
  induction bound with
  | zero => exact .unexpected
  | succ bound ih => exact hg.objectLiteralOver ih

theorem objectLiteral (hg : R.KeepsGrammar g) : R.Keeps g.objectLiteral := by
  unfold Grammar.objectLiteral
  exact .get fun s => hg.objectLiteralWithin _

theorem bindingTarget (hg : R.KeepsGrammar g) : R.Keeps g.bindingTarget :=
  hg.bindingTargetOver hg.objectLiteral

/-! ### Functions -/

theorem function (hg : R.KeepsGrammar g) (isDeclaration : Bool) :
    R.Keeps (g.function isDeclaration) := by
  have hrest := hg.functionRest hg.bindingTarget
  unfold Grammar.function
  refine .peek fun start => .bind .pass fun _ => .peek fun token => .ite .unsupported ?_
  exact .ite (.bind .pass fun _ => hrest _ _) (.ite .fail (hrest _ _))

theorem arrowBody (hg : R.KeepsGrammar g) : R.Keeps g.arrowBody := by
  unfold Grammar.arrowBody
  exact .peek fun token => .ite hg.block (.bind hg.assignment fun e => .pure)

theorem arrow (hg : R.KeepsGrammar g) : R.Keeps g.arrow := by
  unfold Grammar.arrow
  refine .peek fun token => ?_
  dsimp only
  split
  · refine .bind .pass fun _ => .bind .pure fun parameters => ?_
    exact .bind .expect fun _ => .bind (.insideFunction hg.arrowBody) fun body => .pure
  · refine .bind .expect fun _ => .bind (hg.parameters hg.bindingTarget) fun parameters => ?_
    exact .bind .expect fun _ => .bind (.insideFunction hg.arrowBody) fun body => .pure

/-! ### Operands -/

theorem substitution (hg : R.KeepsGrammar g) : R.Keeps g.substitution := by
  unfold Grammar.substitution
  refine .isAtEnd fun ended => .ite .fail (.bind hg.expression fun e => ?_)
  exact .isAtEnd fun ended => .ite .pure .unexpected

/-- The substitutions that are read leave their issues, each from the start of its tokens. -/
theorem substitutions (hg : R.KeepsGrammar g) (parts : List (List Token)) (s : ParserState) :
    ∃ inner : List (List Token × ParserState), inner.map Prod.fst <+: parts ∧
      (∀ x ∈ inner, R.rel (.start x.1 s.functionDepth s.nesting) x.2) ∧
      leaves (g.substitutions parts) s =
        { s with issues := s.issues ++ inner.flatMap fun x => x.2.issues } := by
  induction parts generalizing s with
  | nil =>
    refine ⟨[], List.prefix_refl [], List.forall_mem_nil _, ?_⟩
    show s = { s with issues := s.issues ++ [] }
    rw [List.append_nil]
  | cons tokens parts ih =>
    have h := hg.substitution (.start tokens s.functionDepth s.nesting)
    unfold KeepsFrom leaves at h
    rw [Grammar.substitutions, leaves_bind]
    unfold onTokens
    cases hr : g.substitution (.start tokens s.functionDepth s.nesting) with
    | ok e s' =>
      rw [hr] at h
      obtain ⟨inner, hparts, hinner, hs⟩ := ih { s with issues := s.issues ++ s'.issues }
      refine ⟨(tokens, s') :: inner, ?_, List.forall_mem_cons.mpr ⟨h, hinner⟩, ?_⟩
      · exact (List.prefix_cons_inj tokens).mpr hparts
      · refine (leaves_map _ (e :: ·)).trans (hs.trans ?_)
        simp
    | error fault s' =>
      rw [hr] at h
      refine ⟨[(tokens, s')], ?_, List.forall_mem_singleton.mpr h, by simp⟩
      exact (List.prefix_cons_inj tokens).mpr List.nil_prefix

/-- A template that comes next. -/
theorem templateLiteral (hg : R.KeepsGrammar g) {parts : List (List Token)} {s : ParserState}
    (h : s.peek.kind = .template parts) : R.KeepsFrom (g.templateLiteral parts) s := by
  obtain ⟨inner, hparts, hinner, hs⟩ := hg.substitutions parts s.pass
  have hleaves : leaves (g.templateLiteral parts) s = leaves (g.substitutions parts) s.pass :=
    leaves_map s.pass Expr.template
  rw [KeepsFrom, hleaves, hs]
  exact R.template h hparts hinner

theorem primaryWord (hg : R.KeepsGrammar g) (name : String) (position : Position) :
    R.Keeps (g.primaryWord name position) := by
  unfold Grammar.primaryWord
  split
  · exact .bind (hg.function false) fun f => .pure
  iterate 4 exact .bind .pass fun _ => .pure
  iterate 4 exact .unsupported
  exact .tokenAhead fun next => .ite .unsupported (.ite .fail (.bind .pass fun _ => .pure))

theorem primary (hg : R.KeepsGrammar g) : R.Keeps g.primary := by
  intro s
  unfold Grammar.primary
  refine .peek ?_
  split
  case h_1 => exact hg.primaryWord _ _ s
  case h_2 | h_3 | h_4 => exact KeepsFrom.bind (Keeps.pass s) fun _ => .pure
  case h_5 parts h => exact hg.templateLiteral h
  case h_6 => exact Keeps.fail s
  case h_7 =>
    refine KeepsFrom.bind (Keeps.pass s) fun _ => .bind (.withoutIn hg.expression) fun e => ?_
    exact .bind .expect fun _ => .pure
  case h_8 => exact hg.arrayLiteral s
  case h_9 => exact hg.objectLiteral s
  case h_10 => exact Keeps.unexpected s

/-! ### Chains -/

theorem computedProperty (hg : R.KeepsGrammar g) : R.Keeps g.computedProperty := by
  unfold Grammar.computedProperty
  exact .bind (.withoutIn hg.expression) fun e => .bind .expect fun _ => .pure

theorem newLinks (hg : R.KeepsGrammar g) (room : Nat) (callee : Expr) :
    R.Keeps (g.newLinks room callee) := by
  induction room generalizing callee with
  | zero => exact .pure
  | succ room ih =>
    unfold Grammar.newLinks
    refine .bind .acceptMark fun taken => .ite (.bind propertyName fun _ => ih _) ?_
    refine .bind .acceptMark fun taken => .ite (.bind hg.computedProperty fun _ => ih _) .pure

theorem newExpression (hg : R.KeepsGrammar g) : R.Keeps g.newExpression := by
  have hrest : ∀ first position, R.Keeps (do
      let callee ← g.newLinks maxChain first
      let args ← if (← peek).isMark "(" then g.arguments else pure []
      Grammar.boundDepth (.call callee args true position)) := by
    refine fun first position => .bind (hg.newLinks _ _) fun callee => .peek fun next => .ite ?_ ?_
    · exact .bind hg.arguments fun args => boundDepth _
    · exact .bind .pure fun args => boundDepth _
  unfold Grammar.newExpression
  refine .peek fun start => .bind .pass fun _ => .peek fun token => .ite .unsupported ?_
  refine .peek fun token => .ite ?_ ?_
  · exact .bind hg.innerNew fun first => hrest first _
  · exact .bind hg.primary fun first => hrest first _

theorem link (hg : R.KeepsGrammar g) (e : Expr) : R.Keeps (g.link e) := by
  intro s
  unfold Grammar.link
  refine .peek (.ifMark (.bind propertyName fun _ => .pure) (.ifMark ?_ (.ifMark ?_ (.ite ?_ ?_))))
  · refine .peek fun token => .ite (.bind hg.arguments fun _ => .pure) ?_
    refine .bind .acceptMark fun taken => .ite (.bind hg.computedProperty fun _ => .pure) ?_
    exact .bind propertyName fun _ => .pure
  · exact .bind hg.computedProperty fun _ => .pure
  · exact fun _ => KeepsFrom.bind (hg.arguments s) fun _ => .pure
  · intro _
    split
    · rename_i h
      exact KeepsFrom.bind (hg.templateLiteral h) fun _ => .pure
    · exact Keeps.pure s

/-- The links of a chain, by induction on the room there is for them. -/
theorem links (hg : R.KeepsGrammar g) (room : Nat) (linked : Bool) (e : Expr) :
    R.Keeps (g.links room linked e) := by
  induction room generalizing linked e with
  | zero => exact .fail
  | succ room ih =>
    unfold Grammar.links
    refine .bind (hg.link e) fun r => ?_
    cases r with
    | some e => exact ih true e
    | none => exact .ite (boundDepth e) .pure

theorem chain (hg : R.KeepsGrammar g) : R.Keeps g.chain := by
  unfold Grammar.chain
  refine .peek fun token => .ite ?_ ?_
  · exact .bind hg.newExpression fun first => hg.links _ _ _
  · exact .bind hg.primary fun first => hg.links _ _ _

/-! ### Operators -/

theorem unaryInner (hg : R.KeepsGrammar g) : R.Keeps g.unaryInner := by
  unfold Grammar.unaryInner
  refine .peek fun token => .ite .unsupported ?_
  split
  · exact .bind .pass fun _ => .bind hg.unary fun e => .pure
  · refine .bind hg.chain fun e => .peek fun next => .ite ?_ .pure
    exact .bind .pass fun _ => .pure

theorem nextOperator (precedence : Nat) : R.Keeps (Grammar.nextOperator precedence) := by
  unfold Grammar.nextOperator
  exact .get fun s => .pure

/-- The operators behind an operand, by induction on the room there is for them. -/
theorem operators (hg : R.KeepsGrammar g) (precedence room : Nat) (chained : Bool) (left : Expr) :
    R.Keeps (g.operators precedence room chained left) := by
  induction room generalizing chained left with
  | zero =>
    unfold Grammar.operators
    refine .bind (nextOperator precedence) fun r => ?_
    cases r with
    | none => exact .ite (boundDepth left) .pure
    | some entry => exact .fail
  | succ room ih =>
    unfold Grammar.operators
    refine .bind (nextOperator precedence) fun r => ?_
    cases r with
    | none => exact .ite (boundDepth left) .pure
    | some entry => exact .bind .pass fun _ => .bind (hg.operand _) fun right => ih true _

theorem binary (hg : R.KeepsGrammar g) (precedence : Nat) : R.Keeps (g.binary precedence) := by
  unfold Grammar.binary
  exact .bind hg.unary fun left => hg.operators _ _ _ _

theorem conditional (hg : R.KeepsGrammar g) : R.Keeps g.conditional := by
  unfold Grammar.conditional
  refine .bind (hg.binary 1) fun test => .bind .acceptMark fun taken => .ite ?_ .pure
  refine .bind (.withoutIn hg.assignment) fun consequent => .bind .expect fun _ => ?_
  exact .bind hg.assignment fun alternate => .pure

theorem assignmentInner (hg : R.KeepsGrammar g) : R.Keeps g.assignmentInner := by
  unfold Grammar.assignmentInner
  refine .get fun s => .ite hg.arrow (.bind hg.conditional fun left => .peek fun token => ?_)
  split
  · exact .ite (.bind .pass fun _ => .bind hg.assignment fun right => .pure) .pure
  · exact .pure

/-! ## Statements -/

theorem declarator (hg : R.KeepsGrammar g) : R.Keeps g.declarator := by
  unfold Grammar.declarator
  refine .bind hg.bindingTarget fun target => .bind .acceptMark fun taken => .ite ?_ .pure
  exact .bind hg.assignment fun e => .pure

theorem declarators (hg : R.KeepsGrammar g) : R.Keeps g.declarators := by
  unfold Grammar.declarators
  refine .bind .pass fun _ => .loop fun taken => .bind hg.declarator fun d => ?_
  exact .bind .acceptMark fun next => .ite .pure .pure

theorem declaration (hg : R.KeepsGrammar g) (kind : VarKind) : R.Keeps (g.declaration kind) := by
  unfold Grammar.declaration
  exact .bind hg.declarators fun ds => .bind .semicolon fun _ => .pure

theorem expressionStatement (hg : R.KeepsGrammar g) : R.Keeps g.expressionStatement := by
  unfold Grammar.expressionStatement
  exact .bind hg.expression fun e => .bind .semicolon fun _ => .pure

theorem ifStatement (hg : R.KeepsGrammar g) : R.Keeps g.ifStatement := by
  unfold Grammar.ifStatement
  refine .bind .pass fun _ => .bind hg.parenthesized fun test => .bind hg.statement fun c => ?_
  exact .bind .eatWord fun taken => .ite (.bind hg.statement fun a => .pure) .pure

theorem forHead (hg : R.KeepsGrammar g) : R.Keeps g.forHead := by
  unfold Grammar.forHead
  refine .withoutIn (.get fun s => ?_)
  split
  · exact .bind hg.declarators fun ds => .pure
  · exact .bind hg.expression fun e => .pure

theorem forSubject (hg : R.KeepsGrammar g) : R.Keeps g.forSubject := by
  unfold Grammar.forSubject
  exact .bind .eatWord fun taken => .ite hg.assignment (.bind .pass fun _ => hg.expression)

theorem forInRest (hg : R.KeepsGrammar g) (head : ForHead) : R.Keeps (g.forInRest head) := by
  unfold Grammar.forInRest
  refine .bind hg.forSubject fun subject => .bind .expect fun _ => ?_
  exact .bind hg.statement fun body => .pure

/-- An expression that is left out or not, and what follows it. -/
theorem expressionUnless (hg : R.KeepsGrammar g) (absent : Prop) [Decidable absent]
    {k : Option Expr → Parse β} (hk : ∀ e, R.Keeps (k e)) :
    R.Keeps (if absent then pure none >>= k else (some <$> g.expression) >>= k) :=
  .ite (.bind .pure hk) (.bind (.map hg.expression) hk)

theorem forRest (hg : R.KeepsGrammar g) (init : Option ForHead) : R.Keeps (g.forRest init) := by
  unfold Grammar.forRest
  refine .bind .expect fun _ => .peek fun next => hg.expressionUnless _ fun test => ?_
  refine .bind .expect fun _ => .peek fun next => hg.expressionUnless _ fun update => ?_
  exact .bind .expect fun _ => .bind hg.statement fun body => .pure

theorem forStatement (hg : R.KeepsGrammar g) : R.Keeps g.forStatement := by
  unfold Grammar.forStatement
  refine .bind .pass fun _ => .peek fun token => .ite .unsupported (.bind .expect fun _ => ?_)
  refine .peek fun next => .ite (hg.forRest none) (.bind hg.forHead fun head => ?_)
  exact .peek fun next => .ite (hg.forInRest head) (hg.forRest (some head))

theorem whileStatement (hg : R.KeepsGrammar g) (position : Position) :
    R.Keeps (g.whileStatement position) := by
  unfold Grammar.whileStatement
  refine .bind .pass fun _ => .bind hg.parenthesized fun test => ?_
  exact .bind hg.statement fun body => .pure

theorem doStatement (hg : R.KeepsGrammar g) (position : Position) :
    R.Keeps (g.doStatement position) := by
  unfold Grammar.doStatement
  refine .bind .pass fun _ => .bind hg.statement fun body => .bind .expectWord fun _ => ?_
  exact .bind hg.parenthesized fun test => .bind .acceptMark fun _ => .pure

theorem withStatement (hg : R.KeepsGrammar g) (position : Position) :
    R.Keeps (g.withStatement position) := by
  unfold Grammar.withStatement
  refine .bind .pass fun _ => .bind hg.parenthesized fun object => ?_
  exact .bind hg.statement fun body => .pure

/-! ### Blocks with clauses -/

theorem catchClause (hg : R.KeepsGrammar g) : R.Keeps g.catchClause := by
  unfold Grammar.catchClause
  refine .bind .acceptMark fun taken => .ite ?_ (.bind hg.block fun body => .pure)
  refine .bind hg.bindingTarget fun target => .bind .expect fun _ => ?_
  exact .bind hg.block fun body => .pure

/-- What follows the handler of a `try`. -/
theorem finalizer (hg : R.KeepsGrammar g) (body : List Stmt) (handler : Option CatchClause) :
    R.Keeps (do
      let finalizer ← if ← eatWord "finally" then some <$> g.block else pure none
      if handler.isNone && finalizer.isNone then
        fail "'try' without 'catch' or 'finally'"
      else return Stmt.try_ body handler finalizer) := by
  refine .bind .eatWord fun taken => .ite ?_ ?_
  · exact .bind (.map hg.block) fun finalizer => .ite .fail .pure
  · exact .bind .pure fun finalizer => .ite .fail .pure

theorem tryStatement (hg : R.KeepsGrammar g) : R.Keeps g.tryStatement := by
  unfold Grammar.tryStatement
  refine .bind .pass fun _ => .bind hg.block fun body => .bind .eatWord fun taken => .ite ?_ ?_
  · exact .bind (.map hg.catchClause) fun handler => hg.finalizer body handler
  · exact .bind .pure fun handler => hg.finalizer body handler

theorem caseTest (hg : R.KeepsGrammar g) : R.Keeps g.caseTest := by
  unfold Grammar.caseTest
  refine .bind .eatWord fun taken => .ite (.bind hg.expression fun e => .pure) ?_
  exact .bind .eatWord fun taken => .ite .pure .failExpecting

theorem switchCase (hg : R.KeepsGrammar g) : R.Keeps g.switchCase := by
  unfold Grammar.switchCase
  refine .bind hg.caseTest fun test => .bind .expect fun _ => ?_
  exact .bind (hg.statementsUntil _) fun body => .pure

theorem switchRound (hg : R.KeepsGrammar g) (discriminant : Expr) (cases : List SwitchCase) :
    R.Keeps (g.switchRound discriminant cases) := by
  unfold Grammar.switchRound
  refine .bind .acceptMark fun taken => .ite .pure ?_
  exact .bind hg.switchCase fun case => .isAtEnd fun ended => .ite .fail .pure

theorem switchStatement (hg : R.KeepsGrammar g) : R.Keeps g.switchStatement := by
  rw [Grammar.switchStatement_eq]
  refine .bind .pass fun _ => .bind hg.parenthesized fun discriminant => .bind .expect fun _ => ?_
  exact .loop (hg.switchRound discriminant)

theorem jumpLabel : R.Keeps Grammar.jumpLabel := by
  unfold Grammar.jumpLabel
  exact .peek fun token => .ite (.bind .pass fun _ => .pure) .pure

theorem returnStatement (hg : R.KeepsGrammar g) : R.Keeps g.returnStatement := by
  unfold Grammar.returnStatement
  refine .get fun s => .ite .fail (.bind .pass fun _ => .peek fun next => ?_)
  exact hg.expressionUnless _ fun argument => .bind .semicolon fun _ => .pure

theorem throwStatement (hg : R.KeepsGrammar g) : R.Keeps g.throwStatement := by
  unfold Grammar.throwStatement
  refine .bind .pass fun _ => .peek fun next => .ite .fail (.bind hg.expression fun e => ?_)
  exact .bind .semicolon fun _ => .pure

theorem wordStatement (hg : R.KeepsGrammar g) (name : String) (position : Position) :
    R.Keeps (g.wordStatement name position) := by
  unfold Grammar.wordStatement
  split
  · exact hg.declaration .var
  · exact hg.declaration .const
  · exact .bind (hg.function true) fun f => .pure
  · exact hg.ifStatement
  · exact hg.forStatement
  · exact hg.whileStatement position
  · exact hg.doStatement position
  · exact hg.withStatement position
  · exact hg.returnStatement
  · exact hg.throwStatement
  · exact hg.tryStatement
  · exact hg.switchStatement
  iterate 2
    exact .bind .pass fun _ => .bind jumpLabel fun label => .bind .semicolon fun _ => .pure
  · exact .bind .pass fun _ => .bind .semicolon fun _ => .pure
  iterate 3 exact .unsupported
  refine .get fun s => .ite (hg.declaration .let_) (.ite .unsupported (.ite ?_ ?_))
  · exact .bind .pass fun _ => .bind .pass fun _ => .bind hg.statement fun body => .pure
  · exact hg.expressionStatement

theorem statementInner (hg : R.KeepsGrammar g) : R.Keeps g.statementInner := by
  unfold Grammar.statementInner
  refine .peek fun token => .ite (.bind hg.block fun body => .pure) (.ite ?_ ?_)
  · exact .bind .pass fun _ => .pure
  split
  · exact hg.wordStatement _ _
  · exact hg.expressionStatement

/-! ## Levels -/

/-- Without a level nothing is done. -/
theorem exhausted : R.KeepsGrammar Grammar.exhausted where
  statement := .fail
  assignment := .fail
  unary := .fail
  operand := fun _ => .fail
  innerNew := .fail

/-- One more level. -/
theorem next (hg : R.KeepsGrammar g) : R.KeepsGrammar g.next where
  statement := .nested hg.statementInner
  assignment := .nested hg.assignmentInner
  unary := .nested hg.unaryInner
  operand := fun precedence => .nested (hg.binary precedence)
  innerNew := .nested hg.newExpression

/-- Any number of levels. -/
theorem levels (R : StepRelation) (levels : Nat) : R.KeepsGrammar (Grammar.levels levels) := by
  induction levels with
  | zero => exact exhausted
  | succ levels ih => exact ih.next

theorem programRound (hg : R.KeepsGrammar g) (body : List Stmt) :
    R.Keeps (g.programRound body) := by
  intro s
  unfold Grammar.programRound
  refine KeepsFrom.ite (fun _ => Keeps.pure s) fun _ => .ite (fun _ => ?_) fun _ => ?_
  · exact .set (R.trans (R.noting s s.unexpected) (R.pass _)) .pure
  · refine KeepsFrom.bind (Keeps.recovering hg.statement s) fun r => ?_
    cases r with
    | some statement => exact .pure
    | none => exact .pure

/-- Whole programs. -/
theorem program (hg : R.KeepsGrammar g) : R.Keeps g.program := .loop hg.programRound

end KeepsGrammar

/-- Between the start of a program and the state that reading it leaves, the relation holds. -/
theorem ofTokens (R : StepRelation) (tokens : List Token) :
    ∃ s, R.rel (.start tokens 0 0) s ∧ (Program.ofTokens tokens).2 = s.issues := by
  have h := (KeepsGrammar.levels R (maxNesting + 1)).program (.start tokens 0 0)
  unfold KeepsFrom leaves at h
  unfold Program.ofTokens Grammar.full
  split
  · rename_i hr
    rw [hr] at h
    exact ⟨_, h, rfl⟩
  · rename_i hr
    rw [hr] at h
    exact ⟨_, R.trans h (R.noting _ _), rfl⟩

end StepRelation

end ScriptHooks.Script

/-
ScriptHooks.Proofs.Script.ReturnPlacement — every `return` of a program lies in the body of a
function.

A part leaks a `return` if one stands in it outside the bodies of all functions in it
(`Part.Leaks`). Expressions, patterns and functions leak none, whatever is in them: they reach
statements only through the body of a function (`isStmt_of_leaks`). So only statements have to be
looked at, and a statement is `Sealed` if it is no `return` and the statements under it are sealed;
there is one lemma for each form of statement.

A statement that is read while no function is open leaks none either, because a `return` is a fault
there and no production leaves a function open. `Outside p P` says both of a production: from a
state with no function open it leaves none open, and each value it gives has the property. The first
half is `StepRelation.sameCounters`, which holds of every production; the second follows the text of
the productions for statements. Productions for expressions need no lemma.

So the statements of a program leak none, with or without issues, and then each `return` at any
place of the program has a function around it (`Program.returns_inside_functions`). Which function,
and that it is its body the `return` stands in, is found along the way from the root to the place
(`Occurrence.exists_body`).
-/
import ScriptHooks.Proofs.Script.SymbolOutline
import ScriptHooks.Proofs.Script.ParserCounters
import ScriptHooks.Proofs.Script.ParseResults
import ScriptHooks.Proofs.Script.StatementSoundness

namespace ScriptHooks.Script

open Parse

def Function.body : Function → List Stmt
  | .mk _ _ body _ _ => body

def CatchClause.body : CatchClause → List Stmt
  | .mk _ body => body

def SwitchCase.body : SwitchCase → List Stmt
  | .mk _ body => body

/-! ## Leaks -/

namespace Part

/-- A `return` stands in the part, outside the bodies of all functions in it. -/
inductive Leaks : Part → Prop
  | return_ (argument : Option Expr) : Leaks (.stmt (.return_ argument))
  | under {p c : Part} (hc : c ∈ p.below)
      (hbody : ∀ f s, p = .function f → c ≠ .stmt s) (h : Leaks c) : Leaks p

def isStmt : Part → Bool
  | .stmt _ => true
  | _ => false

variable {p c : Part}

@[simp] theorem isStmt_expr (e : Expr) : (expr e).isStmt = false := rfl

@[simp] theorem isStmt_pattern (declares : Bool) (e : Expr) :
    (pattern declares e).isStmt = false := rfl

@[simp] theorem isStmt_function (f : Function) : (function f).isStmt = false := rfl

/-- No statement stands directly under an expression. -/
theorem any_isStmt_ofExpr (e : Expr) : (ofExpr e).any isStmt = false :=
  any_ofExpr (fun _ => rfl) (fun _ => rfl) e

/-- Nor does one under a pattern. -/
theorem any_isStmt_ofPattern (declares : Bool) (e : Expr) :
    (ofPattern declares e).any isStmt = false := by
  cases e with
  | object properties position =>
    rw [ofPattern, List.any_flatMap, List.any_eq_false]
    intro property _
    have hvalues : ∀ property, (ofProperty (pattern declares) property).any isStmt = false :=
      any_ofProperty (fun _ => rfl) (fun _ => rfl) fun _ => rfl
    cases property <;> simp only [ofPatternProperty, hvalues] <;> simp [isStmt]
  | binary operator left right =>
    by_cases h : operator = "=" <;> simp [ofPattern, h]
  | array | spread => simp [ofPattern]
  | _ => simp only [ofPattern, any_isStmt_ofExpr]

/-- Of parts without statements none is a statement. -/
theorem isStmt_of_mem {ps : List Part} (h : ps.any isStmt = false) (hc : c ∈ ps) :
    c.isStmt = false := Bool.eq_false_iff.mpr (List.any_eq_false.mp h c hc)

/-- Only statements leak: what is under an expression or a pattern is no statement, and the
statements under a function are its body. -/
theorem isStmt_of_leaks (h : p.Leaks) : p.isStmt = true := by
  induction h with
  | return_ argument => rfl
  | @under p c hc hbody _ ih =>
    cases p with
    | expr e => exact absurd ((isStmt_of_mem (any_isStmt_ofExpr e) hc).symm.trans ih) nofun
    | pattern declares e =>
      exact absurd ((isStmt_of_mem (any_isStmt_ofPattern declares e) hc).symm.trans ih) nofun
    | stmt s => rfl
    | function f =>
      cases c with
      | stmt s => exact absurd rfl (hbody f s rfl)
      | _ => cases ih
    | idle key f =>
      have hunder := any_ofProperty (fun _ => rfl) (fun _ => rfl) isStmt_expr (.method key f)
      exact absurd ((isStmt_of_mem hunder hc).symm.trans ih) nofun

end Part

namespace Stmt

/-- No `return` stands in the statement outside the bodies of the functions in it. -/
def Sealed (s : Stmt) : Prop := ¬(Part.stmt s).Leaks

/-- A statement is sealed if it is no `return` and the statements under it are sealed. -/
theorem Sealed.of_under {s : Stmt} (hreturn : ∀ argument, s ≠ .return_ argument)
    (hunder : ∀ t, Part.stmt t ∈ Part.ofStmt s → t.Sealed) : s.Sealed := by
  intro hleaks
  cases hleaks with
  | return_ argument => exact hreturn argument rfl
  | @under _ c hc _ hleaks =>
    have hc : c ∈ Part.ofStmt s := hc
    cases c with
    | stmt t => exact hunder t hc hleaks
    | _ => cases Part.isStmt_of_leaks hleaks

section Sealed

variable {body : Stmt} {stmts : List Stmt} {position : Position}

@[simp] theorem stmt_notMem_ofDeclarator (t : Stmt) (d : Declarator) :
    Part.stmt t ∉ Part.ofDeclarator d := by
  cases d
  simp [Part.ofDeclarator]

/-- Declarations have expressions and patterns under them. -/
theorem sealed_declare (kind : VarKind) (ds : List Declarator) : (declare kind ds).Sealed :=
  .of_under nofun (by simp [Part.ofStmt])

/-- What stands in the body of a function is no concern of the statement that declares it. -/
theorem sealed_function (f : Function) : (function f).Sealed :=
  .of_under nofun (by simp [Part.ofStmt])

theorem sealed_expr (e : Expr) : (expr e).Sealed :=
  .of_under nofun (by simp [Part.ofStmt, Branch.ofStmt, Part.ofBranch])

theorem sealed_empty : empty.Sealed := .of_under nofun (by simp [Part.ofStmt, Branch.ofStmt])

theorem sealed_break (label : Option String) : (break_ label position).Sealed :=
  .of_under nofun (by simp [Part.ofStmt, Branch.ofStmt])

theorem sealed_continue (label : Option String) : (continue_ label position).Sealed :=
  .of_under nofun (by simp [Part.ofStmt, Branch.ofStmt])

theorem sealed_throw (argument : Expr) : (throw_ argument).Sealed :=
  .of_under nofun (by simp [Part.ofStmt, Branch.ofStmt, Part.ofBranch])

/-- Blocks of sealed statements. -/
theorem sealed_block (h : ∀ t ∈ stmts, t.Sealed) : (block stmts).Sealed :=
  .of_under nofun (by simpa [Part.ofStmt, Branch.ofStmt, Part.ofBranch] using h)

/-- A choice between sealed statements. -/
theorem sealed_if {test : Expr} {consequent : Stmt} {alternate : Option Stmt}
    (hc : consequent.Sealed) (ha : ∀ t ∈ alternate, t.Sealed) :
    (if_ test consequent alternate).Sealed :=
  .of_under nofun (by simpa [Part.ofStmt, Branch.ofStmt, Part.ofBranch] using ⟨hc, ha⟩)

theorem sealed_for {init : Option ForHead} {test update : Option Expr} (h : body.Sealed) :
    (for_ init test update body).Sealed := by
  refine .of_under nofun ?_
  rcases init with _ | ⟨kind, ds⟩ | e <;>
    simpa [Part.ofStmt, Part.ofHead] using h

theorem sealed_forIn {head : ForHead} {subject : Expr} (h : body.Sealed) :
    (forIn head subject body).Sealed := by
  refine .of_under nofun ?_
  cases head <;> simpa [Part.ofStmt, Part.ofTarget] using h

theorem sealed_while {test : Expr} (h : body.Sealed) : (while_ test body position).Sealed :=
  .of_under nofun (by simpa [Part.ofStmt, Branch.ofStmt, Part.ofBranch] using h)

theorem sealed_doWhile {test : Expr} (h : body.Sealed) : (doWhile body test position).Sealed :=
  .of_under nofun (by simpa [Part.ofStmt, Branch.ofStmt, Part.ofBranch] using h)

theorem sealed_with {object : Expr} (h : body.Sealed) : (with_ object body position).Sealed :=
  .of_under nofun (by simpa [Part.ofStmt, Branch.ofStmt, Part.ofBranch] using h)

theorem sealed_labeled {label : String} (h : body.Sealed) :
    (labeled label body position).Sealed :=
  .of_under nofun (by simpa [Part.ofStmt, Branch.ofStmt, Part.ofBranch] using h)

/-- Statements, a handler and a finalizer, all sealed. -/
theorem sealed_try {handler : Option CatchClause} {finalizer : Option (List Stmt)}
    (hb : ∀ t ∈ stmts, t.Sealed) (hh : ∀ k ∈ handler, ∀ t ∈ k.body, t.Sealed)
    (hf : ∀ body ∈ finalizer, ∀ t ∈ body, t.Sealed) : (try_ stmts handler finalizer).Sealed := by
  refine .of_under nofun ?_
  intro t ht
  simp only [Part.ofStmt, List.mem_append, List.mem_map, List.mem_flatMap, Option.mem_toList] at ht
  obtain (⟨u, hu, heq⟩ | ⟨⟨parameter, body⟩, hk, ht⟩) | ⟨u, hu, heq⟩ := ht
  · cases heq
    exact hb t hu
  · have ht : t ∈ body := by simpa [Part.ofCatch] using ht
    exact hh _ hk t ht
  · cases heq
    cases finalizer with
    | none => cases hu
    | some body => exact hf body rfl t hu

/-- The statements of all cases. -/
theorem sealed_switch {discriminant : Expr} {cases : List SwitchCase}
    (h : ∀ k ∈ cases, ∀ t ∈ k.body, t.Sealed) : (switch discriminant cases).Sealed := by
  refine .of_under nofun ?_
  intro t ht
  simp only [Part.ofStmt, Branch.ofStmt, List.map_cons, List.mem_cons, List.mem_map,
    List.mem_flatMap] at ht
  obtain heq | ⟨b, ⟨⟨test, body⟩, hk, hb⟩, heq⟩ := ht
  · cases heq
  · have hbody : ∀ u, Branch.stmt u ∈ Branch.ofCase (.mk test body) → u ∈ body := by
      simp [Branch.ofCase]
    cases b with
    | expr e => cases heq
    | stmt u =>
      cases heq
      exact h _ hk t (hbody t hb)

end Sealed

end Stmt

/-! ## Outside of functions -/

/-- While no function is open, the production opens none for what comes after it, and each value
that it gives has the property. -/
def Outside (p : Parse α) (P : α → Prop) : Prop :=
  ∀ s, s.functionDepth = 0 →
    (leaves p s).functionDepth = 0 ∧ ∀ a s', p s = .ok a s' → P a

namespace Outside

variable {α β σ : Type} {p q : Parse α} {f : α → Parse β} {P Q : α → Prop} {T : β → Prop}

/-- A production whose values have the property anywhere. -/
theorem of_yields (hk : StepRelation.sameCounters.Keeps p) (hy : Yields p P) : Outside p P :=
  fun s hs => ⟨(hk s).functionDepth.trans hs, fun a s' hr => hy s a s' hr⟩

/-- A production whose value is of no account. -/
theorem of_keeps (hk : StepRelation.sameCounters.Keeps p) : Outside p fun _ => True :=
  of_yields hk fun _ _ _ _ => trivial

theorem pure {a : α} (h : P a) : Outside (Pure.pure a) P := of_yields .pure (.pure h)

theorem fail {message : String} : Outside (Parse.fail message) P := of_yields .fail .fail

theorem bind (hp : Outside p P) (hf : ∀ a, P a → Outside (f a) T) : Outside (p >>= f) T := by
  intro s hs
  obtain ⟨hleft, hvalue⟩ := hp s hs
  rw [leaves_bind]
  unfold leaves at hleft
  simp only [Bind.bind, EStateM.bind]
  cases hr : p s with
  | ok a mid =>
    rw [hr] at hleft
    exact hf a (hvalue a mid hr) mid hleft
  | error fault mid =>
    rw [hr] at hleft
    exact ⟨hleft, nofun⟩

/-- A sequence whose first step gives whatever one likes. -/
theorem after (hk : StepRelation.sameCounters.Keeps p) (hf : ∀ a, Outside (f a) T) :
    Outside (p >>= f) T := (of_keeps hk).bind fun a _ => hf a

theorem ite {c : Prop} [Decidable c] (hy : Outside p P) (hn : Outside q P) :
    Outside (if c then p else q) P := by
  split
  case isTrue => exact hy
  case isFalse => exact hn

theorem map {g : α → β} (hp : Outside p fun a => T (g a)) : Outside (g <$> p) T := by
  intro s hs
  obtain ⟨hleft, hvalue⟩ := hp s hs
  rw [leaves_map]
  refine ⟨hleft, fun b s' hr => ?_⟩
  simp only [Functor.map, EStateM.map] at hr
  split at hr
  case h_1 a mid hmid =>
    cases hr
    exact hvalue a _ hmid
  case h_2 => cases hr

theorem mono (hp : Outside p Q) (h : ∀ a, Q a → P a) : Outside p P :=
  fun s hs => ⟨(hp s hs).1, fun a s' hr => h a ((hp s hs).2 a s' hr)⟩

theorem peek {f : Token → Parse β} (hf : ∀ t, Outside (f t) T) : Outside (peek >>= f) T :=
  fun s => hf s.peek s

/-- The state may be looked at: no function is open in it. -/
theorem get {f : ParserState → Parse β} (hf : ∀ s, s.functionDepth = 0 → Outside (f s) T) :
    Outside (get >>= f) T := fun s hs => hf s hs s hs

theorem set {f : PUnit → Parse β} {s' : ParserState} (h : s'.functionDepth = 0)
    (hf : Outside (f ⟨⟩) T) : Outside (set s' >>= f) T := fun _ _ => hf s' h

theorem nested (hp : Outside p P) : Outside (nested p) P := by
  intro s hs
  obtain ⟨hleft, hvalue⟩ := hp { s with nesting := s.nesting + 1 } hs
  refine ⟨?_, fun a s' hr => ?_⟩
  · rw [leaves_nested]
    split
    · exact hs
    · exact hleft
  · unfold Parse.nested at hr
    split at hr
    · cases hr
    · split at hr
      case h_1 b mid hmid =>
        cases hr
        exact hvalue a mid hmid
      case h_2 => cases hr

/-- After a fault as well, no function is open. -/
theorem recovering (hk : StepRelation.sameCounters.Keeps p) (hp : Outside p P) :
    Outside (recovering p) fun r => ∀ a ∈ r, P a := by
  intro s hs
  refine ⟨(StepRelation.Keeps.recovering hk s).functionDepth.trans hs, fun r s' hr => ?_⟩
  unfold Parse.recovering at hr
  split at hr
  case h_1 a mid hmid =>
    cases hr
    exact fun b hb => Option.mem_some.mp hb ▸ (hp s hs).2 a _ hmid
  case h_2 fault mid hmid =>
    cases hr
    exact nofun

/-- A loop whose steps add to a list, or leave it as it is. -/
theorem gather {step : List α → Parse (Step (List α) β)}
    (hstep : ∀ xs : List α, (∀ x ∈ xs, P x) →
      Outside (step xs) (Yields.Keeps (fun xs => ∀ x ∈ xs, P x) T)) :
    Outside (loop step []) T := by
  have hrounds : ∀ fuel (xs : List α), (∀ x ∈ xs, P x) → Outside (rounds step fuel xs) T := by
    intro fuel
    induction fuel with
    | zero => exact fun _ _ => of_yields .unexpected .unexpected
    | succ fuel ih =>
      intro xs hxs
      rw [Parse.rounds]
      refine bind (hstep xs hxs) fun r hr => ?_
      cases r with
      | more next => exact ih next hr
      | done b => exact pure hr
  exact get fun s _ => hrounds _ [] (List.forall_mem_nil P)

end Outside

/-! ## Statements -/

namespace Grammar

variable {g : Grammar}

/-- The productions that recursion goes through leave the counters as they were, and the
statements that are read outside of functions are sealed. -/
structure SealsStatements (g : Grammar) : Prop where
  keeps : StepRelation.sameCounters.KeepsGrammar g
  statement : Outside g.statement Stmt.Sealed

namespace SealsStatements

/-- Statements up to where the caller stops. -/
theorem statementsUntil (hg : g.SealsStatements) (stop : Token → Bool) :
    Outside (g.statementsUntil stop) fun body => ∀ t ∈ body, t.Sealed := by
  unfold Grammar.statementsUntil
  refine .gather (P := Stmt.Sealed) fun body hbody => .peek fun token => .ite ?_ ?_
  · exact .pure (forall_mem_reverse hbody)
  · refine .bind (.recovering hg.keeps.statement hg.statement) fun r hr => ?_
    cases r with
    | some t => exact .pure (List.forall_mem_cons.mpr ⟨hr t rfl, hbody⟩)
    | none => exact .pure hbody

theorem block (hg : g.SealsStatements) : Outside g.block fun body => ∀ t ∈ body, t.Sealed := by
  unfold Grammar.block
  refine .after .expect fun _ => .bind (hg.statementsUntil _) fun body hbody => ?_
  exact .after .expect fun _ => .pure hbody

theorem ifStatement (hg : g.SealsStatements) : Outside g.ifStatement Stmt.Sealed := by
  unfold Grammar.ifStatement
  refine .after .pass fun _ => .after hg.keeps.parenthesized fun test => ?_
  refine .bind hg.statement fun c hc => .after .eatWord fun taken => .ite ?_ ?_
  · exact .bind hg.statement fun a ha =>
      .pure (Stmt.sealed_if hc fun t ht => Option.mem_some.mp ht ▸ ha)
  · exact .pure (Stmt.sealed_if hc nofun)

theorem forRest (hg : g.SealsStatements) (init : Option ForHead) :
    Outside (g.forRest init) Stmt.Sealed := by
  have hend : ∀ test update, Outside (do
      expect ")"
      return Stmt.for_ init test update (← g.statement)) Stmt.Sealed := fun test update =>
    .after .expect fun _ => .bind hg.statement fun body hbody => .pure (Stmt.sealed_for hbody)
  have hupdate : ∀ test, Outside (do
      expect ";"
      let update ← if (← Parse.peek).isMark ")" then pure none else some <$> g.expression
      expect ")"
      return Stmt.for_ init test update (← g.statement)) Stmt.Sealed := fun test =>
    .after .expect fun _ => .peek fun next =>
      .ite (.after .pure fun update => hend test update)
        (.after (.map hg.keeps.expression) fun update => hend test update)
  unfold Grammar.forRest
  refine .after .expect fun _ => .peek fun next => .ite ?_ ?_
  · exact .after .pure fun test => hupdate test
  · exact .after (.map hg.keeps.expression) fun test => hupdate test

theorem forInRest (hg : g.SealsStatements) (head : ForHead) :
    Outside (g.forInRest head) Stmt.Sealed := by
  unfold Grammar.forInRest
  refine .after hg.keeps.forSubject fun subject => .after .expect fun _ => ?_
  exact .bind hg.statement fun body hbody => .pure (Stmt.sealed_forIn hbody)

theorem forStatement (hg : g.SealsStatements) : Outside g.forStatement Stmt.Sealed := by
  unfold Grammar.forStatement
  refine .after .pass fun _ => .peek fun token => .ite .fail (.after .expect fun _ => ?_)
  refine .peek fun next => .ite (hg.forRest none) (.after hg.keeps.forHead fun head => ?_)
  exact .peek fun next => .ite (hg.forInRest head) (hg.forRest (some head))

theorem whileStatement (hg : g.SealsStatements) (position : Position) :
    Outside (g.whileStatement position) Stmt.Sealed := by
  unfold Grammar.whileStatement
  refine .after .pass fun _ => .after hg.keeps.parenthesized fun test => ?_
  exact .bind hg.statement fun body hbody => .pure (Stmt.sealed_while hbody)

theorem doStatement (hg : g.SealsStatements) (position : Position) :
    Outside (g.doStatement position) Stmt.Sealed := by
  unfold Grammar.doStatement
  refine .after .pass fun _ => .bind hg.statement fun body hbody => .after .expectWord fun _ => ?_
  refine .after hg.keeps.parenthesized fun test => .after .acceptMark fun _ => ?_
  exact .pure (Stmt.sealed_doWhile hbody)

theorem withStatement (hg : g.SealsStatements) (position : Position) :
    Outside (g.withStatement position) Stmt.Sealed := by
  unfold Grammar.withStatement
  refine .after .pass fun _ => .after hg.keeps.parenthesized fun object => ?_
  exact .bind hg.statement fun body hbody => .pure (Stmt.sealed_with hbody)

theorem catchClause (hg : g.SealsStatements) :
    Outside g.catchClause fun clause => ∀ t ∈ clause.body, t.Sealed := by
  unfold Grammar.catchClause
  refine .after .acceptMark fun taken => .ite ?_ ?_
  · refine .after hg.keeps.bindingTarget fun target => .after .expect fun _ => ?_
    exact .bind hg.block fun body hbody => .pure hbody
  · exact .bind hg.block fun body hbody => .pure hbody

theorem tryStatement (hg : g.SealsStatements) : Outside g.tryStatement Stmt.Sealed := by
  have hend : ∀ (body : List Stmt) (handler : Option CatchClause), (∀ t ∈ body, t.Sealed) →
      (∀ k ∈ handler, ∀ t ∈ k.body, t.Sealed) → Outside (do
        let finalizer ← if ← eatWord "finally" then some <$> g.block else pure none
        if handler.isNone && finalizer.isNone then
          fail "'try' without 'catch' or 'finally'"
        else return Stmt.try_ body handler finalizer) Stmt.Sealed := by
    intro body handler hbody hhandler
    have hlast : ∀ finalizer : Option (List Stmt), (∀ body ∈ finalizer, ∀ t ∈ body, t.Sealed) →
        Outside (if handler.isNone && finalizer.isNone then
            fail "'try' without 'catch' or 'finally'"
          else pure (Stmt.try_ body handler finalizer)) Stmt.Sealed := fun finalizer h =>
      .ite .fail (.pure (Stmt.sealed_try hbody hhandler h))
    refine .after .eatWord fun taken => .ite ?_ ?_
    · refine .bind (P := fun finalizer => ∀ body ∈ finalizer, ∀ t ∈ body, t.Sealed)
        (.map (hg.block.mono fun body h => ?_)) hlast
      exact fun other hother => Option.mem_some.mp hother ▸ h
    · exact .bind (P := fun finalizer => ∀ body ∈ finalizer, ∀ t ∈ body, t.Sealed)
        (.pure nofun) hlast
  unfold Grammar.tryStatement
  refine .after .pass fun _ => .bind hg.block fun body hbody => .after .eatWord fun taken =>
    .ite ?_ ?_
  · refine .bind (P := fun handler => ∀ k ∈ handler, ∀ t ∈ k.body, t.Sealed)
      (.map (hg.catchClause.mono fun clause h => ?_)) fun handler => hend body handler hbody
    exact fun other hother => Option.mem_some.mp hother ▸ h
  · exact .bind (P := fun handler => ∀ k ∈ handler, ∀ t ∈ k.body, t.Sealed)
      (.pure nofun) fun handler => hend body handler hbody

theorem switchCase (hg : g.SealsStatements) :
    Outside g.switchCase fun case => ∀ t ∈ case.body, t.Sealed := by
  unfold Grammar.switchCase
  refine .after hg.keeps.caseTest fun test => .after .expect fun _ => ?_
  exact .bind (hg.statementsUntil _) fun body hbody => .pure hbody

theorem switchStatement (hg : g.SealsStatements) : Outside g.switchStatement Stmt.Sealed := by
  unfold Grammar.switchStatement
  refine .after .pass fun _ => .after hg.keeps.parenthesized fun discriminant => ?_
  refine .after .expect fun _ => .gather (P := fun case => ∀ t ∈ case.body, t.Sealed) ?_
  intro cases hcases
  refine .after .acceptMark fun taken => .ite ?_ ?_
  · exact .pure (Stmt.sealed_switch (forall_mem_reverse hcases))
  · refine .bind hg.switchCase fun case hcase => .after (.isAtEnd fun _ => .pure) fun ended => ?_
    exact .ite .fail (.pure (List.forall_mem_cons.mpr ⟨hcase, hcases⟩))

/-- While no function is open, a `return` is a fault. -/
theorem returnStatement (hg : g.SealsStatements) : Outside g.returnStatement Stmt.Sealed := by
  intro s hs
  refine ⟨(hg.keeps.returnStatement s).functionDepth.trans hs, fun a s' hr => ?_⟩
  have hfault : g.returnStatement s = .error (s.fault "'return' outside of a function") s := by
    show (if s.functionDepth = 0 then _ else _ : Parse Stmt) s = _
    rw [if_pos hs]
    rfl
  cases hfault.symm.trans hr

theorem declaration (hg : g.SealsStatements) (kind : VarKind) :
    Outside (g.declaration kind) Stmt.Sealed := by
  unfold Grammar.declaration
  refine .after hg.keeps.declarators fun ds => .after .semicolon fun _ => ?_
  exact .pure (Stmt.sealed_declare kind ds)

theorem expressionStatement (hg : g.SealsStatements) :
    Outside g.expressionStatement Stmt.Sealed := by
  unfold Grammar.expressionStatement
  exact .after hg.keeps.expression fun e => .after .semicolon fun _ => .pure (Stmt.sealed_expr e)

theorem throwStatement (hg : g.SealsStatements) : Outside g.throwStatement Stmt.Sealed := by
  unfold Grammar.throwStatement
  refine .after .pass fun _ => .peek fun next => .ite .fail ?_
  refine .after hg.keeps.expression fun argument => .after .semicolon fun _ => ?_
  exact .pure (Stmt.sealed_throw argument)

theorem wordStatement (hg : g.SealsStatements) (name : String) (position : Position) :
    Outside (g.wordStatement name position) Stmt.Sealed := by
  unfold Grammar.wordStatement
  split
  · exact hg.declaration .var
  · exact hg.declaration .const
  · exact .after (hg.keeps.function true) fun f => .pure (Stmt.sealed_function f)
  · exact hg.ifStatement
  · exact hg.forStatement
  · exact hg.whileStatement position
  · exact hg.doStatement position
  · exact hg.withStatement position
  · exact hg.returnStatement
  · exact hg.throwStatement
  · exact hg.tryStatement
  · exact hg.switchStatement
  · exact .after .pass fun _ => .after StepRelation.KeepsGrammar.jumpLabel fun label =>
      .after .semicolon fun _ => .pure (Stmt.sealed_break label)
  · exact .after .pass fun _ => .after StepRelation.KeepsGrammar.jumpLabel fun label =>
      .after .semicolon fun _ => .pure (Stmt.sealed_continue label)
  · exact .after .pass fun _ => .after .semicolon fun _ => .pure Stmt.sealed_empty
  iterate 3 exact .fail
  refine .get fun s _ => .ite (hg.declaration .let_) (.ite .fail (.ite ?_ ?_))
  · refine .after .pass fun _ => .after .pass fun _ => ?_
    exact .bind hg.statement fun body hbody => .pure (Stmt.sealed_labeled hbody)
  · exact hg.expressionStatement

theorem statementInner (hg : g.SealsStatements) : Outside g.statementInner Stmt.Sealed := by
  unfold Grammar.statementInner
  refine .peek fun token => .ite ?_ (.ite ?_ ?_)
  · exact .bind hg.block fun body hbody => .pure (Stmt.sealed_block hbody)
  · exact .after .pass fun _ => .pure Stmt.sealed_empty
  split
  · exact hg.wordStatement _ _
  · exact hg.expressionStatement

/-- Any number of levels. -/
theorem levels (n : Nat) : (Grammar.levels n).SealsStatements := by
  induction n with
  | zero => exact ⟨.levels _ 0, .fail⟩
  | succ n ih => exact ⟨.levels _ (n + 1), .nested ih.statementInner⟩

/-- The statements of a program are read while no function is open. -/
theorem program (hg : g.SealsStatements) :
    Outside g.program fun program => ∀ t ∈ program.body, t.Sealed := by
  unfold Grammar.program
  refine .gather (P := Stmt.Sealed) fun body hbody => .get fun s hs => ?_
  refine .ite (.pure (forall_mem_reverse hbody)) (.ite (.set ?_ (.pure hbody)) ?_)
  · have hnoting := (s.sameCounters_noting s.unexpected).functionDepth
    exact (ParserState.sameCounters_pass _).functionDepth.trans (hnoting.trans hs)
  · refine .bind (.recovering hg.keeps.statement hg.statement) fun r hr => ?_
    cases r with
    | some t => exact .pure (List.forall_mem_cons.mpr ⟨hr t rfl, hbody⟩)
    | none => exact .pure hbody

end SealsStatements

end Grammar

/-! ## Programs -/

/-- Where a `return` stands that a part does not leak, it is in the body of a function in the
part. -/
theorem Occurrence.exists_body {p q : Occurrence} {argument : Option Expr} (hq : q ∈ p.walk)
    (hreturn : q.part = .stmt (.return_ argument)) :
    p.part.Leaks ∨ ∃ u ∈ p.walk, ∃ f s, u.part = .function f ∧ s ∈ f.body ∧
      q ∈ walk ⟨.stmt s, .function f :: u.around⟩ := by
  induction p using ofBelow with
  | step p ih =>
    obtain rfl | ⟨c, hc, hq⟩ := mem_walk.mp hq
    · exact .inl (hreturn ▸ .return_ argument)
    obtain hleaks | ⟨u, hu, hbody⟩ := ih c hc hq
    · obtain ⟨r, hr, rfl⟩ := List.mem_map.mp hc
      by_cases hp : ∃ f s, p.part = .function f ∧ r = .stmt s
      · obtain ⟨f, s, hf, rfl⟩ := hp
        refine .inr ⟨p, self_mem_walk p, f, s, hf, ?_, hf ▸ hq⟩
        obtain ⟨name, parameters, body, isArrow, position⟩ := f
        simpa [hf, Part.below, Part.ofFunction, Function.body] using hr
      · exact .inl (.under hr (fun f s hf hs => hp ⟨f, s, hf, hs⟩) hleaks)
    · exact .inr ⟨u, mem_walk.mpr (.inr ⟨c, hc, hu⟩), hbody⟩

namespace Program

/-- Each `return` of the program stands in the body of a function of it. -/
def ReturnsInFunctions (program : Program) : Prop :=
  ∀ q ∈ program.occurrences, ∀ argument, q.part = .stmt (.return_ argument) →
    ∃ u ∈ program.occurrences, ∃ f s, u.part = .function f ∧ s ∈ f.body ∧
      q ∈ Occurrence.walk ⟨.stmt s, .function f :: u.around⟩

/-- Where the statements leak no `return`, each is in a function. -/
theorem returnsInFunctions_of_sealed {program : Program} (h : ∀ t ∈ program.body, t.Sealed) :
    program.ReturnsInFunctions := by
  intro q hq argument hreturn
  obtain ⟨t, ht, hq⟩ := List.mem_flatMap.mp hq
  obtain hleaks | ⟨u, hu, hbody⟩ := Occurrence.exists_body hq hreturn
  · exact absurd hleaks (h t ht)
  · exact ⟨u, List.mem_flatMap.mpr ⟨t, ht, hu⟩, hbody⟩

/-- The statements of a program are sealed, whatever the tokens are. -/
theorem sealed_ofTokens (tokens : List Token) : ∀ t ∈ (ofTokens tokens).1.body, t.Sealed := by
  unfold ofTokens
  split
  case h_1 program s hr =>
    exact ((Grammar.SealsStatements.levels _).program _ rfl).2 program s hr
  case h_2 => exact List.forall_mem_nil _

/-- Whatever the tokens are and whatever issues are recorded, each `return` of the program stands
in the body of a function of it. So if every program that the tokens of a source spell has a
`return` elsewhere, which it may have only inside a function around the source, then the source
is not accepted. -/
theorem returns_inside_functions (tokens : List Token) :
    (ofTokens tokens).1.ReturnsInFunctions ∧
      ∀ source, (∀ (program : Program) readings rest,
          Spells [.stmts program.body] (Lexer.tokensOf source).1 readings rest →
            (rest.headD default).isEof = true → ¬program.ReturnsInFunctions) →
        (validate source).isOk = false := by
  have hreturns := fun tokens => returnsInFunctions_of_sealed (sealed_ofTokens tokens)
  refine ⟨hreturns tokens, fun source hsource => ?_⟩
  rw [← Bool.not_eq_true]
  intro haccepted
  obtain ⟨-, hissues, -⟩ := validate_isOk_iff.mp haccepted
  obtain ⟨rest, ⟨readings, hspells⟩, hrest⟩ := ofTokens_spelled hissues
  exact hsource _ readings rest hspells hrest (hreturns _)

/-- Without a function around it, a `return` is refused. -/
example : (validate "return 1;").isOk = false ∧
    (validate "(() => { return 1; })();").isOk = true := by
  decide +kernel

end Program

end ScriptHooks.Script

/-
ScriptHooks.Proofs.Script.NestingBudget — how deep the tree of a program can be.

The budget of nesting is spent at five productions, those of `Grammar`, and chains are measured
afterwards. Every cycle through the productions passes one of these, but for one: from an object
literal to the parameters of its methods, and on to an object pattern there. So trees are bounded
by what a level of the budget can add, and by two nodes for each method whose parameters a path
enters (`Branch.Fits`).

  §1 Fitting     — a node fits when what stands under it does;
  §2 Expressions — one lemma for each production: what it gives fits, if what the five
                   productions give fits (`Grammar.Bounded`);
  §3 Statements  — the same for statements;
  §4 Levels      — a level of nesting adds at most five nodes (`Bounded.next`), and so every
                   statement of a program fits (`Program.ofTokens_fits`).

In §2 and §3 a number is added for each production: how many nodes it puts above what the five
give, at most. The largest are four for `primary` and for statements, and five for `unaryInner`,
which is where the five of §4 comes from. Two things keep the numbers from growing:

* what a chain gives is measured, and what is too deep is a fault. So chains of links and of
  operators fit for whatever is inside them (`links`, `operators`), and `Bounded` asks that the
  measure itself fits;
* object patterns inside object patterns fit by the two nodes that each method adds
  (`objectLiteralWithin`), and not by the budget, which they do not spend.

The statements are about what is given, by `Yields`. So they hold of trees that are built on faulty
tokens too, and no token is looked at in this module.
-/
import ScriptHooks.Proofs.Script.ParseResults
import ScriptHooks.Proofs.Script.TreeDepth

namespace ScriptHooks.Script

open Parse

/-! ## §1 Fitting -/

namespace Branch

/-- So many nodes stand on a path from the node downwards at most, and two more for each time that
the path enters the parameters of a method. -/
def Fits (n : Nat) (b : Branch) : Prop := b.height ≤ n + 2 * b.methodNesting

variable {b : Branch} {m n : Nat}

theorem Fits.mono (h : b.Fits m) (hn : m ≤ n) : b.Fits n := by
  unfold Fits at h ⊢
  omega

/-- A tree that is low enough fits. -/
theorem fits_of_height_le (h : b.height ≤ n) : b.Fits n := by
  unfold Fits
  omega

/-- The parameters of methods may be two nodes higher than what else stands under a node. -/
theorem fits_of_steps
    (h : ∀ step ∈ b.steps, step.branch.Fits (if step.intoParameter then n + 2 else n)) :
    b.Fits (n + 1) := by
  have hheight : b.height ≤ n + 2 * b.methodNesting + 1 := by
    rw [height_le_succ_iff, ← steps_branch, List.forall_mem_map]
    intro step hstep
    have hfits := h step hstep
    have hnesting := le_longest Bool.toNat hstep
    unfold Fits methodNesting at hfits
    unfold methodNesting
    cases hkind : step.intoParameter <;> simp [hkind] at hfits hnesting <;> omega
  unfold Fits
  omega

/-- A node over children that fit fits one level higher. -/
theorem fits_of_children (h : ∀ c ∈ b.children, c.Fits n) : b.Fits (n + 1) := by
  refine fits_of_steps fun step hstep => ?_
  have hfits := h _ (mem_children_of_mem_steps hstep)
  split
  · exact hfits.mono (Nat.le_add_right n 2)
  · exact hfits

end Branch

def Expr.Fits (n : Nat) (e : Expr) : Prop := (Branch.expr e).Fits n

def Stmt.Fits (n : Nat) (s : Stmt) : Prop := (Branch.stmt s).Fits n

def PropertyKey.Fits (n : Nat) (key : PropertyKey) : Prop := ∀ c ∈ Branch.ofKey key, c.Fits n

def Function.Fits (n : Nat) (f : Function) : Prop := ∀ c ∈ Branch.ofFunction f, c.Fits n

/-- What stands under a property fits; the parameters of a method may be two nodes higher. -/
def Property.Fits (n : Nat) (p : Property) : Prop :=
  ∀ step ∈ Branch.Step.ofProperty p, step.branch.Fits (if step.intoParameter then n + 2 else n)

/-- Target and initial value of a declarator fit. -/
def Declarator.Fits (n : Nat) (d : Declarator) : Prop := ∀ c ∈ Branch.ofDeclarator d, c.Fits n

def ForHead.Fits (n : Nat) (head : ForHead) : Prop := ∀ c ∈ Branch.ofHead head, c.Fits n

def SwitchCase.Fits (n : Nat) (k : SwitchCase) : Prop := ∀ c ∈ Branch.ofCase k, c.Fits n

/-- Parameter and body of a handler fit. -/
def CatchClause.Fits (n : Nat) (k : CatchClause) : Prop := ∀ c ∈ Branch.ofCatch k, c.Fits n

section Fits

variable {e : Expr} {s : Stmt} {m n : Nat}

theorem Expr.Fits.mono (h : e.Fits m) (hn : m ≤ n) : e.Fits n := Branch.Fits.mono h hn

theorem Stmt.Fits.mono (h : s.Fits m) (hn : m ≤ n) : s.Fits n := Branch.Fits.mono h hn

theorem Expr.fits_of_below (h : ∀ c ∈ Branch.ofExpr e, c.Fits n) : e.Fits (n + 1) :=
  Branch.fits_of_children h

theorem Stmt.fits_of_below (h : ∀ c ∈ Branch.ofStmt s, c.Fits n) : s.Fits (n + 1) :=
  Branch.fits_of_children h

theorem Expr.fits_of_no_child (h : Branch.ofExpr e = []) : e.Fits (n + 1) :=
  fits_of_below (h ▸ List.forall_mem_nil _)

/-- An object over properties that fit. -/
theorem Expr.fits_object {properties : List Property} {position : Position}
    (h : ∀ p ∈ properties, p.Fits n) : (Expr.object properties position).Fits (n + 1) :=
  Branch.fits_of_steps (b := .expr (.object properties position)) fun step hstep => by
    obtain ⟨p, hp, hstep⟩ := List.mem_flatMap.mp hstep
    exact h p hp step hstep

/-- What stands under members of a list fits if it does under each of them. -/
theorem Branch.fits_flatMap {α : Type} {below : α → List Branch} {xs : List α}
    (h : ∀ x ∈ xs, ∀ c ∈ below x, c.Fits n) : ∀ c ∈ xs.flatMap below, c.Fits n := by
  intro c hc
  obtain ⟨x, hx, hc⟩ := List.mem_flatMap.mp hc
  exact h x hx c hc

/-- The statements of a body, where there is more room. -/
theorem Stmt.fits_body {body : List Stmt} (h : ∀ s ∈ body, s.Fits m) (hn : m ≤ n) :
    ∀ c ∈ body.map Branch.stmt, c.Fits n :=
  List.forall_mem_map.mpr fun s hs => (h s hs).mono hn

end Fits

namespace Grammar

/-- What the productions give that recursion goes through fits, as measured expressions do. -/
structure Bounded (g : Grammar) (n : Nat) : Prop where
  measured : maxExpressionDepth ≤ n
  statement : Yields g.statement (·.Fits n)
  assignment : Yields g.assignment (·.Fits n)
  unary : Yields g.unary (·.Fits n)
  operand (precedence : Nat) : Yields (g.operand precedence) (·.Fits n)
  innerNew : Yields g.innerNew (·.Fits n)

namespace Bounded

variable {g : Grammar} {n : Nat}

/-! ## §2 Expressions -/

/-- What is measured and not too deep fits, whatever it is. -/
theorem boundDepth (hg : g.Bounded n) (e : Expr) : Yields (boundDepth e) (·.Fits n) := by
  unfold Grammar.boundDepth
  refine .ite (fun _ => .fail) fun h => .pure (Branch.fits_of_height_le ?_)
  rw [Expr.isDeeperThan_iff] at h
  have := hg.measured
  omega

/-- A sequence is one node over its items. -/
theorem expression (hg : g.Bounded n) : Yields g.expression (·.Fits (n + 1)) := by
  unfold Grammar.expression
  refine .bind hg.assignment fun first hfirst => .after fun t => .ite (fun _ => ?_) fun _ => ?_
  · refine .bind (P := fun items => ∀ e ∈ items, e.Fits n) ?_ fun items hitems => .pure ?_
    · refine .loop (I := fun items => ∀ e ∈ items, e.Fits n) (by simpa using hfirst) ?_
      refine fun items hitems => .after fun taken => .ite (fun _ => ?_) fun _ => .pure ?_
      · refine .bind hg.assignment fun item hitem => .pure ?_
        exact List.forall_mem_cons.mpr ⟨hitem, hitems⟩
      · simpa [Yields.Keeps] using hitems
    · exact Expr.fits_of_below (List.forall_mem_map.mpr hitems)
  · exact .pure (hfirst.mono (Nat.le_succ n))

theorem parenthesized (hg : g.Bounded n) : Yields g.parenthesized (·.Fits (n + 1)) := by
  unfold Grammar.parenthesized
  exact .after fun _ => .bind (.withoutIn hg.expression) fun e he => .after fun _ => .pure he

theorem item (hg : g.Bounded n) : Yields g.item (·.Fits (n + 1)) := by
  unfold Grammar.item
  refine .after fun taken => .ite (fun _ => .bind hg.assignment fun e he => .pure ?_) fun _ => ?_
  · exact Expr.fits_of_below (List.forall_mem_singleton.mpr he)
  · exact hg.assignment.mono fun e he => he.mono (Nat.le_succ n)

theorem arrayLiteral (hg : g.Bounded n) : Yields g.arrayLiteral (·.Fits (n + 2)) := by
  have harray : ∀ items : List Expr, (∀ e ∈ items, e.Fits (n + 1)) →
      (Expr.array items.reverse).Fits (n + 2) := fun items h =>
    Expr.fits_of_below (List.forall_mem_map.mpr (forall_mem_reverse h))
  unfold Grammar.arrayLiteral
  refine .after fun _ => .withoutIn (.gather (P := fun e => e.Fits (n + 1)) fun items hitems => ?_)
  refine .after fun taken => .ite (fun _ => .pure (harray items hitems)) fun _ => ?_
  refine .after fun taken => .ite (fun _ => .pure hitems) fun _ => ?_
  refine .bind hg.item fun item hitem => .after fun taken => ?_
  have hitems := List.forall_mem_cons.mpr ⟨hitem, hitems⟩
  exact .ite (fun _ => .pure hitems) fun _ => .after fun _ => .pure (harray _ hitems)

/-- Items between commas up to a closing mark. -/
theorem itemsUntil {p : Parse Expr} {P : Expr → Prop} (hp : Yields p P) (close : String) :
    Yields (loop (fun items => do
      if ← acceptMark close then
        return .done items.reverse
      let item ← p
      unless ← acceptMark "," do
        expect close
        return .done (item :: items).reverse
      return .more (item :: items)) []) fun items => ∀ e ∈ items, P e := by
  refine .gather (P := P) fun items hitems => .after fun taken => .ite (fun _ => ?_) fun _ => ?_
  · exact .pure (forall_mem_reverse hitems)
  · refine .bind hp fun item hitem => .after fun taken => ?_
    have hitems := List.forall_mem_cons.mpr ⟨hitem, hitems⟩
    refine .ite (fun _ => .pure hitems) fun _ => .after fun _ => .pure ?_
    exact forall_mem_reverse hitems

theorem arguments (hg : g.Bounded n) : Yields g.arguments fun es => ∀ e ∈ es, e.Fits (n + 1) := by
  unfold Grammar.arguments
  exact .after fun _ => .withoutIn (itemsUntil hg.item ")")

theorem statementsUntil (hg : g.Bounded n) (stop : Token → Bool) :
    Yields (g.statementsUntil stop) fun body => ∀ s ∈ body, s.Fits n := by
  unfold Grammar.statementsUntil
  refine .gather (P := (·.Fits n)) fun body hbody => .after fun token => .ite (fun _ => ?_) ?_
  · exact .pure (forall_mem_reverse hbody)
  · refine fun _ => .bind (.recovering hg.statement) fun r hr => ?_
    cases r with
    | some s => exact .pure (List.forall_mem_cons.mpr ⟨hr s rfl, hbody⟩)
    | none => exact .pure hbody

theorem block (hg : g.Bounded n) : Yields g.block fun body => ∀ s ∈ body, s.Fits n := by
  unfold Grammar.block
  exact .after fun _ => .bind (hg.statementsUntil _) fun body h => .after fun _ => .pure h

/-! ### Patterns and objects -/

theorem propertyKey (hg : g.Bounded n) : Yields g.propertyKey (·.Fits (n + 1)) := by
  unfold Grammar.propertyKey
  refine .after fun token => ?_
  split
  case h_1 | h_2 => exact .after fun _ => .pure (List.forall_mem_nil _)
  case h_3 =>
    exact .after fun _ => .pure (List.forall_mem_singleton.mpr (Expr.fits_of_no_child rfl))
  case h_4 =>
    refine .after fun _ => .bind hg.assignment fun key hkey => .after fun _ => .pure ?_
    exact List.forall_mem_singleton.mpr (hkey.mono (Nat.le_succ n))
  case h_5 => exact .failExpecting

theorem bindingTargetOver (hg : g.Bounded n) {objectPattern : Parse Expr}
    (hp : Yields objectPattern (·.Fits (n + 2))) :
    Yields (g.bindingTargetOver objectPattern) (·.Fits (n + 2)) := by
  unfold Grammar.bindingTargetOver
  refine .after fun token => .ite (fun _ => hg.arrayLiteral) fun _ => .ite (fun _ => hp) fun _ => ?_
  split
  · refine .ite (fun _ => .failExpecting) fun _ => .after fun _ => .pure ?_
    exact Expr.fits_of_no_child rfl
  · exact .failExpecting

/-- A default value stands next to the pattern, under an assignment. -/
theorem parameter (hg : g.Bounded n) {target : Parse Expr} (ht : Yields target (·.Fits (n + 2))) :
    Yields (g.parameter target) (·.Fits (n + 3)) := by
  unfold Grammar.parameter
  refine .after fun taken => .ite (fun _ => .bind ht fun e he => .pure ?_) fun _ => ?_
  · exact Expr.fits_of_below (List.forall_mem_singleton.mpr he)
  · refine .bind ht fun pattern hpattern => .after fun taken => .ite (fun _ => ?_) fun _ => ?_
    · refine .bind hg.assignment fun e he => .pure (Expr.fits_of_below ?_)
      exact List.forall_mem_cons.mpr
        ⟨hpattern, List.forall_mem_singleton.mpr (he.mono (Nat.le_add_right n 2))⟩
    · exact .pure (hpattern.mono (Nat.le_succ _))

theorem parameters (hg : g.Bounded n) {target : Parse Expr}
    (ht : Yields target (·.Fits (n + 2))) :
    Yields (g.parameters target) fun es => ∀ e ∈ es, e.Fits (n + 3) := by
  unfold Grammar.parameters
  exact itemsUntil (hg.parameter ht) ")"

/-- The parameters of a function fit more closely than its body. -/
theorem functionRest (hg : g.Bounded n) {target : Parse Expr}
    (ht : Yields target (·.Fits (n + 2))) (name : Option String) (position : Position) :
    Yields (g.functionRest target name position) fun f => ∃ parameters body,
      f = .mk name parameters body false position ∧
        (∀ e ∈ parameters, e.Fits (n + 3)) ∧ ∀ s ∈ body, s.Fits n := by
  unfold Grammar.functionRest
  refine .after fun _ => .bind (hg.parameters ht) fun parameters hp => ?_
  refine .bind (.insideFunction hg.block) fun body hb => .pure ⟨parameters, body, rfl, hp, hb⟩

/-- The parameters of a method fit by the two nodes that the method adds. -/
theorem method (hg : g.Bounded n) {target : Parse Expr} (ht : Yields target (·.Fits (n + 2)))
    {key : PropertyKey} (hkey : key.Fits (n + 1)) (name : Option String) (position : Position) :
    Yields (g.functionRest target name position) fun f => (Property.method key f).Fits (n + 1) := by
  refine (hg.functionRest ht name position).mono ?_
  rintro _ ⟨parameters, body, rfl, hp, hb⟩ step hstep
  simp only [Branch.Step.ofProperty, Branch.Step.all, List.mem_append, List.mem_map] at hstep
  obtain ⟨c, hc, rfl⟩ | ⟨_, ⟨e, he, rfl⟩, rfl⟩ | ⟨_, ⟨s, hs, rfl⟩, rfl⟩ := hstep
  · exact hkey c hc
  · exact hp e he
  · exact (hb s hs).mono (Nat.le_succ n)

theorem propertyRest (hg : g.Bounded n) {target : Parse Expr}
    (ht : Yields target (·.Fits (n + 2))) (token : Token) {key : PropertyKey}
    (hkey : key.Fits (n + 1)) : Yields (g.propertyRest target token key) (·.Fits (n + 1)) := by
  unfold Grammar.propertyRest
  refine .after fun taken => .ite (fun _ => .bind hg.assignment fun e he => .pure ?_) fun _ => ?_
  · refine List.forall_mem_map.mpr (List.forall_mem_append.mpr ⟨hkey, ?_⟩)
    exact List.forall_mem_singleton.mpr (he.mono (Nat.le_succ n))
  refine .after fun next => .ite (fun _ => ?_) fun _ => ?_
  · exact .bind (hg.method ht hkey _ _) fun f hf => .pure hf
  split
  · refine .ite (fun _ => .failExpecting) fun _ => .after fun taken => .ite (fun _ => ?_) ?_
    · refine .bind hg.assignment fun e he => .pure ?_
      exact List.forall_mem_singleton.mpr (he.mono (Nat.le_succ n))
    · exact fun _ => .pure (List.forall_mem_nil _)
  · exact .failExpecting

theorem property (hg : g.Bounded n) {target : Parse Expr} (ht : Yields target (·.Fits (n + 2))) :
    Yields (g.property target) (·.Fits (n + 1)) := by
  unfold Grammar.property
  refine .after fun taken => .ite (fun _ => .bind hg.assignment fun e he => .pure ?_) fun _ => ?_
  · exact List.forall_mem_singleton.mpr (he.mono (Nat.le_succ n))
  refine .after fun token => .ite (fun _ => .unsupported) fun _ => .after fun next => ?_
  refine .ite (fun _ => ?_) fun _ => .ite (fun _ => .unsupported) fun _ => ?_
  · refine .after fun _ => .bind hg.propertyKey fun key hkey => ?_
    exact .bind (hg.method ht hkey _ _) fun f hf => .pure hf
  · exact .bind hg.propertyKey fun key hkey => hg.propertyRest ht token hkey

theorem objectLiteralOver (hg : g.Bounded n) {objectPattern : Parse Expr}
    (hp : Yields objectPattern (·.Fits (n + 2))) :
    Yields (g.objectLiteralOver objectPattern) (·.Fits (n + 2)) := by
  have hobject : ∀ (properties : List Property) position, (∀ p ∈ properties, p.Fits (n + 1)) →
      (Expr.object properties.reverse position).Fits (n + 2) := fun properties position h =>
    Expr.fits_object (forall_mem_reverse h)
  unfold Grammar.objectLiteralOver
  refine .after fun token => .after fun _ => .withoutIn (.gather (P := (·.Fits (n + 1))) ?_)
  refine fun properties h => .after fun taken => .ite (fun _ => .pure (hobject _ _ h)) fun _ => ?_
  refine .bind (hg.property (hg.bindingTargetOver hp)) fun property hproperty => ?_
  have h := List.forall_mem_cons.mpr ⟨hproperty, h⟩
  refine .after fun taken => .ite (fun _ => .pure h) fun _ => .after fun _ => ?_
  exact .pure (hobject _ _ h)

/-- However many object patterns are inside each other, the objects fit: each adds two nodes and
one entry into the parameters of a method. -/
theorem objectLiteralWithin (hg : g.Bounded n) (bound : Nat) :
    Yields (g.objectLiteralWithin bound) (·.Fits (n + 2)) := by
  induction bound with
  | zero => exact .unexpected
  | succ bound ih => exact hg.objectLiteralOver ih

theorem objectLiteral (hg : g.Bounded n) : Yields g.objectLiteral (·.Fits (n + 2)) := by
  unfold Grammar.objectLiteral
  exact .after fun s => hg.objectLiteralWithin _

theorem bindingTarget (hg : g.Bounded n) : Yields g.bindingTarget (·.Fits (n + 2)) :=
  hg.bindingTargetOver hg.objectLiteral

/-! ### Functions -/

theorem fits_mk {name : Option String} {parameters : List Expr} {body : List Stmt}
    {isArrow : Bool} {position : Position} {m : Nat} (hp : ∀ e ∈ parameters, e.Fits m)
    (hb : ∀ s ∈ body, s.Fits m) : (Function.mk name parameters body isArrow position).Fits m :=
  List.forall_mem_append.mpr ⟨List.forall_mem_map.mpr hp, List.forall_mem_map.mpr hb⟩

theorem function (hg : g.Bounded n) (isDeclaration : Bool) :
    Yields (g.function isDeclaration) (·.Fits (n + 3)) := by
  have hrest : ∀ name position,
      Yields (g.functionRest g.bindingTarget name position) (·.Fits (n + 3)) := by
    refine fun name position => (hg.functionRest hg.bindingTarget name position).mono ?_
    rintro _ ⟨parameters, body, rfl, hp, hb⟩
    exact fits_mk hp fun s hs => (hb s hs).mono (Nat.le_add_right n 3)
  unfold Grammar.function
  refine .after fun start => .after fun _ => .after fun token => .ite (fun _ => .unsupported) ?_
  refine fun _ => .ite (fun _ => .after fun _ => hrest _ _) fun _ => ?_
  exact .ite (fun _ => .fail) fun _ => hrest _ _

theorem arrowBody (hg : g.Bounded n) :
    Yields g.arrowBody fun body => ∀ s ∈ body, s.Fits (n + 1) := by
  unfold Grammar.arrowBody
  refine .after fun token => .ite (fun _ => ?_) fun _ => .bind hg.assignment fun e he => .pure ?_
  · exact hg.block.mono fun body h s hs => (h s hs).mono (Nat.le_succ n)
  · exact List.forall_mem_singleton.mpr (Stmt.fits_of_below (List.forall_mem_singleton.mpr he))

theorem arrow (hg : g.Bounded n) : Yields g.arrow (·.Fits (n + 4)) := by
  have hrest : ∀ (parameters : List Expr) position, (∀ e ∈ parameters, e.Fits (n + 3)) →
      Yields (do
        expect "=>"
        let body ← insideFunction g.arrowBody
        return Expr.function (.mk none parameters body true position)) (·.Fits (n + 4)) := by
    intro parameters position hp
    refine .after fun _ => .bind (.insideFunction hg.arrowBody) fun body hb => .pure ?_
    have hf : (Function.mk none parameters body true position).Fits (n + 3) :=
      fits_mk hp fun s hs => (hb s hs).mono (Nat.add_le_add_left (by decide) n)
    exact Expr.fits_of_below hf
  unfold Grammar.arrow
  refine .after fun token => ?_
  dsimp only
  split
  · refine .after fun _ => .bind (.pure ?_) fun parameters hp => hrest parameters _ hp
    exact List.forall_mem_singleton.mpr (Expr.fits_of_no_child rfl)
  · refine .after fun _ => .bind (hg.parameters hg.bindingTarget) fun parameters hp => ?_
    exact hrest parameters _ hp

/-! ### Operands -/

theorem substitutions (hg : g.Bounded n) (parts : List (List Token)) :
    Yields (g.substitutions parts) fun es => ∀ e ∈ es, e.Fits (n + 1) := by
  induction parts with
  | nil => exact .pure (List.forall_mem_nil _)
  | cons tokens parts ih =>
    have hone : Yields g.substitution (·.Fits (n + 1)) := by
      unfold Grammar.substitution
      refine .after fun ended => .ite (fun _ => .fail) fun _ => .bind hg.expression fun e he => ?_
      exact .after fun ended => .ite (fun _ => .pure he) fun _ => .unexpected
    unfold Grammar.substitutions
    refine .bind (.onTokens hone) fun e he => .bind ih fun es hes => .pure ?_
    exact List.forall_mem_cons.mpr ⟨he, hes⟩

theorem templateLiteral (hg : g.Bounded n) (parts : List (List Token)) :
    Yields (g.templateLiteral parts) (·.Fits (n + 2)) := by
  unfold Grammar.templateLiteral
  refine .after fun _ => .bind (hg.substitutions parts) fun es hes => .pure ?_
  exact Expr.fits_of_below (List.forall_mem_map.mpr hes)

theorem primaryWord (hg : g.Bounded n) (name : String) (position : Position) :
    Yields (g.primaryWord name position) (·.Fits (n + 4)) := by
  unfold Grammar.primaryWord
  split
  · exact .bind (hg.function false) fun f hf => .pure (Expr.fits_of_below hf)
  iterate 4 exact .after fun _ => .pure (Expr.fits_of_no_child rfl)
  iterate 4 exact .unsupported
  refine .after fun next => .ite (fun _ => .unsupported) fun _ => .ite (fun _ => .fail) fun _ => ?_
  exact .after fun _ => .pure (Expr.fits_of_no_child rfl)

theorem primary (hg : g.Bounded n) : Yields g.primary (·.Fits (n + 4)) := by
  have hle : n + 2 ≤ n + 4 := Nat.add_le_add_left (by decide) n
  unfold Grammar.primary
  refine .after fun token => ?_
  split
  case h_1 => exact hg.primaryWord _ _
  case h_2 | h_3 | h_4 => exact .after fun _ => .pure (Expr.fits_of_no_child rfl)
  case h_5 parts _ => exact (hg.templateLiteral parts).mono fun e he => he.mono hle
  case h_6 => exact .fail
  case h_7 =>
    refine .after fun _ => .bind (.withoutIn hg.expression) fun e he => .after fun _ => .pure ?_
    exact he.mono (Nat.add_le_add_left (by decide) n)
  case h_8 => exact hg.arrayLiteral.mono fun e he => he.mono hle
  case h_9 => exact hg.objectLiteral.mono fun e he => he.mono hle
  case h_10 => exact .unexpected

/-! ### Chains

What stands in a chain is of no account: the whole is measured at its end. -/

theorem newExpression (hg : g.Bounded n) : Yields g.newExpression (·.Fits n) := by
  have hrest : ∀ first position, Yields (do
      let callee ← g.newLinks maxChain first
      let args ← if (← peek).isMark "(" then g.arguments else pure []
      Grammar.boundDepth (.call callee args true position)) (·.Fits n) := by
    refine fun first position => .after fun callee => .after fun next => .ite (fun _ => ?_) ?_
    · exact .after fun args => hg.boundDepth _
    · exact fun _ => .after fun args => hg.boundDepth _
  unfold Grammar.newExpression
  refine .after fun start => .after fun _ => .after fun token => .ite (fun _ => .unsupported) ?_
  refine fun _ => .after fun token => .ite (fun _ => ?_) fun _ => ?_
  · exact .after fun first => hrest first _
  · exact .after fun first => hrest first _

/-- Links are measured, so that they fit however many there are. -/
theorem links (hg : g.Bounded n) {m : Nat} (hm : n ≤ m) (room : Nat) (linked : Bool) {e : Expr}
    (he : linked = false → e.Fits m) : Yields (g.links room linked e) (·.Fits m) := by
  induction room generalizing linked e with
  | zero => exact .fail
  | succ room ih =>
    unfold Grammar.links
    refine .after fun r => ?_
    cases r with
    | some e => exact ih true nofun
    | none =>
      refine .ite (fun _ => ?_) fun h => .pure (he (Bool.eq_false_iff.mpr h))
      exact (hg.boundDepth e).mono fun e he => he.mono hm

theorem chain (hg : g.Bounded n) : Yields g.chain (·.Fits (n + 4)) := by
  have hm : n ≤ n + 4 := Nat.le_add_right n 4
  unfold Grammar.chain
  refine .after fun token => .ite (fun _ => ?_) fun _ => ?_
  · exact .bind hg.newExpression fun first h => hg.links hm _ _ fun _ => h.mono hm
  · exact .bind hg.primary fun first h => hg.links hm _ _ fun _ => h

/-! ### Operators -/

theorem unaryInner (hg : g.Bounded n) : Yields g.unaryInner (·.Fits (n + 5)) := by
  unfold Grammar.unaryInner
  refine .after fun token => .ite (fun _ => .unsupported) fun _ => ?_
  split
  · refine .after fun _ => .bind hg.unary fun e he => .pure ?_
    refine Expr.fits_of_below (List.forall_mem_singleton.mpr ?_)
    exact he.mono (Nat.le_add_right n 4)
  · refine .bind hg.chain fun e he => .after fun next => .ite (fun _ => ?_) fun _ => ?_
    · exact .after fun _ => .pure (Expr.fits_of_below (List.forall_mem_singleton.mpr he))
    · exact .pure (he.mono (Nat.le_succ _))

/-- So are operators. -/
theorem operators (hg : g.Bounded n) (precedence room : Nat) (chained : Bool) {left : Expr}
    (hl : chained = false → left.Fits n) :
    Yields (g.operators precedence room chained left) (·.Fits n) := by
  have hend : ∀ chained (left : Expr), (chained = false → left.Fits n) →
      Yields (if chained = true then Grammar.boundDepth left else pure left) (·.Fits n) :=
    fun chained left hl =>
      .ite (fun _ => hg.boundDepth left) fun h => .pure (hl (Bool.eq_false_iff.mpr h))
  induction room generalizing chained left with
  | zero =>
    unfold Grammar.operators
    refine .after fun r => ?_
    cases r with
    | none => exact hend chained left hl
    | some entry => exact .fail
  | succ room ih =>
    unfold Grammar.operators
    refine .after fun r => ?_
    cases r with
    | none => exact hend chained left hl
    | some entry => exact .after fun _ => .after fun right => ih true nofun

theorem binary (hg : g.Bounded n) (precedence : Nat) :
    Yields (g.binary precedence) (·.Fits n) := by
  unfold Grammar.binary
  exact .bind hg.unary fun left hl => hg.operators _ _ _ fun _ => hl

theorem conditional (hg : g.Bounded n) : Yields g.conditional (·.Fits (n + 1)) := by
  unfold Grammar.conditional
  refine .bind (hg.binary 1) fun test ht => .after fun taken => .ite (fun _ => ?_) fun _ => ?_
  · refine .bind (.withoutIn hg.assignment) fun consequent hc => .after fun _ => ?_
    refine .bind hg.assignment fun alternate ha => .pure (Expr.fits_of_below ?_)
    exact List.forall_mem_cons.mpr
      ⟨ht, List.forall_mem_cons.mpr ⟨hc, List.forall_mem_singleton.mpr ha⟩⟩
  · exact .pure (ht.mono (Nat.le_succ n))

theorem assignmentInner (hg : g.Bounded n) : Yields g.assignmentInner (·.Fits (n + 4)) := by
  unfold Grammar.assignmentInner
  refine .after fun s => .ite (fun _ => hg.arrow) fun _ => .bind hg.conditional fun left hl => ?_
  have hleft : left.Fits (n + 4) := hl.mono (Nat.add_le_add_left (by decide) n)
  refine .after fun token => ?_
  split
  · refine .ite (fun _ => .after fun _ => .bind hg.assignment fun right hr => ?_) fun _ => ?_
    · refine .pure (Expr.fits_of_below (List.forall_mem_cons.mpr ⟨?_, ?_⟩))
      · exact hl.mono (Nat.add_le_add_left (by decide) n)
      · exact List.forall_mem_singleton.mpr (hr.mono (Nat.le_add_right n 3))
    · exact .pure hleft
  · exact .pure hleft

/-! ## §3 Statements -/

theorem declarator (hg : g.Bounded n) : Yields g.declarator (·.Fits (n + 2)) := by
  unfold Grammar.declarator
  refine .bind hg.bindingTarget fun target ht => .after fun taken => .ite (fun _ => ?_) fun _ => ?_
  · refine .bind hg.assignment fun e he => .pure (List.forall_mem_cons.mpr ⟨ht, ?_⟩)
    exact List.forall_mem_singleton.mpr (he.mono (Nat.le_add_right n 2))
  · exact .pure (List.forall_mem_singleton.mpr ht)

theorem declarators (hg : g.Bounded n) :
    Yields g.declarators fun ds => ∀ d ∈ ds, d.Fits (n + 2) := by
  unfold Grammar.declarators
  refine .after fun _ => .gather (P := (·.Fits (n + 2))) fun taken h => ?_
  refine .bind hg.declarator fun d hd => .after fun next => ?_
  have h := List.forall_mem_cons.mpr ⟨hd, h⟩
  exact .ite (fun _ => .pure h) fun _ => .pure (forall_mem_reverse h)

theorem declaration (hg : g.Bounded n) (kind : VarKind) :
    Yields (g.declaration kind) (·.Fits (n + 3)) := by
  unfold Grammar.declaration
  refine .bind hg.declarators fun ds hds => .after fun _ => .pure ?_
  exact Stmt.fits_of_below (Branch.fits_flatMap hds)

theorem expressionStatement (hg : g.Bounded n) : Yields g.expressionStatement (·.Fits (n + 2)) := by
  unfold Grammar.expressionStatement
  refine .bind hg.expression fun e he => .after fun _ => .pure ?_
  exact Stmt.fits_of_below (List.forall_mem_singleton.mpr he)

/-- A statement under an expression fits where the expression does. -/
theorem fits_pair {e : Expr} {s : Stmt} (he : e.Fits (n + 1)) (hs : s.Fits n) :
    (∀ c ∈ [Branch.expr e, .stmt s], c.Fits (n + 1)) ∧
      ∀ c ∈ [Branch.stmt s, .expr e], c.Fits (n + 1) := by
  have hs := hs.mono (Nat.le_succ n)
  exact ⟨List.forall_mem_cons.mpr ⟨he, List.forall_mem_singleton.mpr hs⟩,
    List.forall_mem_cons.mpr ⟨hs, List.forall_mem_singleton.mpr he⟩⟩

theorem ifStatement (hg : g.Bounded n) : Yields g.ifStatement (·.Fits (n + 2)) := by
  unfold Grammar.ifStatement
  refine .after fun _ => .bind hg.parenthesized fun test ht => ?_
  refine .bind hg.statement fun consequent hc => ?_
  have hboth := (fits_pair ht hc).1
  refine .after fun taken => .ite (fun _ => ?_) fun _ => .pure (Stmt.fits_of_below hboth)
  refine .bind hg.statement fun alternate ha => .pure (Stmt.fits_of_below ?_)
  refine List.forall_mem_append.mpr ⟨hboth, ?_⟩
  exact List.forall_mem_singleton.mpr (ha.mono (Nat.le_succ n))

theorem forHead (hg : g.Bounded n) : Yields g.forHead (·.Fits (n + 2)) := by
  unfold Grammar.forHead
  refine .withoutIn (.after fun s => ?_)
  split
  · exact .bind hg.declarators fun ds hds => .pure (Branch.fits_flatMap hds)
  · refine .bind hg.expression fun e he => .pure ?_
    exact List.forall_mem_singleton.mpr (he.mono (Nat.le_succ _))

theorem forInRest (hg : g.Bounded n) {head : ForHead} (hh : head.Fits (n + 2)) :
    Yields (g.forInRest head) (·.Fits (n + 3)) := by
  have hsubject : Yields g.forSubject (·.Fits (n + 1)) := by
    unfold Grammar.forSubject
    refine .after fun taken => .ite (fun _ => ?_) fun _ => .after fun _ => hg.expression
    exact hg.assignment.mono fun e he => he.mono (Nat.le_succ n)
  unfold Grammar.forInRest
  refine .bind hsubject fun subject hs => .after fun _ => .bind hg.statement fun body hb => ?_
  refine .pure (Stmt.fits_of_below (List.forall_mem_append.mpr ⟨hh, fun c hc => ?_⟩))
  exact ((fits_pair hs hb).1 c hc).mono (Nat.le_succ _)

/-- An expression that is left out or not, and what follows it. -/
theorem expressionUnless (hg : g.Bounded n) (absent : Prop) [Decidable absent]
    {k : Option Expr → Parse β} {T : β → Prop}
    (hk : ∀ e : Option Expr, (∀ c ∈ e.toList.map Branch.expr, c.Fits (n + 1)) → Yields (k e) T) :
    Yields (if absent then pure none >>= k else (some <$> g.expression) >>= k) T := by
  refine .ite (fun _ => hk none (List.forall_mem_nil _)) fun _ => ?_
  refine .bind (.map (hg.expression.mono fun e he => ?_)) hk
  exact List.forall_mem_singleton.mpr he

theorem forRest (hg : g.Bounded n) {init : Option ForHead}
    (hi : ∀ head ∈ init.toList, head.Fits (n + 2)) :
    Yields (g.forRest init) (·.Fits (n + 3)) := by
  unfold Grammar.forRest
  refine .after fun _ => .after fun next => hg.expressionUnless _ fun test ht => ?_
  refine .after fun _ => .after fun next => hg.expressionUnless _ fun update hu => ?_
  refine .after fun _ => .bind hg.statement fun body hb => .pure (Stmt.fits_of_below ?_)
  have hle : n + 1 ≤ n + 2 := Nat.le_succ _
  refine List.forall_mem_append.mpr ⟨List.forall_mem_append.mpr ⟨List.forall_mem_append.mpr
    ⟨Branch.fits_flatMap hi, fun c hc => (ht c hc).mono hle⟩, fun c hc => (hu c hc).mono hle⟩, ?_⟩
  exact List.forall_mem_singleton.mpr (hb.mono (Nat.le_add_right n 2))

theorem forStatement (hg : g.Bounded n) : Yields g.forStatement (·.Fits (n + 3)) := by
  unfold Grammar.forStatement
  refine .after fun _ => .after fun token => .ite (fun _ => .unsupported) fun _ => ?_
  refine .after fun _ => .after fun next => .ite (fun _ => ?_) fun _ => ?_
  · exact hg.forRest (List.forall_mem_nil _)
  · refine .bind hg.forHead fun head hh => .after fun next => .ite (fun _ => ?_) fun _ => ?_
    · exact hg.forInRest hh
    · exact hg.forRest (List.forall_mem_singleton.mpr hh)

theorem whileStatement (hg : g.Bounded n) (position : Position) :
    Yields (g.whileStatement position) (·.Fits (n + 2)) := by
  unfold Grammar.whileStatement
  refine .after fun _ => .bind hg.parenthesized fun test ht => ?_
  exact .bind hg.statement fun body hb => .pure (Stmt.fits_of_below (fits_pair ht hb).1)

theorem doStatement (hg : g.Bounded n) (position : Position) :
    Yields (g.doStatement position) (·.Fits (n + 2)) := by
  unfold Grammar.doStatement
  refine .after fun _ => .bind hg.statement fun body hb => .after fun _ => ?_
  refine .bind hg.parenthesized fun test ht => .after fun _ => .pure ?_
  exact Stmt.fits_of_below (fits_pair ht hb).2

theorem withStatement (hg : g.Bounded n) (position : Position) :
    Yields (g.withStatement position) (·.Fits (n + 2)) := by
  unfold Grammar.withStatement
  refine .after fun _ => .bind hg.parenthesized fun object ho => ?_
  exact .bind hg.statement fun body hb => .pure (Stmt.fits_of_below (fits_pair ho hb).1)

/-! ### Blocks with clauses -/

theorem catchClause (hg : g.Bounded n) : Yields g.catchClause (·.Fits (n + 2)) := by
  have hle : n ≤ n + 2 := Nat.le_add_right n 2
  unfold Grammar.catchClause
  refine .after fun taken => .ite (fun _ => ?_) fun _ => ?_
  · refine .bind hg.bindingTarget fun target ht => .after fun _ => .bind hg.block fun body hb => ?_
    exact .pure (List.forall_mem_cons.mpr ⟨ht, Stmt.fits_body hb hle⟩)
  · exact .bind hg.block fun body hb => .pure (Stmt.fits_body hb hle)

theorem tryStatement (hg : g.Bounded n) : Yields g.tryStatement (·.Fits (n + 3)) := by
  have hle : n ≤ n + 2 := Nat.le_add_right n 2
  have hrest : ∀ (body : List Stmt) (handler : Option CatchClause), (∀ s ∈ body, s.Fits n) →
      (∀ k ∈ handler.toList, k.Fits (n + 2)) → Yields (do
        let finalizer ← if ← eatWord "finally" then some <$> g.block else pure none
        if handler.isNone && finalizer.isNone then
          fail "'try' without 'catch' or 'finally'"
        else return Stmt.try_ body handler finalizer) (·.Fits (n + 3)) := by
    intro body handler hb hk
    have hend : ∀ finalizer : Option (List Stmt), (∀ s ∈ finalizer.getD [], s.Fits n) →
        Yields (if (handler.isNone && finalizer.isNone) = true then
          fail "'try' without 'catch' or 'finally'"
        else pure (Stmt.try_ body handler finalizer)) (·.Fits (n + 3)) := by
      refine fun finalizer hf => .ite (fun _ => .fail) fun _ => .pure (Stmt.fits_of_below ?_)
      refine List.forall_mem_append.mpr ⟨List.forall_mem_append.mpr ⟨?_, ?_⟩, ?_⟩
      · exact Stmt.fits_body hb hle
      · exact Branch.fits_flatMap hk
      · exact Stmt.fits_body hf hle
    refine .after fun taken => .ite (fun _ => ?_) fun _ => hend none (List.forall_mem_nil _)
    exact .bind (.map hg.block) hend
  unfold Grammar.tryStatement
  refine .after fun _ => .bind hg.block fun body hb => .after fun taken => .ite (fun _ => ?_) ?_
  · refine .bind (.map (hg.catchClause.mono fun k hk => ?_)) fun handler hk => hrest body _ hb hk
    exact List.forall_mem_singleton.mpr hk
  · exact fun _ => hrest body none hb (List.forall_mem_nil _)

theorem switchCase (hg : g.Bounded n) : Yields g.switchCase (·.Fits (n + 1)) := by
  have htest : Yields g.caseTest fun test => ∀ c ∈ test.toList.map Branch.expr, c.Fits (n + 1) := by
    unfold Grammar.caseTest
    refine .after fun taken => .ite (fun _ => .bind hg.expression fun e he => .pure ?_) fun _ => ?_
    · exact List.forall_mem_singleton.mpr he
    · refine .after fun taken => .ite (fun _ => .pure ?_) fun _ => .failExpecting
      exact List.forall_mem_nil _
  unfold Grammar.switchCase
  refine .bind htest fun test ht => .after fun _ => .bind (hg.statementsUntil _) fun body hb => ?_
  exact .pure (List.forall_mem_append.mpr ⟨ht, Stmt.fits_body hb (Nat.le_succ n)⟩)

theorem switchStatement (hg : g.Bounded n) : Yields g.switchStatement (·.Fits (n + 2)) := by
  unfold Grammar.switchStatement
  refine .after fun _ => .bind hg.parenthesized fun discriminant hd => .after fun _ => ?_
  refine .gather (P := (·.Fits (n + 1))) fun cases hcases => ?_
  refine .after fun taken => .ite (fun _ => .pure (Stmt.fits_of_below ?_)) fun _ => ?_
  · exact List.forall_mem_cons.mpr ⟨hd, Branch.fits_flatMap (forall_mem_reverse hcases)⟩
  · refine .bind hg.switchCase fun case hcase => .after fun ended => .ite (fun _ => .fail) ?_
    exact fun _ => .pure (List.forall_mem_cons.mpr ⟨hcase, hcases⟩)

theorem returnStatement (hg : g.Bounded n) : Yields g.returnStatement (·.Fits (n + 2)) := by
  unfold Grammar.returnStatement
  refine .after fun s => .ite (fun _ => .fail) fun _ => .after fun _ => .after fun next => ?_
  refine hg.expressionUnless _ fun argument ha => .after fun _ => .pure ?_
  exact Stmt.fits_of_below ha

theorem throwStatement (hg : g.Bounded n) : Yields g.throwStatement (·.Fits (n + 2)) := by
  unfold Grammar.throwStatement
  refine .after fun _ => .after fun next => .ite (fun _ => .fail) fun _ => ?_
  refine .bind hg.expression fun argument ha => .after fun _ => .pure ?_
  exact Stmt.fits_of_below (List.forall_mem_singleton.mpr ha)

theorem wordStatement (hg : g.Bounded n) (name : String) (position : Position) :
    Yields (g.wordStatement name position) (·.Fits (n + 4)) := by
  have hdeclaration := fun kind => (hg.declaration kind).mono fun s hs => hs.mono (Nat.le_succ _)
  have hplain : ∀ {p : Parse Stmt}, Yields p (·.Fits (n + 2)) → Yields p (·.Fits (n + 4)) :=
    fun hp => hp.mono fun s hs => hs.mono (Nat.le_add_right _ 2)
  have hleaf : ∀ s : Stmt, Branch.ofStmt s = [] → s.Fits (n + 4) :=
    fun s h => Stmt.fits_of_below (h ▸ List.forall_mem_nil _)
  unfold Grammar.wordStatement
  split
  · exact hdeclaration .var
  · exact hdeclaration .const
  · exact .bind (hg.function true) fun f hf => .pure (Stmt.fits_of_below hf)
  · exact hplain hg.ifStatement
  · exact hg.forStatement.mono fun s hs => hs.mono (Nat.le_succ _)
  · exact hplain (hg.whileStatement position)
  · exact hplain (hg.doStatement position)
  · exact hplain (hg.withStatement position)
  · exact hplain hg.returnStatement
  · exact hplain hg.throwStatement
  · exact hg.tryStatement.mono fun s hs => hs.mono (Nat.le_succ _)
  · exact hplain hg.switchStatement
  iterate 2 exact .after fun _ => .after fun label => .after fun _ => .pure (hleaf _ rfl)
  · exact .after fun _ => .after fun _ => .pure (hleaf _ rfl)
  iterate 3 exact .unsupported
  refine .after fun s => .ite (fun _ => hdeclaration .let_) fun _ => .ite (fun _ => .unsupported) ?_
  refine fun _ => .ite (fun _ => .after fun _ => .after fun _ => ?_) fun _ => ?_
  · refine .bind hg.statement fun body hb => .pure (Stmt.fits_of_below ?_)
    exact List.forall_mem_singleton.mpr (hb.mono (Nat.le_add_right n 3))
  · exact hplain hg.expressionStatement

theorem statementInner (hg : g.Bounded n) : Yields g.statementInner (·.Fits (n + 4)) := by
  have hplain := hg.expressionStatement.mono fun s hs => hs.mono (Nat.le_add_right _ 2)
  unfold Grammar.statementInner
  refine .after fun token => .ite (fun _ => .bind hg.block fun body hb => .pure ?_) fun _ => ?_
  · exact Stmt.fits_of_below (Stmt.fits_body hb (Nat.le_add_right n 3))
  refine .ite (fun _ => .after fun _ => .pure ?_) fun _ => ?_
  · exact Stmt.fits_of_below (List.forall_mem_nil _)
  split
  · exact hg.wordStatement _ _
  · exact hplain

end Bounded

/-! ## §4 Levels -/

/-- Without a level nothing is given. -/
theorem exhausted_bounded : exhausted.Bounded maxExpressionDepth where
  measured := Nat.le_refl _
  statement := .fail
  assignment := .fail
  unary := .fail
  operand := fun _ => .fail
  innerNew := .fail

/-- A level of nesting adds at most five nodes. -/
theorem Bounded.next {g : Grammar} {n : Nat} (hg : g.Bounded n) : g.next.Bounded (n + 5) where
  measured := Nat.le_add_right_of_le hg.measured
  statement := .nested (hg.statementInner.mono fun _ h => h.mono (Nat.le_succ _))
  assignment := .nested (hg.assignmentInner.mono fun _ h => h.mono (Nat.le_succ _))
  unary := .nested hg.unaryInner
  operand := fun precedence =>
    .nested ((hg.binary precedence).mono fun _ h => h.mono (Nat.le_add_right n 5))
  innerNew := .nested (hg.newExpression.mono fun _ h => h.mono (Nat.le_add_right n 5))

/-- Any number of levels, five nodes for each. -/
theorem levels_bounded (levels : Nat) :
    (Grammar.levels levels).Bounded (maxExpressionDepth + 5 * levels) := by
  induction levels with
  | zero => exact exhausted_bounded
  | succ levels ih => exact ih.next

/-- The statements of a program are those of the topmost level. -/
theorem Bounded.program {g : Grammar} {n : Nat} (hg : g.Bounded n) :
    Yields g.program fun program => ∀ s ∈ program.body, s.Fits n := by
  unfold Grammar.program
  refine .gather (P := (·.Fits n)) fun body hbody => .after fun s => .ite (fun _ => ?_) fun _ => ?_
  · exact .pure (forall_mem_reverse hbody)
  · refine .ite (fun _ => .after fun _ => .pure hbody) fun _ => ?_
    refine .bind (.recovering hg.statement) fun r hr => ?_
    cases r with
    | some s => exact .pure (List.forall_mem_cons.mpr ⟨hr s rfl, hbody⟩)
    | none => exact .pure hbody

end Grammar

/-- What one measured expression and the whole budget of nesting add to the depth of a tree. -/
def depthBudget : Nat := maxExpressionDepth + 5 * (maxNesting + 1)

example : depthBudget = 1505 := rfl

/-- The statements of a program fit the budget. -/
theorem Program.ofTokens_fits (tokens : List Token) :
    ∀ s ∈ (Program.ofTokens tokens).1.body, s.Fits depthBudget := by
  unfold Program.ofTokens
  split
  case h_1 program s hr => exact (Grammar.levels_bounded (maxNesting + 1)).program _ _ _ hr
  case h_2 => exact List.forall_mem_nil _

end ScriptHooks.Script

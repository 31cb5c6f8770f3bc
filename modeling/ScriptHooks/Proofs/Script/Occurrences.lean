/-
ScriptHooks.Proofs.Script.Occurrences — the parts of a script as they are read, and where each
stands.

A `Part` is a piece of the tree together with the way it is read: an expression that is
evaluated, a pattern that is matched, a statement that is run, a function, or a method of an
object pattern. The last is idle. The grammar lets such a method stand, but nothing gives it a
meaning, and the walk that builds a symbol tree passes it by. `Part.below` says what stands
directly under a part, idle or not, in the order of the source.

An `Occurrence` is a part with all parts around it, and `Occurrence.walk` lists it and all below
it in preorder. This is the one walk over the tree as it is read. What the validator refuses,
where names belong, how the symbol tree is nested and where a `return` stands are all stated over
`Program.occurrences`. Two things are read off the parts around an occurrence:

* the functions around it (`functions`), by which names find their scope;
* whether it is outside all idle methods (`reached`), by which the symbol tree finds it.

## What is proved

* `walk_flatMap`: what a part gives, if at each level it is a share of its own and what the parts
  directly under it give, is the shares of all occurrences in it, in order. Facts about walkers of
  the tree are proved for one level and carried to the whole by this.
* `walk_reached`: the same for what gives nothing inside idle methods.
* `filterMap_branch?`: the occurrences of a part are the nodes of the plain syntax tree, in the
  same order. The shorthand `{a}` stands for two things, a key and a value, and its value is no
  node of its own. So the lemma is about what is picked from nodes that are not bare names.

Walks recur on `Part.size`. That parts are smaller than what they stand under is one lemma for
each kind of node; those for nodes that are read one way only come from the weights of branches.
-/
import ScriptHooks.Proofs.Script.TreeNodes

namespace ScriptHooks.Script

/-! ## Parts -/

/-- A piece of a script, as it is read. -/
inductive Part
  /-- An expression that is evaluated. -/
  | expr (e : Expr)
  /-- A pattern. It declares its names, or assigns them if it is the bare head of a loop. -/
  | pattern (declares : Bool) (e : Expr)
  | stmt (s : Stmt)
  | function (f : Function)
  /-- A method of an object pattern, which has no meaning. -/
  | idle (key : PropertyKey) (f : Function)

namespace Part

/-- A node that is evaluated or run. -/
def ofBranch : Branch → Part
  | .expr e => .expr e
  | .stmt s => .stmt s

def ofKey (key : PropertyKey) : List Part := (Branch.ofKey key).map ofBranch

/-- What stands under a property of an object. Its values are read as the object is; a shorthand
is a value too. -/
def ofProperty (value : Expr → Part) : Property → List Part
  | .keyValue key e => ofKey key ++ [value e]
  | .shorthand name position fallback =>
    value (.ident name position) :: fallback.toList.map .expr
  | .method key f => ofKey key ++ [.function f]
  | .spread operand => [value operand]

/-- What stands under a property of an object pattern. Keys and defaults are evaluated. -/
def ofPatternProperty (declares : Bool) : Property → List Part
  | .method key f => [.idle key f]
  | property => ofProperty (.pattern declares) property

def ofExpr : Expr → List Part
  | .object properties _ => properties.flatMap (ofProperty .expr)
  | .function f => [.function f]
  | e => (Branch.ofExpr e).map ofBranch

/-- What stands under a pattern. One that is no name, list, object, rest or default is
evaluated. -/
def ofPattern (declares : Bool) : Expr → List Part
  | .array items => items.map (.pattern declares)
  | .object properties _ => properties.flatMap (ofPatternProperty declares)
  | .spread operand => [.pattern declares operand]
  | .binary operator left right =>
    [if operator = "=" then .pattern declares left else .expr left, .expr right]
  | e => ofExpr e

def ofDeclarator : Declarator → List Part
  | .mk target init => .pattern true target :: init.toList.map .expr

/-- What stands in the head of a counting loop. -/
def ofHead : ForHead → List Part
  | .declare _ declarators => declarators.flatMap ofDeclarator
  | .expr e => [.expr e]

/-- What stands in the head of a loop over keys or items; a bare one is assigned. -/
def ofTarget : ForHead → List Part
  | .declare _ declarators => declarators.flatMap ofDeclarator
  | .expr e => [.pattern false e]

def ofCatch : CatchClause → List Part
  | .mk parameter body => parameter.toList.map (.pattern true) ++ body.map .stmt

def ofFunction : Function → List Part
  | .mk _ parameters body _ _ => parameters.map (.pattern true) ++ body.map .stmt

def ofStmt : Stmt → List Part
  | .declare _ declarators => declarators.flatMap ofDeclarator
  | .function f => [.function f]
  | .for_ init test update body =>
    init.toList.flatMap ofHead ++ test.toList.map .expr ++ update.toList.map .expr ++ [.stmt body]
  | .forIn head subject body => ofTarget head ++ [.expr subject, .stmt body]
  | .try_ block handler finalizer =>
    block.map .stmt ++ handler.toList.flatMap ofCatch ++ (finalizer.getD []).map .stmt
  | s => (Branch.ofStmt s).map ofBranch

/-- What stands directly under a part, in the order of the source. -/
def below : Part → List Part
  | .expr e => ofExpr e
  | .pattern declares e => ofPattern declares e
  | .stmt s => ofStmt s
  | .function f => ofFunction f
  | .idle key f => ofKey key ++ [.function f]

/-- Whether the part is a method of an object pattern. -/
def isIdle : Part → Bool
  | .idle _ _ => true
  | _ => false

def function? : Part → Option Function
  | .function f => some f
  | _ => none

@[simp] theorem isIdle_expr (e : Expr) : (expr e).isIdle = false := rfl

@[simp] theorem isIdle_pattern (declares : Bool) (e : Expr) :
    (pattern declares e).isIdle = false := rfl

@[simp] theorem isIdle_stmt (s : Stmt) : (stmt s).isIdle = false := rfl

@[simp] theorem isIdle_function (f : Function) : (function f).isIdle = false := rfl

@[simp] theorem isIdle_ofBranch (b : Branch) : (ofBranch b).isIdle = false := by
  cases b <;> rfl

theorem function?_eq_some {p : Part} {f : Function} : p.function? = some f ↔ p = .function f := by
  cases p <;> simp [function?]

/-! ### Which parts stand under which -/

section Kinds

variable {test : Part → Bool} (hexpr : ∀ e, test (.expr e) = false)
  (hfunction : ∀ f, test (.function f) = false)

include hexpr

theorem any_ofKey (key : PropertyKey) : (ofKey key).any test = false := by
  cases key <;> simp [ofKey, Branch.ofKey, ofBranch, hexpr]

include hfunction

theorem any_ofProperty {value : Expr → Part} (hvalue : ∀ e, test (value e) = false)
    (property : Property) : (ofProperty value property).any test = false := by
  cases property <;> simp [ofProperty, any_ofKey hexpr, hvalue, hexpr, hfunction]

/-- Under an expression stand expressions and functions only. -/
theorem any_ofExpr (e : Expr) : (ofExpr e).any test = false := by
  cases e with
  | object properties position =>
    simp [ofExpr, List.any_flatMap, any_ofProperty hexpr hfunction hexpr]
  | _ => simp [ofExpr, Branch.ofExpr, ofBranch, hexpr, hfunction]

end Kinds

@[simp] theorem any_isIdle_declarators (ds : List Declarator) :
    (ds.flatMap ofDeclarator).any isIdle = false := by
  rw [List.any_flatMap, List.any_eq_false]
  rintro ⟨target, init⟩ -
  simp [ofDeclarator]

theorem any_isIdle_ofStmt (s : Stmt) : (ofStmt s).any isIdle = false := by
  cases s with
  | for_ init test update body =>
    rcases init with _ | ⟨kind, ds⟩ | e <;> simp [ofStmt, ofHead, -List.any_flatMap]
  | forIn head subject body => cases head <;> simp [ofStmt, ofTarget, -List.any_flatMap]
  | try_ block handler finalizer =>
    rcases handler with _ | ⟨parameter, body⟩ <;> simp [ofStmt, ofCatch]
  | declare kind ds => exact any_isIdle_declarators ds
  | function f => rfl
  | _ => simp [ofStmt]

/-- Idle methods stand nowhere but directly under the object patterns that have them. -/
theorem exists_method_of_isIdle {p q : Part} (h : q ∈ p.below) (hq : q.isIdle = true) :
    ∃ declares properties position, p = .pattern declares (.object properties position) ∧
      ∃ key f, .method key f ∈ properties := by
  have hany : p.below.any isIdle = true := List.any_eq_true.mpr ⟨q, h, hq⟩
  have hkeys : ∀ key, (ofKey key).any isIdle = false := any_ofKey fun _ => rfl
  have hexprs : ∀ e, (ofExpr e).any isIdle = false := any_ofExpr (fun _ => rfl) fun _ => rfl
  cases p with
  | expr e => exact absurd ((hexprs e).symm.trans hany) nofun
  | pattern declares e =>
    cases e with
    | object properties position =>
      refine ⟨declares, properties, position, rfl, ?_⟩
      obtain ⟨property, hproperty, h⟩ := List.mem_flatMap.mp h
      cases property with
      | method key f => exact ⟨key, f, hproperty⟩
      | _ =>
        have hvalues : ∀ property, (ofProperty (pattern declares) property).any isIdle = false :=
          any_ofProperty (fun _ => rfl) (fun _ => rfl) fun _ => rfl
        simp only [ofPatternProperty] at h
        exact absurd hq (List.any_eq_false.mp (hvalues _) q h)
    | binary operator left right =>
      by_cases hop : operator = "=" <;> simp [below, ofPattern, hop] at hany
    | array | spread => simp [below, ofPattern] at hany
    | _ => simp [below, ofPattern, hexprs] at hany
  | stmt s => exact absurd ((any_isIdle_ofStmt s).symm.trans hany) nofun
  | function f =>
    obtain ⟨name, parameters, body, isArrow, position⟩ := f
    simp [below, ofFunction] at hany
  | idle key f => simp [below, hkeys] at hany

/-! ### What stands under a part is smaller -/

noncomputable def size : Part → Nat
  | .expr e => sizeOf e
  | .pattern _ e => sizeOf e
  | .stmt s => sizeOf s
  | .function f => sizeOf f
  | .idle key f => sizeOf key + sizeOf f

variable {p q : Part}

theorem size_ofBranch (b : Branch) : (ofBranch b).size = b.weight := by
  cases b <;> rfl

theorem size_lt_of_mem_map {α : Type} [SizeOf α] {f : α → Part}
    (hf : ∀ x, (f x).size = sizeOf x) {xs : List α} (h : q ∈ xs.map f) : q.size < sizeOf xs := by
  obtain ⟨x, hx, rfl⟩ := List.mem_map.mp h
  rw [hf]
  exact List.sizeOf_lt_of_mem hx

theorem size_lt_of_mem_toList {α : Type} [SizeOf α] {f : α → Part}
    (hf : ∀ x, (f x).size = sizeOf x) {o : Option α} (h : q ∈ o.toList.map f) :
    q.size < sizeOf o := by
  cases o with
  | none => simp at h
  | some x =>
    rw [Option.toList_some, List.map_singleton, List.mem_singleton] at h
    rw [h, hf, Option.some.sizeOf_spec]
    omega

theorem size_lt_of_mem_flatMap {α : Type} [SizeOf α] {f : α → List Part}
    (hf : ∀ x, ∀ q ∈ f x, q.size < sizeOf x) {xs : List α} (h : q ∈ xs.flatMap f) :
    q.size < sizeOf xs := by
  obtain ⟨x, hx, hq⟩ := List.mem_flatMap.mp h
  exact Nat.lt_trans (hf x q hq) (List.sizeOf_lt_of_mem hx)

/-- The branches under a node are lighter, and so are the parts that they are. -/
theorem size_lt_of_mem_branches {bs : List Branch} {size : Nat}
    (hbs : Branch.weightOfAll bs < size) (h : q ∈ bs.map ofBranch) : q.size < size := by
  obtain ⟨b, hb, rfl⟩ := List.mem_map.mp h
  rw [size_ofBranch]
  exact Nat.lt_of_le_of_lt (Branch.weight_le_weightOfAll hb) hbs

theorem size_lt_of_mem_ofKey {key : PropertyKey} (h : q ∈ ofKey key) : q.size < sizeOf key :=
  size_lt_of_mem_branches (Branch.weightOfAll_ofKey key) h

theorem size_lt_of_mem_ofProperty {value : Expr → Part} (hvalue : ∀ e, (value e).size = sizeOf e)
    (property : Property) : ∀ q ∈ ofProperty value property, q.size < sizeOf property := by
  intro q h
  cases property with
  | keyValue key e =>
    rw [Property.keyValue.sizeOf_spec]
    rcases List.mem_append.mp h with h | h
    · have := size_lt_of_mem_ofKey h
      omega
    · rw [List.mem_singleton.mp h, hvalue]
      omega
  | shorthand name position fallback =>
    rw [Property.shorthand.sizeOf_spec]
    rcases List.mem_cons.mp h with rfl | h
    · have hpos : 0 < sizeOf fallback := by cases fallback <;> simp +arith
      rw [hvalue, Expr.ident.sizeOf_spec]
      omega
    · have := size_lt_of_mem_toList (fun _ => rfl) h
      omega
  | method key f =>
    rw [Property.method.sizeOf_spec]
    rcases List.mem_append.mp h with h | h
    · have := size_lt_of_mem_ofKey h
      omega
    · rw [List.mem_singleton.mp h, size]
      omega
  | spread operand =>
    rw [List.mem_singleton.mp h, hvalue, Property.spread.sizeOf_spec]
    omega

theorem size_lt_of_mem_ofPatternProperty (declares : Bool) (property : Property) :
    ∀ q ∈ ofPatternProperty declares property, q.size < sizeOf property := by
  intro q h
  cases property with
  | method key f =>
    rw [List.mem_singleton.mp h, size, Property.method.sizeOf_spec]
    omega
  | _ => exact size_lt_of_mem_ofProperty (fun _ => rfl) _ q h

theorem size_lt_of_mem_ofExpr (e : Expr) : ∀ q ∈ ofExpr e, q.size < sizeOf e := by
  intro q h
  cases e with
  | object properties position =>
    have := size_lt_of_mem_flatMap (size_lt_of_mem_ofProperty fun _ => rfl) h
    rw [Expr.object.sizeOf_spec]
    omega
  | function f =>
    rw [List.mem_singleton.mp h, size, Expr.function.sizeOf_spec]
    omega
  | _ => exact size_lt_of_mem_branches (Branch.weightOfAll_ofExpr _) h

theorem size_lt_of_mem_ofPattern (declares : Bool) (e : Expr) :
    ∀ q ∈ ofPattern declares e, q.size < sizeOf e := by
  intro q h
  cases e with
  | array items =>
    have := size_lt_of_mem_map (fun _ => rfl) h
    rw [Expr.array.sizeOf_spec]
    omega
  | object properties position =>
    have := size_lt_of_mem_flatMap (size_lt_of_mem_ofPatternProperty declares) h
    rw [Expr.object.sizeOf_spec]
    omega
  | spread operand =>
    rw [List.mem_singleton.mp h, size, Expr.spread.sizeOf_spec]
    omega
  | binary operator left right =>
    rw [Expr.binary.sizeOf_spec]
    rcases List.mem_cons.mp h with rfl | h
    · split <;> simp only [size] <;> omega
    · rw [List.mem_singleton.mp h, size]
      omega
  | _ => exact size_lt_of_mem_ofExpr _ q h

theorem size_lt_of_mem_ofDeclarator (d : Declarator) :
    ∀ q ∈ ofDeclarator d, q.size < sizeOf d := by
  obtain ⟨target, init⟩ := d
  intro q h
  rw [Declarator.mk.sizeOf_spec]
  rcases List.mem_cons.mp h with rfl | h
  · rw [size]
    omega
  · have := size_lt_of_mem_toList (fun _ => rfl) h
    omega

theorem size_lt_of_mem_ofHead (head : ForHead) : ∀ q ∈ ofHead head, q.size < sizeOf head := by
  intro q h
  cases head with
  | declare kind declarators =>
    have := size_lt_of_mem_flatMap size_lt_of_mem_ofDeclarator h
    rw [ForHead.declare.sizeOf_spec]
    omega
  | expr e =>
    rw [List.mem_singleton.mp h, size, ForHead.expr.sizeOf_spec]
    omega

theorem size_lt_of_mem_ofTarget (head : ForHead) : ∀ q ∈ ofTarget head, q.size < sizeOf head := by
  intro q h
  cases head with
  | declare kind declarators => exact size_lt_of_mem_ofHead (.declare kind declarators) q h
  | expr e =>
    rw [List.mem_singleton.mp h, size, ForHead.expr.sizeOf_spec]
    omega

theorem size_lt_of_mem_ofCatch (k : CatchClause) : ∀ q ∈ ofCatch k, q.size < sizeOf k := by
  obtain ⟨parameter, body⟩ := k
  intro q h
  rw [CatchClause.mk.sizeOf_spec]
  rcases List.mem_append.mp h with h | h
  · have := size_lt_of_mem_toList (fun _ => rfl) h
    omega
  · have := size_lt_of_mem_map (fun _ => rfl) h
    omega

theorem size_lt_of_mem_ofFunction (f : Function) : ∀ q ∈ ofFunction f, q.size < sizeOf f := by
  obtain ⟨name, parameters, body, isArrow, position⟩ := f
  intro q h
  rw [Function.mk.sizeOf_spec]
  rcases List.mem_append.mp h with h | h
  · have := size_lt_of_mem_map (fun _ => rfl) h
    omega
  · have := size_lt_of_mem_map (fun _ => rfl) h
    omega

theorem size_lt_of_mem_ofStmt (s : Stmt) : ∀ q ∈ ofStmt s, q.size < sizeOf s := by
  intro q h
  cases s with
  | declare kind declarators =>
    have := size_lt_of_mem_flatMap size_lt_of_mem_ofDeclarator h
    rw [Stmt.declare.sizeOf_spec]
    omega
  | function f =>
    rw [List.mem_singleton.mp h, size, Stmt.function.sizeOf_spec]
    omega
  | for_ init test update body =>
    rw [Stmt.for_.sizeOf_spec]
    simp only [ofStmt, List.mem_append, List.mem_singleton] at h
    rcases h with ((h | h) | h) | rfl
    · obtain ⟨head, hhead, hq⟩ := List.mem_flatMap.mp h
      obtain rfl := Option.mem_toList.mp hhead
      have := size_lt_of_mem_ofHead head q hq
      rw [Option.some.sizeOf_spec]
      omega
    · have := size_lt_of_mem_toList (fun _ => rfl) h
      omega
    · have := size_lt_of_mem_toList (fun _ => rfl) h
      omega
    · rw [size]
      omega
  | forIn head subject body =>
    rw [Stmt.forIn.sizeOf_spec]
    simp only [ofStmt, List.mem_append, List.mem_cons, List.not_mem_nil, or_false] at h
    rcases h with h | rfl | rfl
    · have := size_lt_of_mem_ofTarget head q h
      omega
    · rw [size]
      omega
    · rw [size]
      omega
  | try_ block handler finalizer =>
    rw [Stmt.try_.sizeOf_spec]
    simp only [ofStmt, List.mem_append] at h
    rcases h with (h | h) | h
    · have := size_lt_of_mem_map (fun _ => rfl) h
      omega
    · obtain ⟨clause, hclause, hq⟩ := List.mem_flatMap.mp h
      obtain rfl := Option.mem_toList.mp hclause
      have := size_lt_of_mem_ofCatch clause q hq
      rw [Option.some.sizeOf_spec]
      omega
    · cases finalizer with
      | none => simp at h
      | some body =>
        have := size_lt_of_mem_map (fun _ => rfl) h
        rw [Option.getD_some] at this
        rw [Option.some.sizeOf_spec]
        omega
  | _ => exact size_lt_of_mem_branches (Branch.weightOfAll_ofStmt _) h

/-- What stands directly under a part is smaller than it, so that walks end. -/
theorem size_lt_of_mem_below (h : q ∈ p.below) : q.size < p.size := by
  cases p with
  | expr e => exact size_lt_of_mem_ofExpr e q h
  | pattern declares e => exact size_lt_of_mem_ofPattern declares e q h
  | stmt s => exact size_lt_of_mem_ofStmt s q h
  | function f => exact size_lt_of_mem_ofFunction f q h
  | idle key f =>
    rw [size]
    rcases List.mem_append.mp h with h | h
    · have := size_lt_of_mem_ofKey h
      omega
    · have hkey : 0 < sizeOf key := by cases key <;> simp +arith
      rw [List.mem_singleton.mp h, size]
      omega

/-- What holds of a part when it holds of all directly under it holds of every part. -/
theorem ofBelow {motive : Part → Prop}
    (step : ∀ p : Part, (∀ c ∈ p.below, motive c) → motive p) (p : Part) : motive p :=
  step p fun c _ => ofBelow step c
termination_by p.size
decreasing_by exact size_lt_of_mem_below ‹_›

end Part

/-! ## Occurrences -/

/-- A part of a script with the parts around it, the innermost one first. -/
structure Occurrence where
  part : Part
  around : List Part

namespace Occurrence

variable {p q r c : Occurrence} {rel outer : List Function} {f : Function}

def below (p : Occurrence) : List Occurrence := p.part.below.map fun q => ⟨q, p.part :: p.around⟩

/-- Whether it stands outside all methods of object patterns. -/
def reached (p : Occurrence) : Bool := p.around.all fun q => !q.isIdle

/-- The functions around it, the innermost one first. -/
def functions (p : Occurrence) : List Function := p.around.filterMap Part.function?

theorem mem_below : c ∈ p.below ↔ c.part ∈ p.part.below ∧ c.around = p.part :: p.around := by
  obtain ⟨part, around⟩ := c
  simp only [below, List.mem_map, Occurrence.mk.injEq]
  constructor
  · rintro ⟨q, hq, rfl, rfl⟩
    exact ⟨hq, rfl⟩
  · rintro ⟨hq, rfl⟩
    exact ⟨part, hq, rfl, rfl⟩

theorem size_lt_of_mem_below (h : c ∈ p.below) : c.part.size < p.part.size :=
  Part.size_lt_of_mem_below (mem_below.mp h).1

/-! ### The walk -/

/-- The occurrence and all below it, each before what is below it. -/
def walk (p : Occurrence) : List Occurrence := p :: p.below.attach.flatMap fun c => walk c.1
termination_by p.part.size
decreasing_by exact size_lt_of_mem_below c.2

theorem walk_eq (p : Occurrence) : p.walk = p :: p.below.flatMap walk := by
  rw [walk]
  simp only [List.flatMap_subtype, List.unattach_attach]

theorem mem_walk : q ∈ p.walk ↔ q = p ∨ ∃ c ∈ p.below, q ∈ c.walk := by
  rw [walk_eq, List.mem_cons, List.mem_flatMap]

theorem self_mem_walk (p : Occurrence) : p ∈ p.walk := mem_walk.mpr (.inl rfl)

/-- What holds of an occurrence when it holds of all directly under it holds of every
occurrence. -/
theorem ofBelow {motive : Occurrence → Prop}
    (step : ∀ p : Occurrence, (∀ c ∈ p.below, motive c) → motive p) (p : Occurrence) : motive p :=
  step p fun c _ => ofBelow step c
termination_by p.part.size
decreasing_by exact size_lt_of_mem_below ‹_›

/-- What is below something that is below an occurrence is below that occurrence. -/
theorem mem_walk_trans (hq : q ∈ p.walk) (hr : r ∈ q.walk) : r ∈ p.walk := by
  induction p using ofBelow with
  | step p ih =>
    rcases mem_walk.mp hq with rfl | ⟨c, hc, hq⟩
    · exact hr
    · exact mem_walk.mpr (.inr ⟨c, hc, ih c hc hq⟩)

/-- If what an occurrence gives is its own share and what those directly under it give, then it
is the share of every occurrence in it. -/
theorem walk_flatMap {α : Type} {given own : Occurrence → List α}
    (h : ∀ p, given p = own p ++ p.below.flatMap given) (p : Occurrence) :
    given p = p.walk.flatMap own := by
  induction p using ofBelow with
  | step p ih =>
    rw [h, walk_eq, List.flatMap_cons, List.flatMap_assoc]
    exact congrArg _ (List.flatMap_congr ih)

/-! ### What is around an occurrence -/

/-- An idle method cuts off what is under it, and nothing else does. -/
theorem reached_of_mem_below (hc : c ∈ p.below) : c.reached = (!p.part.isIdle && p.reached) := by
  rw [reached, (mem_below.mp hc).2, List.all_cons, reached]

/-- Below what is left out, all is left out. -/
theorem reached_of_mem_walk (hq : q ∈ p.walk) (hreached : q.reached = true) :
    p.reached = true := by
  induction p using ofBelow with
  | step p ih =>
    rcases mem_walk.mp hq with rfl | ⟨c, hc, hq⟩
    · exact hreached
    · have hcr := ih c hc hq
      rw [reached_of_mem_below hc, Bool.and_eq_true] at hcr
      exact hcr.2

/-- Only a function adds to the functions around what is under it. -/
theorem functions_of_mem_below (hc : c ∈ p.below) :
    c.functions = p.part.function?.toList ++ p.functions := by
  rw [functions, (mem_below.mp hc).2, functions]
  cases h : p.part.function? with
  | none => rw [List.filterMap_cons_none h]; rfl
  | some f => rw [List.filterMap_cons_some h]; rfl

/-- The functions around an occurrence are around all below it. -/
theorem functions_of_mem_walk (hq : q ∈ p.walk) : ∃ rel, q.functions = rel ++ p.functions := by
  induction p using ofBelow with
  | step p ih =>
    rcases mem_walk.mp hq with rfl | ⟨c, hc, hq⟩
    · exact ⟨[], rfl⟩
    · obtain ⟨rel, hrel⟩ := ih c hc hq
      exact ⟨rel ++ p.part.function?.toList, by
        rw [hrel, functions_of_mem_below hc, List.append_assoc]⟩

/-- A function around an occurrence is an occurrence above it, or is around where the walk
began. -/
theorem exists_function (hq : q ∈ p.walk) (hfunctions : q.functions = rel ++ f :: outer) :
    (∃ rel', p.functions = rel' ++ f :: outer) ∨
      ∃ u ∈ p.walk, u.part = .function f ∧ u.functions = outer ∧ q ∈ u.walk := by
  induction p using ofBelow with
  | step p ih =>
    rcases mem_walk.mp hq with rfl | ⟨c, hc, hqc⟩
    · exact .inl ⟨rel, hfunctions⟩
    obtain ⟨rel', hrel⟩ | ⟨u, hu, hfun⟩ := ih c hc hqc
    · rw [functions_of_mem_below hc] at hrel
      cases hp : p.part with
      | function g =>
        rw [hp] at hrel
        cases rel' with
        | nil =>
          obtain ⟨rfl, houter⟩ := List.cons.inj hrel
          exact .inr ⟨p, self_mem_walk p, hp, houter, hq⟩
        | cons first rel' => exact .inl ⟨rel', (List.cons.inj hrel).2⟩
      | _ =>
        rw [hp] at hrel
        exact .inl ⟨rel', hrel⟩
    · exact .inr ⟨u, mem_walk.mpr (.inr ⟨c, hc, hu⟩), hfun⟩

/-- If outside idle methods a part gives its own share and what the parts under it give, and an
idle method gives nothing, then a part that is reached gives the shares of all that is reached in
it. -/
theorem walk_reached {α : Type} {given : Part → List α} {own : Part → Option α}
    (h : ∀ p : Part, p.isIdle = false → given p = (own p).toList ++ p.below.flatMap given)
    (hidle : ∀ key f, given (.idle key f) = [] ∧ own (.idle key f) = none)
    (hp : p.reached = true) :
    given p.part = (p.walk.filter (·.reached)).filterMap (own ·.part) := by
  have hlevel : ∀ q : Occurrence, (if q.reached then given q.part else []) =
      (if q.reached then (own q.part).toList else []) ++
        q.below.flatMap fun c => if c.reached then given c.part else [] := by
    intro q
    have hbelow : ∀ c ∈ q.below, (if c.reached then given c.part else []) =
        if !q.part.isIdle && q.reached then given c.part else [] := fun c hc => by
      rw [reached_of_mem_below hc]
    rw [List.flatMap_congr hbelow]
    cases q.reached with
    | false => simp
    | true =>
      cases hq : q.part.isIdle with
      | false => simp [below, List.flatMap_map, h q.part hq]
      | true =>
        unfold Part.isIdle at hq
        split at hq
        case h_1 key f heq => simp [heq, hidle key f]
        case h_2 => cases hq
  have hgiven := walk_flatMap hlevel p
  rw [if_pos hp] at hgiven
  rw [hgiven, List.filterMap_filter, List.filterMap_eq_flatMap_toList]
  refine List.flatMap_congr fun q _ => ?_
  cases q.reached <;> rfl

end Occurrence

namespace Program

/-- Every part of a script, in the order of the source, with what is around it. -/
def occurrences (program : Program) : List Occurrence :=
  program.body.flatMap fun s => Occurrence.walk ⟨.stmt s, []⟩

variable {program : Program} {p q : Occurrence} {f : Function} {rel outer : List Function}

theorem mem_occurrences_of_mem_walk (hp : p ∈ program.occurrences) (hq : q ∈ p.walk) :
    q ∈ program.occurrences := by
  obtain ⟨s, hs, hp⟩ := List.mem_flatMap.mp hp
  exact List.mem_flatMap.mpr ⟨s, hs, Occurrence.mem_walk_trans hp hq⟩

/-- Each function around an occurrence in a program is an occurrence in it. -/
theorem exists_function (hq : q ∈ program.occurrences)
    (hfunctions : q.functions = rel ++ f :: outer) :
    ∃ u ∈ program.occurrences, u.part = .function f ∧ u.functions = outer ∧ q ∈ u.walk := by
  obtain ⟨s, hs, hq⟩ := List.mem_flatMap.mp hq
  obtain ⟨rel', hrel⟩ | ⟨u, hu, hfun⟩ := Occurrence.exists_function hq hfunctions
  · simp [Occurrence.functions] at hrel
  · exact ⟨u, List.mem_flatMap.mpr ⟨s, hs, hu⟩, hfun⟩

/-- What a program gives, if each reached part gives its share and that of the parts under it. -/
theorem flatMap_reached {α : Type} {given : Part → List α} {own : Part → Option α}
    (h : ∀ p : Part, p.isIdle = false → given p = (own p).toList ++ p.below.flatMap given)
    (hidle : ∀ key f, given (.idle key f) = [] ∧ own (.idle key f) = none) (program : Program) :
    (program.body.flatMap fun s => given (.stmt s)) =
      (program.occurrences.filter (·.reached)).filterMap (own ·.part) := by
  rw [occurrences, List.filter_flatMap, List.filterMap_flatMap]
  exact List.flatMap_congr fun s _ => Occurrence.walk_reached (p := ⟨.stmt s, []⟩) h hidle rfl

end Program

/-! ## Occurrences are nodes -/

/-- What is picked from a node and from all below it. -/
def Branch.picked {α : Type} (pick : Branch → Option α) (b : Branch) : List α :=
  b.nodes.filterMap pick

theorem Branch.picked_eq {α : Type} (pick : Branch → Option α) (b : Branch) :
    b.picked pick = (pick b).toList ++ b.children.flatMap (picked pick) := by
  rw [picked, nodes_eq, List.filterMap_eq_flatMap_toList, List.flatMap_cons, List.flatMap_assoc]
  exact congrArg _ (List.flatMap_congr fun c _ => (List.filterMap_eq_flatMap_toList _ _).symm)

namespace Part

/-- The node of the syntax tree that a part is. Functions and methods are none. -/
def branch? : Part → Option Branch
  | .expr e => some (.expr e)
  | .pattern _ e => some (.expr e)
  | .stmt s => some (.stmt s)
  | _ => none

/-- The nodes of the syntax tree at the top of a part. -/
def branches : Part → List Branch
  | .expr e => [.expr e]
  | .pattern _ e => [.expr e]
  | .stmt s => [.stmt s]
  | .function f => Branch.ofFunction f
  | .idle key f => Branch.ofKey key ++ Branch.ofFunction f

variable {α : Type} {pick : Branch → Option α}

def picked (pick : Branch → Option α) (p : Part) : List α :=
  p.branches.flatMap (Branch.picked pick)

@[simp] theorem picked_expr (e : Expr) :
    (expr e).picked pick = (Branch.expr e).picked pick := by
  simp [picked, branches]

@[simp] theorem picked_pattern (declares : Bool) (e : Expr) :
    (pattern declares e).picked pick = (Branch.expr e).picked pick := by
  simp [picked, branches]

@[simp] theorem picked_stmt (s : Stmt) : (stmt s).picked pick = (Branch.stmt s).picked pick := by
  simp [picked, branches]

@[simp] theorem picked_function (f : Function) :
    (function f).picked pick = (Branch.ofFunction f).flatMap (Branch.picked pick) := rfl

@[simp] theorem picked_ofBranch (b : Branch) : (ofBranch b).picked pick = b.picked pick := by
  cases b <;> simp [ofBranch]

@[simp] theorem picked_key (key : PropertyKey) :
    (ofKey key).flatMap (picked pick) = (Branch.ofKey key).flatMap (Branch.picked pick) := by
  simp [ofKey, List.flatMap_map]

/-- However the values of a property are read, they are the same nodes. The value of a shorthand
is none, and nothing is picked from it. -/
theorem picked_property (hident : ∀ name position, pick (.expr (.ident name position)) = none)
    {value : Expr → Part} (hvalue : ∀ e, (value e).picked pick = (Branch.expr e).picked pick)
    (property : Property) :
    (ofProperty value property).flatMap (picked pick) =
      (Branch.ofProperty property).flatMap (Branch.picked pick) := by
  have hname : ∀ name position, (Branch.expr (.ident name position)).picked pick = [] := by
    intro name position
    rw [Branch.picked_eq, hident]
    rfl
  cases property <;> simp [ofProperty, Branch.ofProperty, hvalue, hname, List.flatMap_map]

theorem picked_patternProperty
    (hident : ∀ name position, pick (.expr (.ident name position)) = none) (declares : Bool)
    (property : Property) :
    (ofPatternProperty declares property).flatMap (picked pick) =
      (Branch.ofProperty property).flatMap (Branch.picked pick) := by
  cases property with
  | method key f => simp [ofPatternProperty, Branch.ofProperty, picked, branches]
  | _ => simp only [ofPatternProperty, picked_property hident (picked_pattern declares)]

@[simp] theorem picked_declarator (d : Declarator) :
    (ofDeclarator d).flatMap (picked pick) =
      (Branch.ofDeclarator d).flatMap (Branch.picked pick) := by
  obtain ⟨target, init⟩ := d
  simp [ofDeclarator, Branch.ofDeclarator, List.flatMap_map]

@[simp] theorem picked_head (head : ForHead) :
    (ofHead head).flatMap (picked pick) = (Branch.ofHead head).flatMap (Branch.picked pick) := by
  cases head <;> simp [ofHead, Branch.ofHead, List.flatMap_assoc]

@[simp] theorem picked_target (head : ForHead) :
    (ofTarget head).flatMap (picked pick) = (Branch.ofHead head).flatMap (Branch.picked pick) := by
  cases head <;> simp [ofTarget, Branch.ofHead, List.flatMap_assoc]

@[simp] theorem picked_catch (clause : CatchClause) :
    (ofCatch clause).flatMap (picked pick) =
      (Branch.ofCatch clause).flatMap (Branch.picked pick) := by
  obtain ⟨parameter, body⟩ := clause
  simp [ofCatch, Branch.ofCatch, List.flatMap_map]

variable (hident : ∀ name position, pick (.expr (.ident name position)) = none)

include hident

theorem picked_ofExpr (e : Expr) :
    (ofExpr e).flatMap (picked pick) = (Branch.ofExpr e).flatMap (Branch.picked pick) := by
  cases e with
  | object properties position =>
    simp [ofExpr, Branch.ofExpr, List.flatMap_assoc, picked_property hident picked_expr]
  | _ => simp [ofExpr, Branch.ofExpr, List.flatMap_map]

theorem picked_ofPattern (declares : Bool) (e : Expr) :
    (ofPattern declares e).flatMap (picked pick) =
      (Branch.ofExpr e).flatMap (Branch.picked pick) := by
  cases e with
  | object properties position =>
    simp [ofPattern, Branch.ofExpr, List.flatMap_assoc, picked_patternProperty hident]
  | binary operator left right =>
    by_cases hop : operator = "=" <;> simp [ofPattern, Branch.ofExpr, hop]
  | array | spread => simp [ofPattern, Branch.ofExpr, List.flatMap_map]
  | _ => simp only [ofPattern, picked_ofExpr hident]

omit hident in
theorem picked_ofStmt (s : Stmt) :
    (ofStmt s).flatMap (picked pick) = (Branch.ofStmt s).flatMap (Branch.picked pick) := by
  cases s <;> simp [ofStmt, Branch.ofStmt, List.flatMap_map, List.flatMap_assoc]

/-- What is picked from a part is picked from its own node, if it is one, and from the parts
under it. -/
theorem picked_eq (p : Part) :
    p.picked pick = (p.branch?.bind pick).toList ++ p.below.flatMap (picked pick) := by
  cases p with
  | expr e =>
    rw [picked_expr, Branch.picked_eq, below, picked_ofExpr hident]
    rfl
  | pattern declares e =>
    rw [picked_pattern, Branch.picked_eq, below, picked_ofPattern hident]
    rfl
  | stmt s =>
    rw [picked_stmt, Branch.picked_eq, below, picked_ofStmt]
    rfl
  | function f =>
    obtain ⟨name, parameters, body, isArrow, position⟩ := f
    simp [branch?, below, ofFunction, Branch.ofFunction, List.flatMap_map]
  | idle key f => simp [branch?, below, picked, branches]

end Part

/-- What is picked from the occurrences in a program is what is picked from its nodes, in the
same order, unless bare names are picked: the value of a shorthand is a part, but no node. -/
theorem Program.filterMap_branch? {α : Type} {pick : Branch → Option α}
    (hident : ∀ name position, pick (.expr (.ident name position)) = none) (program : Program) :
    program.occurrences.filterMap (·.part.branch?.bind pick) = program.nodes.filterMap pick := by
  have hlevel : ∀ p : Occurrence, p.part.picked pick =
      (p.part.branch?.bind pick).toList ++ p.below.flatMap fun c => c.part.picked pick := fun p => by
    rw [Part.picked_eq hident, Occurrence.below, List.flatMap_map]
  have hwalk : ∀ p : Occurrence,
      p.walk.filterMap (·.part.branch?.bind pick) = p.part.picked pick := fun p => by
    rw [List.filterMap_eq_flatMap_toList]
    exact (Occurrence.walk_flatMap hlevel p).symm
  rw [occurrences, nodes, List.filterMap_flatMap, List.filterMap_flatMap]
  exact List.flatMap_congr fun s _ => (hwalk _).trans (Part.picked_stmt s)

end ScriptHooks.Script

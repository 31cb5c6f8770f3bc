/-
ScriptHooks.Proofs.Script.NameOwners — which names a part declares or uses, and to whom a name
belongs.

A name that is read or assigned (`Occurrence.name?`) belongs to the innermost function around it
that declares the name, or to the root (`OwnedBy`). A function declares what its parameters and
its body bind outside the functions in it (`Function.Declares`). Both are said of occurrences, so
that they are about the script and not about how a name is looked up.

The node of a function lists what `Function.declared` gathers, by recursions of its own over
patterns and statements. `Function.declares_iff` says that these are the names that the function
declares. It takes two steps:

* `Part.declared_eq`, for one level: what is gathered from a part is what it declares itself and
  what is gathered from the parts under it. Functions are the exception, since what is in them
  stays in them;
* `Occurrence.mem_declared_iff`, for the whole part: a name is gathered if it is declared
  somewhere in the part with no further function around it.

`Program.scopes` lists the root and the functions that the symbol tree is built from, each with
the functions around it. A scope is a list of functions, not a node of the tree, and two functions
of the same text in different places are two scopes.
-/
import ScriptHooks.Proofs.Script.Occurrences
import ScriptHooks.Script.Symbols

namespace ScriptHooks.Script

/-! ## Names -/

/-- The name that a part declares by itself: a name in a pattern, or that of a declared
function. -/
def Part.bound? : Part → Option String
  | .pattern true (.ident name _) => some name
  | .stmt (.function (.mk name _ _ _ _)) => name
  | _ => none

/-- The name that a part reads or, as the head of a loop, assigns. -/
def Part.name? : Part → Option String
  | .expr (.ident name _) => some name
  | .pattern false (.ident name _) => some name
  | _ => none

def Part.isExpr : Part → Bool
  | .expr _ => true
  | _ => false

def Occurrence.name? (p : Occurrence) : Option String := p.part.name?

/-- Whether the occurrence is an expression that the symbol tree is built from. -/
def Occurrence.isEvaluated (p : Occurrence) : Bool := p.part.isExpr && p.reached

/-- A function declares what its parameters and its body bind outside the functions in it. -/
def Function.Declares (f : Function) (name : String) : Prop :=
  ∃ p ∈ Occurrence.walk ⟨.function f, []⟩, p.functions = [f] ∧ p.part.bound? = some name

/-- A name used within these functions, the innermost one first, belongs to the first of them
that declares it, which is given with all around it; or to the root. -/
inductive OwnedBy (name : String) : List Function → List Function → Prop
  | root : OwnedBy name [] []
  | here {f outer} (h : f.Declares name) : OwnedBy name (f :: outer) (f :: outer)
  | outward {f outer owner} (h : ¬f.Declares name) (howner : OwnedBy name outer owner) :
      OwnedBy name (f :: outer) owner

/-- The scope that a function opens: itself and the functions around it. -/
def Occurrence.scope? (p : Occurrence) : Option (List Function) :=
  p.part.function?.map (· :: p.functions)

/-- The root, around which there is nothing, and the scopes of the functions that the symbol
tree is built from, in the order of the source. -/
def Program.scopes (program : Program) : List (List Function) :=
  [] :: (program.occurrences.filter (·.reached)).filterMap Occurrence.scope?

/-- A name belongs to a scope if that is what is left of the functions around it after those that
do not declare the name, and its first function does. -/
theorem ownedBy_iff {name : String} {around owner : List Function} :
    OwnedBy name around owner ↔ ∃ rel, around = rel ++ owner ∧
      (∀ f ∈ rel, ¬f.Declares name) ∧ ∀ f ∈ owner.head?, f.Declares name := by
  constructor
  · intro h
    induction h with
    | root => exact ⟨[], rfl, nofun, nofun⟩
    | here h => exact ⟨[], rfl, nofun, fun f hf => Option.some.inj hf ▸ h⟩
    | @outward f outer owner h _ ih =>
      obtain ⟨rel, rfl, hfree, howner⟩ := ih
      exact ⟨f :: rel, rfl, List.forall_mem_cons.mpr ⟨h, hfree⟩, howner⟩
  · rintro ⟨rel, rfl, hfree, howner⟩
    induction rel with
    | nil =>
      cases owner with
      | nil => exact .root
      | cons f outer => exact .here (howner f rfl)
    | cons f rel ih =>
      obtain ⟨h, hfree⟩ := List.forall_mem_cons.mp hfree
      exact .outward h (ih hfree)

/-- Every name belongs somewhere, at the latest to the root. -/
theorem exists_ownedBy (name : String) (around : List Function) :
    ∃ owner, OwnedBy name around owner := by
  induction around with
  | nil => exact ⟨[], .root⟩
  | cons f outer ih =>
    by_cases h : f.Declares name
    · exact ⟨f :: outer, .here h⟩
    · obtain ⟨owner, howner⟩ := ih
      exact ⟨owner, .outward h howner⟩

/-- The scopes of a program other than the root are those of its functions outside idle
methods. -/
theorem Program.cons_mem_scopes {program : Program} {f : Function} {outer : List Function} :
    f :: outer ∈ program.scopes ↔ ∃ p ∈ program.occurrences,
      p.part = .function f ∧ p.functions = outer ∧ p.reached = true := by
  rw [scopes, List.mem_cons, List.mem_filterMap]
  constructor
  · rintro (h | ⟨p, hp, hscope⟩)
    · cases h
    · obtain ⟨hp, hreached⟩ := List.mem_filter.mp hp
      obtain ⟨part, around⟩ := p
      cases part with
      | function g =>
        obtain ⟨rfl, houter⟩ := List.cons.inj (Option.some.inj hscope)
        exact ⟨_, hp, rfl, houter, hreached⟩
      | _ => cases hscope
  · rintro ⟨p, hp, hpart, rfl, hreached⟩
    refine .inr ⟨p, List.mem_filter.mpr ⟨hp, hreached⟩, ?_⟩
    rw [Occurrence.scope?, hpart]
    rfl

/-! ## What a function declares -/

theorem mem_distinct {name : String} {names : List String} :
    name ∈ distinct names ↔ name ∈ names := by
  have hfold : ∀ kept : List String,
      name ∈ names.foldl (fun kept name => if kept.contains name then kept else name :: kept) kept
        ↔ name ∈ kept ∨ name ∈ names := by
    induction names with
    | nil => simp
    | cons first names ih =>
      intro kept
      rw [List.foldl_cons, ih]
      by_cases h : first ∈ kept <;> grind
  rw [distinct, List.mem_reverse, hfold]
  simp

theorem nodup_distinct (names : List String) : (distinct names).Nodup := by
  have hfold : ∀ kept : List String, kept.Nodup →
      (names.foldl (fun kept name => if kept.contains name then kept else name :: kept)
        kept).Nodup := by
    induction names with
    | nil => exact fun kept h => h
    | cons first names ih =>
      intro kept h
      rw [List.foldl_cons]
      apply ih
      split
      case isTrue => exact h
      case isFalse hnew => exact List.nodup_cons.mpr ⟨by simpa using hnew, h⟩
  exact (List.reverse_perm _).nodup_iff.mpr (hfold [] List.nodup_nil)

namespace Part

/-- The names that a part declares outside the functions in it, as they are gathered. -/
def declared : Part → List String
  | .pattern true e => e.namesBound
  | .stmt s => s.declaredNames
  | _ => []

@[simp] theorem ofBranch_comp_expr : ofBranch ∘ Branch.expr = expr := rfl

@[simp] theorem ofBranch_comp_stmt : ofBranch ∘ Branch.stmt = stmt := rfl

@[simp] theorem declared_exprs (es : List Expr) : (es.map expr).flatMap declared = [] := by
  simp [declared]

@[simp] theorem declared_targets (es : List Expr) :
    (es.map (pattern false)).flatMap declared = [] := by
  simp [declared]

@[simp] theorem declared_patterns (es : List Expr) :
    (es.map (pattern true)).flatMap declared = boundNamesOfAll es := by
  induction es with
  | nil => rfl
  | cons e es ih => rw [List.map_cons, List.flatMap_cons, ih, boundNamesOfAll, declared]

@[simp] theorem declared_stmts (ss : List Stmt) :
    (ss.map stmt).flatMap declared = Stmt.declaredByAll ss := by
  induction ss with
  | nil => rfl
  | cons s ss ih => rw [List.map_cons, List.flatMap_cons, ih, Stmt.declaredByAll, declared]

@[simp] theorem declared_key (key : PropertyKey) : (ofKey key).flatMap declared = [] := by
  cases key <;> rfl

@[simp] theorem declared_properties (ps : List Property) :
    (ps.flatMap (ofProperty .expr)).flatMap declared = [] := by
  rw [List.flatMap_assoc, List.flatMap_eq_nil_iff]
  intro p _
  cases p <;> simp [ofProperty, declared]

@[simp] theorem declared_patternProperties (declares : Bool) (ps : List Property) :
    (ps.flatMap (ofPatternProperty declares)).flatMap declared =
      if declares then boundNamesOfProperties ps else [] := by
  induction ps with
  | nil => cases declares <;> rfl
  | cons p ps ih =>
    rw [List.flatMap_cons, List.flatMap_append, ih]
    cases declares <;> cases p <;>
      simp [ofPatternProperty, ofProperty, declared, boundNamesOfProperties, Property.namesBound,
        Expr.namesBound]

@[simp] theorem declared_declarators (ds : List Declarator) :
    (ds.flatMap ofDeclarator).flatMap declared = Declarator.boundNamesOfAll ds := by
  rw [List.flatMap_assoc, Declarator.boundNamesOfAll]
  refine List.flatMap_congr fun d _ => ?_
  obtain ⟨target, init⟩ := d
  simp [ofDeclarator, declared]

@[simp] theorem declared_head (head : ForHead) :
    (ofHead head).flatMap declared = head.declaredNames := by
  cases head <;> simp [ofHead, ForHead.declaredNames, declared]

@[simp] theorem declared_target (head : ForHead) :
    (ofTarget head).flatMap declared = head.declaredNames := by
  cases head <;> simp [ofTarget, ForHead.declaredNames, declared]

@[simp] theorem declared_catch (handler : Option CatchClause) :
    (handler.toList.flatMap ofCatch).flatMap declared = Stmt.declaredByCatch handler := by
  rcases handler with _ | ⟨_ | parameter, body⟩ <;>
    simp [ofCatch, Stmt.declaredByCatch, declared]

@[simp] theorem declaredByAll_getD (body : Option (List Stmt)) :
    Stmt.declaredByAll (body.getD []) = Stmt.declaredByFinally body := by
  cases body <;> rfl

@[simp] theorem declaredByAll_toList (s : Option Stmt) :
    Stmt.declaredByAll s.toList = Stmt.declaredByOption s := by
  cases s <;> simp [Stmt.declaredByAll, Stmt.declaredByOption]

@[simp] theorem declared_cases (ks : List SwitchCase) :
    ((ks.flatMap Branch.ofCase).map ofBranch).flatMap declared = Stmt.declaredByCases ks := by
  induction ks with
  | nil => rfl
  | cons k ks ih =>
    obtain ⟨test, body⟩ := k
    rw [List.flatMap_cons, List.map_append, List.flatMap_append, ih]
    simp [Branch.ofCase, Stmt.declaredByCases]

/-- Expressions declare nothing. -/
theorem declared_ofExpr (e : Expr) : (ofExpr e).flatMap declared = [] := by
  cases e <;> simp [ofExpr, Branch.ofExpr, ofBranch, declared]

theorem declared_ofPattern (e : Expr) :
    e.namesBound = (pattern true e).bound?.toList ++ (ofPattern true e).flatMap declared := by
  cases e with
  | binary operator left right =>
    by_cases h : operator = "=" <;> simp [ofPattern, bound?, Expr.namesBound, declared, h]
  | ident | array | object | spread =>
    simp [ofPattern, bound?, Expr.namesBound, declared, ofExpr, Branch.ofExpr]
  | _ => simp [ofPattern, bound?, Expr.namesBound, declared_ofExpr]

theorem declared_ofTarget (e : Expr) : (ofPattern false e).flatMap declared = [] := by
  cases e with
  | binary operator left right =>
    by_cases h : operator = "=" <;> simp [ofPattern, declared, h]
  | array | object | spread => simp [ofPattern, declared]
  | _ => simp [ofPattern, declared_ofExpr]

theorem declared_ofStmt (s : Stmt) :
    s.declaredNames = (stmt s).bound?.toList ++ (ofStmt s).flatMap declared := by
  cases s with
  | function f =>
    obtain ⟨name, parameters, body, isArrow, position⟩ := f
    simp [ofStmt, Stmt.declaredNames, bound?, Function.names, declared]
  | for_ init test update body =>
    cases init <;> simp [ofStmt, Stmt.declaredNames, bound?, declared]
  | _ => simp [ofStmt, Branch.ofStmt, ofBranch, Stmt.declaredNames, bound?, declared]

/-- What is gathered from a part is what it declares itself and what is gathered from the parts
under it, unless it is a function. -/
theorem declared_eq {p : Part} (hp : p.function? = none) :
    p.declared = p.bound?.toList ++ p.below.flatMap declared := by
  cases p with
  | expr e => simp [declared, bound?, below, declared_ofExpr]
  | pattern declares e =>
    cases declares with
    | true => exact declared_ofPattern e
    | false => simp [declared, bound?, below, declared_ofTarget]
  | stmt s => exact declared_ofStmt s
  | function f => cases hp
  | idle key f => simp [declared, bound?, below]

end Part

/-- The names that are gathered from a part are those that are declared in it within the same
functions. -/
theorem Occurrence.mem_declared_iff (p : Occurrence) (name : String) :
    name ∈ p.part.declared ↔
      ∃ q ∈ p.walk, q.functions = p.functions ∧ q.part.bound? = some name := by
  induction p using ofBelow with
  | step p ih =>
    cases hp : p.part.function? with
    | some f =>
      have hpart : p.part = .function f := Part.function?_eq_some.mp hp
      simp only [hpart, Part.declared, List.not_mem_nil, false_iff, not_exists, not_and]
      intro q hq hfunctions
      rcases mem_walk.mp hq with rfl | ⟨c, hc, hq⟩
      · simp [hpart, Part.bound?]
      · -- below a function, the function is around
        obtain ⟨rel, hrel⟩ := functions_of_mem_walk hq
        rw [functions_of_mem_below hc, hp, hfunctions] at hrel
        have := congrArg List.length hrel
        simp at this
        omega
    | none =>
      have hbelow : ∀ c ∈ p.below, c.functions = p.functions := fun c hc => by
        rw [functions_of_mem_below hc, hp]
        rfl
      rw [Part.declared_eq hp, List.mem_append, Option.mem_toList, List.mem_flatMap]
      constructor
      · rintro (hname | ⟨part, hpart, hname⟩)
        · exact ⟨p, self_mem_walk p, rfl, hname⟩
        · have hc : ⟨part, p.part :: p.around⟩ ∈ p.below := mem_below.mpr ⟨hpart, rfl⟩
          obtain ⟨q, hq, hfunctions, hbound⟩ := (ih _ hc).mp hname
          exact ⟨q, mem_walk.mpr (.inr ⟨_, hc, hq⟩), hfunctions.trans (hbelow _ hc), hbound⟩
      · rintro ⟨q, hq, hfunctions, hbound⟩
        rcases mem_walk.mp hq with rfl | ⟨c, hc, hq⟩
        · exact .inl hbound
        · exact .inr ⟨c.part, (mem_below.mp hc).1,
            (ih c hc).mpr ⟨q, hq, hfunctions.trans (hbelow c hc).symm, hbound⟩⟩

/-- The names that the node of a function lists as declared, each once. -/
def Function.declared : Function → List String
  | .mk _ parameters body _ _ => distinct (boundNamesOfAll parameters ++ Stmt.declaredByAll body)

theorem Function.mem_declared (f : Function) (name : String) :
    name ∈ f.declared ↔ name ∈ (Part.ofFunction f).flatMap Part.declared := by
  obtain ⟨_, parameters, body, _, _⟩ := f
  simp [declared, mem_distinct, Part.ofFunction]

/-- What the node of a function lists as declared is what the function declares. -/
theorem Function.declares_iff (f : Function) (name : String) :
    f.Declares name ↔ name ∈ f.declared := by
  rw [mem_declared, List.mem_flatMap]
  constructor
  · rintro ⟨q, hq, hfunctions, hbound⟩
    rcases Occurrence.mem_walk.mp hq with rfl | ⟨c, hc, hq⟩
    · cases hfunctions
    · have hinside : c.functions = [f] := Occurrence.functions_of_mem_below hc
      exact ⟨c.part, (Occurrence.mem_below.mp hc).1,
        (c.mem_declared_iff name).mpr ⟨q, hq, hfunctions.trans hinside.symm, hbound⟩⟩
  · rintro ⟨part, hpart, hname⟩
    have hc : ⟨part, [.function f]⟩ ∈ Occurrence.below ⟨.function f, []⟩ :=
      Occurrence.mem_below.mpr ⟨hpart, rfl⟩
    obtain ⟨q, hq, hfunctions, hbound⟩ :=
      (Occurrence.mem_declared_iff ⟨part, [.function f]⟩ name).mp hname
    exact ⟨q, Occurrence.mem_walk.mpr (.inr ⟨_, hc, hq⟩), hfunctions, hbound⟩

end ScriptHooks.Script

/-
ScriptHooks.Proofs.Script.ReferenceTheorems — which names a symbol tree lists as references, and
where.

`Program.references_complete_iff` says it all. Scopes and their nodes go together one by one. A
scope lists exactly the names that are evaluated below it and belong to it, each once. So every
name that is read or assigned is listed where it belongs if and only if each one that is not
evaluated (it is assigned by the bare head of a loop, or stands in a method of an object pattern)
is also evaluated somewhere, and belongs to the same scope there. The loop of `bareLoop` shows
that the condition can fail.

## How the proof goes

Both fields of a harvest are read off `Part.harvest_eq`.

* The nodes. `SymbolTree.walk_ofProgram` says that the nodes of the tree are those of the parts
  that are reached. Those that open scopes are the nodes of the scopes, in the same order
  (`SymbolTree.scopeNodes_ofProgram`).
* The uses. A part passes on the names that are evaluated in it, and a function keeps those that
  it declares. The invariant is `Occurrence.Frees`: a name leaves a part if it is evaluated
  somewhere in it and no function on the way declares it. `Occurrence.mem_uses_iff` proves it by
  induction on the part, with one case for functions, one for idle methods and one for all else.
* What a scope keeps of the uses that leave the parts in it is then what belongs to it
  (`Program.mem_references`), since `OwnedBy` is about the same functions on the way.

A name may be evaluated at several places with different parts around them, so scopes are told
apart by the functions around an occurrence and not by the occurrence itself.
-/
import Mathlib.Data.List.Forall2
import ScriptHooks.Proofs.Script.PartHarvests

namespace ScriptHooks.Script

/-! ## Uses -/

namespace Part

/-- The name that the walk takes note of at a part. -/
def noted? : Part → Option String
  | .expr (.ident name _) => some name
  | _ => none

/-- Outside functions and idle methods, a part adds its own name to the uses below it. -/
theorem uses_harvest {p : Part} (hp : p.function? = none) (hidle : p.isIdle = false) :
    p.harvest.uses = p.noted?.toList ++ p.below.flatMap (·.harvest.uses) := by
  rw [harvest_eq, ← uses_gather]
  cases p with
  | expr e => cases e <;> rfl
  | pattern declares e => cases e <;> rfl
  | stmt s => rfl
  | function f => cases hp
  | idle key f => cases hidle

/-- A function keeps the uses of the names that it declares. -/
theorem mem_uses_function {f : Function} {name : String} :
    name ∈ (function f).harvest.uses ↔
      (∃ p ∈ ofFunction f, name ∈ p.harvest.uses) ∧ name ∉ f.declared := by
  obtain ⟨fname, parameters, body, isArrow, position⟩ := f
  rw [harvest_eq, ← List.mem_flatMap, ← uses_gather]
  simp [Harvest.close, below]

end Part

namespace Occurrence

variable {p q c : Occurrence} {name : String}

theorem noted?_eq_some : q.isEvaluated = true ∧ q.name? = some name ↔
    q.reached = true ∧ q.part.noted? = some name := by
  obtain ⟨part, around⟩ := q
  cases part with
  | expr e => cases e <;> rfl
  | _ => simp [isEvaluated, Part.isExpr, Part.noted?]

/-- The name is evaluated at an occurrence below, and no function on the way declares it. -/
def Frees (p : Occurrence) (name : String) : Prop :=
  ∃ q ∈ p.walk, (q.isEvaluated = true ∧ q.name? = some name) ∧
    ∃ rel, q.functions = rel ++ p.functions ∧ ∀ f ∈ rel, ¬f.Declares name

/-- An idle method frees nothing: what is below it is not reached. -/
theorem not_frees_of_isIdle (hp : p.part.isIdle = true) : ¬p.Frees name := by
  rintro ⟨q, hq, hnoted, -⟩
  obtain ⟨hreached, hname⟩ := noted?_eq_some.mp hnoted
  rcases mem_walk.mp hq with rfl | ⟨c, hc, hq⟩
  · cases h : q.part <;> simp [h, Part.isIdle, Part.noted?] at hp hname
  · have hcr := reached_of_mem_walk hq hreached
    rw [reached_of_mem_below hc, hp] at hcr
    cases hcr

/-- A function frees what is freed under it, except the names that it declares. -/
theorem frees_of_function {f : Function} (hp : p.part = .function f) :
    p.Frees name ↔
      (∃ part ∈ p.part.below, Frees ⟨part, p.part :: p.around⟩ name) ∧ ¬f.Declares name := by
  have hinside : ∀ c ∈ p.below, c.functions = f :: p.functions := fun c hc => by
    rw [functions_of_mem_below hc, hp]
    rfl
  constructor
  · rintro ⟨q, hq, hnoted, rel, hrel, hfree⟩
    rcases mem_walk.mp hq with rfl | ⟨⟨part, around⟩, hc, hq⟩
    · rw [name?, hp] at hnoted
      exact absurd hnoted.2 nofun
    · obtain ⟨hpart, rfl⟩ := mem_below.mp hc
      obtain ⟨rel', hrel'⟩ := functions_of_mem_walk hq
      have heq : rel = rel' ++ [f] := by
        refine (List.append_left_inj p.functions).mp ?_
        rw [← hrel, hrel', hinside _ hc, List.append_assoc, List.singleton_append]
      subst heq
      refine ⟨⟨part, hpart, q, hq, hnoted, rel', hrel', fun g hg => ?_⟩, ?_⟩
      · exact hfree g (List.mem_append_left _ hg)
      · exact hfree f (List.mem_append_right _ (List.mem_singleton_self f))
  · rintro ⟨⟨part, hpart, q, hq, hnoted, rel, hrel, hfree⟩, hnot⟩
    have hc : ⟨part, p.part :: p.around⟩ ∈ p.below := mem_below.mpr ⟨hpart, rfl⟩
    refine ⟨q, mem_walk.mpr (.inr ⟨_, hc, hq⟩), hnoted, rel ++ [f], ?_, fun g hg => ?_⟩
    · rw [hrel, hinside _ hc, List.append_assoc, List.singleton_append]
    · rcases List.mem_append.mp hg with hg | hg
      · exact hfree g hg
      · rwa [List.mem_singleton.mp hg]

/-- What is no function frees its own name and what is freed under it. -/
theorem frees_of_other (hp : p.part.function? = none) (hreached : p.reached = true) :
    p.Frees name ↔ p.part.noted? = some name ∨
      ∃ part ∈ p.part.below, Frees ⟨part, p.part :: p.around⟩ name := by
  have hinside : ∀ c ∈ p.below, c.functions = p.functions := fun c hc => by
    rw [functions_of_mem_below hc, hp]
    rfl
  constructor
  · rintro ⟨q, hq, hnoted, rel, hrel, hfree⟩
    rcases mem_walk.mp hq with rfl | ⟨⟨part, around⟩, hc, hq⟩
    · exact .inl (noted?_eq_some.mp hnoted).2
    · obtain ⟨hpart, rfl⟩ := mem_below.mp hc
      exact .inr ⟨part, hpart, q, hq, hnoted, rel, by rw [hrel, hinside _ hc], hfree⟩
  · rintro (hnoted | ⟨part, hpart, q, hq, hnoted, rel, hrel, hfree⟩)
    · exact ⟨p, self_mem_walk p, noted?_eq_some.mpr ⟨hreached, hnoted⟩, [], rfl, nofun⟩
    · have hc : ⟨part, p.part :: p.around⟩ ∈ p.below := mem_below.mpr ⟨hpart, rfl⟩
      exact ⟨q, mem_walk.mpr (.inr ⟨_, hc, hq⟩), hnoted, rel, by rw [hrel, hinside _ hc], hfree⟩

/-- The uses that leave a part are the names that it frees. -/
theorem mem_uses_iff (hp : p.reached = true) : name ∈ p.part.harvest.uses ↔ p.Frees name := by
  induction p using ofBelow with
  | step p ih =>
    cases hidle : p.part.isIdle with
    | true =>
      refine iff_of_false ?_ (not_frees_of_isIdle hidle)
      cases h : p.part <;> simp [h, Part.isIdle] at hidle ⊢
      exact List.not_mem_nil
    | false =>
      have hbelow : ∀ part ∈ p.part.below,
          (name ∈ part.harvest.uses ↔ Frees ⟨part, p.part :: p.around⟩ name) := by
        intro part hpart
        have hc : ⟨part, p.part :: p.around⟩ ∈ p.below := mem_below.mpr ⟨hpart, rfl⟩
        exact ih _ hc (by rw [reached_of_mem_below hc, hidle, hp]; rfl)
      cases hf : p.part.function? with
      | some f =>
        have hf := Part.function?_eq_some.mp hf
        rw [frees_of_function hf, Function.declares_iff]
        rw [hf] at hbelow ⊢
        rw [Part.mem_uses_function]
        exact and_congr_left fun _ => exists_congr fun part => and_congr_right (hbelow part)
      | none =>
        rw [frees_of_other hf hp, Part.uses_harvest hf hidle, List.mem_append, Option.mem_toList,
          List.mem_flatMap]
        exact or_congr_right (exists_congr fun part => and_congr_right (hbelow part))

/-- The uses that leave what stands in a function are the names that it frees there. -/
theorem mem_uses_below {f : Function} {part : Part} (hp : p.part = .function f)
    (hreached : p.reached = true) (hpart : part ∈ Part.ofFunction f) :
    name ∈ part.harvest.uses ↔ Frees ⟨part, .function f :: p.around⟩ name := by
  have hc : ⟨part, .function f :: p.around⟩ ∈ p.below := by
    rw [mem_below, hp]
    exact ⟨hpart, rfl⟩
  exact mem_uses_iff (by rw [reached_of_mem_below hc, hp, hreached]; rfl)

end Occurrence

/-! ## The nodes of the tree -/

def Function.node : Function → SymbolNode
  | .mk name parameters body isArrow position =>
    let f := Function.mk name parameters body isArrow position
    let inner := Part.gather (Part.ofFunction f)
    .mk .function name position.line f.declared (distinct (inner.uses.filter f.declared.contains))
      inner.nodes

theorem Function.declarations_node (f : Function) : f.node.declarations = f.declared := by
  cases f
  rfl

theorem Function.references_node (f : Function) :
    f.node.references =
      distinct ((Part.gather (Part.ofFunction f)).uses.filter f.declared.contains) := by
  cases f
  rfl

def Part.node? : Part → Option SymbolNode
  | .expr (.object properties position) =>
    some (.mk .object none position.line [] []
      (gather (ofExpr (.object properties position))).nodes)
  | .expr (.call callee arguments isNew position)
  | .pattern _ (.call callee arguments isNew position) =>
    some (.mk .call callee.dottedName position.line [] []
      (gather (ofExpr (.call callee arguments isNew position))).nodes)
  | .function f => some f.node
  | _ => none

theorem SymbolNode.walkAll_singleton (node : SymbolNode) :
    walkAll [node] = node :: walkAll node.children := by
  rw [walkAll, walkAll, List.append_nil, walk_eq]

/-- Outside idle methods, the nodes of a part are its own, if it has one, and those of the parts
under it. -/
theorem Part.walkAll_harvest {p : Part} (hp : p.isIdle = false) :
    SymbolNode.walkAll p.harvest.nodes =
      p.node?.toList ++ p.below.flatMap fun q => SymbolNode.walkAll q.harvest.nodes := by
  rw [harvest_eq, ← walkAll_gather]
  cases p with
  | expr e =>
    cases e with
    | object | call => exact SymbolNode.walkAll_singleton _
    | _ => rfl
  | pattern declares e =>
    cases e with
    | call => exact SymbolNode.walkAll_singleton _
    | _ => rfl
  | stmt s => rfl
  | function f =>
    obtain ⟨name, parameters, body, isArrow, position⟩ := f
    exact SymbolNode.walkAll_singleton _
  | idle key f => cases hp

def SymbolNode.isScope (node : SymbolNode) : Bool := node.kind == .root || node.kind == .function

namespace SymbolTree

/-- The root and the functions of a tree, each before what is below it. -/
def scopeNodes (tree : SymbolTree) : List SymbolNode := tree.root.walk.filter (·.isScope)

def nodeOf (tree : SymbolTree) : List Function → SymbolNode
  | [] => tree.root
  | f :: _ => f.node

variable (program : Program)

/-- The nodes of a tree are the root and those of all parts that are reached. -/
theorem walk_ofProgram :
    (ofProgram program).root.walk = (ofProgram program).root ::
      (program.occurrences.filter (·.reached)).filterMap (·.part.node?) := by
  have hnodes : SymbolNode.walkAll (Stmt.harvestAll program.body).nodes =
      (program.occurrences.filter (·.reached)).filterMap (·.part.node?) := by
    rw [← Program.flatMap_reached (fun p => p.walkAll_harvest) (fun _ _ => ⟨rfl, rfl⟩),
      ← Part.gather_stmts, Part.walkAll_gather, List.flatMap_map]
  rw [SymbolNode.walk_eq, ← hnodes]
  rfl

/-- The nodes of functions are those of the scopes that they open. -/
theorem filter_node? (tree : SymbolTree) (p : Occurrence) :
    p.part.node?.filter (·.isScope) = p.scope?.map tree.nodeOf := by
  obtain ⟨part, around⟩ := p
  cases part with
  | expr e => cases e <;> rfl
  | pattern declares e => cases e <;> rfl
  | stmt s => rfl
  | function f =>
    obtain ⟨name, parameters, body, isArrow, position⟩ := f
    rfl
  | idle key f => rfl

/-- Every scope has its node, in the order of the source. -/
theorem scopeNodes_ofProgram :
    (ofProgram program).scopeNodes = program.scopes.map (ofProgram program).nodeOf := by
  rw [scopeNodes, walk_ofProgram, List.filter_cons_of_pos rfl, List.filter_filterMap,
    Program.scopes, List.map_cons, List.map_filterMap]
  congr 1
  exact List.filterMap_congr fun p _ => filter_node? _ p

/-- Objects and calls list no names. -/
theorem names_of_not_isScope {node : SymbolNode} (hnode : node ∈ (ofProgram program).root.walk)
    (hscope : node.isScope = false) : node.declarations = [] ∧ node.references = [] := by
  rw [walk_ofProgram, List.mem_cons, List.mem_filterMap] at hnode
  obtain rfl | ⟨p, -, hnode⟩ := hnode
  · cases hscope
  · unfold Part.node? at hnode
    split at hnode
    case h_1 | h_2 | h_3 =>
      cases hnode
      exact ⟨rfl, rfl⟩
    case h_4 f _ =>
      cases f
      cases hnode
      cases hscope
    case h_5 => cases hnode

end SymbolTree

/-! ## References -/

namespace Program

variable {program : Program} {name : String} {scope : List Function}

/-- The root lists what is evaluated and no function around it declares. -/
theorem mem_references_root :
    name ∈ (SymbolTree.ofProgram program).root.references ↔
      ∃ q ∈ program.occurrences, (q.isEvaluated = true ∧ q.name? = some name) ∧
        OwnedBy name q.functions [] := by
  have hroot : (SymbolTree.ofProgram program).root.references =
      distinct (Part.gather (program.body.map .stmt)).uses := by
    rw [Part.gather_stmts]
    rfl
  have huses : ∀ s : Stmt, name ∈ (Part.stmt s).harvest.uses ↔
      Occurrence.Frees ⟨.stmt s, []⟩ name := fun s =>
    Occurrence.mem_uses_iff (p := ⟨.stmt s, []⟩) rfl
  rw [hroot, mem_distinct, Part.uses_gather, List.flatMap_map, List.mem_flatMap]
  simp only [huses]
  constructor
  · rintro ⟨s, hs, q, hq, hnoted, rel, hrel, hfree⟩
    exact ⟨q, List.mem_flatMap.mpr ⟨s, hs, hq⟩, hnoted, ownedBy_iff.mpr ⟨rel, hrel, hfree, nofun⟩⟩
  · rintro ⟨q, hq, hnoted, howned⟩
    obtain ⟨s, hs, hq⟩ := List.mem_flatMap.mp hq
    obtain ⟨rel, hrel, hfree, -⟩ := ownedBy_iff.mp howned
    exact ⟨s, hs, q, hq, hnoted, rel, hrel, hfree⟩

variable {f : Function} {outer : List Function}

/-- If a name that belongs to a function is evaluated, then the function is a scope, and the name
is used in it. -/
theorem exists_scope {q : Occurrence} (hq : q ∈ program.occurrences)
    (hnoted : q.isEvaluated = true ∧ q.name? = some name)
    (howned : OwnedBy name q.functions (f :: outer)) :
    f :: outer ∈ program.scopes ∧ ∃ part ∈ Part.ofFunction f, name ∈ part.harvest.uses := by
  obtain ⟨rel, hrel, hfree, -⟩ := ownedBy_iff.mp howned
  obtain ⟨u, hu, hpart, rfl, hqu⟩ := exists_function hq hrel
  have hreached := Occurrence.reached_of_mem_walk hqu (Occurrence.noted?_eq_some.mp hnoted).1
  refine ⟨cons_mem_scopes.mpr ⟨u, hu, hpart, rfl, hreached⟩, ?_⟩
  obtain rfl | ⟨⟨part, around⟩, hc, hqc⟩ := Occurrence.mem_walk.mp hqu
  · rw [Occurrence.name?, hpart] at hnoted
    exact absurd hnoted.2 nofun
  · obtain ⟨hmem, rfl⟩ := Occurrence.mem_below.mp hc
    have hinside := Occurrence.functions_of_mem_below hc
    rw [hpart] at hmem hqc hinside
    refine ⟨part, hmem, (Occurrence.mem_uses_below hpart hreached hmem).mpr
      ⟨q, hqc, hnoted, rel, ?_, hfree⟩⟩
    rw [hrel, hinside]
    rfl

/-- A function lists what is evaluated in it and belongs to it. -/
theorem mem_references_function (hscope : f :: outer ∈ program.scopes) :
    name ∈ f.node.references ↔
      ∃ q ∈ program.occurrences, (q.isEvaluated = true ∧ q.name? = some name) ∧
        OwnedBy name q.functions (f :: outer) := by
  rw [Function.references_node, mem_distinct, List.mem_filter, Part.uses_gather, List.mem_flatMap,
    List.contains_iff_mem, ← Function.declares_iff]
  constructor
  · rintro ⟨⟨part, hmem, hname⟩, hdeclares⟩
    obtain ⟨u, hu, hpart, rfl, hreached⟩ := cons_mem_scopes.mp hscope
    obtain ⟨q, hq, hnoted, rel, hrel, hfree⟩ :=
      (Occurrence.mem_uses_below hpart hreached hmem).mp hname
    have hc : ⟨part, .function f :: u.around⟩ ∈ u.below := by
      rw [Occurrence.mem_below, hpart]
      exact ⟨hmem, rfl⟩
    refine ⟨q, mem_occurrences_of_mem_walk hu (Occurrence.mem_walk.mpr (.inr ⟨_, hc, hq⟩)),
      hnoted, ownedBy_iff.mpr ⟨rel, ?_, hfree, fun g hg => Option.some.inj hg ▸ hdeclares⟩⟩
    rw [hrel, Occurrence.functions_of_mem_below hc, hpart]
    rfl
  · rintro ⟨q, hq, hnoted, howned⟩
    obtain ⟨-, -, -, hdeclares⟩ := ownedBy_iff.mp howned
    exact ⟨(exists_scope hq hnoted howned).2, hdeclares f rfl⟩

/-- A scope lists what is evaluated in it and belongs to it. -/
theorem mem_references (hscope : scope ∈ program.scopes) :
    name ∈ ((SymbolTree.ofProgram program).nodeOf scope).references ↔
      ∃ q ∈ program.occurrences, (q.isEvaluated = true ∧ q.name? = some name) ∧
        OwnedBy name q.functions scope := by
  cases scope with
  | nil => exact mem_references_root
  | cons f outer => exact mem_references_function hscope

/-- The node is that of the scope, and its names are right. -/
structure Describes (program : Program) (node : SymbolNode) (scope : List Function) : Prop where
  root : scope = [] → node = (SymbolTree.ofProgram program).root
  function : ∀ {name parameters body isArrow position outer},
    scope = .mk name parameters body isArrow position :: outer →
      node.kind = .function ∧ node.name = name ∧ node.line = position.line
  /-- A function lists the names that it declares. -/
  declares : ∀ f ∈ scope.head?, ∀ name, name ∈ node.declarations ↔ f.Declares name
  references_subset : scope ≠ [] → node.references ⊆ node.declarations
  declarations_nodup : node.declarations.Nodup
  references_nodup : node.references.Nodup
  /-- What is listed is read or assigned somewhere, and belongs here. -/
  stems : ∀ name ∈ node.references,
    ∃ p ∈ program.occurrences, p.name? = some name ∧ OwnedBy name p.functions scope

/-- The name of an occurrence is listed at the node of the scope that it belongs to. -/
def Lists (program : Program) (p : Occurrence) (name : String) : Prop :=
  ∃ node scope, (node, scope) ∈ (SymbolTree.ofProgram program).scopeNodes.zip program.scopes ∧
    OwnedBy name p.functions scope ∧ name ∈ node.references

/-- Every scope of a program has the node that stands for it. -/
theorem describes (hscope : scope ∈ program.scopes) :
    program.Describes ((SymbolTree.ofProgram program).nodeOf scope) scope where
  root := by
    rintro rfl
    rfl
  function := by
    rintro name parameters body isArrow position outer rfl
    exact ⟨rfl, rfl, rfl⟩
  declares := by
    cases scope with
    | nil => nofun
    | cons f outer =>
      rintro g hg name
      obtain rfl := Option.some.inj hg
      rw [SymbolTree.nodeOf, Function.declarations_node, Function.declares_iff]
  references_subset := by
    cases scope with
    | nil => exact fun h => absurd rfl h
    | cons f outer =>
      intro _ name hname
      rw [SymbolTree.nodeOf, Function.references_node, mem_distinct, List.mem_filter,
        List.contains_iff_mem] at hname
      rw [SymbolTree.nodeOf, Function.declarations_node]
      exact hname.2
  declarations_nodup := by
    cases scope with
    | nil => exact nodup_distinct _
    | cons f outer =>
      cases f
      exact nodup_distinct _
  references_nodup := by
    cases scope with
    | nil => exact nodup_distinct _
    | cons f outer =>
      cases f
      exact nodup_distinct _
  stems name hname := by
    obtain ⟨q, hq, hnoted, howned⟩ := (mem_references hscope).mp hname
    exact ⟨q, hq, hnoted.2, howned⟩

theorem mem_zip_scopes {node : SymbolNode} :
    (node, scope) ∈ (SymbolTree.ofProgram program).scopeNodes.zip program.scopes ↔
      scope ∈ program.scopes ∧ node = (SymbolTree.ofProgram program).nodeOf scope := by
  have hzip := List.zip_map' (f := (SymbolTree.ofProgram program).nodeOf) (g := id)
    (l := program.scopes)
  rw [List.map_id] at hzip
  rw [SymbolTree.scopeNodes_ofProgram, hzip, List.mem_map]
  constructor
  · rintro ⟨other, hother, heq⟩
    cases heq
    exact ⟨hother, rfl⟩
  · rintro ⟨hscope, rfl⟩
    exact ⟨scope, hscope, rfl⟩

/-- The name of an occurrence is listed if it is evaluated somewhere and belongs to the same scope
there. -/
theorem lists_iff {p : Occurrence} :
    program.Lists p name ↔ ∃ q ∈ program.occurrences, (q.isEvaluated = true ∧ q.name? = some name) ∧
      ∃ scope, OwnedBy name p.functions scope ∧ OwnedBy name q.functions scope := by
  constructor
  · rintro ⟨node, scope, hzip, howned, hname⟩
    obtain ⟨hscope, rfl⟩ := mem_zip_scopes.mp hzip
    obtain ⟨q, hq, hnoted, howned'⟩ := (mem_references hscope).mp hname
    exact ⟨q, hq, hnoted, scope, howned, howned'⟩
  · rintro ⟨q, hq, hnoted, scope, howned, howned'⟩
    have hscope : scope ∈ program.scopes := by
      cases scope with
      | nil => exact List.mem_cons_self
      | cons f outer => exact (exists_scope hq hnoted howned').1
    exact ⟨_, scope, mem_zip_scopes.mpr ⟨hscope, rfl⟩, howned,
      (mem_references hscope).mpr ⟨q, hq, hnoted, howned'⟩⟩

/-- The scopes of a program and their nodes in the symbol tree go together, one by one. A scope
lists no name twice, only names that belong to it, and, if it is a function, only names that it
declares; other nodes list nothing. Each name that is evaluated is listed where it belongs. So
is each name that is read or assigned at all, if and only if each one that is not evaluated (the
bare head of a loop assigns it, or it stands in a method of an object pattern) is also evaluated
somewhere and belongs to the same scope there. -/
theorem references_complete_iff (program : Program) :
    let tree := SymbolTree.ofProgram program
    List.Forall₂ program.Describes tree.scopeNodes program.scopes ∧
    (∀ node ∈ tree.root.walk, node.isScope = false →
      node.declarations = [] ∧ node.references = []) ∧
    (∀ p ∈ program.occurrences, ∀ name, p.name? = some name → p.isEvaluated = true →
      program.Lists p name) ∧
    ((∀ p ∈ program.occurrences, ∀ name, p.name? = some name → program.Lists p name) ↔
      ∀ p ∈ program.occurrences, ∀ name, p.name? = some name → p.isEvaluated = false →
        ∃ q ∈ program.occurrences, (q.isEvaluated = true ∧ q.name? = some name) ∧
          ∃ scope, OwnedBy name p.functions scope ∧ OwnedBy name q.functions scope) := by
  intro tree
  have hevaluated : ∀ p ∈ program.occurrences, ∀ name, p.name? = some name → p.isEvaluated = true →
      program.Lists p name := by
    intro p hp name hname heval
    obtain ⟨scope, howned⟩ := exists_ownedBy name p.functions
    exact lists_iff.mpr ⟨p, hp, ⟨heval, hname⟩, scope, howned, howned⟩
  refine ⟨?_, fun node => SymbolTree.names_of_not_isScope program, hevaluated, ?_, ?_⟩
  · rw [SymbolTree.scopeNodes_ofProgram, List.forall₂_map_left_iff, List.forall₂_same]
    exact fun scope => describes
  · exact fun h p hp name hname _ => lists_iff.mp (h p hp name hname)
  · intro h p hp name hname
    cases heval : p.isEvaluated with
    | true => exact hevaluated p hp name hname heval
    | false => exact lists_iff.mpr (h p hp name hname heval)

/-- The script `for (x in o) {}`. -/
def bareLoop : Program :=
  ⟨[.forIn (.expr (.ident "x" ⟨1, 6⟩)) (.ident "o" ⟨1, 11⟩) (.block [])]⟩

/-- The name that the bare head of a loop assigns is not listed, not even at the root. -/
theorem bare_head_unlisted :
    ∃ p ∈ bareLoop.occurrences, p.name? = some "x" ∧ ¬bareLoop.Lists p "x" := by
  let loop : Part :=
    .stmt (.forIn (.expr (.ident "x" ⟨1, 6⟩)) (.ident "o" ⟨1, 11⟩) (.block []))
  have hhead : ⟨.pattern false (.ident "x" ⟨1, 6⟩), [loop]⟩ ∈ bareLoop.occurrences := by
    refine List.mem_flatMap.mpr
      ⟨_, List.mem_singleton_self _, Occurrence.mem_walk.mpr (.inr ⟨_, ?_, Occurrence.self_mem_walk _⟩)⟩
    exact List.mem_cons_self
  refine ⟨_, hhead, rfl, ?_⟩
  rintro ⟨node, scope, hzip, -, hname⟩
  have hnode : node ∈ (SymbolTree.ofProgram bareLoop).scopeNodes := (List.of_mem_zip hzip).1
  have hnodes : (SymbolTree.ofProgram bareLoop).scopeNodes =
      [.mk .root none 0 [] ["o"] []] := rfl
  rw [hnodes, List.mem_singleton] at hnode
  subst hnode
  simp [SymbolNode.references] at hname

end Program

end ScriptHooks.Script

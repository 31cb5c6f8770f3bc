/-
ScriptHooks.Proofs.Script.SymbolOutline — the symbol tree mirrors the script, in order and in
nesting.

Some parts are listed by the symbol tree (`Part.label?`): functions, objects that are evaluated
and calls. The outline of a script keeps the occurrences of those, in the order of the source, each
with the labels of the listed parts around it; the outline of a tree does the same with its nodes.

`SymbolTree.outline_ofProgram` says that the two agree as long as no binding pattern has a method.
So the tree lists every function, object and call once, in the order of the source, and each under
the innermost one around it. The walk of the tree and the paths that it calls are read off the
outline.

## How the proof goes

* `Occurrence.filterMap_entries`, by induction on the part: by `Part.nodes_harvest` a part either
  has a node of its own around those of the parts under it, or passes theirs on. In the outline,
  its label is then around theirs, or is not.
* The condition says that no part is idle (`Occurrence.not_isIdle`). It is needed: a call in an
  idle method is an occurrence, but has no node.
* That no call is missed is checked against the plain syntax tree: the callees of the occurrences
  are those among its nodes (`Program.filterMap_branch?`).
-/
import ScriptHooks.Proofs.Script.RootFunctions

namespace ScriptHooks.Script

/-! ## Labels -/

/-- What stands at a node of the symbol tree. -/
structure SymbolLabel where
  kind : SymbolKind
  name : Option String
  line : Nat
  deriving Repr, DecidableEq

def SymbolNode.label (node : SymbolNode) : SymbolLabel := ⟨node.kind, node.name, node.line⟩

def Branch.callee? : Branch → Option Expr
  | .expr (.call callee _ _ _) => some callee
  | _ => none

def Function.position : Function → Position
  | .mk _ _ _ _ position => position

namespace Part

/-- What is called or constructed, or tags a template. -/
def callee? (p : Part) : Option Expr := p.branch?.bind Branch.callee?

/-- The label of a part that the symbol tree lists: a function, an object that is evaluated or a
call. An object that is matched has none. -/
def label? : Part → Option SymbolLabel
  | .function f => some ⟨.function, f.name?, f.position.line⟩
  | .expr (.object _ position) => some ⟨.object, none, position.line⟩
  | .expr (.call callee _ _ position) => some ⟨.call, callee.dottedName, position.line⟩
  | .pattern _ (.call callee _ _ position) => some ⟨.call, callee.dottedName, position.line⟩
  | _ => none

/-- The label is that of the node. -/
theorem map_label_node? (p : Part) : p.node?.map SymbolNode.label = p.label? := by
  cases p with
  | expr e => cases e <;> rfl
  | pattern declares e => cases e <;> rfl
  | stmt s => rfl
  | function f =>
    obtain ⟨name, parameters, body, isArrow, position⟩ := f
    rfl
  | idle key f => rfl

/-- Under the node of a part are the nodes of the parts under it. -/
theorem children_node? {p : Part} {node : SymbolNode} (h : p.node? = some node) :
    node.children = p.below.flatMap (·.harvest.nodes) := by
  rw [← nodes_gather]
  unfold node? at h
  split at h
  case h_1 | h_2 | h_3 =>
    cases h
    rfl
  case h_4 f =>
    obtain ⟨name, parameters, body, isArrow, position⟩ := f
    cases h
    rfl
  case h_5 => cases h

/-- The callees are those of the calls that are listed, by their dotted names. -/
theorem bind_name_label? (p : Part) :
    (p.label?.filter (·.kind == .call)).bind SymbolLabel.name =
      p.callee?.bind Expr.dottedName := by
  cases p with
  | expr e => cases e <;> rfl
  | pattern declares e => cases e <;> rfl
  | stmt s => rfl
  | function f => rfl
  | idle key f => rfl

end Part

/-! ## Places -/

/-- A label with those of what is around it, the innermost one first. -/
structure OutlineEntry where
  label : SymbolLabel
  around : List SymbolLabel
  deriving Repr, DecidableEq

/-- The entry of an occurrence in the outline, if it is listed. -/
def Occurrence.toEntry (p : Occurrence) : Option OutlineEntry :=
  p.part.label?.map fun label => ⟨label, p.around.filterMap Part.label?⟩

namespace Program

/-- No binding pattern of the script has a method. -/
def PatternsLackMethods (program : Program) : Prop :=
  ∀ occurrence ∈ program.occurrences, ∀ declares properties position,
    occurrence.part = .pattern declares (.object properties position) →
      ∀ key f, .method key f ∉ properties

/-- The functions, objects and calls of a script, in the order of the source. -/
def outline (program : Program) : List OutlineEntry :=
  program.occurrences.filterMap Occurrence.toEntry

end Program

/-! ## Idle methods -/

/-- If no object pattern in a part has a method, then nothing in it is idle, unless it is itself. -/
theorem Occurrence.not_isIdle {p : Occurrence} (hp : p.part.isIdle = false)
    (h : ∀ q ∈ p.walk, ∀ declares properties position,
      q.part = .pattern declares (.object properties position) →
        ∀ key f, .method key f ∉ properties) : ∀ q ∈ p.walk, q.part.isIdle = false := by
  induction p using ofBelow with
  | step p ih =>
    intro q hq
    rcases mem_walk.mp hq with rfl | ⟨c, hc, hq⟩
    · exact hp
    refine ih c hc ?_ (fun r hr => h r (mem_walk.mpr (.inr ⟨c, hc, hr⟩))) q hq
    cases hidle : c.part.isIdle with
    | false => rfl
    | true =>
      obtain ⟨declares, properties, position, hpattern, key, f, hmethod⟩ :=
        Part.exists_method_of_isIdle (mem_below.mp hc).1 hidle
      exact absurd hmethod (h p (self_mem_walk p) declares properties position hpattern key f)

/-! ## The tree -/

namespace SymbolNode

mutual

/-- The labels of a node and of all below it, each before what is below it, with what is around
each. -/
def outline (around : List SymbolLabel) : SymbolNode → List OutlineEntry
  | .mk kind name line _ _ children =>
    ⟨⟨kind, name, line⟩, around⟩ :: outlineAll (⟨kind, name, line⟩ :: around) children

/-- The labels of several trees, one after the other. -/
def outlineAll (around : List SymbolLabel) : List SymbolNode → List OutlineEntry
  | [] => []
  | node :: nodes => node.outline around ++ outlineAll around nodes

end

theorem outlineAll_eq_flatMap (around : List SymbolLabel) (nodes : List SymbolNode) :
    outlineAll around nodes = nodes.flatMap (outline around) := by
  induction nodes with
  | nil => rw [outlineAll, List.flatMap_nil]
  | cons node nodes ih => rw [outlineAll, ih, List.flatMap_cons]

theorem outline_eq (around : List SymbolLabel) (node : SymbolNode) :
    node.outline around =
      ⟨node.label, around⟩ :: node.children.flatMap (outline (node.label :: around)) := by
  cases node
  rw [outline, outlineAll_eq_flatMap]
  rfl

mutual

/-- Without what is around each, the outline of a tree is its walk. -/
theorem map_label_outline (around : List SymbolLabel) (node : SymbolNode) :
    (node.outline around).map OutlineEntry.label = node.walk.map label := by
  obtain ⟨kind, name, line, declarations, references, children⟩ := node
  rw [outline, walk, List.map_cons, List.map_cons, map_label_outlineAll]
  rfl

theorem map_label_outlineAll (around : List SymbolLabel) (nodes : List SymbolNode) :
    (outlineAll around nodes).map OutlineEntry.label = (walkAll nodes).map label := by
  cases nodes with
  | nil => rw [outlineAll, walkAll]; rfl
  | cons node nodes =>
    rw [outlineAll, walkAll, List.map_append, List.map_append, map_label_outline,
      map_label_outlineAll]

end

end SymbolNode

/-- The outline of the nodes of a part is made of the entries of the occurrences in it. -/
theorem Occurrence.filterMap_entries (p : Occurrence)
    (hidle : ∀ q ∈ p.walk, q.part.isIdle = false) :
    p.walk.filterMap toEntry =
      p.part.harvest.nodes.flatMap (SymbolNode.outline (p.around.filterMap Part.label?)) := by
  induction p using ofBelow with
  | step p ih =>
    rw [walk_eq] at hidle
    obtain ⟨hp, hbelow⟩ := List.forall_mem_cons.mp hidle
    have hunder : (p.below.flatMap walk).filterMap toEntry =
        (p.part.below.flatMap (·.harvest.nodes)).flatMap
          (SymbolNode.outline ((p.part :: p.around).filterMap Part.label?)) := by
      rw [List.filterMap_flatMap, List.flatMap_congr fun c hc =>
        ih c hc fun q hq => hbelow q (List.mem_flatMap.mpr ⟨c, hc, hq⟩)]
      rw [below, List.flatMap_map, List.flatMap_assoc]
    rw [walk_eq, Part.nodes_harvest]
    have hencloses := Part.isSome_node? hp
    cases hnode : p.part.node? with
    | none =>
      -- no node of its own: the entries are those of the parts under it
      have hencloses : p.part.encloses = false := by rw [← hencloses, hnode]; rfl
      have hlabel : p.part.label? = none := by rw [← Part.map_label_node?, hnode]; rfl
      rw [List.filterMap_cons_none (by rw [toEntry, hlabel]; rfl), hunder, hencloses,
        List.filterMap_cons_none hlabel]
      rfl
    | some node =>
      -- its own entry is the node, with the entries of the parts under it inside
      have hencloses : p.part.encloses = true := by rw [← hencloses, hnode]; rfl
      have hlabel : p.part.label? = some node.label := by rw [← Part.map_label_node?, hnode]; rfl
      rw [List.filterMap_cons_some (by rw [toEntry, hlabel]; rfl), hunder, hencloses,
        List.filterMap_cons_some hlabel, if_pos rfl, Option.toList_some, List.flatMap_singleton,
        SymbolNode.outline_eq, Part.children_node? hnode]

namespace SymbolTree

/-- If no binding pattern has a method, then the symbol tree lists the functions, the objects
that are evaluated and the calls of the script, each once, in the order of the source, and each
under the innermost one around it. So its walk goes through them in this order, and the paths
that it calls are the dotted names of all that the script calls, constructs or tags a template
with, as far as these are names joined by dots. -/
theorem outline_ofProgram (program : Program) (hmethods : program.PatternsLackMethods) :
    let tree := ofProgram program
    SymbolNode.outlineAll [] tree.root.children = program.outline ∧
      tree.root.walk.tail.map SymbolNode.label =
        program.occurrences.filterMap (fun occurrence => occurrence.part.label?) ∧
      tree.calledPaths =
        (program.nodes.filterMap Branch.callee?).filterMap Expr.dottedName := by
  intro tree
  have hidle : ∀ s ∈ program.body, ∀ q ∈ Occurrence.walk ⟨.stmt s, []⟩, q.part.isIdle = false :=
    fun s hs => Occurrence.not_isIdle rfl fun q hq => hmethods q (List.mem_flatMap.mpr ⟨s, hs, hq⟩)
  have houtline : SymbolNode.outlineAll [] tree.root.children = program.outline := by
    have hchildren : tree.root.children =
        program.body.flatMap fun s => (Part.stmt s).harvest.nodes := by
      have hgather := Part.nodes_gather (program.body.map .stmt)
      rw [Part.gather_stmts, List.flatMap_map] at hgather
      exact hgather
    rw [SymbolNode.outlineAll_eq_flatMap, hchildren, List.flatMap_assoc, Program.outline,
      Program.occurrences, List.filterMap_flatMap]
    exact List.flatMap_congr fun s hs =>
      (Occurrence.filterMap_entries ⟨.stmt s, []⟩ (hidle s hs)).symm
  have hwalk : tree.root.walk.tail.map SymbolNode.label =
      program.occurrences.filterMap (fun occurrence => occurrence.part.label?) := by
    rw [SymbolNode.walk_eq, List.tail_cons, ← SymbolNode.map_label_outlineAll [], houtline,
      Program.outline, List.map_filterMap]
    refine List.filterMap_congr fun occurrence _ => ?_
    rw [Occurrence.toEntry, Option.map_map]
    exact Option.map_id'
  have hcallees : program.occurrences.filterMap (fun occurrence => occurrence.part.callee?) =
      program.nodes.filterMap Branch.callee? := program.filterMap_branch? fun _ _ => rfl
  have hcalls : tree.calledPaths =
      ((tree.root.walk.tail.map SymbolNode.label).filter (·.kind == .call)).filterMap
        SymbolLabel.name := by
    rw [List.filter_map, List.filterMap_map, calledPaths, SymbolNode.walk_eq]
    rfl
  refine ⟨houtline, hwalk, ?_⟩
  rw [hcalls, hwalk, ← hcallees, List.filter_filterMap, List.filterMap_filterMap,
    List.filterMap_filterMap]
  exact List.filterMap_congr fun occurrence _ => occurrence.part.bind_name_label?

/-- The script `var {a = f.g(x => 1)} = {m() { new K() }}`: a call in the default of a pattern,
with a function in it, and an object with a method that constructs. -/
def outlinedScript : Program :=
  ⟨[.declare .var
    [.mk (.object [.shorthand "a" ⟨1, 6⟩ (some (.call (.member (.ident "f" ⟨1, 10⟩) "g")
        [.function (.mk none [.ident "x" ⟨1, 14⟩] [.return_ (some .literal)] true ⟨1, 14⟩)]
        false ⟨1, 10⟩))] ⟨1, 5⟩)
      (some (.object [.method (.named "m") (.mk (some "m") []
        [.expr (.call (.ident "K" ⟨1, 40⟩) [] true ⟨1, 36⟩)] false ⟨1, 28⟩)] ⟨1, 27⟩))]]⟩

theorem outline_outlinedScript :
    outlinedScript.PatternsLackMethods ∧
      outlinedScript.outline =
        [⟨⟨.call, some "f.g", 1⟩, []⟩,
          ⟨⟨.function, none, 1⟩, [⟨.call, some "f.g", 1⟩]⟩,
          ⟨⟨.object, none, 1⟩, []⟩,
          ⟨⟨.function, some "m", 1⟩, [⟨.object, none, 1⟩]⟩,
          ⟨⟨.call, some "K", 1⟩, [⟨.function, some "m", 1⟩, ⟨.object, none, 1⟩]⟩] ∧
      (ofProgram outlinedScript).calledPaths = ["f.g", "K"] := by
  have hmethods : outlinedScript.PatternsLackMethods := by
    simp [Program.PatternsLackMethods, Program.occurrences, outlinedScript, Occurrence.walk_eq,
      Occurrence.below, Part.below, Part.ofStmt, Part.ofDeclarator, Part.ofPattern,
      Part.ofPatternProperty, Part.ofProperty, Part.ofExpr, Part.ofKey,
      Part.ofFunction, Branch.ofExpr, Branch.ofKey, Branch.ofStmt, Part.ofBranch]
  exact ⟨hmethods, (outline_ofProgram _ hmethods).1.symm, rfl⟩

end SymbolTree

end ScriptHooks.Script

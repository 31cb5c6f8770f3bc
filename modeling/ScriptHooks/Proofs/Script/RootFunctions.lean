/-
ScriptHooks.Proofs.Script.RootFunctions — which functions a symbol tree has directly under its
root.

Only functions, object literals and calls have nodes. So what stands directly under the root is
what no node encloses (`Part.Surfaces`): the functions that are statements of the script, but
also those in its blocks and loops, and those that are operands. The tree does not tell them
apart.

`root_functions_exact_iff` draws the line. The tree of an accepted script has a function directly
under its root for each name that the script declares there and for each name of another function
on the surface, a stray. It tells exactly what is declared at the root if and only if every name
of a stray is declared there too.
-/
import ScriptHooks.Proofs.Script.ReferenceTheorems

namespace ScriptHooks.Script

def Function.name? : Function → Option String
  | .mk name _ _ _ _ => name

/-! ## The surface of a part -/

namespace Part

/-- Whether what stands in the part does not stand beside it in the tree: it is below a node of
the part, or the part is idle and what is in it is left out. -/
def encloses : Part → Bool
  | .expr (.object _ _) => true
  | .expr (.call _ _ _ _) => true
  | .pattern _ (.call _ _ _ _) => true
  | .function _ => true
  | .idle _ _ => true
  | _ => false

/-- The part stands in another, or is it, and nothing between them encloses it. -/
inductive Surfaces (q : Part) : Part → Prop
  | here : Surfaces q q
  | deeper {p c : Part} (hp : p.encloses = false) (hc : c ∈ p.below) (h : Surfaces q c) :
      Surfaces q p

variable {p q : Part} {node : SymbolNode}

theorem surfaces_of_encloses (hp : p.encloses = true) : q.Surfaces p ↔ q = p := by
  constructor
  · intro h
    cases h with
    | here => rfl
    | deeper hp' _ _ => cases hp'.symm.trans hp
  · rintro rfl
    exact .here

theorem surfaces_of_not_encloses (hp : p.encloses = false) :
    q.Surfaces p ↔ q = p ∨ ∃ c ∈ p.below, q.Surfaces c := by
  constructor
  · intro h
    cases h with
    | here => exact .inl rfl
    | deeper _ hc h => exact .inr ⟨_, hc, h⟩
  · rintro (rfl | ⟨c, hc, h⟩)
    · exact .here
    · exact .deeper hp hc h

/-- Outside idle methods, what encloses others has a node, and nothing else has. -/
theorem isSome_node? (hp : p.isIdle = false) : p.node?.isSome = p.encloses := by
  cases p with
  | expr e => cases e <;> rfl
  | pattern declares e => cases e <;> rfl
  | stmt s => rfl
  | function f => rfl
  | idle key f => cases hp

theorem node?_eq_none (hp : p.encloses = false) : p.node? = none := by
  have hidle : p.isIdle = false := by cases p <;> first | rfl | cases hp
  rw [← Option.not_isSome_iff_eq_none, isSome_node? hidle, hp]
  exact Bool.false_ne_true

/-- The nodes at the top of a part: its own, or else those at the top of the parts under it. -/
theorem nodes_harvest (p : Part) :
    p.harvest.nodes =
      if p.encloses then p.node?.toList else p.below.flatMap (·.harvest.nodes) := by
  rw [harvest_eq, ← nodes_gather]
  cases p with
  | expr e => cases e <;> rfl
  | pattern declares e => cases e <;> rfl
  | stmt s => rfl
  | function f =>
    obtain ⟨name, parameters, body, isArrow, position⟩ := f
    rfl
  | idle key f => rfl

/-- The nodes at the top of a part are those of the parts on its surface. -/
theorem mem_nodes_harvest :
    node ∈ p.harvest.nodes ↔ ∃ q : Part, q.Surfaces p ∧ q.node? = some node := by
  induction p using ofBelow with
  | step p ih =>
    rw [nodes_harvest]
    split
    case isTrue hp =>
      simp only [surfaces_of_encloses hp, exists_eq_left, Option.mem_toList]
    case isFalse hp =>
      have hp : p.encloses = false := Bool.eq_false_iff.mpr hp
      have hown : p.node? = none := node?_eq_none hp
      rw [List.mem_flatMap]
      constructor
      · rintro ⟨c, hc, hnode⟩
        obtain ⟨q, hq, hnode⟩ := (ih c hc).mp hnode
        exact ⟨q, .deeper hp hc hq, hnode⟩
      · rintro ⟨q, hq, hnode⟩
        obtain rfl | ⟨c, hc, hq⟩ := (surfaces_of_not_encloses hp).mp hq
        · cases hown.symm.trans hnode
        · exact ⟨c, hc, (ih c hc).mpr ⟨q, hq, hnode⟩⟩

/-- The nodes of functions are those of kind `function`, under the same names. -/
theorem function_node_iff {name : Option String} :
    (∃ node, q.node? = some node ∧ node.kind = .function ∧ node.name = name) ↔
      ∃ f, q = .function f ∧ f.name? = name := by
  constructor
  · rintro ⟨node, hnode, hkind, hname⟩
    unfold node? at hnode
    split at hnode
    case h_1 | h_2 | h_3 =>
      cases hnode
      cases hkind
    case h_4 f =>
      cases f
      cases hnode
      exact ⟨_, rfl, hname⟩
    case h_5 => cases hnode
  · rintro ⟨f, rfl, hname⟩
    cases f
    exact ⟨_, rfl, rfl, hname⟩

end Part

/-! ## The root -/

def Stmt.functionName? : Stmt → Option String
  | .function f => f.name?
  | _ => none

namespace Program

/-- One of the statements of the script declares a function of this name. -/
def DeclaresAtRoot (program : Program) (name : String) : Prop :=
  ∃ s ∈ program.body, s.functionName? = some name

instance (program : Program) (name : String) : Decidable (program.DeclaresAtRoot name) :=
  inferInstanceAs (Decidable (∃ s ∈ program.body, s.functionName? = some name))

/-- A function of this name stands on the surface of a statement of the script, but is not that
statement: it stands in a nested statement, or in an expression. -/
def Strays (program : Program) (name : String) : Prop :=
  ∃ s ∈ program.body, ∃ f, f.name? = some name ∧ s ≠ .function f ∧
    (Part.function f).Surfaces (.stmt s)

variable {program : Program} {name : String}

/-- On the surface of a statement is the function that it declares, or a stray. -/
theorem exists_surfaces_iff :
    (∃ s ∈ program.body, ∃ f, f.name? = some name ∧ (Part.function f).Surfaces (.stmt s)) ↔
      program.DeclaresAtRoot name ∨ program.Strays name := by
  constructor
  · rintro ⟨s, hs, f, hname, hf⟩
    by_cases heq : s = .function f
    · subst heq
      exact .inl ⟨_, hs, hname⟩
    · exact .inr ⟨s, hs, f, hname, heq, hf⟩
  · rintro (⟨s, hs, hname⟩ | ⟨s, hs, f, hname, -, hf⟩)
    · cases s with
      | function f => exact ⟨_, hs, f, hname, .deeper rfl (List.mem_singleton_self _) .here⟩
      | _ => cases hname
    · exact ⟨s, hs, f, hname, hf⟩

/-- The tree has a function directly under its root for each one on the surface of the script. -/
theorem declaresFunction_iff :
    (SymbolTree.ofProgram program).declaresFunction name = true ↔
      program.DeclaresAtRoot name ∨ program.Strays name := by
  have hnodes : (SymbolTree.ofProgram program).root.children =
      program.body.flatMap fun s => (Part.stmt s).harvest.nodes := by
    have hgather := Part.nodes_gather (program.body.map .stmt)
    rw [Part.gather_stmts, List.flatMap_map] at hgather
    exact hgather
  rw [← exists_surfaces_iff, SymbolTree.declaresFunction, hnodes, List.any_eq_true]
  simp only [List.mem_flatMap, Bool.and_eq_true, beq_iff_eq]
  constructor
  · rintro ⟨node, ⟨s, hs, hnode⟩, hkind, hname⟩
    obtain ⟨q, hq, hnode⟩ := Part.mem_nodes_harvest.mp hnode
    obtain ⟨f, rfl, hname⟩ := Part.function_node_iff.mp ⟨node, hnode, hkind, hname⟩
    exact ⟨s, hs, f, hname, hq⟩
  · rintro ⟨s, hs, f, hname, hf⟩
    obtain ⟨node, hnode, hkind, hname⟩ := Part.function_node_iff.mpr ⟨f, rfl, hname⟩
    exact ⟨node, ⟨s, hs, Part.mem_nodes_harvest.mpr ⟨_, hf, hnode⟩⟩, hkind, hname⟩

end Program

/-! ## Entry points -/

/-- The functions that a script must declare. -/
def entryPoints : List String := [metadataEntryPoint, executeEntryPoint]

theorem checkEntryPoints_isOk_iff {tree : SymbolTree} :
    (checkEntryPoints tree).isOk = true ↔
      ∀ name ∈ entryPoints, tree.declaresFunction name = true := by
  have hmissing : ([metadataEntryPoint, executeEntryPoint].filter fun name =>
      !tree.declaresFunction name).isEmpty = true ↔
        ∀ name ∈ entryPoints, tree.declaresFunction name = true := by
    rw [List.isEmpty_iff, List.filter_eq_nil_iff]
    simp only [entryPoints, Bool.not_eq_true, Bool.not_eq_false']
  rw [← hmissing, checkEntryPoints]
  split
  case isTrue h => exact iff_of_true rfl h
  case isFalse h => exact iff_of_false nofun h

theorem validate_eq_ok (source : String) (h : (validate source).isOk = true) :
    validate source = .ok (.ofProgram (Program.ofTokens (Lexer.tokensOf source).1).1) := by
  unfold validate at h ⊢
  dsimp only at h ⊢
  split
  case isTrue => rfl
  case isFalse hissues =>
    rw [if_neg hissues] at h
    cases h

/-- The tree of an accepted script has a function directly under its root for each name that the
script declares there, and for each name of a stray. So it tells what is declared at the root,
of a name or of the entry points, if and only if no stray is taken for a declaration. -/
theorem root_functions_exact_iff (source : String) (haccepted : (validate source).isOk = true) :
    let program := (Program.ofTokens (Lexer.tokensOf source).1).1
    ∃ tree, validate source = .ok tree ∧
      (∀ name, tree.declaresFunction name = true ↔
        program.DeclaresAtRoot name ∨ program.Strays name) ∧
      (∀ name, (tree.declaresFunction name = true ↔ program.DeclaresAtRoot name) ↔
        (program.Strays name → program.DeclaresAtRoot name)) ∧
      (((checkEntryPoints tree).isOk = true ↔ ∀ name ∈ entryPoints, program.DeclaresAtRoot name) ↔
        ((∀ name ∈ entryPoints, program.DeclaresAtRoot name ∨ program.Strays name) →
          ∀ name ∈ entryPoints, program.DeclaresAtRoot name)) := by
  intro program
  refine ⟨.ofProgram program, validate_eq_ok _ haccepted, fun name => Program.declaresFunction_iff,
    fun name => ?_, ?_⟩
  · rw [Program.declaresFunction_iff]
    constructor
    · exact fun h hstray => h.mp (.inr hstray)
    · exact fun h => ⟨fun hany => hany.elim id h, .inl⟩
  · rw [checkEntryPoints_isOk_iff]
    simp only [Program.declaresFunction_iff]
    exact ⟨Iff.mp, fun h => ⟨h, fun hall name hname => .inl (hall name hname)⟩⟩

/-- A script that declares both entry points beside a block with a function of its own. -/
def plainScript : String :=
  "function getScriptMetadata() {} function executeScript() {} { function helper() {} }"

theorem root_functions_exact_of_plainScript :
    (validate plainScript).isOk = true ∧
    ∃ tree, validate plainScript = .ok tree ∧
      ((checkEntryPoints tree).isOk = true ↔ ∀ name ∈ entryPoints,
        (Program.ofTokens (Lexer.tokensOf plainScript).1).1.DeclaresAtRoot name) := by
  have haccepted : (validate plainScript).isOk = true := by decide +kernel
  have hdeclared : ∀ name ∈ entryPoints,
      (Program.ofTokens (Lexer.tokensOf plainScript).1).1.DeclaresAtRoot name := by decide +kernel
  obtain ⟨tree, htree, -, -, hentries⟩ := root_functions_exact_iff plainScript haccepted
  exact ⟨haccepted, tree, htree, hentries.mpr fun _ => hdeclared⟩

/-- A script with its entry points as an operand and in a block, none at the root. -/
def strayScript : String :=
  "var f = function getScriptMetadata() {}; { function executeScript() {} }"

/-- The function expression and the function in the block are taken for the entry points. -/
theorem strays_taken_for_entry_points :
    ∃ tree, validate strayScript = .ok tree ∧ (checkEntryPoints tree).isOk = true ∧
      ∀ name ∈ entryPoints,
        tree.declaresFunction name = true ∧
          ¬(Program.ofTokens (Lexer.tokensOf strayScript).1).1.DeclaresAtRoot name := by
  refine ⟨_, validate_eq_ok strayScript ?_, ?_, ?_⟩ <;> decide +kernel

end ScriptHooks.Script

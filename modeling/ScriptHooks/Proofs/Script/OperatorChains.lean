/-
ScriptHooks.Proofs.Script.OperatorChains — rows of operands with operators between them.

The operands are plain tokens (`Token.isPlain`), the operators any that may stand between operands
(`Token.isOperator`). A `Link` is an operator and the operand after it, with the proofs that they
are such, and an `OperatorChain` is an operand and some links; so every chain is well formed, and
no theorem about chains has to ask for it. A chain has exactly one tree that is read as the chain
and in which each operator is the loosest of its range (`OperatorChain.isTree_iff`).

The parser reads a chain up to the first operator that is looser than some bound. On the level of
links:

* `Link.inside` are those up to there, and `Link.outside` the others; together they are all of
  them (`tokens_inside_append`);
* the tree of those inside has the first operator at the bottom of its left side, with what is
  inside the bound of that operator to its right (`Link.join_inside`). This is a round of the
  parser's loop, seen from the tree;
* a tighter bound cuts off less (`inside_append`, `outside_outside`), so that rounds go on where
  the one before stopped.

What follows a chain matters for its last operand: a token that continues an operand, such as an
opening bracket, would make it another one. `endsOperand` are the tokens that do not.
-/
import Mathlib.Data.List.TakeWhile
import ScriptHooks.Proofs.Script.ExpressionSoundness
import ScriptHooks.Proofs.Script.OperatorTrees

namespace ScriptHooks.Script

/-! ## Operands and operators -/

namespace Token

/-- Whether the token is a number, or a word that can be a name. -/
def isPlain (token : Token) : Bool :=
  match token.kind with
  | .number => true
  | .word name => !isReservedWord name
  | _ => false

def atom (token : Token) : Expr :=
  match token.kind with
  | .word name =>
    if ["this", "null", "true", "false"].contains name then .literal
    else .ident name token.position
  | _ => .literal

def isOperator (token : Token) : Bool :=
  match token.kind with
  | .punct text => (binaryOperators.map Prod.fst).contains text
  | .word name => ["in", "instanceof"].contains name
  | _ => false

def operator (token : Token) : String :=
  match token.kind with
  | .punct text => text
  | .word name => name
  | _ => ""

/-- Whether an operand may end before the token: an operator or a semicolon comes. -/
def endsOperand (token : Token) : Bool := token.isOperator || token.isMark ";"

variable {token : Token}

theorem isJoined_atom (token : Token) : token.atom.isJoined = false := by
  unfold atom
  split
  · split <;> rfl
  · rfl

/-- An operand is at most one node. -/
theorem height_atom (token : Token) : (Branch.expr token.atom).height ≤ 1 := by
  have hchildren : (Branch.expr token.atom).children = [] := by
    unfold atom
    split
    · split <;> rfl
    · rfl
  refine Branch.height_le_succ_iff.mpr ?_
  simp [hchildren]

/-- An operator is a mark of the table or one of two words. -/
theorem isOperator_cases (h : token.isOperator = true) :
    (∃ text ∈ binaryOperators.map Prod.fst, token.kind = .punct text) ∨
      ∃ name ∈ ["in", "instanceof"], token.kind = .word name := by
  unfold isOperator at h
  cases hk : token.kind with
  | punct text =>
    rw [hk] at h
    exact .inl ⟨text, List.contains_iff_mem.mp h, rfl⟩
  | word name =>
    rw [hk] at h
    exact .inr ⟨name, List.contains_iff_mem.mp h, rfl⟩
  | _ =>
    rw [hk] at h
    cases h

/-- An operator is found with its strength. -/
theorem binaryOperator_of_isOperator (h : token.isOperator = true) :
    token.binaryOperator? false = some (token.operator, operatorStrength token.operator) := by
  have hmarks : ∀ text ∈ binaryOperators.map Prod.fst,
      (binaryOperators.find? fun entry => entry.1 == text) =
        some (text, operatorStrength text) := by
    decide
  have hwords : ∀ name ∈ ["in", "instanceof"], (name == "instanceof" || name == "in") = true ∧
      operatorStrength name = relationPrecedence := by
    decide
  rcases isOperator_cases h with ⟨text, htext, hk⟩ | ⟨name, hname, hk⟩
  · simp only [binaryOperator?, operator, hk]
    exact hmarks text htext
  · obtain ⟨hfound, hstrength⟩ := hwords name hname
    simp only [binaryOperator?, operator, hk, Bool.not_false, Bool.and_true, hfound, if_true,
      hstrength]

theorem endsOperand_of_isMark (h : token.isMark ";" = true) : token.endsOperand = true := by
  simp [endsOperand, h]

/-- An operator ends the operand before it. -/
theorem endsOperand_of_isOperator (h : token.isOperator = true) : token.endsOperand = true := by
  simp [endsOperand, h]

/-- What comes after an operand is one of these marks or words. -/
theorem endsOperand_cases (h : token.endsOperand = true) :
    (∃ text ∈ ";" :: binaryOperators.map Prod.fst, token.kind = .punct text) ∨
      ∃ name ∈ ["in", "instanceof"], token.kind = .word name := by
  unfold endsOperand at h
  rcases Bool.or_eq_true_iff.mp h with h | h
  · rcases isOperator_cases h with ⟨text, htext, hk⟩ | hword
    · exact .inl ⟨text, List.mem_cons_of_mem _ htext, hk⟩
    · exact .inr hword
  · exact .inl ⟨";", List.mem_cons_self, isMark_iff.mp h⟩

/-- What ends an operand is no other mark. -/
theorem isMark_of_endsOperand (h : token.endsOperand = true) {mark : String}
    (hmark : mark ∉ ";" :: binaryOperators.map Prod.fst) : token.isMark mark = false := by
  rw [← Bool.not_eq_true, isMark_iff]
  intro hk
  rcases endsOperand_cases h with ⟨text, htext, hk'⟩ | ⟨name, hname, hk'⟩
  · cases hk.symm.trans hk'
    exact hmark htext
  · cases hk.symm.trans hk'

/-- Nor is it another word. -/
theorem isWord_of_endsOperand (h : token.endsOperand = true) {word : String}
    (hword : word ∉ ["in", "instanceof"]) : token.isWord word = false := by
  rw [← Bool.not_eq_true, isWord_iff, word?_iff]
  intro hk
  rcases endsOperand_cases h with ⟨text, htext, hk'⟩ | ⟨name, hname, hk'⟩
  · cases hk.symm.trans hk'
  · cases hk.symm.trans hk'
    exact hword hname

theorem isEof_of_endsOperand (h : token.endsOperand = true) : token.isEof = false := by
  rw [← Bool.not_eq_true, isEof_iff]
  intro hk
  rcases endsOperand_cases h with ⟨text, htext, hk'⟩ | ⟨name, hname, hk'⟩
  · cases hk.symm.trans hk'
  · cases hk.symm.trans hk'

/-- A plain token is a number or a word that is not reserved. -/
theorem isPlain_cases (h : token.isPlain = true) :
    token.kind = .number ∨ ∃ name, token.kind = .word name ∧ isReservedWord name = false := by
  unfold isPlain at h
  split at h
  · exact .inl ‹_›
  · rename_i name hk
    exact .inr ⟨name, hk, by simpa using h⟩
  · cases h

theorem isEof_of_isPlain (h : token.isPlain = true) : token.isEof = false := by
  rcases isPlain_cases h with hk | ⟨name, hk, -⟩ <;> simp [isEof, hk]

theorem isMark_of_isPlain (h : token.isPlain = true) (mark : String) :
    token.isMark mark = false := by
  rcases isPlain_cases h with hk | ⟨name, hk, -⟩ <;> simp [isMark, hk]

/-- A plain token is none of the reserved words. -/
theorem isWord_of_isPlain (h : token.isPlain = true) {word : String}
    (hword : isReservedWord word = true) : token.isWord word = false := by
  rw [← Bool.not_eq_true, isWord_iff, word?_iff]
  intro hk
  rcases isPlain_cases h with hk' | ⟨name, hk', hname⟩
  · cases hk.symm.trans hk'
  · cases hk.symm.trans hk'
    rw [hname] at hword
    cases hword

/-- A plain token is no operator before an operand. -/
theorem prefixOperator_of_isPlain (h : token.isPlain = true) : token.prefixOperator? = none := by
  unfold prefixOperator?
  rcases isPlain_cases h with hk | ⟨name, hk, hname⟩
  · rw [hk]
  · have hprefix : ∀ word ∈ ["typeof", "void", "delete"], isReservedWord word = true := by decide
    rw [hk]
    refine if_neg fun hmem => ?_
    have hreserved := hprefix name (List.contains_iff_mem.mp hmem)
    rw [hname] at hreserved
    cases hreserved

end Token

/-- An operator and the operand after it. -/
structure Link where
  operator : Token
  operand : Token
  isOperator : operator.isOperator = true
  isPlain : operand.isPlain = true

namespace Link

def op (link : Link) : String := link.operator.operator

/-- How tightly the operator binds. -/
def strength (link : Link) : Nat := operatorStrength link.op

/-- What the link adds to the reading of a tree. -/
def entry (link : Link) : String × Expr := (link.op, link.operand.atom)

/-- The operator of a link is found, with its strength. -/
theorem binaryOperator (link : Link) :
    link.operator.binaryOperator? false = some (link.op, link.strength) :=
  Token.binaryOperator_of_isOperator link.isOperator

theorem strength_pos (link : Link) : 0 < link.strength := by
  have hmarks : ∀ text ∈ binaryOperators.map Prod.fst, 0 < operatorStrength text := by decide
  have hwords : ∀ name ∈ ["in", "instanceof"], 0 < operatorStrength name := by decide
  rcases Token.isOperator_cases link.isOperator with ⟨text, htext, hk⟩ | ⟨name, hname, hk⟩
  · simpa [strength, op, Token.operator, hk] using hmarks text htext
  · simpa [strength, op, Token.operator, hk] using hwords name hname

theorem endsOperand (link : Link) : link.operator.endsOperand = true :=
  Token.endsOperand_of_isOperator link.isOperator

theorem isEof_operator (link : Link) : link.operator.isEof = false :=
  Token.isEof_of_endsOperand link.endsOperand

def tokens (links : List Link) : List Token :=
  links.flatMap fun link => [link.operator, link.operand]

@[simp] theorem tokens_nil : tokens [] = [] := rfl

@[simp] theorem tokens_cons (link : Link) (links : List Link) :
    tokens (link :: links) = link.operator :: link.operand :: tokens links := rfl

end Link

/-- Operands with operators between them. -/
structure OperatorChain where
  first : Token
  links : List Link
  isPlain : first.isPlain = true

namespace OperatorChain

def tokens (chain : OperatorChain) : List Token := chain.first :: Link.tokens chain.links

/-- The tree of a chain: it is read as the chain, and each operator is the loosest of its range. -/
structure IsTree (chain : OperatorChain) (tree : Expr) : Prop where
  inOrder : tree.inOrder = (chain.first.atom, chain.links.map Link.entry)
  layered : tree.Layered

/-- What is built from the chain. -/
def tree (chain : OperatorChain) : Expr :=
  chain.first.atom.attachAll (chain.links.map Link.entry)

/-- A chain has exactly one tree. -/
theorem isTree_iff {chain : OperatorChain} {other : Expr} :
    chain.IsTree other ↔ other = chain.tree := by
  have hrow : ∀ entry ∈ chain.links.map Link.entry, entry.2.isJoined = false :=
    List.forall_mem_map.mpr fun link _ => link.operand.isJoined_atom
  constructor
  · rintro ⟨hread, hlayered⟩
    have hbuilt := hlayered.attachAll_inOrder
    rw [hread] at hbuilt
    exact hbuilt.symm
  · rintro rfl
    have hfirst := chain.first.isJoined_atom
    exact ⟨Expr.inOrder_attachAll hfirst hrow,
      (Expr.layered_of_operand hfirst).attachAll hrow⟩

end OperatorChain

/-! ## Bounds on the strength -/

namespace Link

/-- The links up to the first operator that binds less tightly. -/
def inside (floor : Nat) (links : List Link) : List Link :=
  links.takeWhile fun link => decide (floor ≤ link.strength)

/-- The links from the first operator on that binds less tightly. -/
def outside (floor : Nat) (links : List Link) : List Link :=
  links.dropWhile fun link => decide (floor ≤ link.strength)

/-- The tree with the links at its right end. -/
def join (left : Expr) (links : List Link) : Expr := left.attachAll (links.map entry)

variable {floor floor' : Nat} {link : Link} {links : List Link}

/-- Nothing is inside if the first operator is looser than the bound. -/
theorem inside_eq_nil (h : ∀ link ∈ links.head?, link.strength < floor) :
    inside floor links = [] := by
  cases links with
  | nil => rfl
  | cons link links => simp [inside, h link (by simp)]

theorem outside_eq_self (h : ∀ link ∈ links.head?, link.strength < floor) :
    outside floor links = links := by
  cases links with
  | nil => rfl
  | cons link links => simp [outside, h link (by simp)]

/-- Every operator binds more tightly than none. -/
theorem inside_one (links : List Link) : inside 1 links = links :=
  List.takeWhile_eq_self_iff.mpr fun link _ => decide_eq_true link.strength_pos

/-- Nothing is outside the loosest bound. -/
theorem outside_one (links : List Link) : outside 1 links = [] :=
  List.dropWhile_eq_nil_iff.mpr fun link _ => decide_eq_true link.strength_pos

/-- An operator that binds tightly enough is inside. -/
theorem inside_of_le (h : floor ≤ link.strength) :
    inside floor (link :: links) = link :: inside floor links := by
  simp [inside, h]

theorem outside_of_le (h : floor ≤ link.strength) :
    outside floor (link :: links) = outside floor links := by
  simp [outside, h]

/-- Those inside bind tightly enough. -/
theorem le_of_mem_inside (h : link ∈ inside floor links) : floor ≤ link.strength :=
  of_decide_eq_true (List.mem_takeWhile_imp h :)

/-- Either no operator comes that binds tightly enough, or the next one does. -/
theorem next_cases (floor : Nat) (links : List Link) :
    (∀ link ∈ links.head?, link.strength < floor) ∨
      ∃ link links', links = link :: links' ∧ floor ≤ link.strength := by
  cases links with
  | nil => exact .inl fun link hlink => by cases hlink
  | cons link links =>
    rcases Nat.lt_or_ge link.strength floor with hlt | hle
    · exact .inl fun other hother => by cases hother; exact hlt
    · exact .inr ⟨link, links, rfl, hle⟩

/-- The first of those outside does not. -/
theorem head_outside (floor : Nat) (links : List Link) :
    ∀ link ∈ (outside floor links).head?, link.strength < floor := by
  intro link hlink
  have hhead := List.head?_dropWhile_not (fun link => decide (floor ≤ link.strength)) links
  rw [← outside, Option.mem_def.mp hlink] at hhead
  exact Nat.not_le.mp (of_decide_eq_false hhead)

/-- Those inside a bound are those inside a tighter one and then those that are left. -/
theorem inside_append (h : floor ≤ floor') (links : List Link) :
    inside floor links = inside floor' links ++ inside floor (outside floor' links) := by
  induction links with
  | nil => rfl
  | cons link links ih =>
    by_cases hl : floor' ≤ link.strength
    · rw [inside_of_le (h.trans hl), inside_of_le hl, outside_of_le hl, ih, List.cons_append]
    · have hnone : ∀ other ∈ (link :: links).head?, other.strength < floor' := by simpa using hl
      rw [inside_eq_nil hnone, outside_eq_self hnone, List.nil_append]

/-- What is outside a bound is outside a tighter one, and remains when that is cut off first. -/
theorem outside_outside (h : floor ≤ floor') (links : List Link) :
    outside floor (outside floor' links) = outside floor links := by
  induction links with
  | nil => rfl
  | cons link links ih =>
    by_cases hl : floor' ≤ link.strength
    · rw [outside_of_le hl, outside_of_le (h.trans hl), ih]
    · have hnone : ∀ other ∈ (link :: links).head?, other.strength < floor' := by simpa using hl
      rw [outside_eq_self hnone]

theorem tokens_append (links links' : List Link) :
    tokens (links ++ links') = tokens links ++ tokens links' :=
  List.flatMap_append

/-- Those inside and those outside are all, in their order. -/
theorem tokens_inside_append (floor : Nat) (links : List Link) :
    tokens (inside floor links) ++ tokens (outside floor links) = tokens links := by
  rw [← tokens_append, inside, outside, List.takeWhile_append_dropWhile]

/-- What stands after an operand ends it. -/
theorem exists_endsOperand {stop : Token} (hstop : stop.isMark ";" = true) (links : List Link)
    (more : List Token) : ∃ next rest, tokens links ++ stop :: more = next :: rest ∧
      next.endsOperand = true := by
  cases links with
  | nil => exact ⟨stop, more, rfl, Token.endsOperand_of_isMark hstop⟩
  | cons link links =>
    exact ⟨link.operator, link.operand :: tokens links ++ stop :: more, rfl, link.endsOperand⟩

end Link

def Link.chain (link : Link) (links : List Link) : OperatorChain :=
  ⟨link.operand, links, link.isPlain⟩

/-- The tree of a chain up to the first operator that binds less tightly. -/
def OperatorChain.upTo (chain : OperatorChain) (floor : Nat) : Expr :=
  Link.join chain.first.atom (Link.inside floor chain.links)

/-- An operator takes what binds tightly enough for its right operand, and the operators after that
go above it. -/
theorem Link.join_inside {link : Link} {left : Expr} (hfloor : floor ≤ link.strength)
    (hclosed : left.Closed link.op) (links : List Link) :
    join left (inside floor (link :: links)) =
      join (.binary link.op left ((link.chain links).upTo (rightFloor link.op)))
        (inside floor (outside (rightFloor link.op) links)) := by
  have hright : floor ≤ rightFloor link.op := hfloor.trans (strength_le_rightFloor link.op)
  have hrow : ∀ pair ∈ (inside (rightFloor link.op) links).map entry,
      rightFloor link.op ≤ operatorStrength pair.1 :=
    List.forall_mem_map.mpr fun other hother => le_of_mem_inside hother
  rw [inside_of_le hfloor, inside_append hright links]
  unfold OperatorChain.upTo join
  rw [List.map_cons, List.map_append, ← List.cons_append, Expr.attachAll_append]
  rw [entry, Expr.attachAll_cons hclosed hrow]
  rfl

end ScriptHooks.Script

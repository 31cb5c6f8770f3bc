/-
ScriptHooks.Proofs.Script.LoopKeywords — the words `while`, `do` and `with` and the
nodes they stand for.

Each `while`, `do` and `with` statement has words of its own in the text; `LoopWord`
names them: the word that starts the statement, and for a `do` loop also the `while`
that ends it. Such a word carries where it stands, or where the loop that it ends
starts. The same words are found in two ways:

* in the tree, node by node (`Branch.loopWords`);
* in the tokens, by their readings (`Reading.loopWords`), where a property, a label or
  a method of that spelling contributes nothing.

A production of the grammar keeps them (`Rule.loopWords_perm`), so the readings of a
spelling and the nodes of the tree have the same ones (`Spells.loopWords_perm`). The
order is not kept: a `do` loop has its second word behind its body, while the node
comes before. Therefore permutations, here and in the result.

`Program.loop_keywords_kept` then counts by kind: the `while` loops are the readings of
`while` that end no loop, the `do` loops are both the readings of `do` and those of
`while` that end one, and `with` is the plain case. `filterMap_headAt` and
`filterMap_tailAt` choose the positions from the readings, `whileAt_loopWords` and its
kin from the nodes. That a word of these three is a keyword at all, and no name, is
due to their being reserved (`reserved_of_loopNames`).
-/
import Mathlib.Data.List.Perm.Basic
import ScriptHooks.Proofs.Script.StatementSoundness
import ScriptHooks.Proofs.Script.TokenLists
import ScriptHooks.Proofs.Script.TreeNodes

namespace ScriptHooks.Script

/-- A word of a loop or of a `with` statement. -/
inductive LoopWord
  /-- The word that a statement starts with, and where it stands. -/
  | head (word : String) (position : Position)
  /-- The `while` that ends the `do` loop that starts there. -/
  | tail (start : Position)
  deriving DecidableEq

/-- The words that loops and `with` statements start with. -/
def loopNames : List String := ["while", "do", "with"]

def Branch.loopWords : Branch → List LoopWord
  | .stmt (.while_ _ _ p) => [.head "while" p]
  | .stmt (.doWhile _ _ p) => [.head "do" p, .tail p]
  | .stmt (.with_ _ _ p) => [.head "with" p]
  | _ => []

/-- The words under a node, its own included. -/
def Branch.allLoopWords (b : Branch) : List LoopWord := b.nodes.flatMap loopWords

/-- What a word at a position contributes if it is read so. -/
def Role.loopWords (role : Role) (word : String) (position : Position) : List LoopWord :=
  match role with
  | keyword => if loopNames.contains word then [.head word position] else []
  | loopEnd start => [.tail start]
  | _ => []

def Reading.loopWords (r : Reading) : List LoopWord :=
  match r.token.word? with
  | some word => r.role.loopWords word r.token.position
  | none => []

namespace Symbol

def branches : Symbol → List Branch
  | .template parts => parts.map .expr
  | .expr e => [.expr e]
  | .more es => es.map .expr
  | .item e => [.expr e]
  | .items _ es => es.map .expr
  | .option e => e.toList.map .expr
  | .key k => Branch.ofKey k
  | .property q => Branch.ofProperty q
  | .properties qs => qs.flatMap Branch.ofProperty
  | .function f => Branch.ofFunction f
  | .signature ps body => ps.map .expr ++ body.map .stmt
  | .arrowBody body => body.map .stmt
  | .declarator d => Branch.ofDeclarator d
  | .declarators ds => ds.flatMap Branch.ofDeclarator
  | .variables _ ds => ds.flatMap Branch.ofDeclarator
  | .head h => Branch.ofHead h
  | .init h => h.toList.flatMap Branch.ofHead
  | .block body => body.map .stmt
  | .stmts body => body.map .stmt
  | .stmt s => [.stmt s]
  | .handler k => k.toList.flatMap Branch.ofCatch
  | .clause k => Branch.ofCatch k
  | .finalizer body => (body.getD []).map .stmt
  | .test e => e.toList.map .expr
  | .cases ks => ks.flatMap Branch.ofCase
  | _ => []

def loopWords : Symbol → List LoopWord
  | .word w p role => role.loopWords w p
  | x => x.branches.flatMap Branch.allLoopWords

end Symbol

namespace Branch

/-- A node has its own words and those of its children. -/
theorem allLoopWords_eq (b : Branch) :
    b.allLoopWords = b.loopWords ++ b.children.flatMap allLoopWords := by
  rw [allLoopWords, nodes_eq, List.flatMap_cons, List.flatMap_assoc]
  rfl

theorem allLoopWords_expr (e : Expr) :
    (expr e).allLoopWords = (ofExpr e).flatMap allLoopWords := allLoopWords_eq (expr e)

theorem allLoopWords_stmt (s : Stmt) :
    (stmt s).allLoopWords = (stmt s).loopWords ++ (ofStmt s).flatMap allLoopWords :=
  allLoopWords_eq (stmt s)

end Branch

section Productions

attribute [local simp] Symbol.loopWords Symbol.branches Role.loopWords loopNames
  Branch.allLoopWords_expr Branch.allLoopWords_stmt Branch.loopWords Branch.ofExpr Branch.ofStmt
  Branch.ofKey Branch.ofFunction Branch.ofProperty Branch.ofDeclarator Branch.ofHead Branch.ofCase
  Branch.ofCatch

/-- Keywords other than the three contribute nothing. -/
theorem Role.loopWords_of_mem {words : List String}
    (h : words.all (!loopNames.contains ·) = true) (hm : w ∈ words) (p : Position) :
    keyword.loopWords w p = [] := by
  have hw : loopNames.contains w = false := by simpa using List.all_eq_true.mp h w hm
  rw [loopWords, hw]
  rfl

/-- A production keeps the words; only in `do` loops they stand in another order. -/
theorem Rule.loopWords_perm (h : Rule x body) :
    (body.flatMap Symbol.loopWords).Perm x.loopWords := by
  cases h with
  | plainWord h | prefixWord h | binaryWord h | accessor h | forIn h =>
    have hw := Role.loopWords_of_mem (by decide) h
    simp only [List.flatMap_cons, Symbol.loopWords, hw]
    simp
  | @«variables» kind _ _ => cases kind <;> simp [VarKind.word]
  | @doWhile body e p | @doWhileMark body e p =>
    have hx : (Branch.stmt (.doWhile body e p)).allLoopWords = .head "do" p :: .tail p ::
        ((Branch.stmt body).allLoopWords ++ (Branch.expr e).allLoopWords) := by
      rw [Branch.allLoopWords_eq]
      simp [Branch.children]
    simp only [Symbol.loopWords, Symbol.branches, List.flatMap_cons, List.flatMap_nil, hx]
    simp only [Role.loopWords, loopNames, List.append_nil, List.nil_append]
    exact List.perm_middle.cons _
  | _ => simp

end Productions

/-! ## From the tokens to the tree -/

namespace Reading

/-- A token in a role that is no keyword contributes nothing. -/
theorem loopWords_plain (t : Token) {role : Role} (h : ∀ w p, role.loopWords w p = []) :
    (mk t role).loopWords = [] := by
  rw [loopWords]
  split
  · exact h _ _
  · rfl

/-- A word contributes what its role says. -/
theorem loopWords_word {t : Token} (ht : t.word? = some n) (role : Role) :
    (mk t role).loopWords = role.loopWords n t.position := by
  simp only [loopWords, ht]

end Reading

/-- The end of a substitution is no word of a loop. -/
theorem Piece.loopWords_all (piece : Piece) :
    piece.all.flatMap Reading.loopWords = piece.readings.flatMap Reading.loopWords := by
  rw [all, List.flatMap_append, List.flatMap_singleton, Reading.loopWords_plain _ fun _ _ => rfl]
  exact List.append_nil _

/-- The readings of a spelling have the words of the symbols. -/
theorem Spells.loopWords_perm (h : Spells σ ts rs rest) :
    (rs.flatMap Reading.loopWords).Perm (σ.flatMap Symbol.loopWords) := by
  induction h with
  | nil => exact .nil
  | mark _ _ _ ih | constant _ _ ih | regex _ _ ih =>
    rw [List.flatMap_cons, Reading.loopWords_plain _ fun _ _ => rfl]
    exact ih
  | word ht _ _ ih =>
    rw [List.flatMap_cons, Reading.loopWords_word ht]
    exact ih.append_left _
  | access _ _ _ _ ih | optional _ _ _ _ ih =>
    rw [List.flatMap_cons, List.flatMap_cons, Reading.loopWords_plain _ fun _ _ => rfl,
      Reading.loopWords_plain _ fun _ _ => rfl]
    exact ih
  | template pieces _ _ _ _ ihs ih =>
    rw [List.cons_append, List.flatMap_cons, Reading.loopWords_plain _ fun _ _ => rfl,
      List.nil_append, List.flatMap_append, List.flatMap_assoc, List.flatMap_cons]
    have hx : (Symbol.template (pieces.map Piece.expr)).loopWords =
        pieces.flatMap fun q => [Symbol.expr q.expr].flatMap Symbol.loopWords := by
      simp only [Symbol.loopWords, Symbol.branches, List.flatMap_map, List.flatMap_cons,
        List.flatMap_nil, List.append_nil]
    rw [hx]
    refine List.Perm.append (List.Perm.flatMap_left pieces fun q hq => ?_) ih
    rw [q.loopWords_all]
    exact ihs q hq
  | omitted _ _ ih => exact ih
  | expand hx _ _ ihb ih =>
    rw [List.flatMap_append, List.flatMap_cons]
    exact (ihb.trans hx.loopWords_perm).append ih

namespace Reading

/-- Whether the reading is this word, other than as a property name or a key. -/
def uses (word : String) (r : Reading) : Bool :=
  r.token.word? == some word && r.role != .member && r.role != .key

/-- Where the `do` loop starts that the reading ends, if it ends one. -/
def loopStart? (r : Reading) : Option Position :=
  match r.role with
  | .loopEnd start => some start
  | _ => none

end Reading

namespace LoopWord

/-- Where the statement starts, if the word is this one at its start. -/
def headAt? (word : String) : LoopWord → Option Position
  | head w p => if w = word then some p else none
  | tail _ => none

/-- Where the `do` loop starts that the word ends, if it ends one. -/
def tailAt? : LoopWord → Option Position
  | head _ _ => none
  | tail p => some p

end LoopWord

namespace Reading

/-- The words of loops are reserved, so that they are no names. -/
theorem reserved_of_loopNames (hw : word ∈ loopNames) : isReservedWord word = true := by
  revert word
  decide

/-- Of the words of a loop only keywords contribute their own position. -/
theorem headAt_loopWords {r : Reading} (hr : r.Admitted) (hw : word ∈ loopNames) :
    r.loopWords.filterMap (LoopWord.headAt? word) =
      if r.uses word && r.loopStart?.isNone then [r.token.position] else [] := by
  obtain ⟨t, role⟩ := r
  cases ht : t.word? with
  | none => simp [loopWords, uses, ht]
  | some w =>
    have ha := hr w ht
    rw [loopWords_word ht]
    cases role with
    | keyword =>
      by_cases h : w = word
      · subst h
        simp [Role.loopWords, uses, loopStart?, LoopWord.headAt?, ht, hw]
      · have hn : (t.word? == some word) = false := by simpa [ht] using h
        rw [uses, hn, Role.loopWords]
        split <;> simp [LoopWord.headAt?, h]
    | loopEnd p => simp [Role.loopWords, loopStart?, LoopWord.headAt?]
    | name =>
      have h : w ≠ word := by
        rintro rfl
        simp [Role.admits, reserved_of_loopNames hw] at ha
      simp [Role.loopWords, uses, ht, h]
    | member | key => simp [Role.loopWords, uses]
    | mark | value | stop => simp [Role.admits] at ha

/-- Of the words of a loop only those that end one contribute where it starts. -/
theorem tailAt_loopWords {r : Reading} (hr : r.Admitted) :
    r.loopWords.filterMap LoopWord.tailAt? =
      if r.uses "while" then r.loopStart?.toList else [] := by
  obtain ⟨t, role⟩ := r
  cases ht : t.word? with
  | none => simp [loopWords, uses, ht]
  | some w =>
    have ha := hr w ht
    rw [loopWords_word ht]
    cases role with
    | keyword =>
      rw [Role.loopWords]
      split <;> simp [loopStart?, LoopWord.tailAt?]
    | loopEnd p =>
      have h : w = "while" := by simpa [Role.admits] using ha
      simp [Role.loopWords, uses, loopStart?, LoopWord.tailAt?, ht, h]
    | name | member | key => simp [Role.loopWords, loopStart?]
    | mark | value | stop => simp [Role.admits] at ha

/-- Only a `while` ends a `do` loop. -/
theorem loopStart_of_uses {r : Reading} (hr : r.Admitted) (hu : r.uses word = true)
    (hw : word ≠ "while") : r.loopStart?.isNone = true := by
  obtain ⟨t, role⟩ := r
  simp only [uses, Bool.and_eq_true, beq_iff_eq] at hu
  have ha := hr word hu.1.1
  cases role with
  | loopEnd p => simp [Role.admits, hw] at ha
  | _ => rfl

variable {rs : List Reading}

/-- The words that start a statement are the readings of the word that end no loop. -/
theorem filterMap_headAt (hr : ∀ r ∈ rs, r.Admitted) (hw : word ∈ loopNames) :
    (rs.flatMap loopWords).filterMap (LoopWord.headAt? word) =
      ((rs.filter (uses word)).filter (·.loopStart?.isNone)).map (·.token.position) := by
  induction rs with
  | nil => rfl
  | cons r rs ih =>
    obtain ⟨h, hr⟩ := List.forall_mem_cons.mp hr
    rw [List.flatMap_cons, List.filterMap_append, ih hr, headAt_loopWords h hw]
    cases hu : r.uses word <;> cases hs : r.loopStart?.isNone <;> simp [hu, hs]

/-- The words that end a loop are the readings of `while` that say which one. -/
theorem filterMap_tailAt (hr : ∀ r ∈ rs, r.Admitted) :
    (rs.flatMap loopWords).filterMap LoopWord.tailAt? =
      (rs.filter (uses "while")).filterMap loopStart? := by
  induction rs with
  | nil => rfl
  | cons r rs ih =>
    obtain ⟨h, hr⟩ := List.forall_mem_cons.mp hr
    rw [List.flatMap_cons, List.filterMap_append, ih hr, tailAt_loopWords h]
    cases hu : r.uses "while" <;> cases hs : r.loopStart? <;> simp [hu, hs]

/-- Readings of other words end no loop. -/
theorem filter_loopStart (hr : ∀ r ∈ rs, r.Admitted) (hw : word ≠ "while") :
    (rs.filter (uses word)).filter (·.loopStart?.isNone) = rs.filter (uses word) := by
  refine List.filter_eq_self.mpr fun r h => ?_
  obtain ⟨hm, hu⟩ := List.mem_filter.mp h
  exact loopStart_of_uses (hr r hm) hu hw

end Reading

namespace Branch

/-- Where the node starts, if it is a `while` loop. -/
def whileAt? : Branch → Option Position
  | .stmt (.while_ _ _ p) => some p
  | _ => none

/-- Where the node starts, if it is a `do` loop. -/
def doAt? : Branch → Option Position
  | .stmt (.doWhile _ _ p) => some p
  | _ => none

/-- Where the node starts, if it is a `with` statement. -/
def withAt? : Branch → Option Position
  | .stmt (.with_ _ _ p) => some p
  | _ => none

/-- Positions chosen from words are those chosen from nodes, if they are so for each node. -/
theorem filterMap_loopWords {f : LoopWord → Option Position} {at? : Branch → Option Position}
    (h : ∀ b : Branch, b.loopWords.filterMap f = (at? b).toList) (bs : List Branch) :
    (bs.flatMap loopWords).filterMap f = bs.filterMap at? := by
  induction bs with
  | nil => rfl
  | cons b bs ih =>
    rw [List.flatMap_cons, List.filterMap_append, ih, h]
    cases hb : at? b <;> simp [hb]

theorem whileAt_loopWords (b : Branch) :
    b.loopWords.filterMap (LoopWord.headAt? "while") = b.whileAt?.toList := by
  cases b with
  | expr e => rfl
  | stmt s => cases s <;> rfl

theorem doAt_loopWords (b : Branch) :
    b.loopWords.filterMap (LoopWord.headAt? "do") = b.doAt?.toList := by
  cases b with
  | expr e => rfl
  | stmt s => cases s <;> rfl

theorem doEnd_loopWords (b : Branch) :
    b.loopWords.filterMap LoopWord.tailAt? = b.doAt?.toList := by
  cases b with
  | expr e => rfl
  | stmt s => cases s <;> rfl

theorem withAt_loopWords (b : Branch) :
    b.loopWords.filterMap (LoopWord.headAt? "with") = b.withAt?.toList := by
  cases b with
  | expr e => rfl
  | stmt s => cases s <;> rfl

end Branch

/-- The nodes of a program have the words of its statements. -/
theorem Program.nodes_loopWords (program : Program) :
    program.nodes.flatMap Branch.loopWords =
      [Symbol.stmts program.body].flatMap Symbol.loopWords := by
  rw [nodes, List.flatMap_assoc, List.flatMap_singleton]
  simp only [Symbol.loopWords, Symbol.branches, List.flatMap_map]
  rfl

/-- An accepted program and its tokens have the same loops and `with` statements.
However the tokens are read as the program, each `do` and `with` that is no property
name or key is the start of just one such node, and each `while` is the start of just
one loop or the end of just one `do` loop. -/
theorem Program.loop_keywords_kept {tokens : List Token} (hw : WellEnded tokens)
    (ha : (Program.ofTokens tokens).2 = []) :
    let program := (Program.ofTokens tokens).1
    (∃ readings rest, Spells [.stmts program.body] tokens readings rest ∧
      (rest.headD default).isEof = true) ∧
    ∀ readings rest, Spells [.stmts program.body] tokens readings rest →
      (rest.headD default).isEof = true →
      readings.map Reading.token ++ rest = tokensWithin tokens ∧
      ((readings.filter (Reading.uses "do")).map (·.token.position)).Perm
        (program.nodes.filterMap Branch.doAt?) ∧
      ((readings.filter (Reading.uses "with")).map (·.token.position)).Perm
        (program.nodes.filterMap Branch.withAt?) ∧
      (((readings.filter (Reading.uses "while")).filter (·.loopStart?.isNone)).map
        (·.token.position)).Perm (program.nodes.filterMap Branch.whileAt?) ∧
      ((readings.filter (Reading.uses "while")).filterMap Reading.loopStart?).Perm
        (program.nodes.filterMap Branch.doAt?) := by
  intro program
  obtain ⟨rest, ⟨readings, hs⟩, he⟩ := Program.ofTokens_spelled ha
  refine ⟨⟨readings, rest, hs, he⟩, fun readings rest hs he => ?_⟩
  obtain ⟨hr, ht⟩ := hs.tokensWithin_eq hw
  have hadm := hs.admitted
  have hperm := hs.loopWords_perm
  rw [← program.nodes_loopWords] at hperm
  refine ⟨?_, ?_, ?_, ?_, ?_⟩
  · rw [ht, hr.eq_of_isEof he, tokensWithin_cons, Token.parts_of_isEof he]
    rfl
  · rw [← Reading.filter_loopStart hadm (by decide), ← Reading.filterMap_headAt hadm (by decide),
      ← Branch.filterMap_loopWords Branch.doAt_loopWords]
    exact hperm.filterMap _
  · rw [← Reading.filter_loopStart hadm (by decide), ← Reading.filterMap_headAt hadm (by decide),
      ← Branch.filterMap_loopWords Branch.withAt_loopWords]
    exact hperm.filterMap _
  · rw [← Reading.filterMap_headAt hadm (by decide),
      ← Branch.filterMap_loopWords Branch.whileAt_loopWords]
    exact hperm.filterMap _
  · rw [← Reading.filterMap_tailAt hadm, ← Branch.filterMap_loopWords Branch.doEnd_loopWords]
    exact hperm.filterMap _

/-- The tokens of `do ; while (a)`. -/
def doLoopTokens : List Token := [
  .mk (.word "do") ⟨1, 1⟩ true, .mk (.punct ";") ⟨1, 4⟩ false, .mk (.word "while") ⟨1, 6⟩ false,
  .mk (.punct "(") ⟨1, 12⟩ false, .mk (.word "a") ⟨1, 13⟩ false, .mk (.punct ")") ⟨1, 14⟩ false,
  .mk .eof ⟨1, 15⟩ true]

/-- In `do ; while (a)` the one `while` ends the loop that starts at the first column. -/
theorem Program.loop_keywords_kept_do :
    WellEnded doLoopTokens ∧ (Program.ofTokens doLoopTokens).2 = [] ∧
      ∃ (readings : List Reading) (rest : List Token),
        readings.map Reading.token ++ rest = tokensWithin doLoopTokens ∧
        ((readings.filter (Reading.uses "while")).filterMap Reading.loopStart?).Perm
          [⟨1, 1⟩] := by
  have hw : WellEnded doLoopTokens := by
    refine .token rfl ?_ (.token rfl ?_ (.token rfl ?_ (.token rfl ?_ (.token rfl ?_
      (.token rfl ?_ (.stop rfl))))))
    all_goals simp [Token.parts, Token.kind]
  have ha : (Program.ofTokens doLoopTokens).2 = [] := by decide +kernel
  have hn : (Program.ofTokens doLoopTokens).1.nodes.filterMap Branch.doAt? = [⟨1, 1⟩] := by
    decide +kernel
  obtain ⟨⟨readings, rest, hs, he⟩, h⟩ := Program.loop_keywords_kept hw ha
  obtain ⟨ht, -, -, -, hd⟩ := h readings rest hs he
  exact ⟨hw, ha, readings, rest, ht, hn ▸ hd⟩

end ScriptHooks.Script

/-
ScriptHooks.Proofs.Script.ChainStatements — a chain of operators as a statement.

A statement may start with an operand, or with an operator and an operand if that operator may stand
before one (`Opening`). The second kind is what is left of a chain when parsing goes on at a line
that starts with `+` or `-`: the sign then belongs to the operand, and the rest is again a chain.

Nothing but an expression starts so, and nothing but the semicolon ends it. From the outside in, a
statement is tried as a declaration, as one of the statements with a keyword, as a label, as an
arrow function, as an assignment and as a choice; each lemma of the middle part rules out one of
these by the next one or two tokens (`Starts`), and hands the chain on to the production inside.
What is left is the loop over operators, which `ChainReading` is about. So the statement is read as
the tree of the chain if that can be afforded, and fails for an excess if not (`statement_within`).

Any other operator at the start of a statement fails there, with the message that names it
(`statement_misplaced`). No operator of the table starts an operand but `+` and `-`, and `in` and
`instanceof` are reserved words.
-/
import ScriptHooks.Proofs.Script.ChainReading

namespace ScriptHooks.Script

open Parse

/-! ## How a statement starts -/

namespace Token

variable {token next : Token}

/-- The fault that an operator stands where an operand should. -/
def misplaced (token : Token) : Fault :=
  match token.kind with
  | .word name => ⟨"unexpected keyword '" ++ name ++ "'", token.position⟩
  | _ => ⟨"unexpected " ++ token.describe, token.position⟩

/-- The tokens start a statement of operators: a plain one and what ends an operand, or an
operator. -/
def Starts (token next : Token) : Prop :=
  token.isPlain = true ∧ next.endsOperand = true ∨ token.isOperator = true

/-- The word that starts a statement of operators is not reserved or is an operator. -/
theorem Starts.word {name : String} (h : Starts token next) (hk : token.kind = .word name) :
    isReservedWord name = false ∧ next.endsOperand = true ∨ name ∈ ["in", "instanceof"] := by
  rcases h with ⟨hplain, hnext⟩ | hop
  · rcases isPlain_cases hplain with hk' | ⟨name', hk', hname⟩
    · cases hk.symm.trans hk'
    · cases hk.symm.trans hk'
      exact .inl ⟨hname, hnext⟩
  · simp only [isOperator, hk] at hop
    exact .inr (List.contains_iff_mem.mp hop)

/-- It is no mark but an operator. -/
theorem Starts.isMark (h : Starts token next) {mark : String}
    (hmark : mark ∉ binaryOperators.map Prod.fst) : token.isMark mark = false := by
  rcases h with ⟨hplain, -⟩ | hop
  · exact isMark_of_isPlain hplain mark
  · rw [← Bool.not_eq_true, isMark_iff]
    intro hk
    simp only [isOperator, hk] at hop
    exact hmark (List.contains_iff_mem.mp hop)

/-- What ends an operand is no name. -/
theorem isName_of_endsOperand (h : token.endsOperand = true) : token.isName = false := by
  have hreserved : ∀ name ∈ ["in", "instanceof"], isReservedWord name = true := by decide
  unfold isName
  rcases endsOperand_cases h with ⟨text, -, hk⟩ | ⟨name, hname, hk⟩
  · simp [word?, hk]
  · simp [word?, hk, hreserved name hname]

end Token

namespace Grammar

variable {g : Grammar} {token next : Token} {more : List Token} {taken functions nesting : Nat}
  {noIn : Bool} {issues : List Issue}

/-- No arrow function starts so. -/
theorem startsArrow_eq_false (h : token.Starts next) :
    ParserState.startsArrow ⟨token :: next :: more, taken, functions, nesting, noIn, issues⟩ =
      false := by
  have hgroup : token.isMark "(" = false := h.isMark (by decide)
  show (if token.isName = true then next.isMark "=>"
    else token.isMark "(" && arrowAfterGroup 0 (token :: next :: more)) = false
  by_cases hname : token.isName = true
  · obtain ⟨name, hword, hreserved⟩ := Token.word_of_isName hname
    rw [if_pos hname]
    rcases h.word (Token.word?_iff.mp hword) with ⟨-, hnext⟩ | hop
    · exact Token.isMark_of_endsOperand hnext (by decide)
    · obtain rfl | rfl : name = "in" ∨ name = "instanceof" := by simpa using hop
      · exact absurd hreserved (by decide)
      · exact absurd hreserved (by decide)
  · rw [if_neg hname, hgroup, Bool.false_and]

/-- A word there starts no statement of its own. -/
theorem wordStatement_eq {name : String} (h : token.Starts next) (hk : token.kind = .word name) :
    g.wordStatement name token.position
        ⟨token :: next :: more, taken, functions, nesting, noIn, issues⟩ =
      g.expressionStatement ⟨token :: next :: more, taken, functions, nesting, noIn, issues⟩ := by
  have hword : isReservedWord name = false ∨ name ∈ ["in", "instanceof"] :=
    (h.word hk).imp_left And.left
  unfold wordStatement
  split
  case h_19 =>
    rcases h.word hk with ⟨hname, hnext⟩ | hop
    · have hlist : next.isMark "[" = false := Token.isMark_of_endsOperand hnext (by decide)
      have hobject : next.isMark "\x7b" = false := Token.isMark_of_endsOperand hnext (by decide)
      have hlabel : next.isMark ":" = false := Token.isMark_of_endsOperand hnext (by decide)
      have hfunction : next.isWord "function" = false :=
        Token.isWord_of_endsOperand hnext (by decide)
      show (if (name == "let" && (next.isMark "[" || next.isMark "\x7b" || next.isName)) = true
          then _ else if (name == "async" && next.isWord "function") = true then _
          else if (!isReservedWord name && next.isMark ":") = true then _
          else g.expressionStatement : Parse Stmt) _ = _
      simp [hlist, hobject, hlabel, hfunction, Token.isName_of_endsOperand hnext]
    · obtain rfl | rfl : name = "in" ∨ name = "instanceof" := by simpa using hop
      · rfl
      · rfl
  all_goals exact absurd hword (by decide)

/-- What starts so is an expression as a statement. -/
theorem statementInner_eq (h : token.Starts next) :
    g.statementInner ⟨token :: next :: more, taken, functions, nesting, noIn, issues⟩ =
      g.expressionStatement ⟨token :: next :: more, taken, functions, nesting, noIn, issues⟩ := by
  have hblock : token.isMark "\x7b" = false := h.isMark (by decide)
  have hempty : token.isMark ";" = false := h.isMark (by decide)
  have hpeek : ParserState.peek ⟨token :: next :: more, taken, functions, nesting, noIn, issues⟩ =
      token := rfl
  unfold statementInner
  rw [peek_bind hpeek, hblock, hempty, if_neg Bool.false_ne_true, if_neg Bool.false_ne_true]
  cases hword : token.word? with
  | none => rfl
  | some name => exact wordStatement_eq h (Token.word?_iff.mp hword)

end Grammar

/-- What a statement of operators starts with, and the operand that this is: a plain token, alone or
with an operator before it that may stand there. -/
inductive Opening : List Token → Expr → Prop
  | plain (h : token.isPlain = true) : Opening [token] token.atom
  | signed (link : Link) (h : link.operator.prefixOperator? = some op) :
    Opening [link.operator, link.operand] (.unary op link.operand.atom)

namespace Opening

variable {opening : List Token} {left : Expr} {stop : Token}

/-- The operand has no operators. -/
theorem isJoined (h : Opening opening left) : left.isJoined = false := by
  cases h with
  | plain _ => exact Token.isJoined_atom _
  | signed _ _ => rfl

/-- It is low enough to be measured. -/
theorem height_le (h : Opening opening left) :
    (Branch.expr left).height ≤ maxExpressionDepth := by
  have hsmall : (Branch.expr left).height ≤ 2 := by
    cases h with
    | plain _ => exact (Token.height_atom _).trans (by decide)
    | signed link _ =>
      refine Branch.height_le_succ_iff.mpr fun c hc => ?_
      obtain rfl := List.mem_singleton.mp hc
      exact link.operand.height_atom
  exact hsmall.trans (by decide)

/-- With links and a semicolon behind it, the statement starts as above. -/
theorem starts (h : Opening opening left) (hstop : stop.isMark ";" = true) (links : List Link)
    (more : List Token) : ∃ token next rest,
      opening ++ (Link.tokens links ++ stop :: more) = token :: next :: rest ∧
        token.Starts next := by
  cases h with
  | plain hplain =>
    obtain ⟨next, rest, htokens, hnext⟩ := Link.exists_endsOperand hstop links more
    exact ⟨_, next, rest, by rw [htokens]; rfl, .inl ⟨hplain, hnext⟩⟩
  | signed link _ => exact ⟨link.operator, link.operand, _, rfl, .inr link.isOperator⟩

end Opening

/-! ## A statement of operators -/

namespace Grammar

variable {g : Grammar} {opening : List Token} {left : Expr} {links : List Link} {stop : Token}
  {more : List Token} {taken functions nesting : Nat} {issues : List Issue}

/-- The operand is read in two levels of nesting, with its sign. -/
theorem unary_opening (h : Opening opening left) (hstop : stop.isMark ";" = true)
    (hn : nesting + 1 < maxNesting) :
    Runs (levels (n + 2)).unary
      ⟨opening ++ (Link.tokens links ++ stop :: more), taken, functions, nesting, false, issues⟩
      left
      ⟨Link.tokens links ++ stop :: more, taken + opening.length, functions, nesting, false,
        issues⟩ := by
  cases h with
  | plain hplain => exact (unary_plain hplain hstop).runs (Nat.lt_of_succ_lt hn)
  | signed link hprefix =>
    have hawait : link.operator.isWord "await" = false :=
      Token.isWord_of_endsOperand link.endsOperand (by decide)
    have hpass : Runs pass
        ⟨link.operator :: link.operand :: (Link.tokens links ++ stop :: more), taken, functions,
          nesting + 1, false, issues⟩ ()
        ⟨[link.operand] ++ (Link.tokens links ++ stop :: more), taken + 1, functions, nesting + 1,
          false, issues⟩ :=
      .pass link.isEof_operator
    have hoperand : Runs (levels (n + 1)).unary
        ⟨[link.operand] ++ (Link.tokens links ++ stop :: more), taken + 1, functions, nesting + 1,
          false, issues⟩ link.operand.atom
        ⟨Link.tokens links ++ stop :: more, taken + 1 + 1, functions, nesting + 1, false,
          issues⟩ :=
      (unary_plain link.isPlain hstop).runs hn
    refine Runs.nested ?_ (Nat.lt_of_succ_lt hn)
    unfold unaryInner
    refine .peek (rfl : _ = link.operator) ?_
    rw [hawait, if_neg Bool.false_ne_true, hprefix]
    exact hpass.bind (hoperand.bind rfl)

/-- Operands with operators between them are a choice without alternatives. -/
theorem conditional_within (h : Opening opening left) (hstop : stop.isMark ";" = true)
    (hk : k + 3 = maxNesting) :
    RunsWithin ((Link.join left links).Affordable 2) (levels (k + 2)).conditional
      ⟨opening ++ (Link.tokens links ++ stop :: more), taken, functions, 2, false, issues⟩
      (Link.join left links)
      ⟨stop :: more, taken + opening.length + (Link.tokens links).length, functions, 2, false,
        issues⟩ := by
  have hunary : RunsWithin (2 < maxNesting) (levels (k + 2)).unary
      ⟨opening ++ (Link.tokens links ++ stop :: more), taken, functions, 2, false, issues⟩ left
      ⟨Link.tokens links ++ stop :: more, taken + opening.length, functions, 2, false, issues⟩ :=
    ⟨fun _ => unary_opening h hstop (by decide), fun hn => absurd (by decide) hn⟩
  have hbinary : RunsWithin ((Link.join left links).Affordable 2) ((levels (k + 2)).binary 1)
      ⟨opening ++ (Link.tokens links ++ stop :: more), taken, functions, 2, false, issues⟩
      (Link.join left links)
      ⟨stop :: more, taken + opening.length + (Link.tokens links).length, functions, 2, false,
        issues⟩ := by
    have hinside := binary_within 1 (readsChain_operand (by omega)) hstop h.isJoined
      h.height_le hunary
    rw [Link.inside_one, Link.outside_one] at hinside
    exact hinside
  have hchoice : stop.isMark "?" = false := by
    simp [Token.isMark, Token.isMark_iff.mp hstop]
  unfold conditional
  exact .bind hbinary (.unlessMark hchoice rfl)

section Shell

variable {affordable : Prop} {s s' : ParserState} {e : Expr}

/-- What is neither an arrow nor assigned to is a choice. -/
theorem assignmentInner_within (hs : s.startsArrow = false) (hs' : s'.peek.isMark ";" = true)
    (h : RunsWithin affordable g.conditional s e s') :
    RunsWithin affordable g.assignmentInner s e s' := by
  unfold assignmentInner
  refine .after (rfl : Runs get s s s) (.refl s) ?_
  rw [hs, if_neg Bool.false_ne_true]
  refine .bind h (.peek rfl ?_)
  rw [Token.isMark_iff.mp hs']
  rfl

/-- What no comma follows is an assignment. -/
theorem expression_within (hs' : s'.peek.isMark "," = false)
    (h : RunsWithin affordable g.assignment s e s') :
    RunsWithin affordable g.expression s e s' := by
  unfold expression
  refine .bind h (.peek rfl ?_)
  rw [hs']
  rfl

/-- An expression and the semicolon after it. -/
theorem expressionStatement_within (hstop : stop.isMark ";" = true)
    (h : RunsWithin affordable g.expression s e
      ⟨stop :: more, taken, functions, nesting, false, issues⟩) :
    RunsWithin affordable g.expressionStatement s (.expr e)
      ⟨more, taken + 1, functions, nesting, false, issues⟩ := by
  have hsemicolon : Runs semicolon ⟨stop :: more, taken, functions, nesting, false, issues⟩ ()
      ⟨more, taken + 1, functions, nesting, false, issues⟩ := by
    unfold semicolon
    exact .bind (.acceptMark hstop) rfl
  unfold expressionStatement
  exact .bind h (hsemicolon.bind rfl)

/-- A choice with a semicolon after it, where neither an arrow nor another statement starts. -/
theorem statement_of_conditional {ts : List Token} {taken' : Nat} {issues' : List Issue}
    (harrow : ParserState.startsArrow ⟨ts, taken, functions, 2, false, issues⟩ = false)
    (hstatement : (levels (k + 2)).statementInner ⟨ts, taken, functions, 1, false, issues⟩ =
      (levels (k + 2)).expressionStatement ⟨ts, taken, functions, 1, false, issues⟩)
    (hstop : stop.isMark ";" = true)
    (h : RunsWithin affordable (levels (k + 1)).conditional
      ⟨ts, taken, functions, 2, false, issues⟩ e
      ⟨stop :: more, taken', functions, 2, false, issues'⟩) :
    RunsWithin affordable (levels (k + 3)).statement
      ⟨ts, taken, functions, 0, false, issues⟩ (.expr e)
      ⟨more, taken' + 1, functions, 0, false, issues'⟩ := by
  have hassignment : RunsWithin affordable (levels (k + 2)).assignment
      ⟨ts, taken, functions, 1, false, issues⟩ e
      ⟨stop :: more, taken', functions, 1, false, issues'⟩ :=
    .nested (fun _ => assignmentInner_within harrow hstop h) fun _ => by decide
  have hcomma : stop.isMark "," = false := by
    simp [Token.isMark, Token.isMark_iff.mp hstop]
  have hexpression := expressionStatement_within hstop (expression_within hcomma hassignment)
  exact .nested (fun _ => hexpression.congr hstatement) fun _ => by decide

end Shell

/-- A chain with a semicolon after it is a statement if its tree can be afforded. -/
theorem statement_within (h : Opening opening left) (hstop : stop.isMark ";" = true)
    (hk : k + 3 = maxNesting) :
    RunsWithin ((Link.join left links).Affordable 2) (levels (k + 4)).statement
      ⟨opening ++ (Link.tokens links ++ stop :: more), taken, functions, 0, false, issues⟩
      (.expr (Link.join left links))
      ⟨more, taken + opening.length + (Link.tokens links).length + 1, functions, 0, false,
        issues⟩ := by
  obtain ⟨token, next, rest, htokens, hstarts⟩ := h.starts hstop links more
  refine statement_of_conditional ?_ ?_ hstop (conditional_within h hstop hk)
  · rw [htokens]
    exact startsArrow_eq_false hstarts
  · rw [htokens]
    exact statementInner_eq hstarts

/-! ## An operator in the place of an operand -/

/-- No operand starts with an operator. -/
theorem primary_misplaced {token : Token} (h : token.isOperator = true) :
    Fails g.primary ⟨token :: more, taken, functions, nesting, false, issues⟩
      (· = token.misplaced) := by
  unfold primary
  refine .peek (rfl : _ = token) ?_
  rcases Token.isOperator_cases h with ⟨text, htext, hk⟩ | ⟨name, hname, hk⟩
  · have hmisplaced : token.misplaced = ⟨"unexpected " ++ token.describe, token.position⟩ := by
      simp [Token.misplaced, hk]
    rw [hk, hmisplaced]
    split
    case h_10 => exact ⟨_, _, rfl, rfl, .refl _⟩
    case h_7 hbracket | h_8 hbracket | h_9 hbracket =>
      cases hbracket
      exact absurd htext (by decide)
    all_goals
      rename_i hother
      cases hother
  · have hmisplaced : token.misplaced =
        ⟨"unexpected keyword '" ++ name ++ "'", token.position⟩ := by
      simp [Token.misplaced, hk]
    rw [hk, hmisplaced]
    obtain rfl | rfl : name = "in" ∨ name = "instanceof" := by simpa using hname
    · exact .fail rfl
    · exact .fail rfl

/-- An operator that may not stand before an operand starts no statement. -/
theorem statement_misplaced (link : Link) (h : link.operator.prefixOperator? = none) :
    Fails (levels (k + 4)).statement
      ⟨link.operator :: link.operand :: more, taken, functions, 0, false, issues⟩
      (· = link.operator.misplaced) := by
  have hstarts : link.operator.Starts link.operand := .inr link.isOperator
  have hwords : ∀ word ∉ ["in", "instanceof"], link.operator.isWord word = false := fun word =>
    Token.isWord_of_endsOperand link.endsOperand
  have hchain : Fails (levels (k + 1)).chain
      ⟨link.operator :: link.operand :: more, taken, functions, 3, false, issues⟩
      (· = link.operator.misplaced) := by
    unfold chain
    refine .peek (rfl : _ = link.operator) ?_
    rw [hwords "new" (by decide), if_neg Bool.false_ne_true]
    exact (primary_misplaced link.isOperator).bind
  have hunary : Fails (levels (k + 2)).unary
      ⟨link.operator :: link.operand :: more, taken, functions, 2, false, issues⟩
      (· = link.operator.misplaced) := by
    refine .nested ?_ (by decide : 2 < maxNesting)
    unfold unaryInner
    refine .peek (rfl : _ = link.operator) ?_
    rw [hwords "await" (by decide), if_neg Bool.false_ne_true, h]
    exact hchain.bind
  have hassignment : Fails (levels (k + 3)).assignment
      ⟨link.operator :: link.operand :: more, taken, functions, 1, false, issues⟩
      (· = link.operator.misplaced) := by
    refine .nested ?_ (by decide : 1 < maxNesting)
    unfold assignmentInner
    refine .get ?_
    rw [startsArrow_eq_false hstarts, if_neg Bool.false_ne_true]
    unfold conditional binary
    exact hunary.bind.bind.bind
  have hstatement : Fails (levels (k + 3)).expressionStatement
      ⟨link.operator :: link.operand :: more, taken, functions, 1, false, issues⟩
      (· = link.operator.misplaced) := by
    unfold expressionStatement expression
    exact hassignment.bind.bind
  refine .nested ?_ (by decide : 0 < maxNesting)
  obtain ⟨fault, s', hfault, hkind, hs⟩ := hstatement
  exact ⟨fault, s', (statementInner_eq hstarts).trans hfault, hkind, hs⟩

end Grammar

end ScriptHooks.Script

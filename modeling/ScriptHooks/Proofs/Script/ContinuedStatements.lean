/-
ScriptHooks.Proofs.Script.ContinuedStatements — statements of a script whose tokens go on.

What ends with a closing bracket never comes to the last semicolon; an expression neither. The
other statements end with a semicolon, or with a statement. So each of them is carried over to the
further tokens if the statements inside it are (`Continued.carries_statement`), by induction on the
levels of nesting. Two parts of statements may follow a semicolon, and give no value at the end of
the script: what comes behind the semicolons in the head of a `for`, and the `while` behind the body
of a `do`. They have names here (`forTest`, `forUpdate`, `doTest`), and have to take a token.

An `if` is the one statement that looks behind its last statement, for an `else`. In front of the
end token there is none, and in front of the further tokens there is none by assumption.

A script without issues is a list of statements, each of which is carried over
(`programRound_unnoted`): a round that fails leaves an issue, and issues are not taken back
(`StepRelation.keptIssues`). So behind a script that ends with a semicolon the parser goes on with
the further tokens as if it started there, with the statements of the script already taken
(`Continued.rounds_eq`).
-/
import ScriptHooks.Proofs.Script.ContinuedRuns
import ScriptHooks.Proofs.Script.IssueCap

namespace ScriptHooks.Script

open Parse

/-! ## Behind a semicolon -/

namespace Grammar

/-- A counting loop, from its update on. -/
def forUpdate (g : Grammar) (init : Option ForHead) (test : Option Expr) : Parse Stmt := do
  let update ← if (← peek).isMark ")" then pure none else some <$> g.expression
  expect ")"
  return .for_ init test update (← g.statement)

/-- A counting loop, from its test on. -/
def forTest (g : Grammar) (init : Option ForHead) : Parse Stmt := do
  let test ← if (← peek).isMark ";" then pure none else some <$> g.expression
  expect ";"
  g.forUpdate init test

/-- A loop with a test and a step, behind its first semicolon. -/
theorem forRest_eq (g : Grammar) (init : Option ForHead) :
    g.forRest init = (do expect ";"; g.forTest init) := rfl

/-- A `do` loop, from the word behind its body on. -/
def doTest (g : Grammar) (position : Position) (body : Stmt) : Parse Stmt := do
  expectWord "while"
  let test ← g.parenthesized
  let _ ← acceptMark ";"
  return .doWhile body test position

/-- A `do` loop, behind its body. -/
theorem doStatement_eq (g : Grammar) (position : Position) : g.doStatement position = (do
    pass
    let body ← g.statement
    g.doTest position body) := rfl

namespace TakesTokens

variable {g : Grammar}

theorem moves_forUpdate (hg : g.TakesTokens) (init : Option ForHead) (test : Option Expr) :
    StepRelation.cursor.Keeps (g.forUpdate init test) := by
  unfold Grammar.forUpdate
  refine .peek fun next => hg.moves.expressionUnless _ fun update => ?_
  exact .bind .expect fun _ => .bind hg.moves.statement fun body => .pure

theorem moves_forTest (hg : g.TakesTokens) (init : Option ForHead) :
    StepRelation.cursor.Keeps (g.forTest init) := by
  unfold Grammar.forTest
  refine .peek fun next => hg.moves.expressionUnless _ fun test => ?_
  exact .bind .expect fun _ => hg.moves_forUpdate init test

theorem moves_doTest (hg : g.TakesTokens) (position : Position) (body : Stmt) :
    StepRelation.cursor.Keeps (g.doTest position body) := by
  unfold Grammar.doTest
  refine .bind .expectWord fun _ => .bind hg.moves.parenthesized fun test => ?_
  exact .bind .acceptMark fun _ => .pure

/-- What follows an expression that is left out or not takes a token. -/
theorem expressionUnless (hg : g.TakesTokens) (absent : Prop) [Decidable absent]
    {k : Option Expr → Parse Stmt} (hk : ∀ e, Takes (fun _ => True) (k e)) :
    Takes (fun _ => True) (if absent then pure none >>= k else (some <$> g.expression) >>= k) :=
  .ite (.after .pure hk) (.after (.map hg.moves.expression) hk)

/-- Behind the second one comes the bracket that closes the head. -/
theorem forUpdate (hg : g.TakesTokens) (init : Option ForHead) (test : Option Expr) :
    Takes (fun _ => True) (g.forUpdate init test) := by
  unfold Grammar.forUpdate
  refine .peek fun next => hg.expressionUnless _ fun update => ?_
  exact .first (.expect fun _ _ => trivial) fun _ =>
    .of_moves (.bind hg.moves.statement fun body => .pure)

/-- Behind a semicolon in the head of a `for` comes another one. -/
theorem forTest (hg : g.TakesTokens) (init : Option ForHead) :
    Takes (fun _ => True) (g.forTest init) := by
  unfold Grammar.forTest
  refine .peek fun next => hg.expressionUnless _ fun test => ?_
  exact .after .expect fun _ => hg.forUpdate init test

/-- Behind the body of a `do` comes `while`. -/
theorem doTest (hg : g.TakesTokens) (position : Position) (body : Stmt) :
    Takes (fun _ => True) (g.doTest position body) := by
  unfold Grammar.doTest
  refine .after .expectWord fun _ => .first (ofExpression hg.parenthesized) fun test => ?_
  exact .of_moves (.bind .acceptMark fun _ => .pure)

end TakesTokens

end Grammar

/-! ## Statements -/

namespace Continued

variable {body more : List Token} {last stop : Token} {x : Continued body last stop more}
  {g : Grammar} {s s' : ParserState}

section Levels

variable (hg : x.mirror.Mirrored x.mirror.top g g)

include hg

/-- A declaration ends with a semicolon or with an expression. -/
theorem carries_declaration (kind : VarKind) : x.Carries (g.declaration kind) := by
  unfold Grammar.declaration
  refine .after hg.declarators (fun ds => ?_) (.of_takes hg.takes.declarators) fun ds => ?_
  · exact (Declarator.moveAll_eq _ ds).symm.trans (Declarator.moveAll_id ds)
  · exact .bind .semicolon fun _ => .pure

theorem carries_expressionStatement : x.Carries g.expressionStatement := by
  unfold Grammar.expressionStatement
  refine .after hg.expression Expr.move_id (.of_takes hg.takes.expression) fun e => ?_
  exact .bind .semicolon fun _ => .pure

/-- What follows an expression in brackets. -/
theorem carries_parenthesized {f : Expr → Parse Stmt} (hf : ∀ e, x.Carries (f e)) :
    x.Carries (g.parenthesized >>= f) :=
  .after hg.parenthesized.late Expr.move_id (.of_takes hg.takes.parenthesized) hf

/-- What follows an expression that is left out or not. -/
theorem carries_expressionUnless {absent : Prop} [Decidable absent] {k : Option Expr → Parse Stmt}
    (hk : ∀ e, x.Carries (k e)) :
    x.Carries (if absent then pure none >>= k else (some <$> g.expression) >>= k) := by
  have hpresent : x.mirror.Alike x.mirror.top (Option.map (Expr.move id)) (some <$> g.expression)
      (some <$> g.expression) := .map hg.expression fun _ => rfl
  refine .ite (hk none) (.after hpresent (fun e => ?_) (.of_takes (.map hg.takes.expression)) hk)
  rw [← Expr.moveOption_eq, Expr.moveOption_id]

theorem carries_returnStatement {name : String} (h : x.mirror.Rel s s')
    (hl : ¬x.mirror.lost s.rest) (hw : s.peek.kind = .word name) :
    x.CarriesFrom g.returnStatement s s' := by
  unfold Grammar.returnStatement
  refine .get (by rw [h.counters.functionDepth]) (.ite (fun _ => .fail) fun _ => ?_)
  refine .passWord h hl hw (.peek fun next => carries_expressionUnless hg fun argument => ?_)
  exact .bind .semicolon fun _ => .pure

theorem carries_throwStatement {name : String} (h : x.mirror.Rel s s')
    (hl : ¬x.mirror.lost s.rest) (hw : s.peek.kind = .word name) :
    x.CarriesFrom g.throwStatement s s' := by
  unfold Grammar.throwStatement
  refine .passWord h hl hw (.peek fun next => .ite .fail ?_)
  refine .after hg.expression Expr.move_id (.of_takes hg.takes.expression) fun e => ?_
  exact .bind .semicolon fun _ => .pure

/-- The semicolon behind the test may be the last one. -/
theorem carries_doTest (position : Position) (body : Stmt) :
    x.Carries (g.doTest position body) := by
  unfold Grammar.doTest
  refine .after .expectWord (fun _ => rfl) ?_ fun _ => carries_parenthesized hg fun test => ?_
  · exact .bind .eatWord fun taken => .ite .pure (.peek fun _ => .fail)
  · exact .bind .acceptMark fun _ => .pure

/-! ### With statements inside -/

variable (hs : x.Carries g.statement)

include hs

theorem carries_forUpdate (init : Option ForHead) (test : Option Expr) :
    x.Carries (g.forUpdate init test) := by
  unfold Grammar.forUpdate
  refine .peek fun next => carries_expressionUnless hg fun update => ?_
  refine .after .expect (fun _ => rfl) (.of_takes (Grammar.TakesTokens.expect (by decide))) ?_
  exact fun _ => .bind hs fun body => .pure

theorem carries_forTest (init : Option ForHead) : x.Carries (g.forTest init) := by
  unfold Grammar.forTest
  refine .peek fun next => carries_expressionUnless hg fun test => .bind .expect fun _ => ?_
  exact .of_takes (carries_forUpdate hg hs init test) (hg.takes.moves_forUpdate init test)
    (hg.takes.forUpdate init test)

theorem carries_forRest (init : Option ForHead) : x.Carries (g.forRest init) := by
  rw [Grammar.forRest_eq]
  exact .bind .expect fun _ => .of_takes (carries_forTest hg hs init)
    (hg.takes.moves_forTest init) (hg.takes.forTest init)

theorem carries_forInRest (head : ForHead) : x.Carries (g.forInRest head) := by
  unfold Grammar.forInRest
  refine .after hg.forSubject Expr.move_id (.of_takes hg.takes.forSubject) fun subject => ?_
  refine .after .expect (fun _ => rfl) (.of_takes (Grammar.TakesTokens.expect (by decide))) ?_
  exact fun _ => .bind hs fun body => .pure

section Keyword

variable {name : String} (h : x.mirror.Rel s s') (hl : ¬x.mirror.lost s.rest)
  (hw : s.peek.kind = .word name)

include h hl hw

/-- An `if` with its `else`, or without one. -/
theorem carries_ifStatement : x.CarriesFrom g.ifStatement s s' := by
  unfold Grammar.ifStatement
  refine .passWord h hl hw (carries_parenthesized hg fun test => .bind hs fun consequent => ?_)
  exact .ifElse (.bind hs fun alternate => .pure) .pure

theorem carries_forStatement : x.CarriesFrom g.forStatement s s' := by
  unfold Grammar.forStatement
  refine .passWord h hl hw (.peek fun token => .ite .fail ?_)
  refine .after .expect (fun _ => rfl) (.of_takes (Grammar.TakesTokens.expect (by decide))) ?_
  refine fun _ => .peek fun next => .ite (carries_forRest hg hs none) ?_
  refine .after hg.forHead ForHead.move_id (.of_takes hg.takes.forHead) fun head => ?_
  exact .peek fun next => .ite (carries_forInRest hg hs head) (carries_forRest hg hs (some head))

theorem carries_whileStatement (position : Position) :
    x.CarriesFrom (g.whileStatement position) s s' := by
  unfold Grammar.whileStatement
  exact .passWord h hl hw (carries_parenthesized hg fun test => .bind hs fun body => .pure)

theorem carries_doStatement (position : Position) :
    x.CarriesFrom (g.doStatement position) s s' := by
  rw [Grammar.doStatement_eq]
  refine .passWord h hl hw (.bind hs fun body => ?_)
  exact .of_takes (carries_doTest hg position body) (hg.takes.moves_doTest position body)
    (hg.takes.doTest position body)

theorem carries_withStatement (position : Position) :
    x.CarriesFrom (g.withStatement position) s s' := by
  unfold Grammar.withStatement
  exact .passWord h hl hw (carries_parenthesized hg fun object => .bind hs fun body => .pure)

/-- Statements that start with a word. -/
theorem carries_wordStatement (position : Position) :
    x.CarriesFrom (g.wordStatement name position) s s' := by
  have hopen : s.peek.isEof = false := by simp [Token.isEof, hw]
  have hn : s.rest.length < x.mirror.top + 1 := Nat.lt_succ_of_lt (short h)
  have hjump : ∀ v : Option String → Stmt, x.Carries (do
      let label ← Grammar.jumpLabel
      semicolon
      return v label) := fun v => by
    refine .after (Mirror.Mirrored.jumpLabel (Nat.le_refl _)) (fun _ => rfl) ?_ fun label => ?_
    · exact Grammar.TakesTokens.jumpLabel
    · exact .bind .semicolon fun _ => .pure
  unfold Grammar.wordStatement
  split
  · exact carries_declaration hg .var s s' h hl
  · exact carries_declaration hg .const s s' h hl
  · refine .bind (.of_alike h hl (hg.function true h hn hopen) Function.move_id ?_) fun f => .pure
    exact hg.takes.function true s
  · exact carries_ifStatement hg hs h hl hw
  · exact carries_forStatement hg hs h hl hw
  · exact carries_whileStatement hg hs h hl hw position
  · exact carries_doStatement hg hs h hl hw position
  · exact carries_withStatement hg hs h hl hw position
  · exact carries_returnStatement hg h hl hw
  · exact carries_throwStatement hg h hl hw
  · exact .of_alike h hl (hg.tryStatement h hn hopen) Stmt.move_id (hg.takes.tryStatement s)
  · exact .of_alike h hl (hg.switchStatement h hn hopen) Stmt.move_id (hg.takes.switchStatement s)
  · exact .passWord h hl hw (hjump _)
  · exact .passWord h hl hw (hjump _)
  · exact .passWord h hl hw (.bind .semicolon fun _ => .pure)
  iterate 3 exact .fail
  have hword : s.peek.word? = some name := Token.word?_iff.mpr hw
  have hsecond := h.second hl hword
  refine .get ?_ (.ite (fun _ => carries_declaration hg .let_ s s' h hl) fun _ => ?_)
  · rw [h.letDeclares hl hword, hsecond.isWord, hsecond.isMark]
  refine .ite (fun _ => .fail) fun _ => .ite (fun _ => ?_) fun _ => ?_
  · refine .passWord h hl hw (.bind .pass fun _ => ?_)
    exact .of_takes (.bind hs fun body => .pure) (.bind hg.takes.moves.statement fun body => .pure)
      (.first hg.takes.statement fun body => .pure)
  · exact carries_expressionStatement hg s s' h hl

end Keyword

theorem carries_statementInner : x.Carries g.statementInner := by
  intro s s' h hl
  unfold Grammar.statementInner
  refine .peek h hl (.ite (fun _ => ?_) fun _ => .ite (fun _ => ?_) fun _ => ?_)
  · refine .bind (.of_alike h hl (hg.block.late.run h (short h)) (fun body => ?_)
      (hg.takes.block s)) fun body => .pure
    exact (Stmt.moveAll_eq _ body).symm.trans (Stmt.moveAll_id body)
  · exact Carries.bind .pass (fun _ => .pure) s s' h hl
  split
  case h_1 name hw => exact carries_wordStatement hg hs h hl (Token.word?_iff.mp hw) _
  case h_2 => exact carries_expressionStatement hg s s' h hl

end Levels

/-! ### Levels -/

/-- Any number of levels is alike in the script. -/
theorem alike_levels (x : Continued body last stop more) (levels : Nat) :
    x.mirror.AlikeGrammar (x.mirror.top + 1) (Grammar.levels levels) (Grammar.levels levels) := by
  induction levels with
  | zero => exact .exhausted
  | succ levels ih =>
    have hg := Mirror.mirrored_of_moved (.levels levels) (Lists.wellEnded x)
      (Mirror.moved_levels id levels) ih
    exact hg.next ih.assignment ih.unary

/-- Its templates are so too. -/
theorem mirrored_levels (x : Continued body last stop more) (levels : Nat) :
    x.mirror.Mirrored x.mirror.top (Grammar.levels levels) (Grammar.levels levels) :=
  Mirror.mirrored_of_moved (.levels levels) (Lists.wellEnded x) (Mirror.moved_levels id levels)
    (x.alike_levels levels)

/-- A statement of the script is read alike where the script goes on. -/
theorem carries_statement (x : Continued body last stop more) (levels : Nat) :
    x.Carries (Grammar.levels levels).statement := by
  induction levels with
  | zero => exact .fail
  | succ levels ih => exact .nested (carries_statementInner (x.mirrored_levels levels) ih)

end Continued

/-! ## Scripts without issues -/

/-- No step takes an issue back. -/
def StepRelation.keptIssues : StepRelation where
  rel s s' := s.issues <+: s'.issues
  refl s := List.prefix_refl s.issues
  trans := List.IsPrefix.trans
  pass s := by simp only [Gives.pass_issues, List.prefix_rfl]
  noting s fault := by
    unfold ParserState.noting
    split
    · exact List.prefix_append _ _
    · exact List.prefix_refl _
  nested h := h
  withoutIn h := h
  insideFunction h := h
  template {s _ _} _ _ _ := by
    rw [Gives.pass_issues]
    exact List.prefix_append _ _

/-- Where a fault is recorded there are issues, also if there was no room for it. -/
theorem ParserState.noting_issues_ne_nil (s : ParserState) (fault : Fault) :
    (s.noting fault).issues ≠ [] := by
  unfold noting
  split
  · simp
  case isFalse hfull =>
    intro hnil
    rw [hnil] at hfull
    exact hfull (by decide)

namespace Grammar

variable {g : Grammar} {acc : List Stmt} {s mid : ParserState} {r : Step (List Stmt) Program}

/-- A round that leaves no issue has come to the end, or has run a statement. -/
theorem programRound_unnoted (hopen : s.isAtEnd = false) (hr : g.programRound acc s = .ok r mid)
    (hissues : mid.issues = []) : s.peek.isMark "\x7d" = false ∧
      ∃ stmt, g.statement s = .ok stmt mid ∧ r = .more (stmt :: acc) := by
  cases hbrace : s.peek.isMark "\x7d" with
  | true =>
    cases hr.symm.trans (programRound_brace hbrace)
    rw [Gives.pass_issues] at hissues
    exact absurd hissues (s.noting_issues_ne_nil _)
  | false =>
    refine ⟨rfl, ?_⟩
    cases hstmt : g.statement s with
    | ok stmt mid' =>
      cases hr.symm.trans (programRound_runs acc hopen hbrace hstmt)
      exact ⟨stmt, rfl, rfl⟩
    | error fault mid' =>
      cases hr.symm.trans (programRound_error acc hopen hbrace hstmt)
      have hkept := StepRelation.Keeps.recover .keptIssues (mid'.noting fault) s.consumed
      exact absurd (List.prefix_nil.mp (hissues ▸ hkept)) (mid'.noting_issues_ne_nil fault)

/-- A round gives a value whatever happens in it. -/
theorem programRound_ok (g : Grammar) (acc : List Stmt) (s : ParserState) :
    ∃ r mid, g.programRound acc s = .ok r mid := by
  cases hend : s.isAtEnd with
  | true => exact ⟨_, _, programRound_end hend⟩
  | false =>
    cases hbrace : s.peek.isMark "\x7d" with
    | true => exact ⟨_, _, programRound_brace hbrace⟩
    | false =>
      cases hstmt : g.statement s with
      | ok stmt mid => exact ⟨_, _, programRound_runs acc hend hbrace hstmt⟩
      | error fault mid => exact ⟨_, _, programRound_error acc hend hbrace hstmt⟩

/-- Reading a script gives a program, whatever the tokens are. -/
theorem TakesTokens.program_ok (hg : g.TakesTokens) (s : ParserState) :
    ∃ program fin, g.program s = .ok program fin := by
  have hrounds : ∀ fuel acc (s : ParserState), s.rest.length < fuel →
      ∃ program fin, rounds g.programRound fuel acc s = .ok program fin := by
    intro fuel
    induction fuel with
    | zero => exact fun _ _ h => absurd h (Nat.not_lt_zero _)
    | succ fuel ih =>
      intro acc s hfuel
      obtain ⟨r, mid, hr⟩ := programRound_ok g acc s
      simp only [rounds, Bind.bind, EStateM.bind, hr]
      cases r with
      | more acc' =>
        have hless := (hg.programRound acc s _ mid hr trivial).length_lt
        exact ih acc' mid (by omega)
      | done program => exact ⟨program, mid, rfl⟩
  exact hrounds _ [] s (Nat.lt_succ_self _)

end Grammar

namespace Continued

variable {body more : List Token} {last stop : Token} {s s' fin : ParserState} {program : Program}
  {acc : List Stmt} {fuel fuel' levels : Nat}

/-- The script is not at its end before the semicolon. -/
theorem isAtEnd_open {x : Continued body last stop more} (h : x.mirror.Rel s s')
    (hl : ¬x.mirror.lost s.rest) : s.isAtEnd = false := by
  obtain ⟨left, hleft, hs, -⟩ := Lists.cases_open h.lists hl
  rw [ParserState.isAtEnd, ParserState.peek, ParserState.tokenAhead, hs]
  cases left with
  | nil => exact (Token.single_of_isMark x.isMark).notEof
  | cons t left => exact x.notEof t (hleft.subset List.mem_cons_self)

/-- Behind the statements of a script without issues, the loop goes on with the further tokens. -/
theorem rounds_eq (x : Continued body last stop more) (h : x.mirror.Rel s s')
    (hfuel : s'.rest.length < fuel')
    (hr : rounds (Grammar.levels levels).programRound fuel acc s = .ok program fin)
    (hissues : fin.issues = []) :
    ∃ left behind, behind.rest = more ∧ behind.issues = [] ∧ s'.SameCounters behind ∧
      more.length < left ∧ rounds (Grammar.levels levels).programRound fuel' acc s' =
        rounds (Grammar.levels levels).programRound left program.body.reverse behind := by
  have htakes := Grammar.TakesTokens.levels levels
  induction fuel generalizing fuel' acc s s' with
  | zero => cases hr
  | succ fuel ih =>
    rw [rounds] at hr
    obtain ⟨r, mid, hround, hr⟩ := bind_eq_ok hr
    by_cases hl : x.mirror.lost s.rest
    · obtain ⟨hs, hs'⟩ := Lists.cases_end h.lists hl
      have hend : s.isAtEnd = true := by
        rw [ParserState.isAtEnd, ParserState.peek, ParserState.tokenAhead, hs]
        exact x.isEof
      cases hround.symm.trans (Grammar.programRound_end hend)
      cases hr
      refine ⟨fuel', s', hs', ?_, ⟨rfl, rfl, rfl⟩, hs' ▸ hfuel, ?_⟩
      · rw [h.issues, hissues]
        rfl
      · rw [List.reverse_reverse]
    · have hopen := isAtEnd_open h hl
      -- an issue of this round would still be there in the end
      have hmid : mid.issues = [] := by
        have hkept : StepRelation.keptIssues.rel mid fin := by
          cases r with
          | more acc' =>
            have hround := (StepRelation.KeepsGrammar.levels .keptIssues levels).programRound
            exact (StepRelation.Keeps.rounds hround fuel acc').of_ok hr
          | done b => exact StepRelation.Keeps.pure.of_ok hr
        exact List.prefix_nil.mp (hissues ▸ hkept)
      obtain ⟨hbrace, stmt, hstmt, rfl⟩ := Grammar.programRound_unnoted hopen hround hmid
      obtain ⟨mid', hstmt', hrel⟩ := x.carries_statement levels s s' h hl stmt mid hstmt
      have hround' := Grammar.programRound_runs acc ((h.isAtEnd hl).trans hopen)
        (((h.twin hl).isMark _).trans hbrace) hstmt'
      have hless := (htakes.statement s' stmt mid' hstmt' trivial).length_lt
      have hcounters : s'.SameCounters mid' :=
        (StepRelation.KeepsGrammar.levels .sameCounters levels).statement.of_ok hstmt'
      obtain ⟨fuel', rfl⟩ := Nat.exists_eq_add_one_of_ne_zero (Nat.ne_zero_of_lt hfuel)
      have hfuel' : mid'.rest.length < fuel' := by omega
      obtain ⟨left, behind, hrest, hnone, hsame, hleft, heq⟩ := ih hrel hfuel' hr
      have hsame := StepRelation.sameCounters.trans hcounters hsame
      refine ⟨left, behind, hrest, hnone, hsame, hleft, ?_⟩
      rw [← heq]
      exact hround'.bind_eq

end Continued

end ScriptHooks.Script

/-
ScriptHooks.Proofs.Script.StatementSoundness — an accepted program is spelled by its
tokens.

What `ExpressionSoundness` proves of expressions is proved here of declarations and
statements, in the order of the parser, and then for the whole. A statement that
starts with a word is parsed after a look at the word, which is then taken unseen;
`Opens ts word position` says that the tokens start with the word at that place, and
is the hypothesis of these productions.

`Grammar.Sound` is proved by induction on the levels of nesting: the grammar without
a level gives nothing (`exhausted_sound`), and one more level keeps it sound,
production by production (`Sound.next`). So the induction is over the grammar as a
record of five productions, and not over the tokens: the parser is a tower of
grammars, each of which uses the one below it.

The results are about a program that is parsed without an issue:

* `Program.ofTokens_sound`: the tokens up to an end token are those of the program;
* `Program.ofTokens_spelled`: they spell it, with readings for every token;
* `Program.ofTokens_nested`: their brackets are nested by kind.

They assume of the tokens that they end well. That the end token where parsing stops is the
last of the list follows from that, since an end token stands nowhere else.
-/
import ScriptHooks.Proofs.Script.ExpressionSoundness

namespace ScriptHooks.Script

open Parse

/-- The word comes next, at this position. -/
structure Opens (ts : List Token) (name : String) (position : Position) : Prop where
  word : (ts.headD default).word? = some name
  position : (ts.headD default).position = position

/-- A word that opens a production, once it is taken. -/
theorem Passes.opening (h : Passes ts rest) (ho : Opens ts n p) :
    Spelled [.word n p .keyword] ts rest :=
  ho.position ▸ h.keyword ho.word

/-- Where a declaration is announced, the tokens start with its word. -/
theorem ParserState.opens_of_declares {s : ParserState} (h : s.declares = some kind) :
    Opens s.rest kind.word (s.rest.headD default).position := by
  refine ⟨Token.isWord_iff.mp ?_, rfl⟩
  unfold declares at h
  split at h
  · rename_i hw
    cases h
    exact hw
  · split at h
    · rename_i hw
      cases h
      exact hw
    · split at h
      · rename_i hw
        cases h
        exact (Bool.and_eq_true_iff.mp hw).1
      · cases h

namespace Grammar.Sound

variable {g : Grammar}

/-! ## Declarations -/

theorem declarator (hg : g.Sound) : Reads g.declarator .declarator := by
  unfold Grammar.declarator
  refine .bind hg.bindingTarget fun target => ?_
  refine ifMark_reads "=" rfl (.bind hg.assignment fun init => .pure ?_) (.pure ?_)
  · intro rest m₁ hi m₂ hm ts ht
    exact .rule .declaratorInit (ht.cons (hm.cons hi)) rfl
  · intro rest ts ht
    exact .unit .declaratorBare ht rfl

/-- Declarators behind the word that declares, which is the first of the tokens. -/
theorem declarators (hg : g.Sound) : Gives g.declarators fun ts ds rest =>
    ∀ kind p, Opens ts (VarKind.word kind) p → Spelled [.variables kind ds] ts rest := by
  unfold Grammar.declarators
  refine .bind .pass fun _ => (Gives.loop (I := fun taken ts all rest => ∃ ds,
    all = taken.reverse ++ ds ∧ Spelled [.declarators ds] ts rest) fun taken => ?_).mono ?_
  · refine .bind hg.declarator fun d => ifMark_reads "," rfl (.pure ?_) (.pure ?_)
    · rintro rest mid hm ts hd all last ⟨ds, rfl, he⟩
      exact ⟨d :: ds, by simp, .rule .declaratorsNext (hd.cons (hm.cons he)) rfl⟩
    · intro rest ts hd
      exact ⟨[d], by simp, .rule .declaratorsLast hd rfl⟩
  · rintro mid ds rest ⟨_, rfl, hd⟩ ts hp kind p ho
    exact .rule .variables ((hp.opening ho).cons (by simpa using hd)) rfl

theorem declaration (hg : g.Sound) (kind : VarKind) :
    Gives (g.declaration kind) fun ts s rest => ∀ p, Opens ts kind.word p →
      Spelled [.stmt s] ts rest := by
  unfold Grammar.declaration
  refine .bind hg.declarators fun ds => .bind semicolon_reads fun _ => .pure ?_
  intro rest mid hs ts hd p ho
  exact .rule .declare ((hd kind p ho).cons hs) rfl

/-- An expression as a statement, or a label before one. -/
theorem expressionStatement (hg : g.Sound) : Reads g.expressionStatement .stmt := by
  unfold Grammar.expressionStatement
  refine .bind hg.expression fun e => .bind semicolon_reads fun _ => .pure ?_
  intro rest mid hs ts he
  exact .rule .expression (he.cons hs) rfl

/-! ## Choices and loops -/

theorem ifStatement (hg : g.Sound) : Gives g.ifStatement fun ts s rest =>
    ∀ p, Opens ts "if" p → Spelled [.stmt s] ts rest := by
  unfold Grammar.ifStatement
  refine .bind .pass fun _ => .bind hg.parenthesized fun test => ?_
  refine .bind hg.statement fun consequent => .ifWord (.bind hg.statement fun s => .pure ?_) ?_
  · intro rest m₁ ha m₂ hw he m₃ hc m₄ ht ts hp p ho
    have he := he.keyword (Token.isWord_iff.mp hw)
    exact .rule .ifElse ((hp.opening ho).cons (ht _ _ (hc.cons (he.cons ha)))) rfl
  · refine .pure ?_
    intro rest m₁ hc m₂ ht ts hp p ho
    exact .rule .if_ ((hp.opening ho).cons (ht _ _ hc)) rfl

/-- What a loop over items binds or assigns to. -/
theorem forHead (hg : g.Sound) : Reads g.forHead .head := by
  unfold Grammar.forHead
  refine .withoutIn (.get fun s => ?_)
  split
  · rename_i kind hk
    refine .bind hg.declarators fun ds => .pure ?_
    rintro rest ts hd rfl
    exact .unit .headVariables (hd kind _ (s.opens_of_declares hk)) rfl
  · refine .bind hg.expression fun e => .pure ?_
    intro rest ts he _
    exact .unit .headExpr he rfl

/-- What a loop goes over, behind `of` or `in`. -/
theorem forSubject (hg : g.Sound) : Gives g.forSubject fun ts e rest =>
    ((ts.headD default).isWord "of" || (ts.headD default).isWord "in") = true →
      ∃ w p, w ∈ ["in", "of"] ∧ Spelled [.word w p .keyword, .expr e] ts rest := by
  unfold Grammar.forSubject
  refine .bind .eatWord fun taken => ?_
  cases taken with
  | true =>
    refine hg.assignment.mono ?_
    rintro mid e rest he ts ⟨hw, hp⟩ -
    exact ⟨"of", _, by simp, (hp.keyword (Token.isWord_iff.mp hw)).cons he⟩
  | false =>
    refine .bind .pass fun _ => hg.expression.mono ?_
    rintro mid e rest he _ hp ts ⟨hw, rfl⟩ h
    rw [hw, Bool.false_or] at h
    exact ⟨"in", _, by simp, (hp.keyword (Token.isWord_iff.mp h)).cons he⟩

/-- A loop over items, from its head on. -/
theorem forInRest (hg : g.Sound) (head : ForHead) :
    Gives (g.forInRest head) fun mid s rest =>
      ((mid.headD default).isWord "of" || (mid.headD default).isWord "in") = true →
      ∀ ts p, Spelled [.word "for" p .keyword, .mark "(", .head head] ts mid →
        Spelled [.stmt s] ts rest := by
  unfold Grammar.forInRest
  refine .bind hg.forSubject fun e => .bind (expect_reads ")" rfl) fun _ => ?_
  refine .bind hg.statement fun body => .pure ?_
  intro rest m₁ hb m₂ hc mid he hw ts p hf
  obtain ⟨w, q, hm, he⟩ := he hw
  exact .rule (.forIn hm) (hf.append (he.append (hc.cons hb))) rfl

/-- An expression that is left out before a mark. -/
theorem expressionUnless (hg : g.Sound) (absent : Prop) [Decidable absent]
    {k : Option Expr → Parse β} {T : List Token → β → List Token → Prop}
    (hk : ∀ e, Gives (k e) fun mid b rest => ∀ ts, Spelled [.option e] ts mid → T ts b rest) :
    Gives (if absent then pure none >>= k else (some <$> g.expression) >>= k) T :=
  .branch (fun _ => .pure fun _ => .rule .optionNone .nil rfl)
    (fun _ => .map (hg.expression.mono fun _ _ _ he => .unit .optionSome he rfl)) hk

/-- A loop with a test and a step, from its start on. -/
theorem forRest (hg : g.Sound) (init : Option ForHead) :
    Gives (g.forRest init) fun mid s rest =>
      ∀ ts p, Spelled [.word "for" p .keyword, .mark "(", .init init] ts mid →
        Spelled [.stmt s] ts rest := by
  unfold Grammar.forRest
  refine .bind (expect_reads ";" rfl) fun _ => .peek fun t => ?_
  refine hg.expressionUnless _ fun test => .bind (expect_reads ";" rfl) fun _ => ?_
  refine .peek fun t' => hg.expressionUnless _ fun update => ?_
  refine .bind (expect_reads ")" rfl) fun _ => .bind hg.statement fun body => .pure ?_
  intro rest m₁ hb m₂ hc m₃ hu _ m₄ hs m₅ ht _ mid hs' ts p hf
  exact .rule .for_ (hf.append (hs'.cons (ht.cons (hs.cons (hu.cons (hc.cons hb)))))) rfl

theorem forStatement (hg : g.Sound) : Gives g.forStatement fun ts s rest =>
    ∀ p, Opens ts "for" p → Spelled [.stmt s] ts rest := by
  unfold Grammar.forStatement
  refine .bind .pass fun _ => .peek fun t => .ite (fun _ => .unsupported) fun _ => ?_
  refine .bind (expect_reads "(" rfl) fun _ => .peek fun t => .ite (fun _ => ?_) fun _ => ?_
  · refine (hg.forRest none).mono ?_
    intro m₁ s rest h _ m₂ ho _ ts hp p hf
    exact h ts p ((hp.opening hf).cons (ho.cons (.rule .initNone .nil rfl)))
  · refine .bind hg.forHead fun head => .peek fun next => .ite (fun hw => ?_) fun _ => ?_
    · refine (hg.forInRest head).mono ?_
      rintro m₁ s rest h rfl m₂ hh - m₃ ho - ts hp p hf
      exact h hw ts p ((hp.opening hf).cons (ho.cons hh))
    · refine (hg.forRest (some head)).mono ?_
      rintro m₁ s rest h - m₂ hh - m₃ ho - ts hp p hf
      exact h ts p ((hp.opening hf).cons (ho.cons (.unit .initSome hh rfl)))

theorem whileStatement (hg : g.Sound) (position : Position) :
    Gives (g.whileStatement position) fun ts s rest => Opens ts "while" position →
      Spelled [.stmt s] ts rest := by
  unfold Grammar.whileStatement
  refine .bind .pass fun _ => .bind hg.parenthesized fun test => ?_
  refine .bind hg.statement fun body => .pure ?_
  intro rest m₁ hb m₂ ht ts hp ho
  exact .rule .while_ ((hp.opening ho).cons (ht _ _ hb)) rfl

/-- The word that ends the loop is read as one that belongs to where the loop starts. -/
theorem doStatement (hg : g.Sound) (position : Position) :
    Gives (g.doStatement position) fun ts s rest => Opens ts "do" position →
      Spelled [.stmt s] ts rest := by
  unfold Grammar.doStatement
  refine .bind .pass fun _ => .bind hg.statement fun body => ?_
  refine .bind .expectWord fun _ => ?_
  refine .bind hg.parenthesized fun test => .bind .acceptMark fun ended => .pure ?_
  rintro rest m₁ ⟨hm, he⟩ m₂ ht m₃ ⟨hw, hp'⟩ m₄ hb ts hp ho
  have hd := hp.opening ho
  have hw : Spelled [.word "while" (m₃.headD default).position (.loopEnd position)] m₃ m₂ :=
    hp'.word (Token.isWord_iff.mp hw) rfl
  cases ended with
  | true => exact .rule .doWhileMark (hd.cons (hb.cons (hw.cons (ht _ _ (he.mark hm rfl))))) rfl
  | false =>
    cases he
    exact .rule .doWhile (hd.cons (hb.cons (hw.cons (ht _ _ .nil)))) rfl

theorem withStatement (hg : g.Sound) (position : Position) :
    Gives (g.withStatement position) fun ts s rest => Opens ts "with" position →
      Spelled [.stmt s] ts rest := by
  unfold Grammar.withStatement
  refine .bind .pass fun _ => .bind hg.parenthesized fun object => ?_
  refine .bind hg.statement fun body => .pure ?_
  intro rest m₁ hb m₂ ht ts hp ho
  exact .rule .with_ ((hp.opening ho).cons (ht _ _ hb)) rfl

/-! ## Blocks with clauses -/

theorem catchClause (hg : g.Sound) : Reads g.catchClause .clause := by
  unfold Grammar.catchClause
  refine ifMark_reads "(" rfl (.bind hg.bindingTarget fun target => ?_)
    (.bind hg.block fun body => .pure ?_)
  · refine .bind (expect_reads ")" rfl) fun _ => .bind hg.block fun body => .pure ?_
    intro rest m₁ hb m₂ hc m₃ ht ts ho
    exact .rule .clauseBound (ho.cons (ht.cons (hc.cons hb))) rfl
  · intro rest ts hb
    exact .unit .clauseBare hb rfl

theorem tryStatement (hg : g.Sound) : Gives g.tryStatement fun ts s rest =>
    ∀ p, Opens ts "try" p → Spelled [.stmt s] ts rest := by
  unfold Grammar.tryStatement
  refine .bind .pass fun _ => .bind hg.block fun body => ?_
  refine .join (.bind (S := fun ts h rest => Spelled [.handler h] ts rest) ?_ fun handler => ?_)
  · refine .ifWord (.map (hg.catchClause.mono ?_)) (.pure fun _ => .rule .handlerNone .nil rfl)
    intro mid k rest hk ts hw hp
    exact .rule .handlerSome ((hp.keyword (Token.isWord_iff.mp hw)).cons hk) rfl
  refine .join (.bind (S := fun ts b rest => Spelled [.finalizer b] ts rest) ?_ fun finalizer => ?_)
  · refine .ifWord (.map (hg.block.mono ?_)) (.pure fun _ => .rule .finalizerNone .nil rfl)
    intro mid b rest hb ts hw hp
    exact .rule .finalizerSome ((hp.keyword (Token.isWord_iff.mp hw)).cons hb) rfl
  refine .ite (fun _ => .fail) fun _ => .pure ?_
  intro rest m₁ hf m₂ hk m₃ hb ts hp p ho
  exact .rule .try_ ((hp.opening ho).cons (hb.cons (hk.cons hf))) rfl

theorem caseTest (hg : g.Sound) : Reads g.caseTest .test := by
  unfold Grammar.caseTest
  refine .ifWord (.bind hg.expression fun e => .pure ?_) (.ifWord (.pure ?_) .failExpecting)
  · intro rest mid he ts hw hp
    exact .rule .testSome ((hp.keyword (Token.isWord_iff.mp hw)).cons he) rfl
  · intro rest ts hw hp
    exact .unit .testNone (hp.keyword (Token.isWord_iff.mp hw)) rfl

/-- A case in front of the cases behind it. -/
theorem switchCase (hg : g.Sound) : Gives g.switchCase fun ts k mid =>
    ∀ ks rest, Spelled [.cases ks] mid rest → Spelled [.cases (k :: ks)] ts rest := by
  unfold Grammar.switchCase
  refine .bind hg.caseTest fun test => .bind (expect_reads ":" rfl) fun _ => ?_
  refine .bind (hg.statementsUntil _) fun body => .pure ?_
  intro mid m₁ hb m₂ hm ts ht ks rest hk
  exact .rule .casesNext (ht.cons (hm.cons (hb.cons hk))) rfl

theorem switchStatement (hg : g.Sound) : Gives g.switchStatement fun ts s rest =>
    ∀ p, Opens ts "switch" p → Spelled [.stmt s] ts rest := by
  unfold Grammar.switchStatement
  refine .bind .pass fun _ => .bind hg.parenthesized fun discriminant => ?_
  refine .bind (expect_reads "\x7b" rfl) fun _ => ?_
  refine (Gives.loop (I := fun cases ts s rest => ∃ ks,
    s = .switch discriminant (cases.reverse ++ ks) ∧ Spelled [.cases ks] ts rest)
    fun cases => ?_).mono ?_
  · refine ifMark_reads "\x7d" rfl (.pure ?_) (.bind hg.switchCase fun case => .isAtEnd ?_)
    · intro rest ts hm
      exact ⟨[], by simp, .unit .casesEnd hm rfl⟩
    · refine fun ended => .ite (fun _ => .fail) fun _ => .pure ?_
      rintro rest - ts hk s last ⟨ks, rfl, he⟩
      exact ⟨case :: ks, by simp, hk ks last he⟩
  · rintro m₁ s rest ⟨ks, rfl, hk⟩ m₂ hm m₃ hd ts hp p ho
    exact .rule .switch ((hp.opening ho).cons (hd _ _ (hm.cons (by simpa using hk)))) rfl

/-! ## Jumps -/

/-- A label is taken if it stands on the line of the jump. -/
theorem jumpLabel_gives : Gives jumpLabel fun ts label rest =>
    match label with
    | none => rest = ts
    | some n => ∃ p, Spelled [.word n p .name] ts rest := by
  unfold Grammar.jumpLabel
  refine .peek fun t => .ite (fun h => .bind .pass fun _ => .pure ?_) fun _ => .pure fun _ _ => rfl
  rintro rest ts hp rfl
  obtain ⟨n, hw, hr⟩ := Token.word_of_isName (Bool.and_eq_true_iff.mp h).1
  rw [hw]
  exact ⟨_, hp.name hw hr⟩

theorem returnStatement (hg : g.Sound) : Gives g.returnStatement fun ts s rest =>
    ∀ p, Opens ts "return" p → Spelled [.stmt s] ts rest := by
  unfold Grammar.returnStatement
  refine .get fun s => .ite (fun _ => .fail) fun _ => .bind .pass fun _ => .peek fun next => ?_
  refine hg.expressionUnless _ fun argument => .bind semicolon_reads fun _ => .pure ?_
  intro rest m₁ hs m₂ he _ ts hp _ p ho
  exact .rule .return_ ((hp.opening ho).cons (he.cons hs)) rfl

theorem throwStatement (hg : g.Sound) : Gives g.throwStatement fun ts s rest =>
    ∀ p, Opens ts "throw" p → Spelled [.stmt s] ts rest := by
  unfold Grammar.throwStatement
  refine .bind .pass fun _ => .peek fun next => .ite (fun _ => .fail) fun _ => ?_
  refine .bind hg.expression fun argument => .bind semicolon_reads fun _ => .pure ?_
  intro rest m₁ hs m₂ he _ ts hp p ho
  exact .rule .throw_ ((hp.opening ho).cons (he.cons hs)) rfl

/-! ## Statements -/

/-- What a word starts. -/
theorem wordStatement (hg : g.Sound) (name : String) (position : Position) :
    Gives (g.wordStatement name position) fun ts s rest => Opens ts name position →
      Spelled [.stmt s] ts rest := by
  unfold Grammar.wordStatement
  split
  · exact (hg.declaration .var).mono fun _ _ _ h ho => h _ ho
  · exact (hg.declaration .const).mono fun _ _ _ h ho => h _ ho
  · refine .bind (hg.function true) fun f => .pure fun rest ts hf ho => ?_
    exact .unit .declareFunction (hf (Token.isWord_iff.mpr ho.word)) rfl
  · exact hg.ifStatement.mono fun _ _ _ h ho => h _ ho
  · exact hg.forStatement.mono fun _ _ _ h ho => h _ ho
  · exact hg.whileStatement position
  · exact hg.doStatement position
  · exact hg.withStatement position
  · exact hg.returnStatement.mono fun _ _ _ h ho => h _ ho
  · exact hg.throwStatement.mono fun _ _ _ h ho => h _ ho
  · exact hg.tryStatement.mono fun _ _ _ h ho => h _ ho
  · exact hg.switchStatement.mono fun _ _ _ h ho => h _ ho
  · refine .bind .pass fun _ => .bind jumpLabel_gives fun label => ?_
    refine .bind semicolon_reads fun _ => .pure ?_
    intro rest mid hs m₂ hl ts hp ho
    cases label with
    | none => exact .rule .break_ ((hp.opening ho).cons (hl ▸ hs)) rfl
    | some n =>
      obtain ⟨q, hl⟩ := hl
      exact .rule .breakLabel ((hp.opening ho).cons (hl.cons hs)) rfl
  · refine .bind .pass fun _ => .bind jumpLabel_gives fun label => ?_
    refine .bind semicolon_reads fun _ => .pure ?_
    intro rest mid hs m₂ hl ts hp ho
    cases label with
    | none => exact .rule .continue_ ((hp.opening ho).cons (hl ▸ hs)) rfl
    | some n =>
      obtain ⟨q, hl⟩ := hl
      exact .rule .continueLabel ((hp.opening ho).cons (hl.cons hs)) rfl
  · refine .bind .pass fun _ => .bind semicolon_reads fun _ => .pure ?_
    intro rest mid hs ts hp ho
    exact .rule .debugger ((hp.opening ho).cons hs) rfl
  · exact .unsupported
  · exact .unsupported
  · exact .unsupported
  · refine .get fun s => .ite (fun hl => ?_) fun _ => .ite (fun _ => .unsupported) fun _ => ?_
    · refine (hg.declaration .let_).mono fun ts s rest h _ ho => ?_
      have hn : name = "let" := by simpa using (Bool.and_eq_true_iff.mp hl).1
      subst hn
      exact h position ho
    · refine .ite (fun hc => .bind .pass fun _ => .bind .pass fun _ => ?_) fun _ => ?_
      · refine .bind hg.statement fun body => .pure ?_
        rintro rest m₁ hb m₂ hp₂ ts hp₁ hs ⟨hw, rfl⟩
        obtain ⟨hr, hm⟩ := Bool.and_eq_true_iff.mp hc
        have ht := hp₁ (Token.single_of_word hw).notEof
        rw [ParserState.tokenAhead, hs, ht, List.drop_one, List.tail_cons] at hm
        have hn := hp₁.name hw (by simpa using hr)
        exact .rule .labeled (hn.cons ((hp₂.mark hm rfl).cons hb)) rfl
      · exact hg.expressionStatement.mono fun _ _ _ h _ _ => h

theorem statementInner (hg : g.Sound) : Reads g.statementInner .stmt := by
  unfold Grammar.statementInner
  refine .peek fun t => .ite (fun _ => .bind hg.block fun body => .pure ?_) fun _ => ?_
  · intro rest ts hb _
    exact .unit .blockStmt hb rfl
  refine .ite (fun hm => .bind .pass fun _ => .pure ?_) fun _ => ?_
  · rintro rest ts hp rfl
    exact .unit .emptyMark (hp.mark hm rfl) rfl
  split
  · rename_i name hw
    refine (hg.wordStatement name t.position).mono ?_
    rintro ts s rest h rfl
    exact h ⟨hw, rfl⟩
  · exact hg.expressionStatement.mono fun _ _ _ h _ => h

end Grammar.Sound

namespace Grammar

/-! ## Levels of nesting -/

/-- Without a level of nesting nothing is given. -/
theorem exhausted_sound : exhausted.Sound where
  statement := .fail
  assignment := .fail
  unary := .fail
  operand := fun _ => .fail
  innerNew := .fail

/-- One more level. -/
theorem Sound.next {g : Grammar} (hg : g.Sound) : g.next.Sound where
  statement := .nested hg.statementInner
  assignment := .nested hg.assignmentInner
  unary := .nested hg.unaryInner
  operand := fun precedence => .nested (hg.binary precedence)
  innerNew := .nested hg.newExpression

/-- Any number of levels. -/
theorem levels_sound (n : Nat) : (levels n).Sound := by
  induction n with
  | zero => exact exhausted_sound
  | succ n ih => exact ih.next

/-- Statements up to the end. -/
theorem Sound.program {g : Grammar} (hg : g.Sound) : Gives g.program fun ts program rest =>
    Spelled [.stmts program.body] ts rest ∧ (rest.headD default).isEof = true := by
  unfold Grammar.program
  refine (Gives.loop (I := fun body ts program rest => ∃ ss, program.body = body.reverse ++ ss ∧
    Spelled [.stmts ss] ts rest ∧ (rest.headD default).isEof = true) fun body => ?_).mono ?_
  · refine .get fun s => .ite (fun he => .pure ?_) fun _ => .ite (fun _ => ?_) fun _ => ?_
    · rintro ts rfl
      exact ⟨[], by simp, .rule .stmtsEnd .nil rfl, he⟩
    · exact .set_noting (S := fun _ _ _ => True) (.pure fun _ => trivial)
    · refine .bind (.recovering hg.statement) ?_
      rintro (_ | statement)
      · refine .pure fun ts _ h => ?_
        simp at h
      · refine .pure ?_
        rintro rest ts ⟨_, h, hs⟩ - program last ⟨ss, hb, he, hl⟩
        cases h
        exact ⟨statement :: ss, by simp [hb], .rule .stmtsNext (hs.cons he) rfl, hl⟩
  · rintro ts program rest ⟨ss, hb, hs, he⟩
    exact ⟨by simpa [hb] using hs, he⟩

end Grammar

/-- If no issue is recorded, the tokens up to an end token are those of the program. -/
theorem Program.ofTokens_sound {tokens : List Token} (h : (Program.ofTokens tokens).2 = []) :
    ∃ rest, Spelled [.stmts (Program.ofTokens tokens).1.body] tokens rest ∧
      (rest.headD default).isEof = true := by
  unfold Program.ofTokens at h ⊢
  split at h
  case h_1 program s hr =>
    obtain ⟨-, hs⟩ := (Grammar.levels_sound _).program _ _ _ hr h
    exact ⟨s.rest, hs⟩
  case h_2 fault s hr => exact absurd h (Gives.noting_issues_ne s fault)

/-- They spell the program. -/
theorem Program.ofTokens_spelled {tokens : List Token} (h : (Program.ofTokens tokens).2 = []) :
    ∃ rest, (∃ readings, Spells [.stmts (Program.ofTokens tokens).1.body] tokens readings rest) ∧
      (rest.headD default).isEof = true := by
  obtain ⟨rest, hs, he⟩ := Program.ofTokens_sound h
  exact ⟨rest, hs.reading, he⟩

/-- Their brackets are nested. -/
theorem Program.ofTokens_nested {tokens : List Token} (h : (Program.ofTokens tokens).2 = []) :
    Nested [] tokens := by
  obtain ⟨rest, hs, he⟩ := Program.ofTokens_sound h
  exact hs.nested [] [] rfl (.stop he)

end ScriptHooks.Script

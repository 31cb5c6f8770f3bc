/-
ScriptHooks.Proofs.Script.MirroredProductions — every production does the same in a mirrored run.

If the productions that recursion goes through do the same on lists with fewer than `n` tokens
(`Mirrored`), then those that take a token before they recurse do so with `n` tokens: one lemma for
each, in the order of the grammar. The others recurse from where they start, through a production
given beside them: an expression through `assignment`, an assignment through `unary`. So the lemmas
of the five productions say which ones have to be alike where they start (`next`).

Whether a lemma is about `n` or about `n + 1` is therefore its content: `n + 1` stands where a token
is taken first, `n` where it was taken before.

`Mirrored` holds beside this what the proofs cannot give themselves: that productions take tokens,
that line ends count, and that templates do the same. The substitutions of a template are lists of
their own and are read from a start, so nothing about the lists outside is of use for them;
`AlikeWithin` says that one of them is read alike, and `templateLiteral_alike` puts them together.

The two grammars may be different. Scripts are then read alike round by round (`program`), and with
other statements in front (`programRound`), since the loop over a script only adds to what it has.
-/
import ScriptHooks.Proofs.Script.MirroredRuns

namespace ScriptHooks.Script

open Parse

/-! ## The end of the tokens -/

/-- No operand stands at the end. -/
theorem Grammar.primary_of_isEof (g : Grammar) {s : ParserState} (h : s.peek.isEof = true) :
    g.primary s = .error (s.fault "unexpected end of input") s := by
  have hk : s.peek.kind = .eof := Token.isEof_iff.mp h
  have hpeek : Parse.peek s = .ok s.peek s := rfl
  unfold Grammar.primary
  simp only [Bind.bind, EStateM.bind, hpeek, hk]
  rfl

/-- Nor does a callee. -/
theorem Grammar.newExpression_of_isEof (g : Grammar) {s : ParserState}
    (h : s.peek.isEof = true) :
    g.newExpression s = .error (s.fault "unexpected end of input") s := by
  have hk : s.peek.kind = .eof := Token.isEof_iff.mp h
  have hmark : s.peek.isMark "." = false := by simp [Token.isMark, hk]
  have hword : s.peek.isWord "new" = false := by simp [Token.isWord, hk]
  have hpeek : Parse.peek s = .ok s.peek s := rfl
  have hpass : Parse.pass s = .ok () s := congrArg (EStateM.Result.ok ()) (s.pass_of_isEof h)
  unfold Grammar.newExpression
  simp only [Bind.bind, EStateM.bind, hpeek, hpass, hmark, hword, g.primary_of_isEof h,
    Bool.false_eq_true, if_false]

namespace Mirror

/-- The productions that recursion goes through do the same on lists that belong together, with
fewer than `n` tokens left. -/
structure AlikeGrammar (M : Mirror) (n : Nat) (g g' : Grammar) : Prop where
  statement : M.Alike n (Stmt.move M.move) g.statement g'.statement
  assignment : M.Alike n (Expr.move M.move) g.assignment g'.assignment
  unary : M.Alike n (Expr.move M.move) g.unary g'.unary
  operand (precedence : Nat) :
    M.Alike n (Expr.move M.move) (g.operand precedence) (g'.operand precedence)
  innerNew : M.Alike n (Expr.move M.move) g.innerNew g'.innerNew

/-- With fewer tokens left. -/
theorem AlikeGrammar.mono {M : Mirror} {n m : Nat} {g g' : Grammar} (hg : M.AlikeGrammar n g g')
    (hm : m ≤ n) : M.AlikeGrammar m g g' where
  statement := hg.statement.mono hm
  assignment := hg.assignment.mono hm
  unary := hg.unary.mono hm
  operand := fun precedence => (hg.operand precedence).mono hm
  innerNew := hg.innerNew.mono hm

/-- The productions that recursion goes through do the same, and so do those of templates. -/
structure Mirrored (M : Mirror) (n : Nat) (g g' : Grammar) : Prop
    extends M.AlikeGrammar n g g' where
  le_top : n ≤ M.top
  takes : g.TakesTokens
  template {parts : List (List Token)} {s s' : ParserState} (h : M.Rel s s')
    (hn : s.rest.length < n + 1) (hk : s.peek.kind = .template parts) :
    M.AlikeFrom (Expr.move M.move) (g.templateLiteral parts)
      (g'.templateLiteral (moveParts M.move parts)) s s'

namespace Mirrored

variable {M : Mirror} {n : Nat} {g g' : Grammar} {s s' : ParserState}

/-- With fewer tokens left. -/
theorem mono {m : Nat} (hg : M.Mirrored n g g') (hm : m ≤ n) : M.Mirrored m g g' where
  toAlikeGrammar := hg.toAlikeGrammar.mono hm
  le_top := Nat.le_trans hm hg.le_top
  takes := hg.takes
  template := fun h hn => hg.template h (Nat.lt_of_lt_of_le hn (Nat.succ_le_succ hm))

/-! ## Expressions -/

/-- Moved trees are as deep, so that both are within the limit or neither. -/
theorem boundDepth {e e' : Expr} (he : e' = e.move M.move) :
    M.Alike n (Expr.move M.move) (Grammar.boundDepth e) (Grammar.boundDepth e') := by
  subst he
  unfold Grammar.boundDepth
  exact .ite (by rw [Expr.isDeeperThan_move]) .fail (.pure rfl)

theorem sequenceRound (ha : M.Alike n (Expr.move M.move) g.assignment g'.assignment)
    (items : List Expr) :
    M.Alike n (Step.map (List.map (Expr.move M.move)) (List.map (Expr.move M.move)))
      (g.sequenceRound items) (g'.sequenceRound (items.map (Expr.move M.move))) := by
  unfold Grammar.sequenceRound
  exact .ifMark (.bind ha fun item => .pure rfl) (.pure (by simp))

/-- Expressions between commas, which start with an assignment. -/
theorem expressionOf (ht : g.TakesTokens)
    (ha : M.Alike n (Expr.move M.move) g.assignment g'.assignment) :
    M.Alike n (Expr.move M.move) g.expression g'.expression := by
  rw [Grammar.expression_eq, Grammar.expression_eq]
  refine .bind ha fun first => .peek fun t t' htwin => .ite (by rw [htwin.isMark]) ?_ (.pure rfl)
  exact .bind (.loop rfl (sequenceRound ha) ht.sequenceRound) fun items =>
    .pure (by rw [Expr.move, Expr.moveAll_eq])

theorem expression (hg : M.Mirrored n g g') :
    M.Alike n (Expr.move M.move) g.expression g'.expression := expressionOf hg.takes hg.assignment

/-- The opening bracket is taken first. -/
theorem parenthesized (hg : M.Mirrored n g g') :
    M.Alike (n + 1) (Expr.move M.move) g.parenthesized g'.parenthesized := by
  unfold Grammar.parenthesized
  exact .expectFirst (.bind (.withoutIn hg.expression) fun e => .bind .expect fun _ => .pure rfl)

theorem item (hg : M.Mirrored n g g') : M.Alike n (Expr.move M.move) g.item g'.item := by
  unfold Grammar.item
  exact .ifMark (.bind hg.assignment fun e => .pure rfl) hg.assignment

theorem arrayRound (hg : M.Mirrored n g g') (items : List Expr) :
    M.Alike n (Step.map (List.map (Expr.move M.move)) (Expr.move M.move))
      (g.arrayRound items) (g'.arrayRound (items.map (Expr.move M.move))) := by
  unfold Grammar.arrayRound
  refine .ifMark (.pure (by simp [Expr.move, Expr.moveAll_eq])) (.ifMark (.pure rfl) ?_)
  refine .bind hg.item fun item => .ifMark (.pure rfl) (.bind .expect fun _ => ?_)
  exact .pure (by simp [Expr.move, Expr.moveAll_eq])

theorem arrayLiteral (hg : M.Mirrored n g g') :
    M.Alike (n + 1) (Expr.move M.move) g.arrayLiteral g'.arrayLiteral := by
  rw [Grammar.arrayLiteral_eq, Grammar.arrayLiteral_eq]
  exact .expectFirst (.withoutIn (.loop rfl hg.arrayRound hg.takes.arrayRound))

/-- Items between commas up to a closing mark. -/
theorem itemsRound {p p' : Parse Expr} (hp : M.Alike n (Expr.move M.move) p p') (close : String)
    (items : List Expr) :
    M.Alike n (Step.map (List.map (Expr.move M.move)) (List.map (Expr.move M.move)))
      (Grammar.itemsRound p close items)
      (Grammar.itemsRound p' close (items.map (Expr.move M.move))) := by
  unfold Grammar.itemsRound
  refine .ifMark (.pure (by simp)) (.bind hp fun item => .ifMark (.pure rfl) ?_)
  exact .bind .expect fun _ => .pure (by simp)

theorem arguments (hg : M.Mirrored n g g') :
    M.Alike (n + 1) (List.map (Expr.move M.move)) g.arguments g'.arguments := by
  rw [Grammar.arguments_eq, Grammar.arguments_eq]
  refine .expectFirst (.withoutIn (.loop rfl (itemsRound hg.item ")") fun items => ?_))
  exact Grammar.TakesTokens.itemsRound hg.takes.item ")" items

/-- Statements up to a token that stops them in both runs. -/
theorem statementsRound (hg : M.Mirrored n g g') {stop : Token → Bool}
    (hstop : ∀ t t', t.Twin M.move t' → stop t' = stop t) (body : List Stmt) :
    M.Alike n (Step.map (List.map (Stmt.move M.move)) (List.map (Stmt.move M.move)))
      (g.statementsRound stop body)
      (g'.statementsRound stop (body.map (Stmt.move M.move))) := by
  refine .of_state (hg.takes.moves.statementsRound stop body) fun s s' h hn hl => .peek ?_
  have htwin := h.twin hl
  refine .ite (by rw [htwin.isEof, hstop _ _ htwin]) (fun _ => ?_) fun hopen => ?_
  · exact (Alike.pure (by simp)).run h hn
  rw [Bool.or_eq_true, not_or, Bool.not_eq_true] at hopen
  have hshort : s.rest.length ≤ M.top := Nat.le_of_lt (Nat.lt_of_lt_of_le hn hg.le_top)
  refine ((hg.statement.run h hn).recovering h hshort hopen.1).bind hn fun r => ?_
  cases r <;> exact .pure rfl

theorem statementsUntil (hg : M.Mirrored n g g') {stop : Token → Bool}
    (hstop : ∀ t t', t.Twin M.move t' → stop t' = stop t) :
    M.Alike n (List.map (Stmt.move M.move)) (g.statementsUntil stop) (g'.statementsUntil stop) := by
  rw [Grammar.statementsUntil_eq, Grammar.statementsUntil_eq]
  exact .loop rfl (hg.statementsRound hstop) (hg.takes.statementsRound stop)

theorem block (hg : M.Mirrored n g g') :
    M.Alike (n + 1) (List.map (Stmt.move M.move)) g.block g'.block := by
  unfold Grammar.block
  refine .expectFirst (.bind (hg.statementsUntil fun t t' ht => ht.isMark _) fun body => ?_)
  exact .bind .expect fun _ => .pure rfl

/-! ### Patterns and objects -/

theorem propertyKey (hg : M.Mirrored n g g') :
    M.Alike (n + 1) (PropertyKey.move M.move) g.propertyKey g'.propertyKey := by
  refine .of_state hg.takes.moves.propertyKey fun s s' h hn hl => .peek ?_
  obtain ⟨parts, hk, hk'⟩ | ⟨-, hk'⟩ := (h.twin hl).kind_cases
  · rw [hk, hk']
    exact Alike.failExpecting.run h hn
  rw [hk']
  split
  case h_1 hk | h_2 hk | h_3 hk =>
    exact .passFirst h (by simp [Token.isEof, hk]) hn (.pure rfl)
  case h_4 hk =>
    refine .passFirst h (by simp [Token.isEof, hk]) hn (.bind hg.assignment fun key => ?_)
    exact .bind .expect fun _ => .pure rfl
  case h_5 => exact Alike.failExpecting.run h hn

theorem propertyName : M.Alike n id Grammar.propertyName Grammar.propertyName := by
  unfold Grammar.propertyName
  refine .peek fun t t' ht => ?_
  rw [ht.word?]
  split
  · exact .bind .pass fun _ => .pure rfl
  · exact .ite (by rw [ht.isMark]) .fail .failExpecting

/-- A target is a name, or a pattern that takes a token first. -/
theorem bindingTargetOver (hg : M.Mirrored n g g') {m : Nat} (hm : m ≤ n + 1) {p p' : Parse Expr}
    (hp : M.Alike m (Expr.move M.move) p p') :
    M.Alike m (Expr.move M.move) (g.bindingTargetOver p) (g'.bindingTargetOver p') := by
  unfold Grammar.bindingTargetOver
  refine .peek fun t t' ht => .ite (by rw [ht.isMark]) (hg.arrayLiteral.mono hm) ?_
  refine .ite (by rw [ht.isMark]) hp ?_
  rw [ht.word?]
  split
  · exact .ite Iff.rfl .failExpecting (.bind .pass fun _ => .pure (by rw [ht.position]; rfl))
  · exact .failExpecting

theorem parameter (hg : M.Mirrored n g g') {p p' : Parse Expr}
    (hp : M.Alike n (Expr.move M.move) p p') :
    M.Alike n (Expr.move M.move) (g.parameter p) (g'.parameter p') := by
  unfold Grammar.parameter
  refine .ifMark (.bind hp fun e => .pure rfl) (.bind hp fun pattern => .ifMark ?_ (.pure rfl))
  exact .bind hg.assignment fun e => .pure rfl

theorem parameters (hg : M.Mirrored n g g') {p p' : Parse Expr}
    (hp : M.Alike n (Expr.move M.move) p p') (ht : Takes NotSemicolon p) :
    M.Alike n (List.map (Expr.move M.move)) (g.parameters p) (g'.parameters p') := by
  rw [Grammar.parameters_eq, Grammar.parameters_eq]
  exact .loop rfl (itemsRound (hg.parameter hp) ")")
    (Grammar.TakesTokens.itemsRound (hg.takes.parameter ht) ")")

theorem functionRest (hg : M.Mirrored n g g') {p p' : Parse Expr}
    (hp : M.Alike n (Expr.move M.move) p p') (ht : Takes NotSemicolon p) (name : Option String)
    {position position' : Position} (hposition : position' = M.move position) :
    M.Alike (n + 1) (Function.move M.move) (g.functionRest p name position)
      (g'.functionRest p' name position') := by
  unfold Grammar.functionRest
  refine .expectFirst (.bind (hg.parameters hp ht) fun parameters => ?_)
  refine .bind (.insideFunction hg.block.late) fun body => .pure ?_
  simp [Function.move, Expr.moveAll_eq, Stmt.moveAll_eq, hposition]

/-- What follows a key depends on the token that the key was. -/
theorem propertyRest (hg : M.Mirrored n g g') {p p' : Parse Expr}
    (hp : M.Alike n (Expr.move M.move) p p') (ht : Takes NotSemicolon p) {t t' : Token}
    (htwin : t.Twin M.move t') (key : PropertyKey) :
    M.Alike n (Property.move M.move) (g.propertyRest p t key)
      (g'.propertyRest p' t' (key.move M.move)) := by
  unfold Grammar.propertyRest
  refine .ifMark (.bind hg.assignment fun e => .pure rfl) (.peek fun u u' hu => ?_)
  refine .ite (by rw [hu.isMark]) ?_ ?_
  · cases key with
    | named name =>
      exact .bind (hg.functionRest hp ht _ htwin.position).late fun f => .pure rfl
    | computed key =>
      exact .bind (hg.functionRest hp ht _ htwin.position).late fun f => .pure rfl
  rw [htwin.word?]
  split
  · refine .ite Iff.rfl .failExpecting (.ifMark ?_ ?_)
    · exact .bind hg.assignment fun e => .pure (by rw [htwin.position]; rfl)
    · exact .pure (by rw [htwin.position]; rfl)
  · exact .failExpecting

/-- Whether a key follows a token that is looked at only if it is a word. -/
theorem keyFollows (h : M.Rel s s') (hl : ¬M.lost s.rest) {b : Bool}
    (hb : b = true → ∃ name, s.peek.word? = some name) :
    (b && (s'.tokenAhead 1).startsKey) = (b && (s.tokenAhead 1).startsKey) := by
  cases b with
  | false => rfl
  | true =>
    obtain ⟨name, hw⟩ := hb rfl
    rw [(h.second hl hw).startsKey]

theorem property (hg : M.Mirrored n g g') {p p' : Parse Expr}
    (hp : M.Alike n (Expr.move M.move) p p') (ht : Takes NotSemicolon p) :
    M.Alike n (Property.move M.move) (g.property p) (g'.property p') := by
  refine .of_state (hg.takes.moves.property hp.moves) fun s s' h hn hl => ?_
  have htwin := h.twin hl
  have hmethod := (hg.functionRest hp ht none htwin.position).late
  unfold Grammar.property
  refine .ifMark h hn hl (.bind hg.assignment fun e => .pure rfl) (.peek ?_)
  refine .ite (by rw [htwin.isMark]) (fun _ => Alike.fail.run h hn) fun _ => .tokenAhead ?_
  have haccess := keyFollows h hl (b := s.peek.isWord "get" || s.peek.isWord "set") fun hb =>
    (Bool.or_eq_true_iff.mp hb).elim (fun hw => ⟨_, Token.isWord_iff.mp hw⟩)
      fun hw => ⟨_, Token.isWord_iff.mp hw⟩
  have hasync := keyFollows h hl (b := s.peek.isWord "async") fun hw => ⟨_, Token.isWord_iff.mp hw⟩
  refine .ite (by rw [htwin.isWord, htwin.isWord, haccess]) (fun _ => ?_) fun _ => ?_
  · refine (Alike.bind .pass fun _ => ?_).run h hn
    exact .bind hg.propertyKey.late fun key => .bind hmethod fun f => .pure rfl
  · refine .ite (by rw [htwin.isWord, hasync]) (fun _ => Alike.fail.run h hn) fun _ => ?_
    exact (hg.propertyKey.late.run h hn).bind hn fun key => hg.propertyRest hp ht htwin key

theorem propertiesRound (hg : M.Mirrored n g g') {p p' : Parse Expr}
    (hp : M.Alike n (Expr.move M.move) p p') (ht : Takes NotSemicolon p)
    {position position' : Position} (hposition : position' = M.move position)
    (properties : List Property) :
    M.Alike n (Step.map (List.map (Property.move M.move)) (Expr.move M.move))
      (g.propertiesRound p position properties)
      (g'.propertiesRound p' position' (properties.map (Property.move M.move))) := by
  unfold Grammar.propertiesRound
  refine .ifMark (.pure (by simp [Expr.move, Property.moveAll_eq, hposition])) ?_
  refine .bind (hg.property hp ht) fun property => .ifMark (.pure rfl) (.bind .expect fun _ => ?_)
  exact .pure (by simp [Expr.move, Property.moveAll_eq, hposition])

theorem objectLiteralOver (hg : M.Mirrored n g g') {p p' : Parse Expr}
    (hp : M.Alike n (Expr.move M.move) p p') (ht : Takes NotSemicolon p) :
    M.Alike (n + 1) (Expr.move M.move) (g.objectLiteralOver p) (g'.objectLiteralOver p') := by
  have htarget := hg.bindingTargetOver (Nat.le_succ n) hp
  have htakes := hg.takes.bindingTargetOver ht
  rw [Grammar.objectLiteralOver_eq, Grammar.objectLiteralOver_eq]
  refine .peek fun t t' htwin => .expectFirst (.withoutIn ?_)
  refine .loop (w := List.map (Property.move M.move)) rfl ?_ ?_
  · exact hg.propertiesRound htarget htakes htwin.position
  · exact hg.takes.propertiesRound htarget.moves t.position

/-- Each object inside another takes a token, so that both runs have levels enough. -/
theorem objectLiteralWithin {m : Nat} (hg : M.Mirrored n g g') (hm : m ≤ n + 1)
    {bound bound' : Nat} (hbound : m ≤ bound) (hbound' : m ≤ bound') :
    M.Alike m (Expr.move M.move) (g.objectLiteralWithin bound)
      (g'.objectLiteralWithin bound') := by
  induction m generalizing bound bound' with
  | zero =>
    exact ⟨hg.takes.moves.objectLiteralWithin bound, fun _ hn => absurd hn (Nat.not_lt_zero _)⟩
  | succ m ih =>
    obtain ⟨bound, rfl⟩ := Nat.exists_eq_add_one_of_ne_zero (Nat.ne_zero_of_lt hbound)
    obtain ⟨bound', rfl⟩ := Nat.exists_eq_add_one_of_ne_zero (Nat.ne_zero_of_lt hbound')
    have hinner := ih (Nat.le_of_succ_le hm) (Nat.le_of_succ_le_succ hbound)
      (Nat.le_of_succ_le_succ hbound')
    exact (hg.mono (Nat.le_of_succ_le_succ hm)).objectLiteralOver hinner
      (hg.takes.objectLiteralWithin bound)

theorem objectLiteral (hg : M.Mirrored n g g') :
    M.Alike (n + 1) (Expr.move M.move) g.objectLiteral g'.objectLiteral := by
  refine .of_state hg.takes.moves.objectLiteral fun s s' h hn _ => .get ?_
  have hlength := M.length h.lists
  refine (hg.objectLiteralWithin (m := s.rest.length + 1) hn ?_ ?_).run h (Nat.lt_succ_self _)
  · exact Nat.le_refl _
  · omega

theorem bindingTarget (hg : M.Mirrored n g g') :
    M.Alike (n + 1) (Expr.move M.move) g.bindingTarget g'.bindingTarget :=
  hg.bindingTargetOver (Nat.le_refl _) hg.objectLiteral

/-! ### Functions -/

/-- A function whose keyword comes next. -/
theorem function (hg : M.Mirrored n g g') (isDeclaration : Bool) (h : M.Rel s s')
    (hn : s.rest.length < n + 1) (hopen : s.peek.isEof = false) :
    M.AlikeFrom (Function.move M.move) (g.function isDeclaration) (g'.function isDeclaration)
      s s' := by
  have hrest : ∀ {t t' : Token} (name : Option String), t.Twin M.move t' →
      M.Alike n (Function.move M.move) (g.functionRest g.bindingTarget name t.position)
        (g'.functionRest g'.bindingTarget name t'.position) := fun name htwin =>
    (hg.functionRest hg.bindingTarget.late hg.takes.bindingTarget name htwin.position).late
  refine .of_kept (hg.takes.moves.function isDeclaration s) fun hl => .peek ?_
  refine .passFirst h hopen hn (.peek fun t t' ht => .ite (by rw [ht.isMark]) .fail ?_)
  refine .ite (by rw [ht.isName]) (.bind .pass fun _ => ?_) (.ite Iff.rfl .fail ?_)
  · rw [ht.word?]
    exact hrest _ (h.twin hl)
  · exact hrest _ (h.twin hl)

theorem arrowBody (hg : M.Mirrored n g g') :
    M.Alike n (List.map (Stmt.move M.move)) g.arrowBody g'.arrowBody := by
  unfold Grammar.arrowBody
  exact .peek fun t t' ht => .ite (by rw [ht.isMark]) hg.block.late
    (.bind hg.assignment fun e => .pure rfl)

/-- Whether brackets are parameters is told alike by what stands behind them. -/
theorem arrow (hg : M.Mirrored n g g') :
    M.Alike (n + 1) (Expr.move M.move) g.arrow g'.arrow := by
  have hend : ∀ {t t' : Token} (parameters : List Expr), t.Twin M.move t' →
      M.Alike n (Expr.move M.move)
        (do
          expect "=>"
          let body ← insideFunction g.arrowBody
          return .function (.mk none parameters body true t.position))
        (do
          expect "=>"
          let body ← insideFunction g'.arrowBody
          return .function (.mk none (parameters.map (Expr.move M.move)) body true
            t'.position)) := fun parameters ht =>
    .bind .expect fun _ => .bind (.insideFunction hg.arrowBody) fun body => .pure (by
      simp [Expr.move, Function.move, Expr.moveAll_eq, Stmt.moveAll_eq, ht.position])
  refine .of_state hg.takes.moves.arrow fun s s' h hn hl => .peek ?_
  have htwin := h.twin hl
  dsimp only
  rw [htwin.word?]
  split
  case h_1 name hw =>
    refine .passFirst h (by simp [Token.isEof, Token.word?_iff.mp hw]) hn ?_
    refine .bind (u := List.map (Expr.move M.move)) (.pure ?_) fun parameters =>
      hend parameters htwin
    rw [htwin.position]
    rfl
  case h_2 =>
    have hparameters := hg.parameters hg.bindingTarget.late hg.takes.bindingTarget
    exact (Alike.expectFirst (.bind hparameters fun parameters => hend parameters htwin)).run h hn

/-! ### Operands -/

/-- One substitution of a template. -/
theorem substitutionOf (ht : g.TakesTokens)
    (ha : M.Alike n (Expr.move M.move) g.assignment g'.assignment) :
    M.Alike n (Expr.move M.move) g.substitution g'.substitution := by
  unfold Grammar.substitution
  refine .isAtEnd fun ended => .ite Iff.rfl .fail (.bind (expressionOf ht ha) fun e => ?_)
  exact .isAtEnd fun ended => .ite Iff.rfl (.pure rfl) .unexpected

/-- An operand that starts with a word which comes next. -/
theorem primaryWord (hg : M.Mirrored n g g') {name : String} (h : M.Rel s s')
    (hn : s.rest.length < n + 1) (hl : ¬M.lost s.rest) (hw : s.peek.kind = .word name)
    {position position' : Position} (hposition : position' = M.move position) :
    M.AlikeFrom (Expr.move M.move) (g.primaryWord name position) (g'.primaryWord name position')
      s s' := by
  have hopen : s.peek.isEof = false := by simp [Token.isEof, hw]
  unfold Grammar.primaryWord
  split
  · exact (hg.function false h hn hopen).bind hn fun f => .pure rfl
  iterate 4 exact .passFirst h hopen hn (.pure rfl)
  iterate 4 exact Alike.fail.run h hn
  refine .tokenAhead (.ite ?_ (fun _ => Alike.fail.run h hn) fun _ => ?_)
  · rw [(h.second hl (Token.word?_iff.mpr hw)).isWord]
  refine .ite Iff.rfl (fun _ => Alike.fail.run h hn) fun _ => .passFirst h hopen hn (.pure ?_)
  rw [hposition]
  rfl

theorem primary (hg : M.Mirrored n g g') :
    M.Alike (n + 1) (Expr.move M.move) g.primary g'.primary := by
  refine .of_state hg.takes.moves.primary fun s s' h hn hl => .peek ?_
  obtain ⟨parts, hk, hk'⟩ | ⟨hk, hk'⟩ := (h.twin hl).kind_cases
  · rw [hk, hk']
    exact hg.template h hn hk
  rw [hk']
  split
  case h_1 name hw => exact hg.primaryWord h hn hl hw (h.twin hl).position
  case h_2 hk | h_3 hk | h_4 hk =>
    exact .passFirst h (by simp [Token.isEof, hk]) hn (.pure rfl)
  case h_5 parts hparts => exact absurd hparts (hk parts)
  case h_6 => exact Alike.fail.run h hn
  case h_7 hk =>
    refine .passFirst h (by simp [Token.isEof, hk]) hn (.bind (.withoutIn hg.expression) ?_)
    exact fun e => .bind .expect fun _ => .pure rfl
  case h_8 => exact hg.arrayLiteral.run h hn
  case h_9 => exact hg.objectLiteral.run h hn
  case h_10 => exact Alike.unexpected.run h hn

/-! ### Chains -/

theorem computedProperty (hg : M.Mirrored n g g') :
    M.Alike n (Expr.move M.move) g.computedProperty g'.computedProperty := by
  unfold Grammar.computedProperty
  exact .bind (.withoutIn hg.expression) fun e => .bind .expect fun _ => .pure rfl

theorem newLinks (hg : M.Mirrored n g g') (room : Nat) (callee : Expr) :
    M.Alike n (Expr.move M.move) (g.newLinks room callee)
      (g'.newLinks room (callee.move M.move)) := by
  induction room generalizing callee with
  | zero => exact .pure rfl
  | succ room ih =>
    unfold Grammar.newLinks
    refine .ifMark (.bind propertyName fun property => ih (.member callee property)) ?_
    refine .ifMark (.bind hg.computedProperty fun property => ih (.index callee property)) ?_
    exact .pure rfl

/-- A `new` that comes next, or the end, where nothing is read. -/
theorem newExpression (hg : M.Mirrored n g g') :
    M.Alike (n + 1) (Expr.move M.move) g.newExpression g'.newExpression := by
  have hrest : ∀ {t t' : Token} (first : Expr), t.Twin M.move t' →
      M.Alike n (Expr.move M.move)
        (do
          let callee ← g.newLinks maxChain first
          let args ← if (← Parse.peek).isMark "(" then g.arguments else pure []
          Grammar.boundDepth (.call callee args true t.position))
        (do
          let callee ← g'.newLinks maxChain (first.move M.move)
          let args ← if (← Parse.peek).isMark "(" then g'.arguments else pure []
          Grammar.boundDepth (.call callee args true t'.position)) := by
    intro t t' first ht
    have hcall : ∀ callee args, (Expr.call (callee.move M.move) (args.map (Expr.move M.move)) true
        t'.position) = (Expr.call callee args true t.position).move M.move := by
      intro callee args
      rw [Expr.move, Expr.moveAll_eq, ht.position]
    refine .bind (hg.newLinks _ _) fun callee => .peek fun u u' hu => .ite (by rw [hu.isMark]) ?_ ?_
    · exact .bind hg.arguments.late fun args => boundDepth (hcall callee args)
    · exact .bind (u := List.map (Expr.move M.move)) (.pure rfl) fun args =>
        boundDepth (hcall callee args)
  refine .of_state hg.takes.moves.newExpression fun s s' h hn hl => ?_
  have htwin := h.twin hl
  by_cases hend : s.peek.isEof = true
  · refine .stay (by rw [leaves, g.newExpression_of_isEof hend]) fun _ => ?_
    rw [g.newExpression_of_isEof hend, g'.newExpression_of_isEof (htwin.isEof.trans hend),
      h.fault hl]
    exact .error _ h
  · refine .peek (.passFirst h (Bool.eq_false_iff.mpr hend) hn (.peek fun t t' ht => ?_))
    refine .ite (by rw [ht.isMark]) .fail (.peek fun u u' hu => .ite (by rw [hu.isWord]) ?_ ?_)
    · exact .bind hg.innerNew fun first => hrest first htwin
    · exact .bind hg.primary.late fun first => hrest first htwin

/-- A link of a chain, if there is one. -/
theorem link (hg : M.Mirrored n g g') (e : Expr) :
    M.Alike n (Option.map (Expr.move M.move)) (g.link e) (g'.link (e.move M.move)) := by
  have hdot : M.Alike n (Option.map (Expr.move M.move))
      (do return some (Expr.member e (← Grammar.propertyName)))
      (do return some (Expr.member (e.move M.move) (← Grammar.propertyName))) :=
    .bind propertyName fun property => .pure rfl
  have hindex : M.Alike n (Option.map (Expr.move M.move))
      (do return some (Expr.index e (← g.computedProperty)))
      (do return some (Expr.index (e.move M.move) (← g'.computedProperty))) :=
    .bind hg.computedProperty fun property => .pure rfl
  refine .of_state (hg.takes.moves.link e) fun s s' h hn hl => .peek ?_
  have htwin := h.twin hl
  have hcall : M.Alike n (Option.map (Expr.move M.move))
      (do return some (Expr.call e (← g.arguments) false s.peek.position))
      (do return some (Expr.call (e.move M.move) (← g'.arguments) false s'.peek.position)) :=
    .bind hg.arguments.late fun args => .pure (by
      simp [Expr.move, Expr.moveAll_eq, htwin.position])
  refine .ifMark h hn hl hdot (.ifMark h hn hl ?_ (.ifMark h hn hl hindex ?_))
  · refine .peek fun t t' ht => .ite (by rw [ht.isMark]) hcall (.ifMark hindex hdot)
  refine .ite (by rw [htwin.isMark]) (fun _ => hcall.run h hn) fun _ => ?_
  obtain ⟨parts, hk, hk'⟩ | ⟨hk, hk'⟩ := htwin.kind_cases
  · rw [hk, hk']
    refine (hg.template h (Nat.lt_succ_of_lt hn) hk).bind hn fun template => .pure ?_
    simp [Expr.move, Expr.moveAll, htwin.position]
  · rw [hk']
    split
    case h_1 parts hparts => exact absurd hparts (hk parts)
    case h_2 => exact (Alike.pure rfl).run h hn

/-- The links of a chain, by induction on the room there is for them. -/
theorem links (hg : M.Mirrored n g g') (room : Nat) (linked : Bool) (e : Expr) :
    M.Alike n (Expr.move M.move) (g.links room linked e)
      (g'.links room linked (e.move M.move)) := by
  induction room generalizing linked e with
  | zero => exact .fail
  | succ room ih =>
    unfold Grammar.links
    refine .bind (hg.link e) fun r => ?_
    cases r with
    | some e => exact ih true e
    | none => exact .ite Iff.rfl (boundDepth rfl) (.pure rfl)

theorem chain (hg : M.Mirrored n g g') :
    M.Alike (n + 1) (Expr.move M.move) g.chain g'.chain := by
  unfold Grammar.chain
  refine .peek fun t t' ht => .ite (by rw [ht.isWord]) ?_ ?_
  · exact .first hg.newExpression hg.takes.newExpression fun first => hg.links _ _ first
  · exact .first hg.primary hg.takes.primary fun first => hg.links _ _ first

/-! ### Operators -/

theorem unaryInner (hg : M.Mirrored n g g') :
    M.Alike (n + 1) (Expr.move M.move) g.unaryInner g'.unaryInner := by
  refine .of_state hg.takes.moves.unaryInner fun s s' h hn hl => .peek ?_
  have htwin := h.twin hl
  refine .ite (by rw [htwin.isWord]) (fun _ => Alike.fail.run h hn) fun _ => ?_
  rw [htwin.prefixOperator?]
  split
  case h_1 operator hop =>
    have hopen : s.peek.isEof = false := by
      rw [← Bool.not_eq_true, Token.isEof_iff]
      intro hk
      simp [Token.prefixOperator?, hk] at hop
    exact .passFirst h hopen hn (.bind hg.unary fun e => .pure rfl)
  case h_2 =>
    refine (hg.chain.run h hn).first (hg.takes.chain s) hn fun e => ?_
    refine .peekLine hg.le_top fun t t' ht hline => .ite ?_ ?_ (.pure rfl)
    · rw [ht.isMark, ht.isMark, hline]
    · exact .bind .pass fun _ => .pure (by rw [ht.isMark]; rfl)

theorem nextOperator (precedence : Nat) :
    M.Alike n id (Grammar.nextOperator precedence) (Grammar.nextOperator precedence) := by
  refine .of_state (fun s => .refl s) fun s s' h hn hl => .stay rfl fun _ => ?_
  have hsame : (s'.peek.binaryOperator? s'.noIn) = s.peek.binaryOperator? s.noIn := by
    rw [(h.twin hl).binaryOperator?, h.counters.noIn]
  show M.Outcome id (.ok ((s.peek.binaryOperator? s.noIn).filter _) s)
    (.ok ((s'.peek.binaryOperator? s'.noIn).filter _) s')
  rw [hsame]
  exact .ok _ h

/-- The operators behind an operand, by induction on the room there is for them. -/
theorem operators (hg : M.Mirrored n g g') (precedence room : Nat) (chained : Bool)
    (left : Expr) :
    M.Alike n (Expr.move M.move) (g.operators precedence room chained left)
      (g'.operators precedence room chained (left.move M.move)) := by
  induction room generalizing chained left with
  | zero =>
    unfold Grammar.operators
    refine .bind (nextOperator precedence) fun r => ?_
    cases r with
    | none => exact .ite Iff.rfl (boundDepth rfl) (.pure rfl)
    | some entry => exact .fail
  | succ room ih =>
    unfold Grammar.operators
    refine .bind (nextOperator precedence) fun r => ?_
    cases r with
    | none => exact .ite Iff.rfl (boundDepth rfl) (.pure rfl)
    | some entry =>
      exact .bind .pass fun _ => .bind (hg.operand _) fun right => ih true (.binary _ left right)

/-- Operands between operators, the first of which is a unary expression. -/
theorem binary (hg : M.Mirrored n g g')
    (hu : M.Alike (n + 1) (Expr.move M.move) g.unary g'.unary) (precedence : Nat) :
    M.Alike (n + 1) (Expr.move M.move) (g.binary precedence) (g'.binary precedence) := by
  unfold Grammar.binary
  exact .first hu hg.takes.unary fun left => hg.operators _ _ _ left

/-- A choice starts with a unary expression, which has to be alike from here on. -/
theorem conditional (hg : M.Mirrored n g g')
    (hu : M.Alike (n + 1) (Expr.move M.move) g.unary g'.unary) :
    M.Alike (n + 1) (Expr.move M.move) g.conditional g'.conditional := by
  unfold Grammar.conditional
  refine .first (hg.binary hu 1) (hg.takes.binary 1) fun test => .ifMark ?_ (.pure rfl)
  refine .bind (.withoutIn hg.assignment) fun consequent => .bind .expect fun _ => ?_
  exact .bind hg.assignment fun alternate => .pure rfl

/-- So does an assignment, unless it is an arrow function. -/
theorem assignmentInner (hg : M.Mirrored n g g')
    (hu : M.Alike (n + 1) (Expr.move M.move) g.unary g'.unary) :
    M.Alike (n + 1) (Expr.move M.move) g.assignmentInner g'.assignmentInner := by
  refine .of_state hg.takes.moves.assignmentInner fun s s' h hn hl => .get ?_
  refine .ite (by rw [h.startsArrow hl]) (fun _ => hg.arrow.run h hn) fun _ => ?_
  refine ((hg.conditional hu).run h hn).first (hg.takes.conditional s) hn fun left => ?_
  refine .peek fun t t' ht => ?_
  obtain ⟨parts, hk, hk'⟩ | ⟨-, hk'⟩ := ht.kind_cases
  · rw [hk, hk']
    exact .pure rfl
  rw [hk']
  split
  · exact .ite Iff.rfl (.bind .pass fun _ => .bind hg.assignment fun right => .pure rfl) (.pure rfl)
  · exact .pure rfl

/-! ## Statements -/

theorem declarator (hg : M.Mirrored n g g') :
    M.Alike n (Declarator.move M.move) g.declarator g'.declarator := by
  unfold Grammar.declarator
  refine .bind hg.bindingTarget.late fun target => .ifMark ?_ (.pure rfl)
  exact .bind hg.assignment fun e => .pure rfl

theorem declaratorsRound (hg : M.Mirrored n g g') (taken : List Declarator) :
    M.Alike n (Step.map (List.map (Declarator.move M.move)) (List.map (Declarator.move M.move)))
      (g.declaratorsRound taken)
      (g'.declaratorsRound (taken.map (Declarator.move M.move))) := by
  unfold Grammar.declaratorsRound
  exact .bind hg.declarator fun d => .ifMark (.pure rfl) (.pure (by simp))

/-- The declarators behind the keyword. -/
theorem declaratorsLoop (hg : M.Mirrored n g g') :
    M.Alike n (List.map (Declarator.move M.move)) (loop g.declaratorsRound [])
      (loop g'.declaratorsRound []) :=
  .loop rfl hg.declaratorsRound hg.takes.declaratorsRound

theorem declarators (hg : M.Mirrored n g g') :
    M.Alike n (List.map (Declarator.move M.move)) g.declarators g'.declarators := by
  rw [Grammar.declarators_eq, Grammar.declarators_eq]
  exact .bind .pass fun _ => hg.declaratorsLoop

/-- A declaration whose keyword comes next. -/
theorem declaration (hg : M.Mirrored n g g') (kind : VarKind) (h : M.Rel s s')
    (hn : s.rest.length < n + 1) (hopen : s.peek.isEof = false) :
    M.AlikeFrom (Stmt.move M.move) (g.declaration kind) (g'.declaration kind) s s' := by
  have hdeclarators : M.AlikeFrom (List.map (Declarator.move M.move)) g.declarators
      g'.declarators s s' := .passFirst h hopen hn hg.declaratorsLoop
  unfold Grammar.declaration
  refine hdeclarators.first (hg.takes.declarators s) hn fun ds => ?_
  exact .bind (.semicolon hg.le_top) fun _ => .pure (by rw [Stmt.move, Declarator.moveAll_eq])

/-- An expression as a statement, which starts with an assignment. -/
theorem expressionStatement (hg : M.Mirrored n g g')
    (ha : M.Alike (n + 1) (Expr.move M.move) g.assignment g'.assignment) :
    M.Alike (n + 1) (Stmt.move M.move) g.expressionStatement g'.expressionStatement := by
  unfold Grammar.expressionStatement
  refine .first (expressionOf hg.takes ha) hg.takes.expression fun e => ?_
  exact .bind (.semicolon hg.le_top) fun _ => .pure rfl

/-! ### Heads of loops -/

theorem forHead (hg : M.Mirrored n g g') :
    M.Alike n (ForHead.move M.move) g.forHead g'.forHead := by
  refine .withoutIn (.of_state (.get fun s => ?_) fun s s' h hn hl => .get ?_)
  · split
    · exact .bind hg.declarators.moves fun ds => .pure
    · exact .bind hg.expression.moves fun e => .pure
  rw [h.declares hl]
  split
  · refine (hg.declarators.run h hn).bind hn fun ds => .pure ?_
    rw [ForHead.move, Declarator.moveAll_eq]
  · exact (hg.expression.run h hn).bind hn fun e => .pure rfl

theorem forSubject (hg : M.Mirrored n g g') :
    M.Alike n (Expr.move M.move) g.forSubject g'.forSubject := by
  unfold Grammar.forSubject
  exact .ifWord hg.assignment (.bind .pass fun _ => hg.expression)

theorem forInRest (hg : M.Mirrored n g g') (head : ForHead) :
    M.Alike n (Stmt.move M.move) (g.forInRest head) (g'.forInRest (head.move M.move)) := by
  unfold Grammar.forInRest
  refine .bind hg.forSubject fun subject => .bind .expect fun _ => ?_
  exact .bind hg.statement fun body => .pure rfl

/-- An expression that is left out or not, and what follows it. -/
theorem expressionUnless (hg : M.Mirrored n g g') {absent absent' : Prop} [Decidable absent]
    [Decidable absent'] (ha : absent' ↔ absent) {k k' : Option Expr → Parse Stmt}
    (hk : ∀ e, M.Alike n (Stmt.move M.move) (k e) (k' (e.map (Expr.move M.move)))) :
    M.Alike n (Stmt.move M.move)
      (if absent then pure none >>= k else (some <$> g.expression) >>= k)
      (if absent' then pure none >>= k' else (some <$> g'.expression) >>= k') :=
  .ite ha (.bind (u := Option.map (Expr.move M.move)) (.pure rfl) hk)
    (.bind (.map hg.expression fun _ => rfl) hk)

theorem forRest (hg : M.Mirrored n g g') (init : Option ForHead) :
    M.Alike n (Stmt.move M.move) (g.forRest init)
      (g'.forRest (init.map (ForHead.move M.move))) := by
  unfold Grammar.forRest
  refine .bind .expect fun _ => .peek fun t t' ht => ?_
  refine hg.expressionUnless (by rw [ht.isMark]) fun test => .bind .expect fun _ => ?_
  refine .peek fun u u' hu => hg.expressionUnless (by rw [hu.isMark]) fun update => ?_
  refine .bind .expect fun _ => .bind hg.statement fun body => .pure ?_
  rw [Stmt.move, ForHead.moveOption_eq, Expr.moveOption_eq, Expr.moveOption_eq]

/-! ### Clauses -/

theorem catchClause (hg : M.Mirrored n g g') :
    M.Alike n (CatchClause.move M.move) g.catchClause g'.catchClause := by
  unfold Grammar.catchClause
  refine .ifMark (.bind hg.bindingTarget.late fun target => .bind .expect fun _ => ?_) ?_
  · refine .bind hg.block.late fun body => .pure ?_
    rw [CatchClause.move, Expr.moveOption, Stmt.moveAll_eq]
  · refine .bind hg.block.late fun body => .pure ?_
    rw [CatchClause.move, Expr.moveOption, Stmt.moveAll_eq]

/-- What follows the handler of a `try`. -/
theorem finalizer (hg : M.Mirrored n g g') (body : List Stmt) (handler : Option CatchClause)
    {body' : List Stmt} (hbody : body' = body.map (Stmt.move M.move))
    {handler' : Option CatchClause} (hhandler : handler' = handler.map (CatchClause.move M.move)) :
    M.Alike n (Stmt.move M.move)
      (do
        let finalizer ← if ← eatWord "finally" then some <$> g.block else pure none
        if handler.isNone && finalizer.isNone then
          fail "'try' without 'catch' or 'finally'"
        else return Stmt.try_ body handler finalizer)
      (do
        let finalizer ← if ← eatWord "finally" then some <$> g'.block else pure none
        if handler'.isNone && finalizer.isNone then
          fail "'try' without 'catch' or 'finally'"
        else return Stmt.try_ body' handler' finalizer) := by
  have hend : ∀ finalizer finalizer' : Option (List Stmt),
      finalizer' = finalizer.map (List.map (Stmt.move M.move)) →
      M.Alike n (Stmt.move M.move)
        (if handler.isNone && finalizer.isNone then
            fail "'try' without 'catch' or 'finally'"
          else pure (Stmt.try_ body handler finalizer))
        (if handler'.isNone && finalizer'.isNone then
            fail "'try' without 'catch' or 'finally'"
          else pure (Stmt.try_ body' handler' finalizer')) := by
    rintro finalizer _ rfl
    refine .ite (by simp [hhandler]) .fail (.pure ?_)
    rw [Stmt.move, Stmt.moveAll_eq, CatchClause.moveOption_eq, Stmt.moveBody_eq, hbody, hhandler]
  refine .ifWord (.bind (.map hg.block.late fun _ => rfl) fun finalizer => hend finalizer _ rfl) ?_
  exact .bind (u := Option.map (List.map (Stmt.move M.move))) (.pure rfl) fun finalizer =>
    hend finalizer _ rfl

theorem caseTest (hg : M.Mirrored n g g') :
    M.Alike n (Option.map (Expr.move M.move)) g.caseTest g'.caseTest := by
  unfold Grammar.caseTest
  refine .ifWord (.bind hg.expression fun e => .pure rfl) ?_
  exact .ifWord (.pure rfl) .failExpecting

/-- A case ends at twins. -/
theorem endsCase_twin {t t' : Token} (ht : t.Twin M.move t') :
    Grammar.endsCase t' = Grammar.endsCase t := by
  rw [Grammar.endsCase, Grammar.endsCase, ht.isMark, ht.isWord, ht.isWord]

theorem switchCase (hg : M.Mirrored n g g') :
    M.Alike n (SwitchCase.move M.move) g.switchCase g'.switchCase := by
  unfold Grammar.switchCase
  refine .bind hg.caseTest fun test => .bind .expect fun _ => ?_
  refine .bind (hg.statementsUntil fun _ _ => endsCase_twin) fun body => .pure ?_
  rw [SwitchCase.move, Expr.moveOption_eq, Stmt.moveAll_eq]

theorem switchRound (hg : M.Mirrored n g g') (discriminant : Expr) (cases : List SwitchCase) :
    M.Alike n (Step.map (List.map (SwitchCase.move M.move)) (Stmt.move M.move))
      (g.switchRound discriminant cases)
      (g'.switchRound (discriminant.move M.move) (cases.map (SwitchCase.move M.move))) := by
  unfold Grammar.switchRound
  refine .ifMark (.pure (by simp [Stmt.move, SwitchCase.moveAll_eq])) ?_
  refine .bind hg.switchCase fun case => .isAtEnd fun ended => .ite Iff.rfl .fail (.pure rfl)

/-- A label has to stand on the line of the jump, so that line ends count. -/
theorem jumpLabel (hn : n ≤ M.top) : M.Alike n id Grammar.jumpLabel Grammar.jumpLabel := by
  unfold Grammar.jumpLabel
  refine .peekLine hn fun t t' ht hline => .ite (by rw [ht.isName, hline]) ?_ (.pure rfl)
  exact .bind .pass fun _ => .pure ht.word?

/-! ### After a keyword

The keyword comes next, so that there is a token to take. -/

section Keyword

variable (hg : M.Mirrored n g g') (h : M.Rel s s') (hn : s.rest.length < n + 1)
  (hopen : s.peek.isEof = false) {position position' : Position}
  (hposition : position' = M.move position)

include hg h hn hopen

theorem ifStatement : M.AlikeFrom (Stmt.move M.move) g.ifStatement g'.ifStatement s s' := by
  unfold Grammar.ifStatement
  refine .passFirst h hopen hn (.bind hg.parenthesized.late fun test => ?_)
  refine .bind hg.statement fun consequent => .ifWord ?_ (.pure rfl)
  exact .bind hg.statement fun alternate => .pure rfl

theorem forStatement : M.AlikeFrom (Stmt.move M.move) g.forStatement g'.forStatement s s' := by
  unfold Grammar.forStatement
  refine .passFirst h hopen hn (.peek fun t t' ht => .ite (by rw [ht.isWord]) .fail ?_)
  refine .bind .expect fun _ => .peek fun u u' hu => .ite (by rw [hu.isMark]) (hg.forRest none) ?_
  refine .bind hg.forHead fun head => .peek fun x x' hx => .ite ?_ ?_ ?_
  · rw [hx.isWord, hx.isWord]
  · exact hg.forInRest head
  · exact hg.forRest (some head)

theorem tryStatement : M.AlikeFrom (Stmt.move M.move) g.tryStatement g'.tryStatement s s' := by
  unfold Grammar.tryStatement
  refine .passFirst h hopen hn (.bind hg.block.late fun body => .ifWord ?_ ?_)
  · exact .bind (.map hg.catchClause fun _ => rfl) fun handler =>
      hg.finalizer body handler rfl rfl
  · exact .bind (u := Option.map (CatchClause.move M.move)) (.pure rfl) fun handler =>
      hg.finalizer body handler rfl rfl

theorem switchStatement :
    M.AlikeFrom (Stmt.move M.move) g.switchStatement g'.switchStatement s s' := by
  rw [Grammar.switchStatement_eq, Grammar.switchStatement_eq]
  refine .passFirst h hopen hn (.bind hg.parenthesized.late fun discriminant => ?_)
  refine .bind .expect fun _ => .loop (w := List.map (SwitchCase.move M.move)) rfl ?_ ?_
  · exact hg.switchRound discriminant
  · exact hg.takes.switchRound discriminant

theorem returnStatement :
    M.AlikeFrom (Stmt.move M.move) g.returnStatement g'.returnStatement s s' := by
  unfold Grammar.returnStatement
  refine .get (.ite (by rw [h.counters.functionDepth]) (fun _ => Alike.fail.run h hn) fun _ => ?_)
  refine .passFirst h hopen hn (.peekLine hg.le_top fun t t' ht hline => ?_)
  refine hg.expressionUnless (by rw [ht.isMark, ht.isMark, ht.isEof, hline]) fun argument => ?_
  refine .bind (.semicolon hg.le_top) fun _ => .pure ?_
  rw [Stmt.move, Expr.moveOption_eq]

theorem throwStatement :
    M.AlikeFrom (Stmt.move M.move) g.throwStatement g'.throwStatement s s' := by
  unfold Grammar.throwStatement
  refine .passFirst h hopen hn (.peekLine hg.le_top fun t t' ht hline => ?_)
  refine .ite (by rw [hline]) .fail (.bind hg.expression fun e => ?_)
  exact .bind (.semicolon hg.le_top) fun _ => .pure rfl

include hposition

theorem whileStatement : M.AlikeFrom (Stmt.move M.move) (g.whileStatement position)
    (g'.whileStatement position') s s' := by
  subst hposition
  unfold Grammar.whileStatement
  refine .passFirst h hopen hn (.bind hg.parenthesized.late fun test => ?_)
  exact .bind hg.statement fun body => .pure rfl

theorem doStatement : M.AlikeFrom (Stmt.move M.move) (g.doStatement position)
    (g'.doStatement position') s s' := by
  subst hposition
  unfold Grammar.doStatement
  refine .passFirst h hopen hn (.bind hg.statement fun body => .bind .expectWord fun _ => ?_)
  exact .bind hg.parenthesized.late fun test => .bind .acceptMark fun _ => .pure rfl

theorem withStatement : M.AlikeFrom (Stmt.move M.move) (g.withStatement position)
    (g'.withStatement position') s s' := by
  subst hposition
  unfold Grammar.withStatement
  refine .passFirst h hopen hn (.bind hg.parenthesized.late fun object => ?_)
  exact .bind hg.statement fun body => .pure rfl

end Keyword

/-- A statement that starts with a word which comes next. -/
theorem wordStatement (hg : M.Mirrored n g g')
    (ha : M.Alike (n + 1) (Expr.move M.move) g.assignment g'.assignment) {name : String}
    (h : M.Rel s s') (hn : s.rest.length < n + 1) (hl : ¬M.lost s.rest)
    (hw : s.peek.kind = .word name) {position position' : Position}
    (hposition : position' = M.move position) :
    M.AlikeFrom (Stmt.move M.move) (g.wordStatement name position)
      (g'.wordStatement name position') s s' := by
  have hopen : s.peek.isEof = false := by simp [Token.isEof, hw]
  have hword : s.peek.word? = some name := Token.word?_iff.mpr hw
  unfold Grammar.wordStatement
  split
  · exact hg.declaration .var h hn hopen
  · exact hg.declaration .const h hn hopen
  · exact (hg.function true h hn hopen).bind hn fun f => .pure rfl
  · exact hg.ifStatement h hn hopen
  · exact hg.forStatement h hn hopen
  · exact hg.whileStatement h hn hopen hposition
  · exact hg.doStatement h hn hopen hposition
  · exact hg.withStatement h hn hopen hposition
  · exact hg.returnStatement h hn hopen
  · exact hg.throwStatement h hn hopen
  · exact hg.tryStatement h hn hopen
  · exact hg.switchStatement h hn hopen
  iterate 2
    refine .passFirst h hopen hn (.bind (jumpLabel hg.le_top) fun label => ?_)
    exact .bind (.semicolon hg.le_top) fun _ => .pure (by rw [hposition]; rfl)
  · exact .passFirst h hopen hn (.bind (.semicolon hg.le_top) fun _ => .pure rfl)
  iterate 3 exact Alike.fail.run h hn
  have hsecond := h.second hl hword
  refine .get (.ite (by rw [h.letDeclares hl hword]) (fun _ => hg.declaration .let_ h hn hopen)
    fun _ => .ite (by rw [hsecond.isWord]) (fun _ => Alike.fail.run h hn) fun _ => ?_)
  refine .ite (by rw [hsecond.isMark]) (fun _ => ?_) fun _ => ?_
  · refine .passFirst h hopen hn (.bind .pass fun _ => .bind hg.statement fun body => .pure ?_)
    rw [hposition]
    rfl
  · exact (hg.expressionStatement ha).run h hn

/-- A statement starts with a keyword, which is taken, or with an assignment. -/
theorem statementInner (hg : M.Mirrored n g g')
    (ha : M.Alike (n + 1) (Expr.move M.move) g.assignment g'.assignment) :
    M.Alike (n + 1) (Stmt.move M.move) g.statementInner g'.statementInner := by
  refine .of_state hg.takes.moves.statementInner fun s s' h hn hl => .peek ?_
  have htwin := h.twin hl
  refine .ite (by rw [htwin.isMark]) (fun _ => ?_) fun _ => .ite (by rw [htwin.isMark])
    (fun _ => ?_) fun _ => ?_
  · exact (hg.block.run h hn).bind hn fun body => .pure (by rw [Stmt.move, Stmt.moveAll_eq])
  · exact (AlikeFrom.pass h).bind hn fun _ => .pure rfl
  rw [htwin.word?]
  split
  case h_1 name hw => exact hg.wordStatement ha h hn hl (Token.word?_iff.mp hw) htwin.position
  case h_2 => exact (hg.expressionStatement ha).run h hn

/-! ## Levels -/

/-- A level more: where the productions start, only `assignment` and `unary` of the next level are
used. -/
theorem next (hg : M.Mirrored n g g')
    (ha : M.Alike (n + 1) (Expr.move M.move) g.assignment g'.assignment)
    (hu : M.Alike (n + 1) (Expr.move M.move) g.unary g'.unary) :
    M.AlikeGrammar (n + 1) g.next g'.next where
  statement := .nested (hg.statementInner ha)
  assignment := .nested (hg.assignmentInner hu)
  unary := .nested hg.unaryInner
  operand := fun precedence => .nested (hg.binary hu precedence)
  innerNew := .nested hg.newExpression

end Mirrored

/-- Without a level both fail alike. -/
theorem AlikeGrammar.exhausted {M : Mirror} {n : Nat} :
    M.AlikeGrammar n Grammar.exhausted Grammar.exhausted where
  statement := .fail
  assignment := .fail
  unary := .fail
  operand := fun _ => .fail
  innerNew := .fail

/-! ## Templates

The substitutions of a template are read from lists of their own, with mirrors of their own. -/

/-- The list of a substitution is read alike at both places. -/
def AlikeWithin (f : Position → Position) (g g' : Grammar) (part : List Token) : Prop :=
  ∃ N : Mirror, N.move = f ∧ N.offset = 0 ∧ (∀ ts, ¬N.lost ts) ∧
    N.lists part (moveTokens f part) ∧
    N.Alike (part.length + 1) (Expr.move f) g.substitution g'.substitution

/-- Substitutions are alike one by one; the first fault ends both. -/
theorem substitutions_outcome {M : Mirror} {g g' : Grammar} {parts : List (List Token)}
    (hparts : ∀ part ∈ parts, AlikeWithin M.move g g' part) {s s' : ParserState}
    (h : M.Rel s s') :
    M.Outcome (List.map (Expr.move M.move)) (g.substitutions parts s)
      (g'.substitutions (moveParts M.move parts) s') := by
  induction parts generalizing s s' with
  | nil => exact .ok [] h
  | cons part parts ih =>
    obtain ⟨N, hmove, hoffset, hlost, hlists, halike⟩ := hparts part List.mem_cons_self
    have hstart : N.Rel (.start part s.functionDepth s.nesting)
        (.start (moveTokens M.move part) s'.functionDepth s'.nesting) :=
      ⟨hlists, by rw [hoffset]; rfl, ⟨h.counters.functionDepth, h.counters.nesting, rfl⟩, rfl⟩
    have hout := (halike.run hstart (Nat.lt_succ_self _)).outcome (hlost _)
    -- the issues of the substitution join those recorded before it
    have hjoin : ∀ {inner inner' : ParserState}, N.Rel inner inner' →
        M.Rel { s with issues := s.issues ++ inner.issues }
          { s' with issues := s'.issues ++ inner'.issues } := fun hinner =>
      ⟨h.lists, h.consumed, ⟨h.counters.functionDepth, h.counters.nesting, h.counters.noIn⟩, by
        rw [h.issues, hinner.issues, hmove, List.map_append]⟩
    rw [moveParts, Grammar.substitutions, Grammar.substitutions]
    simp only [Bind.bind, EStateM.bind, onTokens]
    generalize g.substitution _ = result, g'.substitution _ = result' at hout ⊢
    cases hout with
    | ok e hinner =>
      have hrest := ih (fun part hp => hparts part (List.mem_cons_of_mem _ hp)) (hjoin hinner)
      dsimp only
      generalize g.substitutions parts _ = result, g'.substitutions _ _ = result' at hrest ⊢
      cases hrest with
      | ok es hrel => exact .ok (e :: es) hrel
      | error fault hrel => exact .error fault hrel
    | error fault hinner =>
      have hfault : fault.move N.move = fault.move M.move := by rw [hmove]
      dsimp only
      rw [hfault]
      exact .error fault (hjoin hinner)

/-- A template does the same as its twin if its substitutions do. -/
theorem templateLiteral_alike {M : Mirror} {g g' : Grammar} (hg : g.TakesTokens)
    {parts : List (List Token)} (hparts : ∀ part ∈ parts, AlikeWithin M.move g g' part)
    {s s' : ParserState} (h : M.Rel s s') :
    M.AlikeFrom (Expr.move M.move) (g.templateLiteral parts)
      (g'.templateLiteral (moveParts M.move parts)) s s' := by
  refine ⟨hg.moves.templateLiteral_cursor parts s, fun hl => ?_⟩
  have hleaves : leaves (g.templateLiteral parts) s = leaves (g.substitutions parts) s.pass :=
    leaves_map s.pass Expr.template
  obtain ⟨inner, -, -, hs⟩ := hg.moves.substitutions parts s.pass
  rw [hleaves, hs] at hl
  have hout := substitutions_outcome hparts (h.pass hl)
  show M.Outcome _ ((Expr.template <$> g.substitutions parts) s.pass)
    ((Expr.template <$> g'.substitutions (moveParts M.move parts)) s'.pass)
  simp only [Functor.map, EStateM.map]
  generalize g.substitutions parts _ = result, g'.substitutions _ _ = result' at hout ⊢
  cases hout with
  | ok es hrel =>
    have htemplate : Expr.template (es.map (Expr.move M.move)) =
        (Expr.template es).move M.move := by rw [Expr.move, Expr.moveAll_eq]
    dsimp only
    rw [htemplate]
    exact .ok (Expr.template es) hrel
  | error fault hrel => exact .error fault hrel

/-! ## Scripts -/

/-- One round of the loop over a script, behind the statements of another one. -/
theorem programRound {M : Mirror} {n : Nat} {g g' : Grammar} (hg : g.TakesTokens)
    (hn : n ≤ M.top + 1) (hs : M.Alike n (Stmt.move M.move) g.statement g'.statement)
    (before body : List Stmt) :
    M.Alike n
      (Step.map (fun body => body.map (Stmt.move M.move) ++ before)
        fun program => ⟨before.reverse ++ (program.move M.move).body⟩)
      (g.programRound body) (g'.programRound (body.map (Stmt.move M.move) ++ before)) := by
  refine .of_state (hg.moves.programRound body) fun s s' h hlt hl => .get ?_
  refine .ite (by rw [h.isAtEnd hl]) (fun _ => ?_) fun hopen => ?_
  · refine (Alike.pure ?_).run h hlt
    simp [Program.move, Stmt.moveAll_eq]
  rw [Bool.not_eq_true] at hopen
  refine .ite (by rw [(h.twin hl).isMark]) (fun _ => ?_) fun _ => ?_
  · refine .set ((ParserState.MovesTo.noting s _).trans (.pass _)) (fun hmid => ?_) hlt (.pure rfl)
    rw [h.unexpected hl]
    exact (h.noting _).pass hmid
  · refine ((hs.run h hlt).recovering h ?_ hopen).bind hlt fun r => ?_
    · omega
    · cases r <;> exact .pure rfl

/-- Scripts. -/
theorem program {M : Mirror} {n : Nat} {g g' : Grammar} (hg : g.TakesTokens)
    (hn : n ≤ M.top + 1) (hs : M.Alike n (Stmt.move M.move) g.statement g'.statement) :
    M.Alike n (Program.move M.move) g.program g'.program :=
  .loop rfl (programRound hg hn hs []) hg.programRound

end Mirror

end ScriptHooks.Script

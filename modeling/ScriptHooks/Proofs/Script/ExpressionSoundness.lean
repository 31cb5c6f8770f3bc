/-
ScriptHooks.Proofs.Script.ExpressionSoundness — parsed expressions are spelled by
the tokens taken.

`Reads p symbol` says of a production that whenever it gives a value without an issue,
the tokens taken spell the symbol of that value, with their brackets (`Spelled`).
`Grammar.Sound` says it of the five productions that recursion goes through. From
that it follows for every other production, one lemma each, in the order of the
parser; the proofs follow the text of the productions by the rules of `ParseRules` and
end with the rule of the grammar that puts the pieces together.

Not every production starts where its symbol starts:

* one that takes its first token unseen is sound where that token is the word it is
  for (`function`, `newExpression`, `primaryWord`), so the word is a hypothesis on the
  tokens before;
* one that goes on with what is given to it (`link`, `newLinks`, `operators`) turns a
  spelling of the start into one of the whole, so it is stated for every start that
  ends where it begins;
* one that stands inside brackets (`parenthesized`, `arguments`, `computedProperty`)
  includes them, because a bracket on its own is no symbol that is nested.

Object patterns are parsed within a bound of their own; `objectLiteralWithin` is an
induction on it, and `bindingTargetOver` and the lemmas behind it take the pattern of
the next bound as a parameter.

Where the parser decides by looking ahead, such as for arrow functions, the grammar
does not ask how the decision was made: an accepted arrow is spelled, and that is all.
-/
import ScriptHooks.Proofs.Script.Brackets
import ScriptHooks.Proofs.Script.ParseRules

namespace ScriptHooks.Script

open Parse

/-! ## Tokens taken -/

namespace Token

/-- Marks are told by their text. -/
theorem isMark_of_kind {t : Token} (h : t.kind = .punct text) : t.isMark text = true := by
  simp only [isMark, h, beq_self_eq_true]

/-- The operators of a list are no points and no brackets. -/
theorem operator_of_mem {ops : List String}
    (h : ops.all (fun op => !isPoint op && !isBracket op) = true) (hm : op ∈ ops) :
    isPoint op = false ∧ isBracket op = false := by
  simpa using List.all_eq_true.mp h op hm

/-- A prefix operator is a mark that is no bracket, or one of three words. -/
theorem prefixOperator_cases {t : Token} (h : t.prefixOperator? = some op) :
    (t.isMark op = true ∧ isPoint op = false ∧ isBracket op = false) ∨
      (t.word? = some op ∧ op ∈ ["typeof", "void", "delete"]) := by
  unfold prefixOperator? at h
  split at h
  · rename_i text ht
    split at h
    · rename_i hc
      cases h
      exact .inl ⟨isMark_of_kind ht, operator_of_mem (by decide) (List.contains_iff_mem.mp hc)⟩
    · cases h
  · rename_i name hw
    split at h
    · rename_i hc
      cases h
      exact .inr ⟨by simp only [word?, hw], List.contains_iff_mem.mp hc⟩
    · cases h
  · cases h

/-- A binary operator is a mark that is no bracket, or `in` or `instanceof`. -/
theorem binaryOperator_cases {t : Token} (h : t.binaryOperator? noIn = some (op, strength)) :
    (t.isMark op = true ∧ isPoint op = false ∧ isBracket op = false) ∨
      (t.word? = some op ∧ op ∈ ["in", "instanceof"]) := by
  unfold binaryOperator? at h
  split at h
  · rename_i text ht
    have hop : op = text := by simpa using List.find?_some h
    subst hop
    have hall : (binaryOperators.map Prod.fst).all (fun op => !isPoint op && !isBracket op) = true :=
      by decide
    refine .inl ⟨isMark_of_kind ht, ?_⟩
    exact operator_of_mem hall (List.mem_map_of_mem (List.mem_of_find?_eq_some h))
  · rename_i name hw
    split at h
    · rename_i hc
      cases h
      refine .inr ⟨by simp only [word?, hw], ?_⟩
      simp only [Bool.or_eq_true, Bool.and_eq_true, beq_iff_eq] at hc
      obtain rfl | ⟨rfl, -⟩ := hc <;> simp
    · cases h
  · cases h

end Token

/-- An arrow starts with a name or with a bracket. -/
theorem ParserState.reserved_of_startsArrow {s : ParserState} (h : s.startsArrow = true)
    (n : String) (hw : (s.rest.headD default).word? = some n) : isReservedWord n = false := by
  have hp : s.peek.word? = some n := hw
  unfold startsArrow at h
  split at h
  · rename_i hn
    obtain ⟨m, hm, hr⟩ := Token.word_of_isName hn
    rw [hp] at hm
    cases hm
    exact hr
  · simp [Token.isMark_of_word hp] at h

namespace Passes

/-- A mark that was seen and taken. -/
theorem mark (h : Passes ts rest) (hm : (ts.headD default).isMark text = true)
    (hp : isPoint text = false) : Spelled [.mark text] ts rest := by
  rw [h (Token.single_of_isMark hm).notEof]
  exact .mark hm hp

/-- A word that was seen and taken, in a role that admits it. -/
theorem word (h : Passes ts rest) (hw : (ts.headD default).word? = some n)
    (hr : role.admits n = true) :
    Spelled [.word n (ts.headD default).position role] ts rest := by
  rw [h (Token.single_of_word hw).notEof]
  exact .word hw hr

theorem keyword (h : Passes ts rest) (hw : (ts.headD default).word? = some n) :
    Spelled [.word n (ts.headD default).position .keyword] ts rest :=
  h.word hw rfl

theorem name (h : Passes ts rest) (hw : (ts.headD default).word? = some n)
    (hr : isReservedWord n = false) :
    Spelled [.word n (ts.headD default).position .name] ts rest :=
  h.word hw (by rw [Role.admits, hr]; rfl)

theorem constant (h : Passes ts rest) (hc : (ts.headD default).isConstant = true) :
    Spelled [.constant] ts rest := by
  rw [h (Token.single_of_isConstant hc).notEof]
  exact .constant hc

theorem regex (h : Passes ts rest) (hr : (ts.headD default).isRegex = true) :
    Spelled [.regex] ts rest := by
  rw [h (Token.single_of_isRegex hr).notEof]
  exact .regex hr

/-- A template that was taken, from the spellings of its substitutions. -/
theorem template (h : Passes ts rest) (pieces : List Piece)
    (ht : (ts.headD default).kind = .template (pieces.map Piece.tokens))
    (hs : ∀ q ∈ pieces, Spells [.expr q.expr] q.tokens q.readings q.rest)
    (he : ∀ q ∈ pieces, (q.rest.headD default).isEof = true)
    (hn : ∀ q ∈ pieces, Nested [] q.tokens) :
    Spelled [.template (pieces.map Piece.expr)] ts rest := by
  rw [h (by simp only [Token.isEof, ht])]
  exact .template pieces ht hs he hn

/-- A point and the word behind it. -/
theorem access (h : Passes ts mid) (hm : (ts.headD default).isMark text = true)
    (hp : isPoint text = true) (h' : Passes mid rest) (hw : (mid.headD default).word? = some n) :
    Spelled [.access n] ts rest := by
  rw [h (Token.single_of_isMark hm).notEof, h' (Token.single_of_word hw).notEof]
  exact .access hm hp hw

/-- A mark that follows the point for optional chains. -/
theorem optional (h : Passes ts mid) (hm : (ts.headD default).isMark "?." = true)
    (hs : Spelled (.mark text :: σ) mid rest) : Spelled (.optional text :: σ) ts rest := by
  rw [h (Token.single_of_isMark hm).notEof]
  exact .optional hm hs

end Passes

/-- The production gives what the tokens taken spell as this symbol. -/
def Reads (p : Parse α) (symbol : α → Symbol) : Prop :=
  Gives p fun ts a rest => Spelled [symbol a] ts rest

namespace Grammar

/-- The productions that recursion goes through give what the tokens taken spell. -/
structure Sound (g : Grammar) : Prop where
  statement : Reads g.statement .stmt
  assignment : Reads g.assignment .expr
  unary : Reads g.unary .expr
  operand (precedence : Nat) : Reads (g.operand precedence) .expr
  innerNew : Gives g.innerNew fun ts e rest =>
    (ts.headD default).isWord "new" = true → Spelled [.expr e] ts rest

/-- A mark that is no point and must come next. -/
theorem expect_reads (text : String) (hp : isPoint text = false) :
    Reads (expect text) fun _ => .mark text :=
  Gives.expect.mono fun _ _ _ h => h.2.mark h.1 hp

/-- A choice by the mark that comes next, if it is no point. -/
theorem ifMark_reads {p q : Parse β} {T : List Token → β → List Token → Prop} (text : String)
    (ht : isPoint text = false)
    (hy : Gives p fun mid b rest => ∀ ts, Spelled [.mark text] ts mid → T ts b rest)
    (hn : Gives q T) :
    Gives (acceptMark text >>= fun taken => if taken = true then p else q) T :=
  .ifMark (hy.mono fun _ _ _ h ts hm hp => h ts (hp.mark hm ht)) hn

/-- A semicolon is taken, or may be left out. -/
theorem semicolon_reads : Reads semicolon fun _ => .semicolon := by
  unfold semicolon
  refine .ifMark (.pure fun rest ts hm hp => ?_) (.peek fun t => .ite (fun h => ?_) fun h => ?_)
  · exact .unit .semicolonMark (hp.mark hm rfl) rfl
  · refine .pure fun ts ht => ?_
    exact .unit .semicolonOmitted (.omitted (ht ▸ h)) rfl
  · exact .failExpecting

/-- A look at the depth of an expression changes nothing. -/
theorem boundDepth_gives (expr : Expr) :
    Gives (boundDepth expr) fun ts e rest => e = expr ∧ rest = ts := by
  unfold boundDepth
  exact .ite (fun _ => .fail) fun _ => .pure fun _ => ⟨rfl, rfl⟩

theorem boundChain_gives (chained : Bool) (expr : Expr) :
    Gives (if chained then boundDepth expr else pure expr) fun ts e rest =>
      e = expr ∧ rest = ts :=
  .ite (fun _ => boundDepth_gives expr) fun _ => .pure fun _ => ⟨rfl, rfl⟩

namespace Sound

variable {g : Grammar}

/-! ## Lists -/

/-- Expressions between commas. -/
theorem expression (hg : g.Sound) : Reads g.expression .expr := by
  unfold Grammar.expression
  refine .bind hg.assignment fun first => .peek fun t => .ite (fun h => ?_) (fun _ => ?_)
  · refine .bind (.loop (I := fun items ts all rest => ∃ es, all = items.reverse ++ es ∧
        Spelled [.more es] ts rest ∧ ((ts.headD default).isMark "," = true → es ≠ []))
      fun items => ?_) fun items => .pure ?_
    · refine .bind .acceptMark fun taken => ?_
      cases taken with
      | true =>
        refine .bind hg.assignment fun item => .pure ?_
        rintro rest mid hi ts ⟨hm, hp⟩ all last ⟨es, rfl, he, -⟩
        refine ⟨item :: es, by simp, .rule .moreNext ?_ rfl, fun _ => by simp⟩
        exact (hp.mark hm rfl).cons (hi.cons he)
      | false =>
        refine .pure ?_
        rintro rest ts ⟨hm, rfl⟩
        exact ⟨[], by simp, .rule .moreEnd .nil rfl, fun h => nomatch hm.symm.trans h⟩
    · rintro rest mid ⟨es, rfl, he, hn⟩ hm ts hf
      obtain ⟨d, es, rfl⟩ := List.exists_cons_of_ne_nil (hn (hm ▸ h))
      exact .rule .sequence (hf.cons he) rfl
  · exact .pure fun rest _ ts h => h

/-- Items between commas up to a closing mark. -/
theorem itemsUntil {p : Parse Expr} (hi : Reads p .item) (close : String)
    (hc : isPoint close = false) :
    Reads (loop (fun items => do
      if ← acceptMark close then
        return .done items.reverse
      let item ← p
      unless ← acceptMark "," do
        expect close
        return .done (item :: items).reverse
      return .more (item :: items)) []) (.items close) := by
  refine (Gives.loop (I := fun items ts all rest => ∃ es, all = items.reverse ++ es ∧
    Spelled [.items close es] ts rest) fun items => ?_).mono ?_
  · refine ifMark_reads close hc (.pure ?_) (.bind hi fun item => ?_)
    · intro rest ts hm
      exact ⟨[], by simp, .rule .itemsEnd hm rfl⟩
    · refine ifMark_reads "," rfl (.pure ?_) (.bind (expect_reads close hc) fun _ => .pure ?_)
      · rintro rest mid hm ts hi all last ⟨es, rfl, he⟩
        exact ⟨item :: es, by simp, .rule .itemsNext (hi.cons (hm.cons he)) rfl⟩
      · intro rest mid hm ts hi
        exact ⟨[item], by simp, .rule .itemsLast (hi.cons hm) rfl⟩
  · rintro ts es rest ⟨_, rfl, he⟩
    simpa using he

/-- An expression in round brackets, in front of anything else. -/
theorem parenthesized (hg : g.Sound) :
    Gives g.parenthesized fun ts e rest =>
      ∀ σ last, Spelled σ rest last →
        Spelled (.mark "(" :: .expr e :: .mark ")" :: σ) ts last := by
  unfold Grammar.parenthesized
  refine .bind (expect_reads "(" rfl) fun _ => .bind (.withoutIn hg.expression) fun e => ?_
  refine .bind (expect_reads ")" rfl) fun _ => .pure ?_
  intro rest mid hc mid' he ts ho σ last h
  exact ho.cons (he.cons (hc.cons h))

theorem item (hg : g.Sound) : Reads g.item .item := by
  unfold Grammar.item
  refine ifMark_reads "..." rfl (.bind hg.assignment fun e => .pure ?_) ?_
  · intro rest mid he ts hm
    exact .rule .itemSpread (hm.cons he) rfl
  · exact hg.assignment.mono fun _ _ _ he => .unit .itemPlain he rfl

theorem arrayLiteral (hg : g.Sound) : Reads g.arrayLiteral .expr := by
  unfold Grammar.arrayLiteral
  refine .bind (expect_reads "[" rfl) fun _ => .withoutIn ?_
  refine (Gives.loop (I := fun items ts e rest => ∃ es, e = .array (items.reverse ++ es) ∧
    Spelled [.items "]" es] ts rest) fun items => ?_).mono ?_
  · refine ifMark_reads "]" rfl (.pure ?_) (ifMark_reads "," rfl (.pure ?_) ?_)
    · intro rest ts hm
      exact ⟨[], by simp, .rule .itemsEnd hm rfl⟩
    · rintro rest ts hm e last ⟨es, rfl, he⟩
      exact ⟨es, rfl, .rule .itemsHole (hm.cons he) rfl⟩
    · refine .bind hg.item fun item => ifMark_reads "," rfl (.pure ?_) ?_
      · rintro rest mid hm ts hi e last ⟨es, rfl, he⟩
        exact ⟨item :: es, by simp, .rule .itemsNext (hi.cons (hm.cons he)) rfl⟩
      · refine .bind (expect_reads "]" rfl) fun _ => .pure ?_
        intro rest mid hm ts hi
        exact ⟨[item], by simp, .rule .itemsLast (hi.cons hm) rfl⟩
  · rintro mid e rest ⟨es, rfl, he⟩ ts ho
    exact .rule .array (ho.cons (by simpa using he)) rfl

theorem arguments (hg : g.Sound) :
    Gives g.arguments fun ts es rest => Spelled [.mark "(", .items ")" es] ts rest := by
  unfold Grammar.arguments
  refine .bind (expect_reads "(" rfl) fun _ => .withoutIn ?_
  exact (itemsUntil hg.item ")" rfl).mono fun _ _ _ he ts ho => ho.cons he

/-! ## Blocks -/

/-- Statements up to where the caller stops. -/
theorem statementsUntil (hg : g.Sound) (stop : Token → Bool) :
    Reads (g.statementsUntil stop) .stmts := by
  unfold Grammar.statementsUntil
  refine (Gives.loop (I := fun body ts all rest => ∃ ss, all = body.reverse ++ ss ∧
    Spelled [.stmts ss] ts rest) fun body => ?_).mono ?_
  · refine .peek fun t => .ite (fun _ => .pure ?_) fun _ => .bind (.recovering hg.statement) ?_
    · intro ts _
      exact ⟨[], by simp, .rule .stmtsEnd .nil rfl⟩
    · rintro (_ | statement)
      · refine .pure fun ts _ h => ?_
        simp at h
      · refine .pure ?_
        rintro rest ts ⟨_, h, hs⟩ - all last ⟨ss, rfl, he⟩
        cases h
        exact ⟨statement :: ss, by simp, .rule .stmtsNext (hs.cons he) rfl⟩
  · rintro ts ss rest ⟨_, rfl, he⟩
    simpa using he

theorem block (hg : g.Sound) : Reads g.block .block := by
  unfold Grammar.block
  refine .bind (expect_reads "\x7b" rfl) fun _ => .bind (hg.statementsUntil _) fun body => ?_
  refine .bind (expect_reads "\x7d" rfl) fun _ => .pure ?_
  intro rest mid hc mid' hb ts ho
  exact .rule .block (ho.cons (hb.cons hc)) rfl

/-! ## Patterns and objects -/

/-- The key of a property. A word as a key is a token that was taken. -/
theorem propertyKey (hg : g.Sound) : Gives g.propertyKey fun ts key rest =>
    Spelled [.key key] ts rest ∧ ((ts.headD default).word?.isSome = true → Passes ts rest) := by
  unfold Grammar.propertyKey
  refine .peek fun t => ?_
  split
  case h_1 name ht =>
    refine .bind .pass fun _ => .pure ?_
    rintro rest ts hp rfl
    exact ⟨.unit .keyWord (hp.word (by simp only [Token.word?, ht]) rfl) rfl, fun _ => hp⟩
  case h_2 name ht =>
    refine .bind .pass fun _ => .pure ?_
    rintro rest ts hp rfl
    exact ⟨.unit .keyText (hp.constant (by simp only [Token.isConstant, ht])) rfl, fun _ => hp⟩
  case h_3 ht =>
    refine .bind .pass fun _ => .pure ?_
    rintro rest ts hp rfl
    exact ⟨.unit .keyNumber (hp.constant (by simp only [Token.isConstant, ht])) rfl, fun _ => hp⟩
  case h_4 ht =>
    refine .bind .pass fun _ => .bind hg.assignment fun key => ?_
    refine .bind (expect_reads "]" rfl) fun _ => .pure ?_
    rintro rest mid hc mid' hk ts hp rfl
    have ho : Spelled [.mark "["] ts _ := hp.mark (Token.isMark_of_kind ht) rfl
    refine ⟨.rule .keyComputed (ho.cons (hk.cons hc)) rfl, ?_⟩
    simp only [Token.word?, ht, Option.isSome_none, Bool.false_eq_true, false_imp_iff]
  case h_5 => exact .failExpecting

theorem bindingTargetOver (hg : g.Sound) {objectPattern : Parse Expr}
    (ho : Reads objectPattern .expr) : Reads (g.bindingTargetOver objectPattern) .expr := by
  unfold Grammar.bindingTargetOver
  refine .peek fun t => .ite (fun _ => ?_) fun _ => .ite (fun _ => ?_) fun _ => ?_
  · exact hg.arrayLiteral.mono fun _ _ _ h _ => h
  · exact ho.mono fun _ _ _ h _ => h
  · split
    · rename_i name hw
      refine .ite (fun _ => .failExpecting) fun hr => .bind .pass fun _ => .pure ?_
      rintro rest ts hp rfl
      exact .unit .name (hp.name hw (by simpa using hr)) rfl
    · exact .failExpecting

theorem parameter (hg : g.Sound) {target : Parse Expr} (ht : Reads target .expr) :
    Reads (g.parameter target) .item := by
  unfold Grammar.parameter
  refine ifMark_reads "..." rfl (.bind ht fun e => .pure ?_) (.bind ht fun e => ?_)
  · intro rest mid he ts hm
    exact .rule .itemSpread (hm.cons he) rfl
  · refine ifMark_reads "=" rfl (.bind hg.assignment fun d => .pure ?_) (.pure ?_)
    · intro rest mid hd mid' hm ts he
      exact .unit .itemPlain (.rule .binaryMark (he.cons (hm.cons hd)) rfl) rfl
    · intro rest ts he
      exact .unit .itemPlain he rfl

theorem parameters (hg : g.Sound) {target : Parse Expr} (ht : Reads target .expr) :
    Reads (g.parameters target) (.items ")") := by
  unfold Grammar.parameters
  exact itemsUntil (hg.parameter ht) ")" rfl

/-- A function from its parameters on: the name and the place are those that are given. -/
theorem functionRest (hg : g.Sound) {target : Parse Expr} (ht : Reads target .expr)
    (name : Option String) (position : Position) :
    Gives (g.functionRest target name position) fun ts f rest => ∃ ps body,
      f = .mk name ps body false position ∧ Spelled [.signature ps body] ts rest := by
  unfold Grammar.functionRest
  refine .bind (expect_reads "(" rfl) fun _ => .bind (hg.parameters ht) fun ps => ?_
  refine .bind (.insideFunction hg.block) fun body => .pure ?_
  intro rest mid hb mid' hp ts ho
  exact ⟨ps, body, rfl, .rule .signature (ho.cons (hp.cons hb)) rfl⟩

/-- A property behind its key: a method, an accessor, a value, or the key alone. -/
theorem propertyRest (hg : g.Sound) {target : Parse Expr} (ht : Reads target .expr)
    (token : Token) (key : PropertyKey) :
    Gives (g.propertyRest target token key) fun mid q rest => ∀ ts,
      ts.headD default = token → Spelled [.key key] ts mid →
      (token.word?.isSome = true → Passes ts mid) → Spelled [.property q] ts rest := by
  unfold Grammar.propertyRest
  refine ifMark_reads ":" rfl (.bind hg.assignment fun e => .pure ?_) (.peek fun t => ?_)
  · intro rest mid' he mid hm ts _ hk _
    exact .rule .keyValue (hk.cons (hm.cons he)) rfl
  · refine .ite (fun _ => .bind (hg.functionRest ht _ _) fun f => .pure ?_) fun _ => ?_
    · rintro rest mid ⟨ps, body, rfl, hs⟩ _ ts _ hk _
      exact .rule .method (hk.cons hs) rfl
    · split
      · rename_i name hw
        refine .ite (fun _ => .failExpecting) fun hr => ?_
        have hr : isReservedWord name = false := by simpa using hr
        refine ifMark_reads "=" rfl (.bind hg.assignment fun e => .pure ?_) (.pure ?_)
        · rintro rest mid' he mid hm - ts rfl - hp
          exact .rule .shorthandDefault (((hp (hw ▸ rfl)).name hw hr).cons (hm.cons he)) rfl
        · rintro rest - ts rfl - hp
          exact .unit .shorthand ((hp (hw ▸ rfl)).name hw hr) rfl
      · exact .failExpecting

theorem property (hg : g.Sound) {target : Parse Expr} (ht : Reads target .expr) :
    Reads (g.property target) .property := by
  unfold Grammar.property
  refine ifMark_reads "..." rfl (.bind hg.assignment fun e => .pure ?_) (.peek fun t => ?_)
  · intro rest mid he ts hm
    exact .rule .propertySpread (hm.cons he) rfl
  · refine .ite (fun _ => .unsupported) fun _ => .tokenAhead fun next => ?_
    refine .ite (fun h => ?_) fun _ => .ite (fun _ => .unsupported) fun _ => ?_
    · refine .bind .pass fun _ => .bind hg.propertyKey fun key => ?_
      refine .bind (hg.functionRest ht _ _) fun f => .pure ?_
      rintro rest mid ⟨ps, body, rfl, hs⟩ mid' ⟨hk, -⟩ ts hp rfl
      simp only [Bool.and_eq_true, Bool.or_eq_true, Token.isWord_iff] at h
      obtain ⟨hw | hw, -⟩ := h
      · exact .rule (.accessor (by simp)) ((hp.keyword hw).cons (hk.cons hs)) rfl
      · exact .rule (.accessor (by simp)) ((hp.keyword hw).cons (hk.cons hs)) rfl
    · refine .bind hg.propertyKey fun key => (hg.propertyRest ht t key).mono ?_
      rintro mid q rest h ts ⟨hk, hp⟩ rfl
      exact h ts rfl hk hp

theorem objectLiteralOver (hg : g.Sound) {objectPattern : Parse Expr}
    (ho : Reads objectPattern .expr) : Reads (g.objectLiteralOver objectPattern) .expr := by
  unfold Grammar.objectLiteralOver
  refine .peek fun t => .bind (expect_reads "\x7b" rfl) fun _ => .withoutIn ?_
  refine (Gives.loop (I := fun properties ts e rest => ∃ qs,
    e = .object (properties.reverse ++ qs) t.position ∧ Spelled [.properties qs] ts rest)
    fun properties => ?_).mono ?_
  · refine ifMark_reads "\x7d" rfl (.pure ?_) ?_
    · intro rest ts hm
      exact ⟨[], by simp, .rule .propertiesEnd hm rfl⟩
    · refine .bind (hg.property (hg.bindingTargetOver ho)) fun property => ?_
      refine ifMark_reads "," rfl (.pure ?_) (.bind (expect_reads "\x7d" rfl) fun _ => .pure ?_)
      · rintro rest mid hm ts hq e last ⟨qs, rfl, he⟩
        exact ⟨property :: qs, by simp, .rule .propertiesNext (hq.cons (hm.cons he)) rfl⟩
      · intro rest mid hm ts hq
        exact ⟨[property], by simp, .rule .propertiesLast (hq.cons hm) rfl⟩
  · rintro mid e rest ⟨qs, rfl, he⟩ ts hm -
    exact .rule .object (hm.cons (by simpa using he)) rfl

/-- Objects and the patterns in them, by induction on the bound for patterns. -/
theorem objectLiteralWithin (hg : g.Sound) (bound : Nat) :
    Reads (g.objectLiteralWithin bound) .expr := by
  induction bound with
  | zero => exact .unexpected
  | succ bound ih => exact hg.objectLiteralOver ih

theorem objectLiteral (hg : g.Sound) : Reads g.objectLiteral .expr := by
  unfold Grammar.objectLiteral
  exact .get fun s => (hg.objectLiteralWithin _).mono fun _ _ _ h _ => h

theorem bindingTarget (hg : g.Sound) : Reads g.bindingTarget .expr :=
  hg.bindingTargetOver hg.objectLiteral

/-! ## Functions -/

/-- A function from the word `function` on. -/
theorem function (hg : g.Sound) (isDeclaration : Bool) :
    Gives (g.function isDeclaration) fun ts f rest =>
      (ts.headD default).isWord "function" = true → Spelled [.function f] ts rest := by
  unfold Grammar.function
  refine .peek fun start => .bind .pass fun _ => .peek fun t => ?_
  refine .ite (fun _ => .unsupported) fun _ => .ite (fun hn => ?_) fun _ => ?_
  · obtain ⟨n, hw, hr⟩ := Token.word_of_isName hn
    refine .bind .pass fun _ => (hg.functionRest hg.bindingTarget _ _).mono ?_
    rintro mid f rest ⟨ps, body, rfl, hs⟩ mid' hp rfl ts hf rfl hk
    rw [hw]
    have hn := hp.name hw hr
    have hk := hf.keyword (Token.isWord_iff.mp hk)
    exact .rule .functionNamed (hk.cons (hn.cons hs)) rfl
  · refine .ite (fun _ => .fail) fun _ => (hg.functionRest hg.bindingTarget _ _).mono ?_
    rintro mid f rest ⟨ps, body, rfl, hs⟩ - ts hf rfl hk
    exact .rule .functionBare ((hf.keyword (Token.isWord_iff.mp hk)).cons hs) rfl

theorem arrowBody (hg : g.Sound) : Reads g.arrowBody .arrowBody := by
  unfold Grammar.arrowBody
  refine .peek fun t => .ite (fun _ => ?_) fun _ => .bind hg.assignment fun e => .pure ?_
  · exact hg.block.mono fun _ _ _ h _ => .unit .arrowBlock h rfl
  · intro rest ts he _
    exact .unit .arrowValue he rfl

/-- An arrow function, unless it starts with a reserved word. -/
theorem arrow (hg : g.Sound) : Gives g.arrow fun ts e rest =>
    (∀ n, (ts.headD default).word? = some n → isReservedWord n = false) →
      Spelled [.expr e] ts rest := by
  unfold Grammar.arrow
  refine .peek fun t => ?_
  dsimp only
  split
  · rename_i name hw
    refine .bind .pass fun _ => .pureBind (.bind (expect_reads "=>" rfl) fun _ => ?_)
    refine .bind (.insideFunction hg.arrowBody) fun body => .pure ?_
    rintro rest mid hb mid' hm ts hp rfl hr
    exact .rule .arrowOne ((hp.name hw (hr name hw)).cons (hm.cons hb)) rfl
  · refine .bind (expect_reads "(" rfl) fun _ => .bind (hg.parameters hg.bindingTarget) ?_
    refine fun ps => .bind (expect_reads "=>" rfl) fun _ => ?_
    refine .bind (.insideFunction hg.arrowBody) fun body => .pure ?_
    intro rest mid hb mid' hm mid'' hi ts ho _ _
    exact .rule .arrowMany (ho.cons (hi.cons (hm.cons hb))) rfl

/-! ## Operands -/

/-- A substitution is an expression up to an end token. -/
theorem substitution (hg : g.Sound) : Gives g.substitution fun ts e rest =>
    Spelled [.expr e] ts rest ∧ (rest.headD default).isEof = true := by
  unfold Grammar.substitution
  refine .isAtEnd fun b => .ite (fun _ => .fail) fun _ => .bind hg.expression fun e => ?_
  refine .isAtEnd fun ended => .ite (fun he => .pure ?_) fun _ => .unexpected
  intro rest hr ts hs _
  exact ⟨hs, hr.trans he⟩

/-- The substitutions of a template are spelled by its token lists. -/
theorem substitutions (hg : g.Sound) (parts : List (List Token)) :
    Gives (g.substitutions parts) fun ts es rest => rest = ts ∧ ∃ pieces : List Piece,
      parts = pieces.map Piece.tokens ∧ es = pieces.map Piece.expr ∧
      (∀ q ∈ pieces, Spells [.expr q.expr] q.tokens q.readings q.rest) ∧
      (∀ q ∈ pieces, (q.rest.headD default).isEof = true) ∧ ∀ q ∈ pieces, Nested [] q.tokens := by
  induction parts with
  | nil => exact .pure fun ts => ⟨rfl, [], by simp⟩
  | cons tokens parts ih =>
    unfold Grammar.substitutions
    refine .bind (.onTokens hg.substitution) fun e => .bind ih fun es => .pure ?_
    rintro rest mid ⟨rfl, pieces, rfl, rfl, hs, he, hn⟩ ts ⟨rfl, left, ⟨⟨rs, hr⟩, hnested⟩, hl⟩
    refine ⟨rfl, ⟨tokens, e, rs, left⟩ :: pieces, rfl, rfl, ?_, ?_, ?_⟩
    · exact List.forall_mem_cons.mpr ⟨hr, hs⟩
    · exact List.forall_mem_cons.mpr ⟨hl, he⟩
    · exact List.forall_mem_cons.mpr ⟨hnested [] [] rfl (.stop hl), hn⟩

/-- A template, with all its substitutions read. -/
theorem templateLiteral (hg : g.Sound) (parts : List (List Token)) :
    Gives (g.templateLiteral parts) fun ts e rest =>
      (ts.headD default).kind = .template parts →
        ∃ es, e = .template es ∧ Spelled [.template es] ts rest := by
  unfold Grammar.templateLiteral
  refine .bind .pass fun _ => .bind (hg.substitutions parts) fun es => .pure ?_
  rintro rest _ ⟨rfl, pieces, rfl, rfl, hs, he, hn⟩ ts hp ht
  exact ⟨_, rfl, hp.template pieces ht hs he hn⟩

/-- What a word starts, or the word as a name. -/
theorem primaryWord (hg : g.Sound) (name : String) (position : Position) :
    Gives (g.primaryWord name position) fun ts e rest =>
      (ts.headD default).word? = some name → (ts.headD default).position = position →
      Spelled [.expr e] ts rest := by
  unfold Grammar.primaryWord
  split
  · refine .bind (hg.function false) fun f => .pure ?_
    intro rest ts hf hw _
    exact .unit .function (hf (Token.isWord_iff.mpr hw)) rfl
  iterate 4
    refine .bind .pass fun _ => .pure fun rest ts hp hw _ => ?_
    exact .unit (.plainWord (by simp)) (hp.keyword hw) rfl
  iterate 4 exact .unsupported
  refine .tokenAhead fun next => .ite (fun _ => .unsupported) fun _ => ?_
  refine .ite (fun _ => .fail) fun hr => .bind .pass fun _ => .pure ?_
  rintro rest ts hp hw rfl
  exact .unit .name (hp.name hw (by simpa using hr)) rfl

/-- Operands. -/
theorem primary (hg : g.Sound) : Reads g.primary .expr := by
  unfold Grammar.primary
  refine .peek fun t => ?_
  split
  case h_1 name ht =>
    refine (hg.primaryWord name t.position).mono ?_
    rintro ts e rest h rfl
    exact h (by simp only [Token.word?, ht]) rfl
  case h_2 ht =>
    refine .bind .pass fun _ => .pure ?_
    rintro rest ts hp rfl
    exact .unit .constant (hp.constant (by simp only [Token.isConstant, ht])) rfl
  case h_3 text ht =>
    refine .bind .pass fun _ => .pure ?_
    rintro rest ts hp rfl
    exact .unit .constant (hp.constant (by simp only [Token.isConstant, ht])) rfl
  case h_4 ht =>
    refine .bind .pass fun _ => .pure ?_
    rintro rest ts hp rfl
    exact .unit .regex (hp.regex (by simp only [Token.isRegex, ht])) rfl
  case h_5 parts ht =>
    refine (hg.templateLiteral parts).mono ?_
    rintro ts e rest h rfl
    obtain ⟨es, rfl, hs⟩ := h ht
    exact .unit .template hs rfl
  case h_6 => exact .fail
  case h_7 ht =>
    refine .bind .pass fun _ => .bind (.withoutIn hg.expression) fun e => ?_
    refine .bind (expect_reads ")" rfl) fun _ => .pure ?_
    rintro rest mid hc mid' he ts hp rfl
    have ho : Spelled [.mark "("] ts _ := hp.mark (Token.isMark_of_kind ht) rfl
    exact .rule .group (ho.cons (he.cons hc)) rfl
  case h_8 => exact hg.arrayLiteral.mono fun _ _ _ h _ => h
  case h_9 => exact hg.objectLiteral.mono fun _ _ _ h _ => h
  case h_10 => exact .unexpected

/-! ## Chains -/

theorem propertyName_gives : Gives propertyName fun ts n rest =>
    (ts.headD default).word? = some n ∧ Passes ts rest := by
  unfold Grammar.propertyName
  refine .peek fun t => ?_
  split
  · rename_i name hw
    refine .bind .pass fun _ => .pure ?_
    rintro rest ts hp rfl
    exact ⟨hw, hp⟩
  · exact .ite (fun _ => .unsupported) fun _ => .failExpecting

theorem computedProperty (hg : g.Sound) : Gives g.computedProperty fun ts e rest =>
    Spelled [.expr e, .mark "]"] ts rest := by
  unfold Grammar.computedProperty
  refine .bind (.withoutIn hg.expression) fun e => .bind (expect_reads "]" rfl) fun _ => .pure ?_
  intro rest mid hc ts he
  exact he.cons hc

/-- The properties behind the callee of `new`. -/
theorem newLinks (hg : g.Sound) (room : Nat) (callee : Expr) :
    Gives (g.newLinks room callee) fun mid e rest =>
      ∀ ts, Spelled [.expr callee] ts mid → Spelled [.expr e] ts rest := by
  induction room generalizing callee with
  | zero => exact .pure fun _ _ h => h
  | succ room ih =>
    unfold Grammar.newLinks
    refine .ifMark (.bind propertyName_gives fun n => (ih _).mono ?_) ?_
    · rintro mid' e rest h mid ⟨hw, hp'⟩ start hm hp ts hc
      exact h ts (.rule .member (hc.cons (hp.access hm rfl hp' hw)) rfl)
    · refine ifMark_reads "[" rfl (.bind hg.computedProperty fun i => (ih _).mono ?_) (.pure ?_)
      · intro mid' e rest h mid hi start hm ts hc
        exact h ts (.rule .index (hc.cons (hm.cons hi)) rfl)
      · exact fun _ _ h => h

theorem newExpression (hg : g.Sound) : Gives g.newExpression fun ts e rest =>
    (ts.headD default).isWord "new" = true → Spelled [.expr e] ts rest := by
  unfold Grammar.newExpression
  refine .peek fun start => .bind .pass fun _ => .peek fun t => .ite (fun _ => .unsupported) ?_
  refine fun _ => .peek fun t' => .branch (S := fun ts e rest =>
    ts.headD default = t' → Spelled [.expr e] ts rest) (fun h => ?_) (fun _ => ?_) fun first => ?_
  · exact hg.innerNew.mono fun _ _ _ hi ht => hi (ht ▸ h)
  · exact hg.primary.mono fun _ _ _ hi _ => hi
  · refine .bind (hg.newLinks _ first) fun callee => .peek fun t => ?_
    refine .branch (S := fun ts es rest => Spelled [.mark "(", .items ")" es] ts rest ∨
      es = [] ∧ rest = ts) (fun _ => hg.arguments.mono fun _ _ _ h => .inl h)
      (fun _ => .pure fun _ => .inr ⟨rfl, rfl⟩) fun args => ?_
    refine (boundDepth_gives _).mono ?_
    rintro m₁ _ rest ⟨rfl, rfl⟩ m₂ ha - m₃ hl m₄ hf ht' - ts hp rfl hw
    have hn := hp.keyword (Token.isWord_iff.mp hw)
    have hc := hl _ (hf ht')
    obtain ha | ⟨rfl, rfl⟩ := ha
    · exact .rule .new (hn.cons (hc.cons ha)) rfl
    · exact .rule .newBare (hn.cons hc) rfl

/-- One link of a chain: there is none, or the chain with it is spelled. -/
theorem link (hg : g.Sound) (expr : Expr) : Gives (g.link expr) fun mid linked rest =>
    ∀ ts, Spelled [.expr expr] ts mid →
      match linked with
      | some e => Spelled [.expr e] ts rest
      | none => rest = mid := by
  unfold Grammar.link
  refine .peek fun t => .ifMark (.bind propertyName_gives fun n => .pure ?_) ?_
  · rintro rest mid ⟨hw, hp'⟩ mid' hm hp - ts he
    exact .rule .member (he.cons (hp.access hm rfl hp' hw)) rfl
  refine .ifMark (.peek fun t' => .ite (fun _ => .bind hg.arguments fun es => .pure ?_) ?_) ?_
  · rintro rest mid ha - mid' hm hp - ts he
    exact .rule .callOptional (he.cons (hp.optional hm ha)) rfl
  · refine fun _ => ifMark_reads "[" rfl (.bind hg.computedProperty fun i => .pure ?_) ?_
    · rintro rest mid hi mid' hb - start hm hp - ts he
      exact .rule .indexOptional (he.cons (hp.optional hm (hb.cons hi))) rfl
    · refine .bind propertyName_gives fun n => .pure ?_
      rintro rest mid ⟨hw, hp'⟩ - start hm hp - ts he
      exact .rule .member (he.cons (hp.access hm rfl hp' hw)) rfl
  refine ifMark_reads "[" rfl (.bind hg.computedProperty fun i => .pure ?_) ?_
  · rintro rest mid hi start hb - ts he
    exact .rule .index (he.cons (hb.cons hi)) rfl
  refine .ite (fun _ => .bind hg.arguments fun es => .pure ?_) fun _ => ?_
  · rintro rest mid ha - ts he
    exact .rule .call (he.cons ha) rfl
  split
  · rename_i parts ht
    refine .bind (hg.templateLiteral parts) fun e => .pure ?_
    rintro rest mid h rfl ts he
    obtain ⟨es, rfl, hs⟩ := h ht
    exact .rule .callTemplate (he.cons hs) rfl
  · exact .pure fun _ _ _ _ => rfl

/-- The links of a chain, by induction on the room there is for them. -/
theorem links (hg : g.Sound) (room : Nat) (linked : Bool) (expr : Expr) :
    Gives (g.links room linked expr) fun mid e rest =>
      ∀ ts, Spelled [.expr expr] ts mid → Spelled [.expr e] ts rest := by
  induction room generalizing linked expr with
  | zero => exact .fail
  | succ room ih =>
    unfold Grammar.links
    refine .bind (hg.link expr) fun r => ?_
    cases r with
    | some e => exact (ih true e).mono fun _ _ _ h mid hl ts he => h ts (hl ts he)
    | none =>
      refine (boundChain_gives linked expr).mono ?_
      rintro rest e _ ⟨rfl, rfl⟩ mid hl ts he
      exact hl ts he ▸ he

theorem chain (hg : g.Sound) : Reads g.chain .expr := by
  unfold Grammar.chain
  refine .peek fun t => .branch (S := fun ts e rest =>
    ts.headD default = t → Spelled [.expr e] ts rest) (fun h => ?_) (fun _ => ?_) fun first => ?_
  · exact hg.newExpression.mono fun _ _ _ hi ht => hi (ht ▸ h)
  · exact hg.primary.mono fun _ _ _ hi _ => hi
  · exact (hg.links _ _ first).mono fun _ _ _ hl ts hf ht => hl ts (hf ht)

/-! ## Operators -/

theorem unaryInner (hg : g.Sound) : Reads g.unaryInner .expr := by
  unfold Grammar.unaryInner
  refine .peek fun t => .ite (fun _ => .unsupported) fun _ => ?_
  split
  · rename_i operator ho
    refine .bind .pass fun _ => .bind hg.unary fun e => .pure ?_
    rintro rest mid he ts hp rfl
    obtain ⟨hm, hq, hb⟩ | ⟨hw, hq⟩ := Token.prefixOperator_cases ho
    · exact .rule .prefixMark ((hp.mark hm hq).cons he) (awaitAll_operator hb _).symm
    · exact .rule (.prefixWord hq) ((hp.keyword hw).cons he) rfl
  · refine .bind hg.chain fun e => .peek fun next => .ite (fun h => ?_) fun _ => .pure ?_
    · refine .bind .pass fun _ => .pure ?_
      rintro rest mid hp rfl ts he -
      simp only [Bool.and_eq_true, Bool.or_eq_true] at h
      split
      · rename_i hm
        exact .rule .postfixMark (he.cons (hp.mark hm rfl)) rfl
      · rename_i hm
        exact .rule .postfixMark (he.cons (hp.mark (h.2.resolve_left hm) rfl)) rfl
    · intro rest _ ts he _
      exact he

/-- A look at the next operator takes nothing. What is found is a mark or a word that comes
next. -/
theorem nextOperator_gives (precedence : Nat) :
    Gives (nextOperator precedence) fun ts r rest => rest = ts ∧
      ∀ op strength, r = some (op, strength) →
        ((ts.headD default).isMark op = true ∧ isPoint op = false ∧ isBracket op = false) ∨
          ((ts.headD default).word? = some op ∧ op ∈ ["in", "instanceof"]) := by
  unfold nextOperator
  refine .get fun s => .pure ?_
  rintro ts rfl
  refine ⟨rfl, fun op strength hs => ?_⟩
  exact Token.binaryOperator_cases (Option.eq_some_of_filter_eq_some hs)

/-- The operators behind an operand, by induction on the room there is for them. -/
theorem operators (hg : g.Sound) (precedence room : Nat) (chained : Bool) (left : Expr) :
    Gives (g.operators precedence room chained left) fun mid e rest =>
      ∀ ts, Spelled [.expr left] ts mid → Spelled [.expr e] ts rest := by
  induction room generalizing chained left with
  | zero =>
    unfold Grammar.operators
    refine .bind (nextOperator_gives precedence) fun r => ?_
    cases r with
    | none =>
      refine (boundChain_gives chained left).mono ?_
      rintro mid e _ ⟨rfl, rfl⟩ _ ⟨rfl, -⟩ ts hl
      exact hl
    | some entry => exact .fail
  | succ room ih =>
    unfold Grammar.operators
    refine .bind (nextOperator_gives precedence) fun r => ?_
    cases r with
    | none =>
      refine (boundChain_gives chained left).mono ?_
      rintro mid e _ ⟨rfl, rfl⟩ _ ⟨rfl, -⟩ ts hl
      exact hl
    | some entry =>
      refine .bind .pass fun _ => .bind (hg.operand _) fun right => (ih true _).mono ?_
      rintro m₁ e rest h m₂ hr m₃ hp _ ⟨rfl, ho⟩ ts hl
      refine h ts ?_
      obtain ⟨hm, hq, hb⟩ | ⟨hw, hq⟩ := ho _ _ rfl
      · exact .rule .binaryMark (hl.cons ((hp.mark hm hq).cons hr)) (awaitAll_operator hb _).symm
      · exact .rule (.binaryWord hq) (hl.cons ((hp.keyword hw).cons hr)) rfl

/-- Operands and operators of some precedence. -/
theorem binary (hg : g.Sound) (precedence : Nat) : Reads (g.binary precedence) .expr := by
  unfold Grammar.binary
  exact .bind hg.unary fun left => (hg.operators _ _ _ left).mono fun _ _ _ h ts hl => h ts hl

theorem conditional (hg : g.Sound) : Reads g.conditional .expr := by
  unfold Grammar.conditional
  refine .bind (hg.binary 1) fun test => ifMark_reads "?" rfl ?_ (.pure fun _ _ ht => ht)
  refine .bind (.withoutIn hg.assignment) fun consequent => .bind (expect_reads ":" rfl) ?_
  refine fun _ => .bind hg.assignment fun alternate => .pure ?_
  intro rest m₁ ha m₂ hm m₃ hc m₄ hq ts ht
  exact .rule .conditional (ht.cons (hq.cons (hc.cons (hm.cons ha)))) rfl

theorem assignmentInner (hg : g.Sound) : Reads g.assignmentInner .expr := by
  unfold Grammar.assignmentInner
  refine .get fun s => .ite (fun h => ?_) fun _ => .bind hg.conditional fun left => ?_
  · refine hg.arrow.mono ?_
    rintro ts e rest ha rfl
    exact ha (s.reserved_of_startsArrow h)
  · refine .peek fun t => ?_
    split
    · rename_i text ht
      refine .ite (fun ha => .bind .pass fun _ => .bind hg.assignment fun right => .pure ?_) ?_
      · rintro rest m₁ hr m₂ hp rfl ts hl -
        have hq := Token.operator_of_mem (by decide) (List.contains_iff_mem.mp ha)
        exact .rule .binaryMark (hl.cons ((hp.mark (Token.isMark_of_kind ht) hq.1).cons hr))
          (awaitAll_operator hq.2 _).symm
      · exact fun _ => .pure fun _ _ _ hl _ => hl
    · exact .pure fun _ _ _ hl _ => hl

end Sound

end Grammar

end ScriptHooks.Script

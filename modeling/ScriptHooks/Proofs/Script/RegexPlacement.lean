/-
ScriptHooks.Proofs.Script.RegexPlacement — which words regular expressions follow.

The lexer decides from the spelling of a word whether a slash after it starts a regular
expression; what the word is read as comes later. The two agree on every keyword, but a property
name or a variable may have such a spelling too. Then the regular expression stands where a
statement begins, behind a semicolon that is left out at a line end.

  §1 Words      — what the lexer lets stand before a regular expression;
  §2 Endings    — how far the grammar keeps regular expressions from operands: how the
                  readings so far end, and what may come next (`Ending.passes`);
  §3 Neighbours — every reading of a spelling fits the one before it (`Spells.fitting`);
  §4 Placement  — `regex_placed_iff`.

`regex_placed_iff` is about every accepted text and every way to read its tokens as its program,
substitutions included. Each word right before a regular expression acts as a keyword there if and
only if none of them is a property name or a variable with the spelling of one. `regex_behind_property`
is a text with such a name.

## How the proof goes

§1 and §3 look at neighbours from two sides. The lexer's side is read off its lists
(`Lexer.Lexed.isChain`). The grammar's side is a small abstract interpretation: an `Ending` says
what the readings so far can be followed by, each production maps one ending to another
(`Rule.passes`, decided once over all rules), and `Spells.fitting` follows the spelling. The chain
of neighbours runs through substitutions and back out, since the end token of a list lets anything
follow.

The ending is a superset of what can happen. It need not be exact: all that is asked of it is that
an operand is never right before a regular expression without a line end between the two.
-/
import Mathlib.Data.List.Chain
import ScriptHooks.Proofs.Script.LexerScans
import ScriptHooks.Proofs.Script.StatementSoundness
import ScriptHooks.Script.Validation

namespace ScriptHooks.Script

/-! ## §1 Words -/

/-- A regular expression after a word follows one of the words that the lexer knows. -/
def Token.Precedes (t next : Token) : Prop :=
  next.isRegex = true → ∀ n, t.word? = some n → n ∈ Lexer.wordsBeforeRegex

/-- A token that is no word puts no condition on what follows. -/
theorem Token.precedes_of_noWord {t : Token} (h : t.word? = none) (next : Token) :
    t.Precedes next := by
  intro _ n hn
  rw [h] at hn
  cases hn

/-- Lists in a row, each of them such that anything may follow. -/
theorem isChain_flatMap {f : α → List Token} {as : List α} {ts : List Token}
    (ha : ∀ a ∈ as, List.IsChain Token.Precedes (f a))
    (hl : ∀ a ∈ as, ∀ t ∈ (f a).getLast?, t.word? = none)
    (ht : List.IsChain Token.Precedes ts) :
    List.IsChain Token.Precedes (as.flatMap f ++ ts) := by
  induction as with
  | nil => exact ht
  | cons a as ih =>
    rw [List.flatMap_cons, List.append_assoc]
    have hrest := ih (fun b hb => ha b (List.mem_cons_of_mem a hb))
      fun b hb => hl b (List.mem_cons_of_mem a hb)
    refine (ha a List.mem_cons_self).append hrest fun t h next _ => ?_
    exact Token.precedes_of_noWord (hl a List.mem_cons_self t h) next

/-- The first token comes first also with those of the substitutions. -/
theorem tokensWithin_head (ts : List Token) : (tokensWithin ts).head? = ts.head? := by
  cases ts with
  | nil => rfl
  | cons t ts => rw [tokensWithin_cons, List.cons_append, List.head?_cons, List.head?_cons]

/-- The last of the tokens is no word. -/
theorem WellEnded.getLast_tokensWithin (h : WellEnded ts) :
    ∀ t ∈ (tokensWithin ts).getLast?, t.word? = none := by
  induction h with
  | stop he =>
    intro t ht
    rw [tokensWithin_cons, Token.parts_of_isEof he] at ht
    cases ht
    exact Token.word_of_isEof he
  | token _ _ hr _ ih =>
    intro t ht
    refine ih t ?_
    have hne : tokensWithin ‹List Token› ≠ [] := by
      cases hr <;> simp [tokensWithin_cons]
    rwa [tokensWithin_cons, List.getLast?_append_of_ne_nil _ hne] at ht

/-- In the lists that the lexer leaves, those of substitutions included. -/
theorem Lexer.Lexed.isChain (h : Lexed previous ts) :
    List.IsChain Token.Precedes (tokensWithin ts) := by
  induction h with
  | stop he =>
    rw [tokensWithin_cons, Token.parts_of_isEof he]
    exact .singleton _
  | @token previous t ts he hr hp ht ihp ih =>
    rw [tokensWithin_cons, List.cons_append, List.isChain_cons]
    have hlast : ∀ part ∈ t.parts, ∀ u ∈ (tokensWithin part).getLast?, u.word? = none :=
      fun part hpart => (hp part hpart).wellEnded.getLast_tokensWithin
    refine ⟨fun next hnext hregex n hn => ?_, isChain_flatMap ihp hlast ih⟩
    rw [(Token.single_of_word hn).noParts, List.flatMap_nil, List.nil_append,
      tokensWithin_head] at hnext
    cases ht with
    | stop he' =>
      cases hnext
      rw [Token.isEof_iff] at he'
      rw [Token.isRegex_iff, he'] at hregex
      cases hregex
    | token _ hr' _ _ =>
      cases hnext
      have hfollow := hr' hregex
      rw [Token.word?_iff] at hn
      rw [regexMayFollow, hn] at hfollow
      exact List.contains_iff_mem.mp hfollow

/-! ## §2 Endings -/

/-- What the readings so far say about a regular expression that comes next. -/
inductive Ending
  /-- It may come; right after a name only behind a line end. -/
  | settled
  /-- It may come once a semicolon is left out. -/
  | operand
  /-- It cannot come. -/
  | key

/-- How much the endings say, those that say most first. -/
def Ending.le : Ending → Ending → Bool
  | settled, _ => true
  | operand, settled => false
  | operand, _ => true
  | key, key => true
  | key, _ => false

/-- The ending after a word that is read so. -/
def Role.ending : Role → Ending
  | name => .operand
  | member => .operand
  | key => .key
  | _ => .settled

namespace Symbol

/-- The ending after a symbol. -/
def ending : Symbol → Ending
  | word _ _ role => role.ending
  | key _ => .key
  | access _ | expr _ | more _ | item _ | option _ | property _ | arrowBody _ | declarator _
  | declarators _ | «variables» _ _ | head _ | init _ | test _ => .operand
  | _ => .settled

/-- Whether the symbol may come after readings that end so. Those that can start with a
regular expression, or can be empty in front of one, ask most. -/
def admits (e : Ending) : Symbol → Bool
  | regex | expr _ | item _ | items _ _ | option _ | arrowBody _ | declarator _ | declarators _
  | head _ | init _ | stmts _ | stmt _ | handler _ | finalizer _ => e.le .settled
  | omitted | semicolon | more _ => e.le .operand
  | _ => true

end Symbol

/-- Each symbol admits the ending before it, and the last ending is as settled as the
one that is asked for. -/
def Ending.passes (e : Ending) : List Symbol → Ending → Bool
  | [], e' => e.le e'
  | x :: σ, e' => x.admits e && x.ending.passes σ e'

/-- What a symbol admits, each of its productions does. -/
theorem Rule.passes (hx : Rule x body) (h : x.admits e = true) :
    e.passes body x.ending = true := by
  -- Both sides compute: a production and an ending leave nothing open.
  cases hx <;> cases e <;> first | rfl | cases h

/-! ## §3 Neighbours -/

namespace Token

/-- Whether the token is one of the points before property names. -/
def isPoint (t : Token) : Bool :=
  match t.kind with
  | .punct text => Script.isPoint text
  | _ => false

variable {t : Token}

theorem isPoint_of_isMark (h : t.isMark text = true) : t.isPoint = Script.isPoint text := by
  simp [isPoint, isMark_iff.mp h]

theorem isPoint_of_word (h : t.word? = some n) : t.isPoint = false := by
  simp [isPoint, word?_iff.mp h]

theorem isPoint_of_isEof (h : t.isEof = true) : t.isPoint = false := by
  simp [isPoint, isEof_iff.mp h]

theorem isPoint_of_isRegex (h : t.isRegex = true) : t.isPoint = false := by
  simp [isPoint, isRegex_iff.mp h]

theorem isPoint_of_isConstant (h : t.isConstant = true) : t.isPoint = false := by
  unfold isConstant at h
  unfold isPoint
  split <;> simp_all

theorem isRegex_of_isConstant (h : t.isConstant = true) : t.isRegex = false := by
  unfold isConstant at h
  unfold isRegex
  split <;> simp_all

/-- A statement that ends before a regular expression ends with its line. -/
theorem newline_of_endsStatement (h : t.endsStatement = true) (hr : t.isRegex = true) :
    t.newlineBefore = true := by
  simpa [endsStatement, isMark, isEof, isRegex_iff.mp hr] using h

end Token

/-- A reading fits the one before it: property names stand after points and nowhere
else, and regular expressions do not stand after keys and stand after other names only
behind a line end. -/
structure Fits (r s : Reading) : Prop where
  member : s.token.word? ≠ none → (r.token.isPoint = true ↔ s.role = .member)
  regex : s.token.isRegex = true → r.role ≠ .key ∧
    (r.role = .name ∨ r.role = .member → s.token.newlineBefore = true)

/-- Readings after `r` up to `last`, each of which fits the one before. -/
inductive Fitting : Reading → List Reading → Reading → Prop
  | nil : Fitting r [] r
  | cons (h : Fits r s) (hs : Fitting s rs last) : Fitting r (s :: rs) last

namespace Fitting

/-- Readings one after the other. -/
theorem append (h : Fitting r rs s) (h' : Fitting s ss last) : Fitting r (rs ++ ss) last := by
  induction h with
  | nil => exact h'
  | cons h _ ih => exact .cons h (ih h')

/-- Fitting readings fit one another, neighbour by neighbour. -/
theorem isChain (h : Fitting r rs last) : List.IsChain Fits (r :: rs) := by
  induction h with
  | nil => exact .singleton _
  | cons h _ ih => exact .cons_cons h ih

end Fitting

/-- The reading ends so, in front of this token. -/
def Ending.Holds (e : Ending) (r : Reading) (next : Token) : Prop :=
  r.token.isPoint = false ∧
    match e with
    | settled => r.role ≠ .key ∧ (r.role = .name ∨ r.role = .member →
        next.isRegex = true → next.newlineBefore = true)
    | operand => r.role ≠ .key
    | key => True

/-- What holds of an ending holds of one that allows more. -/
theorem Ending.Holds.mono {e e' : Ending} (h : e.Holds r next) (hle : e.le e' = true) :
    e'.Holds r next := by
  obtain ⟨hpoint, h⟩ := h
  refine ⟨hpoint, ?_⟩
  cases e' with
  | settled =>
    cases e with
    | settled => exact h
    | operand | key => cases hle
  | operand =>
    cases e with
    | settled => exact h.1
    | operand => exact h
    | key => cases hle
  | key => trivial

/-- A reading leaves the ending of its role. -/
theorem Ending.holds_of_role (hp : t.isPoint = false) (role : Role) (next : Token) :
    role.ending.Holds ⟨t, role⟩ next := by
  refine ⟨hp, ?_⟩
  cases role <;> simp [Role.ending]

namespace Fits

/-- What is neither a word nor a regular expression fits behind anything. -/
theorem of_plain (ht : t.word? = none) (hr : t.isRegex = false) : Fits r ⟨t, role⟩ :=
  ⟨fun h => absurd ht h, fun h => absurd h (by simp [hr])⟩

/-- A punctuator fits behind anything. -/
theorem of_mark (ht : t.isMark text = true) : Fits r ⟨t, role⟩ :=
  of_plain (Token.word_of_isMark ht) (by simp [Token.isRegex, Token.isMark_iff.mp ht])

/-- An end token fits behind anything. -/
theorem of_eof (ht : t.isEof = true) : Fits r ⟨t, role⟩ :=
  of_plain (Token.word_of_isEof ht) (by simp [Token.isRegex, Token.isEof_iff.mp ht])

/-- A word fits where it is a property name exactly behind a point. -/
theorem of_word (ht : t.word? = some n) (h : r.token.isPoint = true ↔ role = .member) :
    Fits r ⟨t, role⟩ :=
  ⟨fun _ => h, fun hr => absurd hr (by simp [Token.isRegex, Token.word?_iff.mp ht])⟩

end Fits

/-- The substitutions of a template, each with its end token. -/
theorem Piece.fitting {pieces : List Piece}
    (he : ∀ q ∈ pieces, (q.rest.headD default).isEof = true)
    (hs : ∀ q ∈ pieces, ∀ r, (∀ next, Ending.settled.Holds r next) →
      ∃ last, Fitting r q.readings last)
    (hr : ∀ next, Ending.settled.Holds r next) :
    ∃ last, Fitting r (pieces.flatMap Piece.all) last ∧ ∀ next, Ending.settled.Holds last next := by
  induction pieces generalizing r with
  | nil => exact ⟨r, .nil, hr⟩
  | cons q pieces ih =>
    have heof := he q List.mem_cons_self
    obtain ⟨mid, hmid⟩ := hs q List.mem_cons_self r hr
    have hstop : Fitting mid [⟨q.rest.headD default, .stop⟩] ⟨q.rest.headD default, .stop⟩ :=
      .cons (.of_eof heof) .nil
    obtain ⟨last, hlast, hnext⟩ := ih (fun p hp => he p (List.mem_cons_of_mem q hp))
      (fun p hp => hs p (List.mem_cons_of_mem q hp))
      fun next => Ending.holds_of_role (Token.isPoint_of_isEof heof) .stop next
    exact ⟨last, (hmid.append hstop).append hlast, hnext⟩

/-- Each reading of a spelling fits the one before, if the symbols pass from the ending
before them, and so do the readings end. -/
theorem Spells.fitting {e e' : Ending} (h : Spells σ ts rs rest) (hσ : e.passes σ e' = true)
    (he : e.Holds r (ts.headD default)) :
    ∃ last, Fitting r rs last ∧ e'.Holds last (rest.headD default) := by
  induction h generalizing e e' r with
  | nil => exact ⟨r, .nil, he.mono hσ⟩
  | mark ht hp h ih =>
    have hpoint := (Token.isPoint_of_isMark ht).trans hp
    obtain ⟨-, hσ⟩ := Bool.and_eq_true_iff.mp hσ
    obtain ⟨last, hlast, hend⟩ := ih hσ (Ending.holds_of_role hpoint .mark _)
    exact ⟨last, .cons (.of_mark ht) hlast, hend⟩
  | word ht hr h ih =>
    obtain ⟨-, hσ⟩ := Bool.and_eq_true_iff.mp hσ
    obtain ⟨last, hlast, hend⟩ := ih hσ (Ending.holds_of_role (Token.isPoint_of_word ht) _ _)
    refine ⟨last, .cons (.of_word ht (iff_of_false ?_ ?_)) hlast, hend⟩
    · rw [he.1]
      exact Bool.false_ne_true
    · rintro rfl
      cases hr
  | access ht hp hu h ih =>
    obtain ⟨-, hσ⟩ := Bool.and_eq_true_iff.mp hσ
    obtain ⟨last, hlast, hend⟩ := ih hσ (Ending.holds_of_role (Token.isPoint_of_word hu) .member _)
    have hpoint := (Token.isPoint_of_isMark ht).trans hp
    exact ⟨last, .cons (.of_mark ht) (.cons (.of_word hu (iff_of_true hpoint rfl)) hlast), hend⟩
  | optional ht hu hp h ih =>
    have hpoint := (Token.isPoint_of_isMark hu).trans hp
    obtain ⟨-, hσ⟩ := Bool.and_eq_true_iff.mp hσ
    obtain ⟨last, hlast, hend⟩ := ih hσ (Ending.holds_of_role hpoint .mark _)
    exact ⟨last, .cons (.of_mark ht) (.cons (.of_mark hu) hlast), hend⟩
  | constant ht h ih =>
    have hpoint := Token.isPoint_of_isConstant ht
    have hfits : Fits r ⟨_, .value⟩ :=
      .of_plain (Token.word_of_isConstant ht) (Token.isRegex_of_isConstant ht)
    obtain ⟨-, hσ⟩ := Bool.and_eq_true_iff.mp hσ
    obtain ⟨last, hlast, hend⟩ := ih hσ (Ending.holds_of_role hpoint .value _)
    exact ⟨last, .cons hfits hlast, hend⟩
  | regex ht h ih =>
    obtain ⟨hx, hσ⟩ := Bool.and_eq_true_iff.mp hσ
    obtain ⟨-, hkey, hline⟩ := he.mono hx
    have hpoint := Token.isPoint_of_isRegex ht
    obtain ⟨last, hlast, hend⟩ := ih hσ (Ending.holds_of_role hpoint .value _)
    refine ⟨last, .cons ⟨fun hword => ?_, fun hr => ⟨hkey, fun hrole => ?_⟩⟩ hlast, hend⟩
    · exact absurd (Token.word_of_isRegex ht) hword
    · exact hline hrole hr
  | @template σ ts rs rest t pieces ht hs heof h ihs ih =>
    have hpoint : t.isPoint = false := by simp [Token.isPoint, ht]
    have hfits : Fits r ⟨t, .value⟩ :=
      .of_plain (by simp [Token.word?, ht]) (by simp [Token.isRegex, ht])
    obtain ⟨-, hσ⟩ := Bool.and_eq_true_iff.mp hσ
    have hpieces : ∀ q ∈ pieces, ∀ r, (∀ next, Ending.settled.Holds r next) →
        ∃ last, Fitting r q.readings last := by
      intro q hq r hr
      obtain ⟨last, hlast, -⟩ := ihs q hq (show Ending.settled.passes _ .operand = true from rfl)
        (hr _)
      exact ⟨last, hlast⟩
    obtain ⟨mid, hmid, hnext⟩ := Piece.fitting heof hpieces
      fun next => Ending.holds_of_role hpoint .value next
    obtain ⟨last, hlast, hend⟩ := ih hσ (hnext _)
    exact ⟨last, .cons hfits (hmid.append hlast), hend⟩
  | omitted ht h ih =>
    -- The ending gets better here: only behind a line end is the semicolon left out
    -- in front of a regular expression.
    obtain ⟨hx, hσ⟩ := Bool.and_eq_true_iff.mp hσ
    obtain ⟨hpoint, hkey⟩ := he.mono hx
    exact ih hσ ⟨hpoint, hkey, fun _ => Token.newline_of_endsStatement ht⟩
  | expand hx hb h ihb ih =>
    obtain ⟨hadmits, hσ⟩ := Bool.and_eq_true_iff.mp hσ
    obtain ⟨mid, hmid, he⟩ := ihb (hx.passes hadmits) he
    obtain ⟨last, hlast, he⟩ := ih hσ he
    exact ⟨last, hmid.append hlast, he⟩

/-! ## §4 Placement -/

/-- How the tokens of a script are read as its program, and what is left of them. -/
structure ReadAs (source : String) (readings : List Reading) (rest : List Token) : Prop where
  spells : Spells [.stmts (Program.ofTokens (Lexer.tokensOf source).1).1.body]
    (Lexer.tokensOf source).1 readings rest
  ends : (rest.headD default).isEof = true

/-- Accepted scripts are parsed without issues. -/
theorem issues_of_accepted (h : (validate source).isOk = true) :
    (Program.ofTokens (Lexer.tokensOf source).1).2 = [] :=
  (validate_isOk_iff.mp h).2.1

namespace ReadAs

/-- The tokens of a text end with their end token and nowhere before. -/
theorem tokens_wellEnded (source : String) : WellEnded (Lexer.tokensOf source).1 :=
  (Lexer.tokenizeChars_lexed source.toList).wellEnded

/-- Behind an accepted script only the end token is left. -/
theorem rest_eq (h : ReadAs source readings rest) : rest = [rest.headD default] :=
  (h.spells.tokensWithin_eq (tokens_wellEnded source)).1.eq_of_isEof h.ends

/-- The readings and the end token are all tokens of the text. -/
theorem tokens_eq (h : ReadAs source readings rest) :
    readings.map Reading.token ++ rest = tokensWithin (Lexer.tokensOf source).1 := by
  rw [(h.spells.tokensWithin_eq (tokens_wellEnded source)).2, h.rest_eq, tokensWithin_cons,
    Token.parts_of_isEof h.ends]
  rfl

end ReadAs

/-- A regular expression, the word right before it and what is read before the word. In the
order of the readings the substitutions of a template follow it; words and points have
none, so these three are neighbours in one list. -/
structure RegexAfterWord (readings before : List Reading) (word : Reading) (name : String)
    (regex : Reading) : Prop where
  split : ∃ after, readings = before ++ word :: regex :: after
  isWord : word.token.word? = some name
  isRegex : regex.token.isRegex = true

/-- A word acts as a keyword if it is reserved and stands after no point, or is the `of` in
the head of a loop. -/
def ActsAsKeyword (before : List Reading) (word : Reading) (name : String) : Prop :=
  (isReservedWord name = true ∧ ∀ r ∈ before.getLast?, r.token.isPoint = false) ∨
    (name = "of" ∧ word.role = .keyword)

/-- Each word right before a regular expression acts as a keyword. -/
def RegexPlaced (readings : List Reading) : Prop :=
  ∀ before word name regex, RegexAfterWord readings before word name regex →
    ActsAsKeyword before word name

/-- A regular expression on a line of its own right after a word that is read as a name or
as a property name. -/
def RegexBehindName (readings : List Reading) : Prop :=
  ∃ before word name regex, RegexAfterWord readings before word name regex ∧
    (word.role = .name ∨ word.role = .member) ∧ regex.token.newlineBefore = true

/-- The words before regular expressions are reserved, but for `of`. -/
theorem reserved_of_wordsBeforeRegex :
    ∀ n ∈ Lexer.wordsBeforeRegex, isReservedWord n = true ∨ n = "of" := by
  decide

namespace RegexAfterWord

/-- The word and the regular expression fit one another. -/
theorem fits (h : RegexAfterWord readings before word name regex)
    (hfit : List.IsChain Fits (first :: readings)) : Fits word regex := by
  obtain ⟨after, rfl⟩ := h.split
  rw [← List.cons_append] at hfit
  exact (List.isChain_append_cons_cons.mp hfit).2.1

/-- The lexer has the word among those before regular expressions. -/
theorem precedes (h : RegexAfterWord readings before word name regex)
    (hchain : List.IsChain Token.Precedes (readings.map Reading.token)) :
    name ∈ Lexer.wordsBeforeRegex := by
  obtain ⟨after, rfl⟩ := h.split
  rw [List.map_append, List.map_cons, List.map_cons] at hchain
  exact (List.isChain_append_cons_cons.mp hchain).2.1 h.isRegex name h.isWord

/-- The word is one of the readings. -/
theorem word_mem (h : RegexAfterWord readings before word name regex) : word ∈ readings := by
  obtain ⟨after, rfl⟩ := h.split
  simp

/-- The word is a property name exactly if it stands after a point. -/
theorem member_iff (h : RegexAfterWord readings before word name regex)
    (hfit : List.IsChain Fits (first :: readings)) (hfirst : first.token.isPoint = false) :
    word.role = .member ↔ ∃ r ∈ before.getLast?, r.token.isPoint = true := by
  have hword : word.token.word? ≠ none := by simp [h.isWord]
  obtain ⟨after, rfl⟩ := h.split
  rcases List.eq_nil_or_concat before with rfl | ⟨init, r, rfl⟩
  · have hfits : Fits first word := (List.isChain_cons_cons.mp hfit).1
    rw [← hfits.member hword, hfirst]
    simp
  · rw [List.concat_append, ← List.cons_append] at hfit
    have hfits : Fits r word := (List.isChain_append_cons_cons.mp hfit).2.1
    rw [← hfits.member hword]
    simp

/-- Of the words before regular expressions those act as keywords that are read neither
as names nor as property names. -/
theorem actsAsKeyword_iff (h : RegexAfterWord readings before word name regex)
    (hfit : List.IsChain Fits (first :: readings)) (hfirst : first.token.isPoint = false)
    (hname : name ∈ Lexer.wordsBeforeRegex) (hword : word.Admitted) :
    ActsAsKeyword before word name ↔ word.role ≠ .name ∧ word.role ≠ .member := by
  constructor
  · rintro (⟨hres, hpoint⟩ | ⟨-, hkeyword⟩)
    · refine ⟨fun hrole => ?_, fun hrole => ?_⟩
      · rcases hword name h.isWord with hmember | hadmits
        · cases hrole.symm.trans hmember
        · simp [hrole, Role.admits, hres] at hadmits
      · obtain ⟨r, hr, hp⟩ := (h.member_iff hfit hfirst).mp hrole
        rw [hpoint r hr] at hp
        cases hp
    · refine ⟨fun hrole => ?_, fun hrole => ?_⟩
      · cases hkeyword.symm.trans hrole
      · cases hkeyword.symm.trans hrole
  · rintro ⟨hnot, hmember⟩
    rcases reserved_of_wordsBeforeRegex name hname with hres | rfl
    · refine .inl ⟨hres, fun r hr => Bool.eq_false_iff.mpr fun hp => hmember ?_⟩
      exact (h.member_iff hfit hfirst).mpr ⟨r, hr, hp⟩
    · refine .inr ⟨rfl, ?_⟩
      have hkey := ((h.fits hfit).regex h.isRegex).1
      rcases hword "of" h.isWord with hm | hadmits
      · exact absurd hm hmember
      · cases hrole : word.role with
        | keyword => rfl
        | name => exact absurd hrole hnot
        | key => exact absurd hrole hkey
        | loopEnd | member | mark | value | stop => simp [hrole, Role.admits] at hadmits

end RegexAfterWord

/-- The tokens of a text are neighbours as the lexer lets them be. -/
theorem ReadAs.precedes (h : ReadAs source readings rest) :
    List.IsChain Token.Precedes (readings.map Reading.token) := by
  have hall := (Lexer.tokenizeChars_lexed source.toList).isChain
  exact List.IsChain.left_of_append (h.tokens_eq ▸ hall)

/-- The readings of a text are neighbours as the grammar lets them be. -/
theorem ReadAs.fits (h : ReadAs source readings rest) :
    List.IsChain Fits (⟨default, .stop⟩ :: readings) := by
  obtain ⟨last, hfit, -⟩ := h.spells.fitting
    (show Ending.settled.passes _ .settled = true from rfl)
    (Ending.holds_of_role (t := default) rfl .stop _)
  exact hfit.isChain

/-- An accepted script can be read as its program, and however it is read, each word before
a regular expression acts as a keyword exactly if no regular expression stands on a line
of its own right after a name. -/
theorem regex_placed_iff {source : String} (h : (validate source).isOk = true) :
    (∃ readings rest, ReadAs source readings rest) ∧
    ∀ readings rest, ReadAs source readings rest →
      readings.map Reading.token ++ rest = tokensWithin (Lexer.tokensOf source).1 ∧
      (RegexPlaced readings ↔ ¬ RegexBehindName readings) := by
  obtain ⟨rest, ⟨readings, hs⟩, he⟩ := Program.ofTokens_spelled (issues_of_accepted h)
  refine ⟨⟨readings, rest, hs, he⟩, fun readings rest hr => ⟨hr.tokens_eq, ?_⟩⟩
  have hacts : ∀ before word name regex, RegexAfterWord readings before word name regex →
      (ActsAsKeyword before word name ↔ word.role ≠ .name ∧ word.role ≠ .member) :=
    fun before word name regex hw => hw.actsAsKeyword_iff hr.fits rfl (hw.precedes hr.precedes)
      (hr.spells.admitted word hw.word_mem)
  constructor
  · rintro hplaced ⟨before, word, name, regex, hw, hrole, -⟩
    obtain ⟨hname, hmember⟩ := (hacts _ _ _ _ hw).mp (hplaced before word name regex hw)
    exact hrole.elim hname hmember
  · intro hno before word name regex hw
    obtain ⟨-, hline⟩ := (hw.fits hr.fits).regex hw.isRegex
    refine (hacts _ _ _ _ hw).mpr ⟨fun hname => ?_, fun hmember => ?_⟩
    · exact hno ⟨before, word, name, regex, hw, .inl hname, hline (.inl hname)⟩
    · exact hno ⟨before, word, name, regex, hw, .inr hmember, hline (.inr hmember)⟩

/-- Behind `of`, which is no reserved word. -/
theorem regex_placed_of_forOf :
    (validate "for (a of /x/g) ;").isOk = true ∧
      ∃ readings rest, ReadAs "for (a of /x/g) ;" readings rest ∧
        (RegexPlaced readings ↔ ¬ RegexBehindName readings) := by
  have h : (validate "for (a of /x/g) ;").isOk = true := by decide +kernel
  obtain ⟨⟨readings, rest, hr⟩, hall⟩ := regex_placed_iff h
  exact ⟨h, readings, rest, hr, (hall readings rest hr).2⟩

/-- A property name that is spelled like a keyword, and a regular expression on the next
line. -/
theorem regex_behind_property :
    (validate "a.in\n/x/g").isOk = true ∧
      ∃ readings rest, ReadAs "a.in\n/x/g" readings rest ∧ ¬ RegexPlaced readings := by
  have h : (validate "a.in\n/x/g").isOk = true := by decide +kernel
  have htokens : tokensWithin (Lexer.tokensOf "a.in\n/x/g").1 =
      [.mk (.word "a") ⟨1, 1⟩ false, .mk (.punct ".") ⟨1, 2⟩ false,
        .mk (.word "in") ⟨1, 3⟩ false, .mk .regex ⟨2, 1⟩ true] ++ [.mk .eof ⟨2, 5⟩ true] := rfl
  obtain ⟨rest, ⟨readings, hs⟩, he⟩ := Program.ofTokens_spelled (issues_of_accepted h)
  have hr : ReadAs "a.in\n/x/g" readings rest := ⟨hs, he⟩
  have heq := hr.tokens_eq
  rw [htokens, hr.rest_eq] at heq
  have hmap := (List.append_inj' heq rfl).1
  obtain ⟨a, _, rfl, -, hmap⟩ := List.map_eq_cons_iff.mp hmap
  obtain ⟨point, _, rfl, hpoint, hmap⟩ := List.map_eq_cons_iff.mp hmap
  obtain ⟨word, _, rfl, hword, hmap⟩ := List.map_eq_cons_iff.mp hmap
  obtain ⟨regex, after, rfl, hregex, -⟩ := List.map_eq_cons_iff.mp hmap
  refine ⟨h, _, _, hr, fun hplaced => ?_⟩
  have hafter : RegexAfterWord ([a, point] ++ word :: regex :: after) [a, point] word "in" regex :=
    ⟨⟨after, rfl⟩, by rw [hword]; rfl, by rw [hregex]; rfl⟩
  rcases hplaced [a, point] word "in" regex hafter with ⟨-, hkey⟩ | ⟨hof, -⟩
  · have hfalse := hkey point rfl
    rw [hpoint] at hfalse
    cases hfalse
  · exact absurd hof (by decide)

end ScriptHooks.Script

/-
ScriptHooks.Proofs.Script.Brackets — brackets that are nested by kind.

`Nested awaited tokens` says it of tokens, with the closing marks that are still awaited: an
opening mark adds its own to them, a closing mark must be the innermost of them, and at the end
token none may be left. The substitutions of a template are nested on their own.

A symbol of the grammar may open brackets or close them, or both; `awaitAll` says what a list of
symbols leaves awaited. Each production leaves what its symbol leaves, so long as no bracket is
taken for an operator. The grammar allows that and the parser does not, which is why `Spelled`
keeps both: the spelling, and that the brackets of the tokens are those of the symbols. The
soundness of the parser is proved for `Spelled`, once, and both halves come out of it.

Three parts:

* marks and tokens: what a mark does to the closing marks that are awaited, and that all other
  tokens leave them as they are;
* partners: `fromPartner` finds the mark that closes a bracket by counting, as a reader would.
  On nested tokens counting is enough (`fromPartner_append`), since a bracket is closed by its own
  kind or not at all;
* symbols: `Spelled` for the empty list, for sequences and for each symbol that is a token.
-/
import ScriptHooks.Proofs.Script.Spelling

namespace ScriptHooks.Script

/-! ## Marks -/

/-- The marks that open brackets, and those that close them. -/
def bracketPairs : List (String × String) := [("(", ")"), ("[", "]"), ("\x7b", "\x7d")]

def closingMark? (text : String) : Option String :=
  (bracketPairs.find? fun pair => pair.1 == text).map (·.2)

def isClosingMark (text : String) : Bool := bracketPairs.any fun pair => pair.2 == text

/-- Whether a mark opens or closes a bracket. -/
def isBracket (text : String) : Bool := (closingMark? text).isSome || isClosingMark text

/-- The closing marks that are awaited behind a mark, the innermost first. Nothing if it
closes a bracket that is not open, or not the innermost. -/
def awaitedAfter (text : String) (awaited : List String) : Option (List String) :=
  match closingMark? text with
  | some close => some (close :: awaited)
  | none =>
    if isClosingMark text then
      match awaited with
      | close :: outer => if close = text then some outer else none
      | [] => none
    else some awaited

/-- A mark that is no bracket. -/
theorem awaitedAfter_of_plain (h : isBracket text = false) (awaited : List String) :
    awaitedAfter text awaited = some awaited := by
  obtain ⟨hopen, hclose⟩ := Bool.or_eq_false_iff.mp h
  have hnone : closingMark? text = none :=
    Option.isNone_iff_eq_none.mp (Option.isSome_eq_false_iff.mp hopen)
  simp only [awaitedAfter, hnone, hclose, Bool.false_eq_true, if_false]

/-- The points of a property access are no brackets. -/
theorem isBracket_of_isPoint (h : isPoint text = true) : isBracket text = false := by
  simp only [isPoint, Bool.or_eq_true, beq_iff_eq] at h
  rcases h with rfl | rfl <;> rfl

/-! ## Tokens -/

namespace Token

/-- Only marks are marks. -/
theorem isMark_eq_false {t : Token} (h : ∀ text, t.kind ≠ .punct text) (text : String) :
    t.isMark text = false :=
  Bool.eq_false_iff.mpr fun hm => h text (isMark_iff.mp hm)

theorem isMark_of_word {t : Token} (h : t.word? = some n) (text : String) :
    t.isMark text = false :=
  isMark_eq_false (by simp [word?_iff.mp h]) text

theorem isMark_of_isRegex {t : Token} (h : t.isRegex = true) (text : String) :
    t.isMark text = false :=
  isMark_eq_false (by simp [isRegex_iff.mp h]) text

theorem isMark_of_isConstant {t : Token} (h : t.isConstant = true) (text : String) :
    t.isMark text = false := by
  refine isMark_eq_false (fun text hk => ?_) text
  simp [isConstant, hk] at h

end Token

/-- Up to the end token the brackets are nested by kind and close the awaited ones; so are
those of each substitution in a list of its own. -/
inductive Nested : List String → List Token → Prop
  | stop (h : (ts.headD default).isEof = true) : Nested [] ts
  | mark (ht : t.isMark text = true) (ha : awaitedAfter text awaited = some left)
      (h : Nested left ts) : Nested awaited (t :: ts)
  | other (he : t.isEof = false) (hm : ∀ text, t.isMark text = false)
      (hp : ∀ part ∈ t.parts, Nested [] part) (h : Nested awaited ts) : Nested awaited (t :: ts)

/-- A token that is neither a mark nor a template may stand anywhere. -/
theorem Nested.plain (hs : t.Single) (hm : ∀ text, t.isMark text = false)
    (h : Nested awaited ts) : Nested awaited (t :: ts) :=
  .other hs.notEof hm (hs.noParts ▸ List.forall_mem_nil _) h

/-! ## Partners -/

/-- What a mark does to the closing marks that are awaited: it opens a bracket, closes the
innermost one that is open, or is no bracket. -/
theorem awaitedAfter_cases (h : awaitedAfter text awaited = some left) :
    (∃ close, closingMark? text = some close ∧ left = close :: awaited) ∨
    (closingMark? text = none ∧ isClosingMark text = true ∧ awaited = text :: left) ∨
    (closingMark? text = none ∧ isClosingMark text = false ∧ left = awaited) := by
  unfold awaitedAfter at h
  split at h
  case h_1 close hopen =>
    cases h
    exact .inl ⟨close, hopen, rfl⟩
  case h_2 hopen =>
    split at h
    case isTrue hclose =>
      split at h
      · split at h
        · rename_i heq
          cases h
          exact .inr (.inl ⟨hopen, hclose, heq ▸ rfl⟩)
        · cases h
      · cases h
    case isFalse hclose =>
      cases h
      exact .inr (.inr ⟨hopen, Bool.eq_false_iff.mpr hclose, rfl⟩)

/-- Brackets that are open further out have no part in it. -/
theorem awaitedAfter_append (h : awaitedAfter text awaited = some left) (outer : List String) :
    awaitedAfter text (awaited ++ outer) = some (left ++ outer) := by
  rcases awaitedAfter_cases h with ⟨close, hopen, rfl⟩ | ⟨hopen, hclose, rfl⟩ | ⟨hopen, hclose, rfl⟩
  · simp [awaitedAfter, hopen]
  · simp [awaitedAfter, hopen, hclose]
  · simp [awaitedAfter, hopen, hclose]

/-- The tokens from the one on that closes the bracket open in front of them, with `depth`
more brackets open inside it. -/
def fromPartner : Nat → List Token → List Token
  | _, [] => []
  | depth, t :: ts =>
    match t.kind with
    | .punct text =>
      if (closingMark? text).isSome then fromPartner (depth + 1) ts
      else if isClosingMark text then
        if depth = 0 then t :: ts else fromPartner (depth - 1) ts
      else fromPartner depth ts
    | _ => fromPartner depth ts

/-- A mark changes the depth by what it opens or closes. -/
theorem fromPartner_mark (ht : t.isMark text = true)
    (ha : awaitedAfter text awaited = some left) (ts : List Token) :
    fromPartner awaited.length (t :: ts) = fromPartner left.length ts := by
  rw [fromPartner, Token.isMark_iff.mp ht]
  rcases awaitedAfter_cases ha with ⟨close, hopen, rfl⟩ | ⟨hopen, hclose, rfl⟩ | ⟨hopen, hclose, rfl⟩
  · simp [hopen]
  · simp [hopen, hclose]
  · simp [hopen, hclose]

/-- Other tokens do not count. -/
theorem fromPartner_other (hm : ∀ text, t.isMark text = false) (depth : Nat) (ts : List Token) :
    fromPartner depth (t :: ts) = fromPartner depth ts := by
  rw [fromPartner]
  split
  case h_1 text hk => exact absurd (Token.isMark_iff.mpr hk) (Bool.eq_false_iff.mp (hm text))
  case h_2 => rfl

namespace Nested

/-- A mark in front of nested tokens. -/
theorem punct (ha : awaitedAfter text awaited = some left) (h : Nested left ts) :
    Nested awaited (.mk (.punct text) position newline :: ts) :=
  .mark (beq_self_eq_true text) ha h

/-- At the end token no closing mark is awaited. -/
theorem eq_nil (h : Nested awaited ts) (he : (ts.headD default).isEof = true) :
    awaited = [] := by
  cases h with
  | stop => rfl
  | mark ht _ _ => cases (Token.single_of_isMark ht).notEof.symm.trans he
  | other hn _ _ _ => cases hn.symm.trans he

/-- Instead of its end token, further tokens. -/
theorem append (h : Nested awaited (body ++ rest)) (hb : ∀ t ∈ body, t.isEof = false)
    (he : (rest.headD default).isEof = true) (ht : Nested outer tail) :
    Nested (awaited ++ outer) (body ++ tail) := by
  induction body generalizing awaited with
  | nil =>
    rw [h.eq_nil he]
    exact ht
  | cons t body ih =>
    obtain ⟨hn, hb⟩ := List.forall_mem_cons.mp hb
    cases h with
    | stop heof => cases hn.symm.trans heof
    | mark hmark ha h => exact .mark hmark (awaitedAfter_append ha outer) (ih h hb)
    | other _ hm hp h => exact .other hn hm hp (ih h hb)

/-- No token of a nested list closes a bracket that is open in front of it. -/
theorem fromPartner_append (h : Nested awaited (body ++ rest)) (hb : ∀ t ∈ body, t.isEof = false)
    (he : (rest.headD default).isEof = true) (tail : List Token) :
    fromPartner awaited.length (body ++ tail) = fromPartner 0 tail := by
  induction body generalizing awaited with
  | nil =>
    rw [h.eq_nil he]
    rfl
  | cons t body ih =>
    obtain ⟨hn, hb⟩ := List.forall_mem_cons.mp hb
    cases h with
    | stop heof => cases hn.symm.trans heof
    | mark hmark ha h => rw [List.cons_append, fromPartner_mark hmark ha, ih h hb]
    | other _ hm _ h => rw [List.cons_append, fromPartner_other hm, ih h hb]

end Nested

/-! ## Symbols -/

/-- What a symbol leaves of the closing marks that are awaited. Lists of items, of
properties and of cases close a bracket that is open before them. -/
def Symbol.await : Symbol → List String → Option (List String)
  | .mark text, awaited => awaitedAfter text awaited
  | .optional text, awaited => awaitedAfter text awaited
  | .items close _, awaited => awaitedAfter close awaited
  | .properties _, awaited => awaitedAfter "\x7d" awaited
  | .cases _, awaited => awaitedAfter "\x7d" awaited
  | _, awaited => some awaited

/-- What symbols leave, one after the other. -/
def awaitAll (symbols : List Symbol) (awaited : List String) : Option (List String) :=
  symbols.foldlM (fun awaited x => x.await awaited) awaited

/-- Symbols one after the other await one after the other. -/
theorem awaitAll_append (σ τ : List Symbol) (awaited : List String) :
    awaitAll (σ ++ τ) awaited = (awaitAll σ awaited).bind (awaitAll τ) :=
  List.foldlM_append

theorem awaitAll_singleton (x : Symbol) (awaited : List String) :
    awaitAll [x] awaited = x.await awaited := by
  simp [awaitAll]

/-- A mark that is no bracket leaves what is awaited. -/
theorem awaitAll_operator (h : isBracket op = false) (σ : List Symbol) :
    awaitAll (.mark op :: σ) = awaitAll σ := by
  funext awaited
  rw [awaitAll, List.foldlM_cons, Symbol.await, awaitedAfter_of_plain h]
  rfl

/-- The symbols are spelled by the tokens up to `rest`, read in some way, and if the
brackets behind them are nested with what the symbols leave awaited, so are all. -/
structure Spelled (symbols : List Symbol) (tokens rest : List Token) : Prop where
  reading : ∃ readings, Spells symbols tokens readings rest
  nested : ∀ awaited left, awaitAll symbols awaited = some left → Nested left rest →
    Nested awaited tokens

namespace Spelled

/-- Nothing is spelled by no tokens. -/
theorem nil : Spelled [] ts ts where
  reading := ⟨[], .nil⟩
  nested := by
    rintro awaited _ ⟨⟩ h
    exact h

/-- What is spelled one after the other is spelled together, brackets included. -/
theorem append (h₁ : Spelled σ₁ ts mid) (h₂ : Spelled σ₂ mid rest) :
    Spelled (σ₁ ++ σ₂) ts rest where
  reading := by
    obtain ⟨rs₁, h₁⟩ := h₁.reading
    obtain ⟨rs₂, h₂⟩ := h₂.reading
    exact ⟨rs₁ ++ rs₂, h₁.append h₂⟩
  nested := by
    intro awaited left ha h
    rw [awaitAll_append] at ha
    obtain ⟨between, hb, ha⟩ := Option.bind_eq_some_iff.mp ha
    exact h₁.nested awaited between hb (h₂.nested between left ha h)

theorem cons (h₁ : Spelled [x] ts mid) (h₂ : Spelled σ mid rest) : Spelled (x :: σ) ts rest :=
  h₁.append h₂

/-- A production that leaves what its symbol leaves. Where no operator is left open this
computes. -/
theorem rule (hx : Rule x body) (hb : Spelled body ts rest) (ha : awaitAll [x] = awaitAll body) :
    Spelled [x] ts rest where
  reading := by
    obtain ⟨rs, hb⟩ := hb.reading
    exact ⟨rs ++ [], .expand hx hb .nil⟩
  nested := fun awaited left h => hb.nested awaited left (ha ▸ h)

/-- A rule with one symbol on its right. -/
theorem unit (hx : Rule x [y]) (hb : Spelled [y] ts rest) (ha : awaitAll [x] = awaitAll [y]) :
    Spelled [x] ts rest :=
  rule hx hb ha

/-! ## Symbols that are tokens -/

/-- A mark that is no point stands for itself. -/
theorem mark (ht : t.isMark text = true) (hp : isPoint text = false) :
    Spelled [.mark text] (t :: ts) ts where
  reading := ⟨_, .mark ht hp .nil⟩
  nested := by
    intro awaited left ha h
    rw [awaitAll_singleton] at ha
    exact .mark ht ha h

/-- A word in a role that admits it. -/
theorem word (ht : t.word? = some n) (hr : role.admits n = true) :
    Spelled [.word n t.position role] (t :: ts) ts where
  reading := ⟨_, .word ht hr .nil⟩
  nested := by
    rintro awaited _ ⟨⟩ h
    exact .plain (Token.single_of_word ht) (Token.isMark_of_word ht) h

/-- A property behind a point, reserved or not. -/
theorem access (ht : t.isMark text = true) (hp : isPoint text = true) (hu : u.word? = some n) :
    Spelled [.access n] (t :: u :: ts) ts where
  reading := ⟨_, .access ht hp hu .nil⟩
  nested := by
    rintro awaited _ ⟨⟩ h
    refine .mark ht (awaitedAfter_of_plain (isBracket_of_isPoint hp) awaited) ?_
    exact .plain (Token.single_of_word hu) (Token.isMark_of_word hu) h

/-- A mark that follows the point for optional chains. -/
theorem optional (ht : t.isMark "?." = true) (h : Spelled (.mark text :: σ) ts rest) :
    Spelled (.optional text :: σ) (t :: ts) rest where
  reading := by
    obtain ⟨rs, h⟩ := h.reading
    cases h with
    | mark hu hp h => exact ⟨_, .optional ht hu hp h⟩
    | expand hx => cases hx
  nested := fun awaited left ha hn => .mark ht rfl (h.nested awaited left ha hn)

theorem constant (ht : t.isConstant = true) : Spelled [.constant] (t :: ts) ts where
  reading := ⟨_, .constant ht .nil⟩
  nested := by
    rintro awaited _ ⟨⟩ h
    exact .plain (Token.single_of_isConstant ht) (Token.isMark_of_isConstant ht) h

theorem regex (ht : t.isRegex = true) : Spelled [.regex] (t :: ts) ts where
  reading := ⟨_, .regex ht .nil⟩
  nested := by
    rintro awaited _ ⟨⟩ h
    exact .plain (Token.single_of_isRegex ht) (Token.isMark_of_isRegex ht) h

/-- A template, from the spellings of its substitutions. -/
theorem template (pieces : List Piece) (ht : t.kind = .template (pieces.map Piece.tokens))
    (hs : ∀ q ∈ pieces, Spells [.expr q.expr] q.tokens q.readings q.rest)
    (he : ∀ q ∈ pieces, (q.rest.headD default).isEof = true)
    (hn : ∀ q ∈ pieces, Nested [] q.tokens) :
    Spelled [.template (pieces.map Piece.expr)] (t :: ts) ts where
  reading := ⟨_, .template pieces ht hs he .nil⟩
  nested := by
    rintro awaited _ ⟨⟩ h
    refine .other (by simp only [Token.isEof, ht]) ?_ ?_ h
    · exact Token.isMark_eq_false (by simp [ht])
    · rw [Token.parts, ht]
      exact List.forall_mem_map.mpr hn

/-- A semicolon that may be left out takes no token. -/
theorem omitted (ht : (ts.headD default).endsStatement = true) : Spelled [.omitted] ts ts where
  reading := ⟨_, .omitted ht .nil⟩
  nested := by
    rintro awaited _ ⟨⟩ h
    exact h

end Spelled

end ScriptHooks.Script

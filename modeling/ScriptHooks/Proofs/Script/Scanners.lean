/-
ScriptHooks.Proofs.Script.Scanners — what the scanners of the lexer take.

Every scanner takes some characters from the front, and gives a value that does not depend on
where they stand: the position only goes along. `Skips` says so of a scanner without a value,
`Scans` of one with a value, and `Takes` of one that takes at least the first character. They are
existential: there are characters that are taken, a rest, and the scanner gives the rest and the
position behind the characters, wherever it starts.

The combinators of the lexer keep the three (`here`, `after`, `andThen`, `ite`, `map`), so that the
proof for a scanner follows its definition. Where a scanner looks at two characters at once, the
lemma that ends in `_plain` is its equation for the case in which they are nothing special; the
special cases hold by `rfl`.

`scanLexeme_takes` is the result: a lexeme takes its first character, and what it is does not
depend on where it stands. The spec of a round of the lexer is free of positions because of it.

A scanner that stops at a character looks one character ahead. That is why the maximal munch of
`skipWhile_append` asks for the character behind the chunk, and why `Scans` is about the whole rest
of the text and not about the characters taken.
-/
import ScriptHooks.Script.Lexer

namespace ScriptHooks.Script

namespace Position

@[simp] theorem advance_nil (p : Position) : p.advance [] = p := rfl

@[simp] theorem advance_cons (p : Position) (c : Char) (cs : List Char) :
    p.advance (c :: cs) = (p.after c).advance cs := rfl

/-- Places go along text by text. -/
theorem advance_append (p : Position) (as bs : List Char) :
    p.advance (as ++ bs) = (p.advance as).advance bs := List.foldl_append

end Position

namespace Lexer

/-- Wherever these characters stand, the scanner gives the same value and takes the
same ones from the front. -/
def Scans (rest : List Char) (scan : Position → α × Cursor) : Prop :=
  ∃ value chunk tail, rest = chunk ++ tail ∧ ∀ p, scan p = (value, ⟨tail, p.advance chunk⟩)

/-- The same for a scanner without a value. -/
def Skips (rest : List Char) (skip : Position → Cursor) : Prop :=
  ∃ chunk tail, rest = chunk ++ tail ∧ ∀ p, skip p = ⟨tail, p.advance chunk⟩

/-! ## Skipping -/

/-- The longest prefix of characters to skip is skipped. -/
theorem skipWhile_eq (keep : Char → Bool) (rest : List Char) (p : Position) :
    skipWhile keep rest p = ⟨rest.dropWhile keep, p.advance (rest.takeWhile keep)⟩ := by
  induction rest generalizing p with
  | nil => rfl
  | cons c rest ih =>
    rw [skipWhile, List.dropWhile_cons, List.takeWhile_cons]
    split
    · rw [ih]
      rfl
    · rfl

/-- What is skipped is the whole chunk and no more, if the character behind it is kept. -/
theorem skipWhile_append {keep : Char → Bool} {chunk tail : List Char}
    (hc : ∀ c ∈ chunk, keep c = true) (ht : ∀ c ∈ tail.head?, keep c = false) (p : Position) :
    skipWhile keep (chunk ++ tail) p = ⟨tail, p.advance chunk⟩ := by
  induction chunk generalizing p with
  | nil =>
    cases tail with
    | nil => rfl
    | cons d tail => simp [skipWhile, ht d rfl]
  | cons c chunk ih =>
    obtain ⟨hc, hchunk⟩ := List.forall_mem_cons.mp hc
    rw [List.cons_append, skipWhile, if_pos hc, ih hchunk]
    rfl

namespace Skips

variable {rest : List Char} {skip : Position → Cursor}

/-- A scanner may take nothing. -/
theorem here (rest : List Char) : Skips rest fun p => ⟨rest, p⟩ := ⟨[], rest, rfl, fun _ => rfl⟩

/-- A scanner may take a character first. -/
theorem after (c : Char) (h : Skips rest skip) : Skips (c :: rest) fun p => skip (p.after c) := by
  obtain ⟨chunk, tail, rfl, h⟩ := h
  exact ⟨c :: chunk, tail, rfl, fun p => h (p.after c)⟩

/-- One scanner, and another from where it stops. -/
theorem andThen {next : Cursor → Cursor} (h : Skips rest skip)
    (hn : ∀ tail, Skips tail fun p => next ⟨tail, p⟩) : Skips rest fun p => next (skip p) := by
  obtain ⟨chunk, tail, rfl, h⟩ := h
  obtain ⟨chunk', tail', rfl, hn⟩ := hn tail
  refine ⟨chunk ++ chunk', tail', by simp, fun p => ?_⟩
  simp only [h, hn, Position.advance_append]

/-- A choice between scanners that does not look at the position. -/
theorem ite {c : Prop} [Decidable c] {skip' : Position → Cursor} (h : Skips rest skip)
    (h' : Skips rest skip') : Skips rest fun p => if c then skip p else skip' p := by
  split
  · exact h
  · exact h'

/-- Skipping while a test holds takes characters from the front. -/
theorem skipWhile (keep : Char → Bool) (rest : List Char) :
    Skips rest (Lexer.skipWhile keep rest) :=
  ⟨_, _, List.takeWhile_append_dropWhile.symm, skipWhile_eq keep rest⟩

end Skips

theorem skipExponent_skips (rest : List Char) : Skips rest fun p => skipExponent ⟨rest, p⟩ := by
  unfold skipExponent
  dsimp only
  split
  · rename_i e sign d rest
    refine .ite (.here _) (.ite (.after e (.skipWhile _ _)) (.ite ?_ (.here _)))
    exact .after e (.after sign (.skipWhile _ _))
  · rename_i e d
    exact .ite (.after e (.after d (.here []))) (.here _)
  · exact .here _

theorem skipFraction_skips (rest : List Char) : Skips rest fun p => skipFraction ⟨rest, p⟩ := by
  unfold skipFraction
  dsimp only
  split
  · exact .after _ (.skipWhile _ _)
  · exact .here _

theorem skipBigMarker_skips (rest : List Char) : Skips rest fun p => skipBigMarker ⟨rest, p⟩ := by
  unfold skipBigMarker
  dsimp only
  split
  · exact .after _ (.here _)
  · exact .here _

/-! ## Scanning -/

namespace Scans

variable {rest : List Char} {scan scan' : Position → α × Cursor}

theorem here (value : α) (rest : List Char) : Scans rest fun p => (value, ⟨rest, p⟩) :=
  ⟨value, [], rest, rfl, fun _ => rfl⟩

theorem after (c : Char) (h : Scans rest scan) : Scans (c :: rest) fun p => scan (p.after c) := by
  obtain ⟨value, chunk, tail, rfl, h⟩ := h
  exact ⟨value, c :: chunk, tail, rfl, fun p => h (p.after c)⟩

theorem map (f : α → β) (h : Scans rest scan) :
    Scans rest fun p => (f (scan p).1, (scan p).2) := by
  obtain ⟨value, chunk, tail, rfl, h⟩ := h
  exact ⟨f value, chunk, tail, rfl, fun p => by simp only [h]⟩

theorem ofSkips {skip : Position → Cursor} (value : α) (h : Skips rest skip) :
    Scans rest fun p => (value, skip p) := by
  obtain ⟨chunk, tail, rfl, h⟩ := h
  exact ⟨value, chunk, tail, rfl, fun p => by simp only [h]⟩

theorem ite {c : Prop} [Decidable c] (h : Scans rest scan) (h' : Scans rest scan') :
    Scans rest fun p => if c then scan p else scan' p := by
  split
  · exact h
  · exact h'

theorem congr (he : ∀ p, scan' p = scan p) (h : Scans rest scan) : Scans rest scan' :=
  funext he ▸ h

end Scans

/-- Words. -/
theorem scanWord_scans (rest : List Char) : Scans rest (scanWord rest) := by
  induction rest with
  | nil => exact .here [] []
  | cons c rest ih =>
    refine .congr (fun p => scanWord.eq_2 p c rest) (.ite ?_ (.here [] _))
    exact .after c (ih.map (c :: ·))

/-- A string goes on over a character that is no backslash, unless the line or the string ends. -/
theorem scanString_plain (hc : c ≠ '\\') (quote : Char) (rest : List Char) (p : Position) :
    scanString quote (c :: rest) p =
      if c == '\n' || c == '\r' then (([], false), ⟨c :: rest, p⟩)
      else if c == quote then (([], true), ⟨rest, p.after c⟩)
      else
        let scan := scanString quote rest (p.after c)
        ((c :: scan.1.1, scan.1.2), scan.2) := by
  rw [scanString]
  all_goals simp [hc]

/-- Strings, ended or not. -/
theorem scanString_scans (quote : Char) (rest : List Char) :
    Scans rest (scanString quote rest) := by
  cases rest with
  | nil => exact .here _ []
  | cons c rest =>
    have ih := scanString_scans quote rest
    by_cases hc : c = '\\'
    · subst hc
      cases rest with
      | nil => exact .after _ (.here _ [])
      | cons d rest =>
        have ih := scanString_scans quote rest
        exact .after _ (.after d (ih.map fun v => (unescaped d :: v.1, v.2)))
    · refine .congr (scanString_plain hc quote rest) ?_
      refine .ite (.here _ _) (.ite (.after c (.here _ _)) ?_)
      exact .after c (ih.map fun v => (c :: v.1, v.2))

/-- A regular expression goes on over a character that is no backslash, unless the line or the
expression ends; brackets make a slash plain. -/
theorem skipRegex_plain (hc : c ≠ '\\') (inBrackets : Bool) (rest : List Char) (p : Position) :
    skipRegex inBrackets (c :: rest) p =
      if c == '\n' || c == '\r' then (false, ⟨c :: rest, p⟩)
      else if c == '[' then skipRegex true rest (p.after c)
      else if c == ']' then skipRegex false rest (p.after c)
      else if c == '/' && !inBrackets then (true, skipWhile continuesWord rest (p.after c))
      else skipRegex inBrackets rest (p.after c) := by
  rw [skipRegex]
  all_goals simp [hc]

/-- Regular expressions, ended or not. -/
theorem skipRegex_scans (inBrackets : Bool) (rest : List Char) :
    Scans rest (skipRegex inBrackets rest) := by
  cases rest with
  | nil => exact .here _ []
  | cons c rest =>
    by_cases hc : c = '\\'
    · subst hc
      cases rest with
      | nil => exact .after _ (.here _ [])
      | cons d rest => exact .after _ (.after d (skipRegex_scans inBrackets rest))
    · refine .congr (skipRegex_plain hc inBrackets rest) ?_
      refine .ite (.here _ _) (.ite (.after c (skipRegex_scans true rest)) ?_)
      refine .ite (.after c (skipRegex_scans false rest)) (.ite ?_ ?_)
      · exact .ofSkips true (.after c (.skipWhile _ rest))
      · exact .after c (skipRegex_scans inBrackets rest)

/-- A comment goes on unless its end comes next. -/
theorem skipBlockComment_plain (hc : ¬(c = '*' ∧ d = '/')) (sawLineFeed : Bool)
    (rest : List Char) (p : Position) : skipBlockComment sawLineFeed (c :: d :: rest) p =
      skipBlockComment (sawLineFeed || c == '\n') (d :: rest) (p.after c) := by
  rw [skipBlockComment]
  simpa using hc

/-- Comments between marks, ended or not. -/
theorem skipBlockComment_scans (sawLineFeed : Bool) (rest : List Char) :
    Scans rest (skipBlockComment sawLineFeed rest) := by
  match rest with
  | [] => exact .here _ []
  | [c] => exact .after c (.here _ [])
  | c :: d :: rest =>
    by_cases hc : c = '*' ∧ d = '/'
    · obtain ⟨rfl, rfl⟩ := hc
      exact .after _ (.after _ (.here _ rest))
    · refine .congr (skipBlockComment_plain hc sawLineFeed rest) ?_
      exact .after c (skipBlockComment_scans _ (d :: rest))

/-- What is left behind a text is the rest of what starts with it. -/
theorem dropPrefix_eq (text rest : List Char) (h : dropPrefix? text rest = some tail) :
    rest = text ++ tail := by
  induction text generalizing rest with
  | nil =>
    cases h
    rfl
  | cons c text ih =>
    cases rest with
    | nil => cases h
    | cons d rest =>
      rw [dropPrefix?] at h
      split at h
      · rename_i hc
        rw [ih rest h, beq_iff_eq.mp hc]
        rfl
      · cases h

/-- A punctuator is taken whole, or none comes next wherever the characters stand. -/
theorem scanPunct_cases (texts : List String) (rest : List Char) :
    (∀ p, scanPunct texts ⟨rest, p⟩ = none) ∨
      ∃ text ∈ texts, ∃ tail, rest = text.toList ++ tail ∧
        ∀ p, scanPunct texts ⟨rest, p⟩ = some (text, ⟨tail, p.advance text.toList⟩) := by
  induction texts with
  | nil => exact .inl fun _ => rfl
  | cons text texts ih =>
    have next : (∀ p, scanPunct (text :: texts) ⟨rest, p⟩ = scanPunct texts ⟨rest, p⟩) →
        (∀ p, scanPunct (text :: texts) ⟨rest, p⟩ = none) ∨
        ∃ t ∈ text :: texts, ∃ tail, rest = t.toList ++ tail ∧
          ∀ p, scanPunct (text :: texts) ⟨rest, p⟩ = some (t, ⟨tail, p.advance t.toList⟩) := by
      intro he
      simp only [he]
      rcases ih with ih | ⟨t, ht, ih⟩
      · exact .inl ih
      · exact .inr ⟨t, .tail _ ht, ih⟩
    cases hd : dropPrefix? text.toList rest with
    | none =>
      refine next fun p => ?_
      rw [scanPunct]
      simp only [hd]
    | some tail =>
      by_cases hq : (text == "?." && tail.head?.any Char.isDigit) = true
      · refine next fun p => ?_
        rw [scanPunct]
        simp only [hd, hq, if_true]
      · refine .inr ⟨text, .head _, tail, dropPrefix_eq _ _ hd, fun p => ?_⟩
        rw [scanPunct]
        simp only [hd, if_neg hq]

/-- Every punctuator takes a character. -/
theorem punctuators_ne_empty : ∀ text ∈ punctuators, text.toList ≠ [] := by decide

/-! ## Lexemes -/

/-- What can begin a word can go on with it. -/
theorem continuesWord_of_startsWord (h : startsWord c = true) : continuesWord c = true := by
  simp only [startsWord, continuesWord, Text.isAlphanumeric, Bool.or_eq_true] at h ⊢
  rcases h with (h | h) | h <;> simp [h]

/-- A scanner takes the first character, and then some. -/
def Takes (c : Char) (rest : List Char) (skip : Position → Cursor) : Prop :=
  ∃ next, Skips rest next ∧ ∀ p, skip p = next (p.after c)

/-- A scanner that takes the first character, and another from where it stops. -/
theorem Takes.andThen {next : Cursor → Cursor} (h : Takes c rest skip)
    (hn : ∀ tail, Skips tail fun p => next ⟨tail, p⟩) : Takes c rest fun p => next (skip p) := by
  obtain ⟨first, hs, h⟩ := h
  exact ⟨fun p => next (first p), hs.andThen hn, fun p => congrArg next (h p)⟩

/-- A decimal number takes its first digit, or the point before it. -/
theorem skipDecimal_takes (h : startsNumber (c :: rest) = true) :
    Takes c rest fun p => skipDecimal ⟨c :: rest, p⟩ := by
  have whole : Takes c rest fun p =>
      skipFraction (skipWhile isDigitPart (c :: rest) p) := by
    by_cases hc : isDigitPart c = true
    · refine ⟨fun p => skipFraction (skipWhile isDigitPart rest p), ?_, fun p => ?_⟩
      · exact .andThen (.skipWhile _ rest) skipFraction_skips
      · simp only [skipWhile, hc, if_true]
    · have hd : c = '.' := by
        simp only [startsNumber, isDigitPart, Bool.or_eq_true, Bool.and_eq_true] at h hc
        exact beq_iff_eq.mp (h.resolve_left fun hn => hc (.inl hn)).1
      subst hd
      exact ⟨fun p => skipWhile isDigitPart rest p, .skipWhile _ rest, fun p => rfl⟩
  exact whole.andThen skipExponent_skips

/-- A number takes its first digit, or the point before it. -/
theorem skipNumber_takes (h : startsNumber (c :: rest) = true) :
    Takes c rest fun p => skipNumber ⟨c :: rest, p⟩ := by
  have decimal := (skipDecimal_takes h).andThen skipBigMarker_skips
  unfold skipNumber
  dsimp only
  split
  · rename_i letter rest heq
    cases heq
    split
    · have digits : Skips (letter :: rest) fun p =>
          skipWhile (fun c => Text.isHexDigit c || c == '_') rest (p.after letter) :=
        .after letter (.skipWhile _ rest)
      exact ⟨_, digits.andThen skipBigMarker_skips, fun p => rfl⟩
    · exact decimal
  · exact decimal

/-- A scan as one of its value and a scanner without one. -/
theorem Scans.split {scan : Position → α × Cursor} (h : Scans rest scan) :
    ∃ value skip, Skips rest skip ∧ ∀ p, scan p = (value, skip p) := by
  obtain ⟨value, chunk, tail, hr, h⟩ := h
  exact ⟨value, fun p => ⟨tail, p.advance chunk⟩, ⟨chunk, tail, hr, fun _ => rfl⟩, h⟩

/-- A lexeme takes its first character, and what it is does not depend on where it
stands. -/
theorem scanLexeme_takes (previous : Option Token) (c : Char) (rest : List Char) :
    ∃ kind fault skip, Skips rest skip ∧
      ∀ p, scanLexeme previous c rest p = ⟨kind, fault, skip (p.after c)⟩ := by
  unfold scanLexeme
  split
  · rename_i hc
    obtain ⟨name, skip, hs, h⟩ := (scanWord_scans rest).split
    refine ⟨some (.word (String.ofList (c :: name))), none, skip, hs, fun p => ?_⟩
    simp only [scanWord, continuesWord_of_startsWord hc, Bool.true_or, if_true, h]
  split
  · rename_i hn
    obtain ⟨skip, hs, h⟩ := skipNumber_takes hn
    exact ⟨some .number, none, skip, hs, fun p => by simp only [← h p]⟩
  split
  · obtain ⟨value, skip, hs, h⟩ := (scanString_scans c rest).split
    refine ⟨some (.string (String.ofList value.1)), ?_, skip, hs, fun p => ?_⟩
    · exact if value.2 then none else some "unterminated string literal"
    · simp only [h]
  split
  · obtain ⟨closed, skip, hs, h⟩ := (skipRegex_scans false rest).split
    refine ⟨some .regex, ?_, skip, hs, fun p => ?_⟩
    · exact if closed then none else some "unterminated regular expression literal"
    · simp only [h]
  rcases scanPunct_cases punctuators (c :: rest) with h | ⟨text, ht, tail, hr, h⟩
  · refine ⟨none, some ("unexpected character '" ++ String.singleton c ++ "'"), Cursor.mk rest,
      .here rest, fun p => ?_⟩
    simp only [h]
  · cases hl : text.toList with
    | nil => exact absurd hl (punctuators_ne_empty text ht)
    | cons d own =>
      rw [hl] at hr h
      cases hr
      refine ⟨some (.punct text), none, fun p => ⟨tail, p.advance own⟩, ?_, fun p => ?_⟩
      · exact ⟨own, tail, rfl, fun _ => rfl⟩
      · simp only [h]
        rfl

end Lexer

end ScriptHooks.Script

/-
ScriptHooks.Proofs.Script.LinesBelow — a text with further lines below it.

Nothing that the lexer takes goes on over a line feed, except what is faulty where the text ends:
an open string, regular expression, comment or template. So a text without faults has the same
tokens with further lines below it, and these are lexed as if they started behind its last token
(`scan_above`). A template or substitution ends before its text does, and so is not changed by the
lines below at all (`scan_above_of_closed`).

## How the proof goes

Each scanner of the lexer has a lemma that ends in `_above`: it stops at the same place, with the
further lines behind what is left. For the scanners of strings, regular expressions and comments
this needs that they come to their end; the others stop at a line feed by themselves. From these
follow a lexeme, a step over blanks, a round and, by induction on the fuel, a scan.

Two amounts of fuel go along, one for each text, since the longer text needs more of it. That is
why `TokensAbove` and `TemplatesAbove` have two.

`scan_above_of_rounds` is more general than this module needs. It asks for rounds that do what
rounds outside of substitutions do (`RoundsAsOutside`), for so many tokens. Outside of
substitutions that is so without further ado (`roundsAsOutside_false`); inside of one it is so as
long as the braces of the text are balanced, and SubstitutionText takes it from there.

A backslash at the very end of a text is the one place where a character looks beyond the text
without being a fault of its own; it is one of the template that is open there.
-/
import ScriptHooks.Proofs.Script.LineCommentTheorems

namespace ScriptHooks.Script.Lexer

/-- The cursor with further lines below the text. -/
def Cursor.above (cursor : Cursor) (more : List Char) : Cursor :=
  ⟨cursor.rest ++ '\n' :: more, cursor.position⟩

/-! ## Scanners -/

/-- What stops at line feeds stops at the same place. -/
theorem skipWhile_above {keep : Char → Bool} (hk : keep '\n' = false) (rest more : List Char)
    (p : Position) :
    skipWhile keep (rest ++ '\n' :: more) p = (skipWhile keep rest p).above more := by
  induction rest generalizing p with
  | nil => simp [skipWhile, hk, Cursor.above]
  | cons c rest ih =>
    rw [List.cons_append, skipWhile, skipWhile]
    split
    · exact ih _
    · rfl

/-- Words end with their line. -/
theorem scanWord_above (rest more : List Char) (p : Position) :
    scanWord (rest ++ '\n' :: more) p =
      ((scanWord rest p).1, (scanWord rest p).2.above more) := by
  have hu : ∀ rest : List Char, ((rest ++ '\n' :: more).head? == some 'u') =
      (rest.head? == some 'u') := by
    rintro (_ | ⟨c, rest⟩) <;> rfl
  fun_induction scanWord rest p with
  | case1 p => rfl
  | case2 c rest p h name after hscan ih =>
    rw [List.cons_append, scanWord, hu, if_pos h, ih, hscan]
  | case3 c rest p h =>
    rw [List.cons_append, scanWord, hu, if_neg h]
    rfl

/-- What is neither an escape nor a backslash at the end is no backslash. -/
theorem ne_backslash_of_not_escape {c : Char} {rest : List Char} (h : c = '\\' → rest = [] → False)
    (h' : ∀ d tail, c = '\\' → rest = d :: tail → False) : c ≠ '\\' := by
  intro hc
  cases rest with
  | nil => exact h hc rfl
  | cons d tail => exact h' d tail hc rfl

/-- A string that ends does so before the line does. -/
theorem scanString_above {quote : Char} {rest : List Char} {p : Position}
    (h : (scanString quote rest p).1.2 = true) (more : List Char) :
    scanString quote (rest ++ '\n' :: more) p =
      ((scanString quote rest p).1, (scanString quote rest p).2.above more) := by
  fun_induction scanString quote rest p with
  | case1 p | case2 p => cases h
  | case3 c rest p value closed after hscan ih =>
    rw [hscan] at ih
    simp only [List.cons_append, scanString, ih h]
  | case4 c rest p _ _ hl => cases h
  | case5 c rest p hnil hcons hl hq =>
    have hc := ne_backslash_of_not_escape hnil hcons
    rw [List.cons_append, scanString_plain hc, if_neg hl, if_pos hq]
    rfl
  | case6 c rest p hnil hcons hl hq value closed after hscan ih =>
    have hc := ne_backslash_of_not_escape hnil hcons
    rw [hscan] at ih
    rw [List.cons_append, scanString_plain hc, if_neg hl, if_neg hq, ih h]

/-- A regular expression that ends does so before the line does. -/
theorem skipRegex_above {inBrackets : Bool} {rest : List Char} {p : Position}
    (h : (skipRegex inBrackets rest p).1 = true) (more : List Char) :
    skipRegex inBrackets (rest ++ '\n' :: more) p =
      (true, (skipRegex inBrackets rest p).2.above more) := by
  fun_induction skipRegex inBrackets rest p with
  | case1 | case2 => cases h
  | case3 inBrackets c rest p ih => exact ih h
  | case4 => cases h
  | case5 inBrackets c rest p hnil hcons hl ho ih =>
    have hc := ne_backslash_of_not_escape hnil hcons
    rw [List.cons_append, skipRegex_plain hc, if_neg hl, if_pos ho, ih h]
  | case6 inBrackets c rest p hnil hcons hl ho hb ih =>
    have hc := ne_backslash_of_not_escape hnil hcons
    rw [List.cons_append, skipRegex_plain hc, if_neg hl, if_neg ho, if_pos hb, ih h]
  | case7 inBrackets c rest p hnil hcons hl ho hb hs =>
    have hc := ne_backslash_of_not_escape hnil hcons
    rw [List.cons_append, skipRegex_plain hc, if_neg hl, if_neg ho, if_neg hb, if_pos hs,
      skipWhile_above (by decide)]
  | case8 inBrackets c rest p hnil hcons hl ho hb hs ih =>
    have hc := ne_backslash_of_not_escape hnil hcons
    rw [List.cons_append, skipRegex_plain hc, if_neg hl, if_neg ho, if_neg hb, if_neg hs, ih h]

/-- A comment that ends before its text is the same. -/
theorem skipBlockComment_above {saw : Bool} {rest : List Char} {p : Position}
    (h : (skipBlockComment saw rest p).1.1 = true) (more : List Char) :
    skipBlockComment saw (rest ++ '\n' :: more) p =
      ((skipBlockComment saw rest p).1, (skipBlockComment saw rest p).2.above more) := by
  fun_induction skipBlockComment saw rest p with
  | case1 | case2 => cases h
  | case3 => rfl
  | case4 saw c d rest p hc ih =>
    rw [List.cons_append, List.cons_append, skipBlockComment_plain (fun hcd => hc hcd.1 hcd.2)]
    exact ih h

/-- No punctuator goes on over a line feed. -/
theorem dropPrefix_above {text : List Char} (ht : '\n' ∉ text) (rest more : List Char) :
    dropPrefix? text (rest ++ '\n' :: more) =
      (dropPrefix? text rest).map (· ++ '\n' :: more) := by
  fun_induction dropPrefix? text rest with
  | case1 => rfl
  | case2 c text =>
    have hc : ¬(c == '\n') = true := by
      rintro hc
      exact ht (beq_iff_eq.mp hc ▸ List.mem_cons_self)
    rw [List.nil_append, dropPrefix?, if_neg hc]
    rfl
  | case3 c text d rest hc ih =>
    rw [List.cons_append, dropPrefix?, if_pos hc]
    exact ih fun hm => ht (List.mem_cons_of_mem c hm)
  | case4 c text d rest hc =>
    rw [List.cons_append, dropPrefix?, if_neg hc]
    rfl

/-- The same punctuator is found. -/
theorem scanPunct_above {texts : List String} (ht : ∀ text ∈ texts, '\n' ∉ text.toList)
    (cursor : Cursor) (more : List Char) :
    scanPunct texts (cursor.above more) =
      (scanPunct texts cursor).map fun found => (found.1, found.2.above more) := by
  induction texts with
  | nil => rfl
  | cons text texts ih =>
    obtain ⟨ht, hts⟩ := List.forall_mem_cons.mp ht
    have hdigit : ∀ tail : List Char, (tail ++ '\n' :: more).head?.any Char.isDigit =
        tail.head?.any Char.isDigit := by
      rintro (_ | ⟨c, tail⟩) <;> rfl
    rw [scanPunct, scanPunct, Cursor.above, dropPrefix_above ht]
    cases dropPrefix? text.toList cursor.rest with
    | none => exact ih hts
    | some tail =>
      simp only [Option.map_some, hdigit]
      split
      · exact ih hts
      · rfl

theorem skipExponent_above (cursor : Cursor) (more : List Char) :
    skipExponent (cursor.above more) = (skipExponent cursor).above more := by
  obtain ⟨rest, p⟩ := cursor
  have hdigits := fun rest p => skipWhile_above (show Char.isDigit '\n' = false from rfl) rest more p
  match rest with
  | [] => rcases more with _ | ⟨c, _ | ⟨d, more⟩⟩ <;> rfl
  | [e] => cases more <;> simp [skipExponent, Cursor.above]
  | [e, d] =>
    have hd := hdigits [d] (p.after e)
    simp only [List.cons_append, List.nil_append] at hd
    simp only [skipExponent, Cursor.above, List.cons_append, List.nil_append, hd]
    cases hc : d.isDigit <;> simp [skipWhile, hc]
    grind
  | e :: sign :: d :: rest =>
    have hd := hdigits (sign :: d :: rest) (p.after e)
    have hs := hdigits (d :: rest) ((p.after e).after sign)
    simp only [List.cons_append] at hd hs
    simp only [skipExponent, Cursor.above, List.cons_append, hd, hs]
    split <;> [rfl; (split <;> [rfl; (split <;> rfl)])]

theorem skipFraction_above (cursor : Cursor) (more : List Char) :
    skipFraction (cursor.above more) = (skipFraction cursor).above more := by
  obtain ⟨rest, p⟩ := cursor
  rcases rest with _ | ⟨c, rest⟩
  · rfl
  · by_cases hc : c = '.'
    · subst hc
      exact skipWhile_above rfl rest more _
    · simp [skipFraction, Cursor.above, hc]

theorem skipBigMarker_above (cursor : Cursor) (more : List Char) :
    skipBigMarker (cursor.above more) = (skipBigMarker cursor).above more := by
  obtain ⟨rest, p⟩ := cursor
  rcases rest with _ | ⟨c, rest⟩
  · rfl
  · by_cases hc : c = 'n'
    · subst hc
      rfl
    · simp [skipBigMarker, Cursor.above, hc]

theorem skipDecimal_above (cursor : Cursor) (more : List Char) :
    skipDecimal (cursor.above more) = (skipDecimal cursor).above more := by
  have hd : isDigitPart '\n' = false := by decide
  simp only [skipDecimal, Cursor.above]
  rw [skipWhile_above hd, skipFraction_above, skipExponent_above]
  rfl

/-- Numbers end with their line. -/
theorem skipNumber_above (cursor : Cursor) (more : List Char) :
    skipNumber (cursor.above more) = (skipNumber cursor).above more := by
  have decimal : skipBigMarker (skipDecimal (cursor.above more)) =
      (skipBigMarker (skipDecimal cursor)).above more := by
    rw [skipDecimal_above, skipBigMarker_above]
  obtain ⟨rest, p⟩ := cursor
  match rest with
  | [] => exact decimal
  | [c] =>
    by_cases hc : c = '0'
    · subst hc
      exact decimal
    · simpa [skipNumber, Cursor.above, hc] using decimal
  | c :: letter :: rest =>
    by_cases hc : c = '0'
    · subst hc
      have hx : (fun c => Text.isHexDigit c || c == '_') '\n' = false := by decide
      simp only [skipNumber, Cursor.above, List.cons_append] at decimal ⊢
      split
      · rw [skipWhile_above hx, skipBigMarker_above]
        rfl
      · exact decimal
    · simpa [skipNumber, Cursor.above, hc] using decimal

/-- Whether a number starts here does not depend on the lines below. -/
theorem startsNumber_above (c : Char) (rest more : List Char) :
    startsNumber (c :: (rest ++ '\n' :: more)) = startsNumber (c :: rest) := by
  rcases rest with _ | ⟨d, rest⟩ <;> rfl

/-- A lexeme without a fault is the same. -/
theorem scanLexeme_above {previous : Option Token} {c : Char} {rest : List Char} {p : Position}
    (h : (scanLexeme previous c rest p).fault = none) (more : List Char) :
    scanLexeme previous c (rest ++ '\n' :: more) p =
      { scanLexeme previous c rest p with
        after := (scanLexeme previous c rest p).after.above more } := by
  have hword := scanWord_above (c :: rest) more p
  have hnumber := skipNumber_above ⟨c :: rest, p⟩ more
  have hplain : ∀ text ∈ punctuators, '\n' ∉ text.toList := by decide
  have hpunct := scanPunct_above hplain ⟨c :: rest, p⟩ more
  simp only [Cursor.above, List.cons_append] at hword hnumber hpunct
  unfold scanLexeme at h ⊢
  simp only [startsNumber_above, hword, hnumber, hpunct]
  by_cases hw : startsWord c = true
  · simp only [if_pos hw, Cursor.above]
  by_cases hn : startsNumber (c :: rest) = true
  · simp only [if_neg hw, if_pos hn, Cursor.above]
  by_cases hq : (c == '"' || c == '\'') = true
  · simp only [if_neg hw, if_neg hn, if_pos hq] at h ⊢
    have hclosed : (scanString c rest (p.after c)).1.2 = true := by
      by_contra ho
      simp [ho] at h
    simp only [scanString_above hclosed]
  by_cases hr : (c == '/' && regexMayFollow previous) = true
  · simp only [if_neg hw, if_neg hn, if_neg hq, if_pos hr] at h ⊢
    have hclosed : (skipRegex false rest (p.after c)).1 = true := by
      by_contra ho
      simp [ho] at h
    simp only [skipRegex_above hclosed, hclosed]
  · simp only [if_neg hw, if_neg hn, if_neg hq, if_neg hr] at h ⊢
    cases hp : scanPunct punctuators ⟨c :: rest, p⟩ with
    | none => simp [hp] at h
    | some found => rfl

/-! ## Rounds -/

/-- A step without a remark is the same with further lines below. -/
theorem SkipStep.above (h : SkipStep chunk tail saw []) (more : List Char) :
    SkipStep chunk (tail ++ '\n' :: more) saw [] := by
  cases h with
  | lineEnd hl => exact .lineEnd hl
  | blank hl hg => exact .blank hl hg
  | lineComment ht hs =>
    refine .lineComment ht fun c hc => ?_
    cases tail with
    | nil =>
      cases hc
      rfl
    | cons d tail => exact hs c hc
  | blockComment h =>
    refine .blockComment fun p => ?_
    rw [← List.append_assoc, skipBlockComment_above (congrArg (·.1.1) (h p)), h]
    rfl

/-- Where there is nothing to skip, there is still nothing. -/
theorem Stops.above (h : Stops (c :: rest)) (more : List Char) :
    Stops (c :: (rest ++ '\n' :: more)) := by
  cases h with
  | cons hc hl hg =>
    refine .cons (fun hslash => ?_) hl hg
    cases rest with
    | nil => exact ⟨by simp, by simp⟩
    | cons d rest => exact hc hslash

/-- Behind blanks and comments without a fault a round goes on as it is, with further lines
below. -/
theorem SkipRun.round_above (h : SkipRun gap tail saw []) (more : List Char) (inside : Bool)
    (depth : Nat) (newline : Bool) (previous : Option Token) (p : Position) :
    round inside depth newline previous ⟨gap ++ tail ++ '\n' :: more, p⟩ =
      round inside depth (newline || saw) previous ⟨tail ++ '\n' :: more, p.advance gap⟩ := by
  generalize hr : ([] : List Remark) = remarks at h
  induction h generalizing newline p with
  | stops _ =>
    rw [Bool.or_false]
    rfl
  | step h _ ih =>
    obtain ⟨rfl, hrest⟩ := List.append_eq_nil_iff.mp hr.symm
    have hstep := (h.above more).round_eq inside depth newline previous p
    rw [ih _ _ (List.map_eq_nil_iff.mp hrest).symm, Bool.or_assoc, ← Position.advance_append] at hstep
    simpa [issuesAt] using hstep

/-- What is found where nothing is skipped is the same with further lines below. -/
theorem Stops.round_above (h : Stops (c :: rest))
    (hi : (round inside depth newline previous ⟨c :: rest, p⟩).issues = []) (more : List Char) :
    (round inside depth newline previous ⟨c :: rest, p⟩).find ≠ .ending false ∧
      round inside depth newline previous ⟨c :: (rest ++ '\n' :: more), p⟩ =
        { round inside depth newline previous ⟨c :: rest, p⟩ with
          after := (round inside depth newline previous ⟨c :: rest, p⟩).after.above more } := by
  rw [h.round_eq] at hi ⊢
  rw [(h.above more).round_eq]
  dsimp only at hi ⊢
  cases hd : if inside then braceDepth depth c else some depth with
  | none => exact ⟨nofun, rfl⟩
  | some depth' =>
    rw [hd] at hi
    dsimp only at hi ⊢
    by_cases hq : (c == '\x60') = true
    · simp only [if_pos hq]
      exact ⟨nofun, rfl⟩
    · simp only [if_neg hq] at hi ⊢
      have hfault : (scanLexeme previous c rest p).fault = none := by
        cases hl : (scanLexeme previous c rest p).fault with
        | none => rfl
        | some fault =>
          rw [hl] at hi
          split at hi <;> cases hi
      simp only [scanLexeme_above hfault]
      split
      · exact ⟨nofun, rfl⟩
      · exact ⟨nofun, rfl⟩

/-- A round that meets no fault is the same with further lines below, unless the text ends
there: then it is the round at the first of these lines. -/
theorem round_above {inside : Bool} {depth : Nat} {newline : Bool} {previous : Option Token}
    {cursor : Cursor} (h : (round inside depth newline previous cursor).issues = [])
    (more : List Char) :
    ((round inside depth newline previous cursor).find ≠ .ending false →
      round inside depth newline previous (cursor.above more) =
        { round inside depth newline previous cursor with
          after := (round inside depth newline previous cursor).after.above more }) ∧
    ((round inside depth newline previous cursor).find = .ending false →
      round inside depth newline previous (cursor.above more) =
        round inside depth true previous
          ⟨more, (round inside depth newline previous cursor).after.position.after '\n'⟩) := by
  obtain ⟨rest, p⟩ := cursor
  obtain ⟨gap, tail, saw, remarks, rfl, hrun⟩ := exists_skipRun rest
  cases hrun.remarks_eq_nil h
  have hbehind : round inside depth newline previous ⟨gap ++ tail, p⟩ =
      round inside depth (newline || saw) previous ⟨tail, p.advance gap⟩ := hrun.round_eq ..
  rw [hbehind] at h ⊢
  rw [Cursor.above, hrun.round_above]
  cases tail with
  | nil =>
    have hline : SkipStep ['\n'] more true [] := .lineEnd rfl
    have hnext := hline.round_eq inside depth (newline || saw) previous (p.advance gap)
    rw [Bool.or_true] at hnext
    rw [round_nil]
    exact ⟨fun hf => absurd rfl hf, fun _ => hnext⟩
  | cons c tail =>
    obtain ⟨hf, habove⟩ := hrun.stops_tail.round_above h more
    exact ⟨fun _ => habove, fun hend => absurd hend hf⟩

/-- Outside substitutions braces are not counted, and none ends the text. -/
theorem round_outside (depth : Nat) (newline : Bool) (previous : Option Token) (cursor : Cursor) :
    (round false depth newline previous cursor).depth = depth ∧
      (round false depth newline previous cursor).find ≠ .ending true := by
  unfold round
  dsimp only [Bool.false_eq_true, if_false]
  split
  · exact ⟨rfl, nofun⟩
  simp only [Bool.false_eq_true, if_false]
  split
  · exact ⟨rfl, nofun⟩
  split <;> exact ⟨rfl, nofun⟩

/-! ## Scans -/

/-- A part of a template is the same, unless the text ends in it. -/
theorem templatePart_above {rest : List Char} (hr : rest ≠ []) (hb : rest ≠ ['\\'])
    (more : List Char) : templatePart (rest ++ '\n' :: more) =
      ((templatePart rest).1, (templatePart rest).2.1,
        (templatePart rest).2.2 ++ '\n' :: more) := by
  match rest with
  | [] => exact absurd rfl hr
  | [c] =>
    have hc : c ≠ '\\' := fun hc => hb (by rw [hc])
    by_cases hq : c = '\x60'
    · subst hq
      rfl
    · simp [templatePart, hc]
  | c :: d :: rest =>
    by_cases hc : c = '\\'
    · subst hc
      rfl
    by_cases hq : c = '\x60'
    · subst hq
      rfl
    by_cases hs : c = '$'
    · subst hs
      by_cases hd : d = '\x7b'
      · subst hd
        rfl
      · simp [templatePart, hd]
    · simp [templatePart, hc, hs]

/-- At the end of a text no template is closed. -/
theorem scanTemplate_nil (fuel : Nat) (p : Position) :
    (scanTemplate fuel [] [] ⟨[], p⟩).closed = false := by
  cases fuel <;> rfl

/-- A scan for tokens that meets no fault and comes upon its end before the text ends is the
same with further lines below, and this fuel for them. -/
def TokensAbove (more : List Char) (fuel fuel' : Nat) : Prop :=
  ∀ inside depth newline previous cursor,
    let scan := scanTokens fuel inside depth newline previous [] [] cursor
    scan.issues = [] → scan.closed = true →
      scanTokens fuel' inside depth newline previous [] [] (cursor.above more) =
        { scan with cursor := scan.cursor.above more }

def TemplatesAbove (more : List Char) (fuel fuel' : Nat) : Prop :=
  ∀ cursor,
    let scan := scanTemplate fuel [] [] cursor
    scan.issues = [] → scan.closed = true →
      scanTemplate fuel' [] [] (cursor.above more) = { scan with cursor := scan.cursor.above more }

/-- With one more piece of fuel: one more round, and what is behind it. -/
theorem TokensAbove.succ {more : List Char} (htokens : TokensAbove more fuel fuel')
    (htemplates : TemplatesAbove more fuel fuel') : TokensAbove more (fuel + 1) (fuel' + 1) := by
  intro inside depth newline previous cursor
  have hr := fun h => @round_above inside depth newline previous cursor h more
  rw [scanTokens_succ, scanTokens_succ]
  generalize round inside depth newline previous cursor = r at hr
  obtain ⟨find, position, depth', newline', faults, after⟩ := r
  intro scan hi hc
  cases find with
  | ending closed =>
    cases hi
    cases hc
    rw [(hr rfl).1 (by simp)]
  | token kind =>
    obtain ⟨rfl, hi⟩ := List.append_eq_nil_iff.mp hi
    rw [(hr rfl).1 (by simp)]
    dsimp only
    rw [htokens _ _ _ _ _ hi hc]
    rfl
  | template =>
    obtain ⟨hi, hbehind⟩ := List.append_eq_nil_iff.mp hi
    obtain ⟨rfl, hi⟩ := List.append_eq_nil_iff.mp hi
    obtain ⟨hclosed, hissues⟩ := Scan.noted_eq_nil hi
    rw [(hr rfl).1 (by simp)]
    dsimp only
    rw [htemplates _ hissues hclosed, htokens _ _ _ _ _ hbehind hc]
    rfl
  | nothing =>
    obtain ⟨rfl, hi⟩ := List.append_eq_nil_iff.mp hi
    rw [(hr rfl).1 (by simp)]
    dsimp only
    rw [htokens _ _ _ _ _ hi hc]
    rfl

/-- With one more piece of fuel: one more part of a template, and what is behind it. -/
theorem TemplatesAbove.succ {more : List Char} (htokens : TokensAbove more fuel fuel')
    (htemplates : TemplatesAbove more fuel fuel') :
    TemplatesAbove more (fuel + 1) (fuel' + 1) := by
  intro cursor scan hi hc
  obtain ⟨rest, p⟩ := cursor
  -- Neither the end of the text nor a backslash before it closes the template.
  by_cases hr : rest = []
  · subst hr
    cases (scanTemplate_nil (fuel + 1) p).symm.trans hc
  by_cases hb : rest = ['\\']
  · subst hb
    cases (scanTemplate_nil fuel (p.advance ['\\'])).symm.trans hc
  dsimp only [scan] at hi hc ⊢
  rw [scanTemplate_succ] at hi hc ⊢
  rw [scanTemplate_succ, Cursor.above, templatePart_above hr hb more]
  dsimp only at hi hc ⊢
  generalize templatePart rest = t at hi hc
  obtain ⟨part, own, rest⟩ := t
  cases part with
  | ending closed => rfl
  | text => exact htemplates _ hi hc
  | substitution =>
    obtain ⟨hi, hbehind⟩ := List.append_eq_nil_iff.mp hi
    obtain ⟨hclosed, hissues⟩ := Scan.noted_eq_nil hi
    have hinner := htokens true 0 false none ⟨rest, p.advance own⟩ hissues hclosed
    have houter := htemplates _ hbehind hc
    dsimp only [Cursor.above] at hinner houter ⊢
    rw [hinner]
    dsimp only
    rw [houter]
    rfl

/-- Scans that come to their end before the text does are the same. -/
theorem scan_above_of_closed (more : List Char) {fuel fuel' : Nat} (hf : fuel ≤ fuel') :
    TokensAbove more fuel fuel' ∧ TemplatesAbove more fuel fuel' := by
  induction fuel generalizing fuel' with
  | zero =>
    exact ⟨fun _ _ _ _ _ _ hc => absurd hc Bool.false_ne_true,
      fun _ _ hc => absurd hc Bool.false_ne_true⟩
  | succ fuel ih =>
    obtain ⟨fuel', rfl⟩ : ∃ n, fuel' = n + 1 := ⟨fuel' - 1, by omega⟩
    obtain ⟨htokens, htemplates⟩ := ih (Nat.le_of_succ_le_succ hf)
    exact ⟨htokens.succ htemplates, htemplates.succ htokens⟩

/-- The token that the next one stands behind. -/
def lastToken (previous : Option Token) (tokens : List Token) : Option Token :=
  tokens.getLast?.or previous

/-- The last token of several is that of those behind the first. -/
theorem lastToken_cons (previous : Option Token) (t : Token) (ts : List Token) :
    lastToken previous (t :: ts) = lastToken (some t) ts := by
  rw [lastToken, lastToken, List.getLast?_cons]
  cases ts.getLast? <;> rfl

/-- The number behind these tokens, if each of them changes it so, and nothing if one of them
cannot change it. -/
def countTokens (step : Nat → TokenKind → Option Nat) (depth : Nat) (ts : List Token) :
    Option Nat :=
  ts.foldlM (fun depth t => step depth t.kind) depth

/-- The same behind what a round comes upon. -/
def Find.counted (step : Nat → TokenKind → Option Nat) (depth : Nat) : Find → Option Nat
  | .token kind => step depth kind
  | _ => some depth

/-- Rounds inside a substitution or not are the rounds outside, up to the depth, which is what
the tokens make of it. -/
structure RoundsAsOutside (inside : Bool) (step : Nat → TokenKind → Option Nat) : Prop where
  template (depth : Nat) (parts : List (List Token)) : step depth (.template parts) = some depth
  round {n depth depth' : Nat} {newline : Bool} {previous : Option Token} {cursor : Cursor}
    (h : (round false n newline previous cursor).find.counted step depth = some depth') :
    round inside depth newline previous cursor =
      { round false n newline previous cursor with depth := depth' }

/-- With such rounds, what stands in a text without faults is found as outside. Then the lexer
goes on with the next line as if it started there, behind the last token of the text. -/
theorem scan_above_of_rounds {inside : Bool} {step : Nat → TokenKind → Option Nat}
    (hrounds : RoundsAsOutside inside step) {more : List Char} {fuel fuel' n depth depth' : Nat}
    {newline : Bool} {previous : Option Token} {cursor : Cursor}
    (h : (scanTokens fuel false n newline previous [] [] cursor).issues = [])
    (hcount : countTokens step depth
      (scanTokens fuel false n newline previous [] [] cursor).value = some depth')
    (hf : cursor.rest.length < fuel) (hf' : fuel + more.length < fuel') :
    let scan := scanTokens fuel false n newline previous [] [] cursor
    scanTokens fuel' inside depth newline previous [] [] (cursor.above more) =
      (scanTokens (more.length + 1) inside depth' true (lastToken previous scan.value) [] []
        ⟨more, scan.cursor.position.after '\n'⟩).onto scan.value.reverse [] := by
  dsimp only
  induction fuel generalizing fuel' n depth newline previous cursor with
  | zero => exact absurd hf (Nat.not_lt_zero _)
  | succ fuel ih =>
    obtain ⟨fuel', rfl⟩ : ∃ k, fuel' = k + 1 := ⟨fuel' - 1, by omega⟩
    have hlt := (round_before false n newline previous cursor).2
    have hopen := (round_outside n newline previous cursor).2
    have hsame := fun d => @hrounds.round n depth d newline previous cursor
    have habove := fun hi => @round_above inside depth newline previous cursor hi more
    by_cases hend : (round false n newline previous cursor).find = .ending false
    · have hs : scanTokens (fuel + 1) false n newline previous [] [] cursor =
          ⟨[], false, (round false n newline previous cursor).issues,
            (round false n newline previous cursor).after⟩ := by
        rw [scanTokens, hend]
        rfl
      rw [hs] at h hcount ⊢
      cases hcount
      rw [hsame depth' (by rw [hend]; rfl)] at habove
      rw [scan_of_round ((habove h).2 hend)]
      rw [(scan_fuel _ (more.length + 1)).1 _ _ _ _ _ _ _ (by simp only; omega)
        (Nat.lt_succ_self _)]
      simp [Scan.onto, lastToken]
    · rw [scanTokens_succ] at h hcount ⊢
      rw [scanTokens_succ]
      generalize round false n newline previous cursor = r at hlt hopen hsame hend h hcount
      obtain ⟨find, position, n', newline', faults, after⟩ := r
      cases find with
      | ending closed =>
        cases closed
        · exact absurd rfl hend
        · exact absurd rfl hopen
      | token kind =>
        have hlt := hlt (by simp)
        obtain ⟨rfl, h⟩ := List.append_eq_nil_iff.mp h
        obtain ⟨d, hd, hcount⟩ := Option.bind_eq_some_iff.mp hcount
        rw [hsame d hd] at habove
        rw [(habove rfl).1 hend]
        dsimp only at h hlt ⊢
        rw [ih h hcount (by omega) (by omega), Scan.onto_onto]
        simp [Scan.onto, lastToken_cons]
      | template =>
        have hlt := hlt (by simp)
        obtain ⟨hi, h⟩ := List.append_eq_nil_iff.mp h
        obtain ⟨rfl, hi⟩ := List.append_eq_nil_iff.mp hi
        obtain ⟨hclosed, hissues⟩ := Scan.noted_eq_nil hi
        obtain ⟨d, hd, hcount⟩ := Option.bind_eq_some_iff.mp hcount
        cases (hrounds.template depth _).symm.trans hd
        have hle := ((scan_before fuel).2 [] [] after).length_le
        rw [hsame depth rfl] at habove
        rw [(habove rfl).1 hend]
        dsimp only at h hlt ⊢
        rw [(scan_above_of_closed more (by omega)).2 _ hissues hclosed]
        dsimp only
        rw [ih h hcount (by omega) (by omega)]
        simp [Scan.onto, lastToken_cons, Scan.noted, hissues, hclosed]
      | nothing =>
        have hlt := hlt (by simp)
        obtain ⟨rfl, h⟩ := List.append_eq_nil_iff.mp h
        rw [hsame depth rfl] at habove
        rw [(habove rfl).1 hend]
        dsimp only at h hlt ⊢
        rw [ih h hcount (by omega) (by omega), Scan.onto_onto]
        simp [Scan.onto]

/-- Outside of substitutions the depth makes no difference, and stays. -/
theorem roundsAsOutside_false : RoundsAsOutside false fun depth _ => some depth where
  template _ _ := rfl
  round {n depth depth' newline previous cursor} h := by
    have hdepth : (round false n newline previous cursor).find.counted
        (fun depth _ => some depth) depth = some depth := by
      cases (round false n newline previous cursor).find <;> rfl
    cases hdepth.symm.trans h
    unfold round
    simp only [Bool.false_eq_true, if_false]
    split
    · rfl
    split
    · rfl
    split <;> rfl

/-- Behind a text without faults the lexer goes on with the next line as if it started
there, behind the last token of the text. -/
theorem scan_above {more : List Char} {fuel fuel' depth : Nat} {newline : Bool}
    {previous : Option Token} {cursor : Cursor}
    (h : (scanTokens fuel false depth newline previous [] [] cursor).issues = [])
    (hf : cursor.rest.length < fuel) (hf' : fuel + more.length < fuel') :
    let scan := scanTokens fuel false depth newline previous [] [] cursor
    scanTokens fuel' false depth newline previous [] [] (cursor.above more) =
      (scanTokens (more.length + 1) false depth true (lastToken previous scan.value) [] []
        ⟨more, scan.cursor.position.after '\n'⟩).onto scan.value.reverse [] := by
  have hcount : ∀ ts : List Token, countTokens (fun depth _ => some depth) depth ts =
      some depth := by
    intro ts
    induction ts with
    | nil => rfl
    | cons t ts ih => exact ih
  exact scan_above_of_rounds roundsAsOutside_false h (hcount _) hf hf'

end ScriptHooks.Script.Lexer

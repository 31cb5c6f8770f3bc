/-
ScriptHooks.Proofs.Script.SubstitutionText — code in a substitution is lexed like code outside.

Inside a substitution the lexer counts braces by the first character of each round, outside it
does not. A brace at the start of a round is always a token of its own (`scanLexeme_brace`), so the
count can be read off the tokens that are found outside (`openBraces`), and what stands in strings,
comments, regular expressions and nested templates does not enter it.

`tokensOf_substitution` is the result. A text that is lexed without issues, and whose tokens close
no more braces than they open and leave none open, is lexed in a template as on its own: the same
tokens, with the places moved, then the end of the substitution at the brace on the next line, then
the template and the end of the whole. Both conditions are needed. A brace too many ends the
substitution early, and one too few takes the closing brace for its own.

## How the proof goes

As long as the tokens close no more than they open, a round inside is the round outside
(`roundsAsOutside_true`), and the depth goes along with `openBraces`. So `scan_above_of_rounds`
says what the lexer finds in the substitution. The closing brace stands on a line of its own,
because a text may end with a comment up to the end of its line.

The places are those of a text that starts at the fourth column of the first line, and columns of
later lines are as they are (`besideOpening`).
-/
import ScriptHooks.Proofs.Script.TemplateNesting
import ScriptHooks.Proofs.Script.TokenPlaces

namespace ScriptHooks.Script

namespace Lexer

/-! ## Braces -/

/-- How many braces are open behind a token of this kind, and nothing if it closes one that was
not opened. -/
def bracesBehind (depth : Nat) : TokenKind → Option Nat
  | .punct text =>
    if text = "\x7b" then some (depth + 1)
    else if text = "\x7d" then (if depth = 0 then none else some (depth - 1))
    else some depth
  | _ => some depth

/-- How many braces are open behind these tokens, and nothing if they close more than they
open on the way. A template counts as a whole. -/
def openBraces (ts : List Token) : Option Nat := countTokens bracesBehind 0 ts

/-- An end token closes no brace. -/
theorem openBraces_eof (ts : List Token) (p : Position) (newline : Bool) :
    openBraces (ts ++ [.mk .eof p newline]) = openBraces ts := by
  unfold openBraces countTokens
  rw [List.foldlM_append]
  exact bind_pure _

/-- A brace is always a token. -/
theorem scanLexeme_brace (h : c = '\x7b' ∨ c = '\x7d') (previous : Option Token)
    (rest : List Char) (p : Position) :
    (scanLexeme previous c rest p).kind = some (.punct (String.singleton c)) := by
  rcases h with rfl | rfl
  · rfl
  · rfl

/-- Only braces are counted. -/
theorem braceDepth_of_ne (h : ¬(c = '\x7b' ∨ c = '\x7d')) (depth : Nat) :
    braceDepth depth c = some depth := by
  unfold braceDepth
  rw [if_neg (by simpa using fun hc => h (.inl hc)), if_neg (by simpa using fun hc => h (.inr hc))]

/-- The first character of a token tells how many braces are open behind it. -/
theorem braceDepth_eq (h : (scanLexeme previous c rest p).kind = some kind) (depth : Nat) :
    braceDepth depth c = bracesBehind depth kind := by
  by_cases hc : c = '\x7b' ∨ c = '\x7d'
  · rw [scanLexeme_brace hc] at h
    cases h
    rcases hc with rfl | rfl
    · rfl
    · rfl
  · have hbegins := (scanLexeme_begins previous c rest p).1 kind h
    rw [braceDepth_of_ne hc]
    cases kind with
    | punct text =>
      have hhead : text.toList.head? = some c := beq_iff_eq.mp hbegins
      have hopen : text ≠ "\x7b" := by
        rintro rfl
        exact hc (.inl (Option.some.inj hhead.symm))
      have hclose : text ≠ "\x7d" := by
        rintro rfl
        exact hc (.inr (Option.some.inj hhead.symm))
      rw [bracesBehind, if_neg hopen, if_neg hclose]
    | word | number | string | template | regex | eof => rfl

/-! ## Inside a substitution -/

/-- A round inside a substitution is the round outside, and counts the braces, unless it comes
upon one that closes the substitution. -/
theorem roundsAsOutside_true : RoundsAsOutside true bracesBehind where
  template _ _ := rfl
  round {n depth depth' newline previous cursor} h := by
    unfold round at h ⊢
    generalize skipIgnored (cursor.rest.length + 1) false [] cursor = skip at h
    obtain ⟨saw, issues, rest, p⟩ := skip
    cases rest with
    | nil =>
      cases h
      rfl
    | cons c rest =>
      simp only [Bool.false_eq_true, if_false, if_true] at h ⊢
      by_cases hq : (c == '\x60') = true
      · rw [if_pos hq] at h ⊢
        cases beq_iff_eq.mp hq
        cases h
        rfl
      · rw [if_neg hq] at h ⊢
        cases hkind : (scanLexeme previous c rest p).kind with
        | none =>
          have hc : ¬(c = '\x7b' ∨ c = '\x7d') := by
            intro hc
            rw [scanLexeme_brace hc] at hkind
            cases hkind
          rw [hkind] at h
          cases h
          rw [braceDepth_of_ne hc]
          dsimp only
          rw [if_neg hq]
        | some kind =>
          rw [hkind] at h
          have hdepth : bracesBehind depth kind = some depth' := h
          rw [braceDepth_eq hkind, hdepth]
          dsimp only
          rw [if_neg hq]

/-- Where a place of a text stands behind the opening of a template and a substitution. -/
def besideOpening (p : Position) : Position :=
  if p.line = 1 then ⟨1, p.column + 3⟩ else p

/-- Behind the opening, places go along with the characters. -/
theorem besideOpening_advance (cs : List Char) :
    besideOpening (Position.start.advance cs) = Position.advance ⟨1, 4⟩ cs := by
  have hbehind : Position.Behind .start (Position.start.advance cs) :=
    Position.Behind.advance (.inr ⟨rfl, Nat.le_refl _⟩) cs
  rw [← Position.shift_advance .start ⟨1, 4⟩]
  generalize Position.start.advance cs = place at hbehind
  obtain ⟨line, column⟩ := place
  simp only [Position.Behind, Position.start] at hbehind
  by_cases hl : line = 1
  · subst hl
    simp [besideOpening, Position.shift, Position.start]
    omega
  · simp [besideOpening, Position.shift, Position.start, hl]
    omega

/-- Braces are counted alike wherever the tokens stand. -/
theorem openBraces_move (f : Position → Position) (ts : List Token) :
    openBraces (ts.map (Token.move f)) = openBraces ts := by
  have hstep : ∀ depth (t : Token),
      bracesBehind depth (t.move f).kind = bracesBehind depth t.kind := by
    rintro depth ⟨kind, p, newline⟩
    cases kind <;> rfl
  unfold openBraces countTokens
  rw [List.foldlM_map]
  simp only [hstep]

/-- Lines stay. -/
theorem besideOpening_line (p : Position) : (besideOpening p).line = p.line := by
  unfold besideOpening
  split
  · rename_i h
    exact h.symm
  · rfl

/-- Behind the opening, the text is found beside it, up to the brace on the next line. -/
theorem scan_substitutionText {chars : List Char} {scan : Scan (List Token)}
    (hscan : scanTokens (chars.length + 1) false 0 false none [] [] ⟨chars, .start⟩ = scan)
    (h : scan.issues = []) (hb : openBraces scan.value = some 0) :
    scanTokens (chars.length + 5) true 0 false none [] []
        ⟨chars ++ ['\n', '\x7d', '\x60'], ⟨1, 4⟩⟩ =
      ⟨scan.value.map (Token.move besideOpening), true, [],
        ⟨['\x60'], ⟨scan.cursor.position.line + 1, 2⟩⟩⟩ := by
  have hmoved : scanTokens (chars.length + 1) false 0 false none [] [] ⟨chars, ⟨1, 4⟩⟩ =
      scan.move (Token.move besideOpening) besideOpening := by
    rw [← hscan]
    exact (scan_move besideOpening_advance _).1 _ _ _ _ ⟨chars, .start⟩ ⟨[], rfl⟩
  have hissues : (scan.move (Token.move besideOpening) besideOpening).issues = [] := by
    rw [Scan.move, h]
    rfl
  have hbraces : openBraces (scan.move (Token.move besideOpening) besideOpening).value = some 0 :=
    (openBraces_move besideOpening scan.value).trans hb
  have hinner := @scan_above_of_rounds true bracesBehind roundsAsOutside_true ['\x7d', '\x60']
    (chars.length + 1) (chars.length + 5) 0 0 0 false none ⟨chars, ⟨1, 4⟩⟩
    (by rw [hmoved]; exact hissues) (by rw [hmoved]; exact hbraces) (Nat.lt_succ_self _)
    (by simp)
  have hbrace : ∀ previous p, scanTokens 3 true 0 true previous [] [] ⟨['\x7d', '\x60'], p⟩ =
      ⟨[], true, [], ⟨['\x60'], p.after '\x7d'⟩⟩ := fun _ _ => rfl
  have hline : (besideOpening scan.cursor.position).after '\n' =
      ⟨scan.cursor.position.line + 1, 1⟩ := by
    rw [Position.after, if_pos rfl, besideOpening_line]
  rw [Cursor.above, hmoved] at hinner
  dsimp only [Scan.move, Cursor.move] at hinner
  rw [hinner, hline, List.length_cons, List.length_singleton, hbrace, Scan.onto,
    List.reverse_reverse, List.append_nil]
  rfl

/-- A text without faults whose tokens close no more braces than they open, and open no more
than they close, is lexed between the opening of a substitution and a line with the brace that
closes it as it is lexed alone. The template has this one substitution, with the tokens of the
text beside the opening, and an end token behind the brace. -/
theorem tokensOf_substitution {text : String} (h : (tokensOf text).2 = [])
    (hb : openBraces (tokensOf text).1 = some 0) :
    ∃ body p, (tokensOf text).1 = body ++ [.mk .eof p true] ∧
      tokensOf ("\x60$\x7b" ++ text ++ "\n\x7d\x60") =
        ([.mk (.template [body.map (Token.move besideOpening) ++ [.mk .eof ⟨p.line + 1, 2⟩ false]])
            ⟨1, 1⟩ false,
          .mk .eof ⟨p.line + 1, 3⟩ true], []) := by
  have hlength : ("\x60$\x7b" ++ text ++ "\n\x7d\x60").toList.length + 1 =
      text.toList.length + 7 := by
    simp
  have hchars : ("\x60$\x7b" ++ text ++ "\n\x7d\x60").toList =
      '\x60' :: '$' :: '\x7b' :: (text.toList ++ ['\n', '\x7d', '\x60']) := by
    simp
  have hopen : ((Position.start.after '\x60').after '$').after '\x7b' = ⟨1, 4⟩ := rfl
  have hmark : ∀ fuel p, scanTemplate (fuel + 1) [] [] ⟨['\x60'], p⟩ =
      ⟨[], true, [], ⟨[], p.after '\x60'⟩⟩ := fun _ _ => rfl
  have hend : ∀ fuel previous p, scanTokens (fuel + 1) false 0 false previous [] [] ⟨[], p⟩ =
      ⟨[], false, [], ⟨[], p⟩⟩ := fun _ _ _ => rfl
  unfold tokensOf tokenizeChars at h hb ⊢
  rw [openBraces_eof] at hb
  have hinner := scan_substitutionText rfl h hb
  refine ⟨_, _, rfl, ?_⟩
  rw [hlength, hchars, scan_template, scan_substitution, hopen, hinner]
  simp only [Scan.onto, Scan.noted, hmark, hend]
  rfl

/-- Code with braces of all kinds: in a string, around a property, of a nested substitution and
in a comment. -/
def bracedCode : String := "f('\x7d', \x7bb: \x60$\x7bc\x7d\x60\x7d) // \x7b"

/-- A text with braces of its own, and what is found of it in a template. -/
theorem tokensOf_substitution_bracedCode :
    (tokensOf bracedCode).2 = [] ∧ openBraces (tokensOf bracedCode).1 = some 0 ∧
      ∃ body p, (tokensOf bracedCode).1 = body ++ [.mk .eof p true] ∧
        tokensOf ("\x60$\x7b" ++ bracedCode ++ "\n\x7d\x60") =
          ([.mk (.template [body.map (Token.move besideOpening) ++
              [.mk .eof ⟨p.line + 1, 2⟩ false]]) ⟨1, 1⟩ false,
            .mk .eof ⟨p.line + 1, 3⟩ true], []) :=
  ⟨rfl, rfl, tokensOf_substitution rfl rfl⟩

end Lexer

end ScriptHooks.Script

/-
ScriptHooks.Proofs.Script.SyntaxWrapper — an accepted script cannot close the function
that is put around it.

To have the syntax of a script checked without running it, the script is put inside a
function that is never called (`wrapSource`): a line that opens the function, the
script, and a line that closes it. That is safe only if the script does not end the
function early, by a brace too many, by a comment or string that swallows the closing
line, or by tokens that are others behind a line than at the start of a text.

The proof has a part for the lexer and a part for brackets:

* the lexer finds the tokens of an accepted script on their own lines, a line further
  down, and nothing else between the tokens of the two lines (`tokensOf_wrapSource`).
  It is put together from `scan_openingLine`, which is computed, `scan_below`, which is
  about any text without issues, and `scan_closingLine` from wherever the script ends;
* the brackets of an accepted script are nested (`Program.ofTokens_nested`), so the
  brace of the function stays open up to its own closing brace
  (`nested_wrapperOpening`, `nested_wrapperClosing`).

`validated_wrapSource` states both, and who closes the brace: the tokens from its
partner on are those of the closing line. A text with a comment to the end of its last
line is covered, since the closing line starts behind a line feed.
-/
import ScriptHooks.Hook.Compiler
import ScriptHooks.Proofs.Script.LinesBelow
import ScriptHooks.Proofs.Script.StatementSoundness

namespace ScriptHooks.Script

/-! ## Tokens a line below -/

def Position.below (p : Position) : Position := ⟨p.line + 1, p.column⟩

/-- A line further down, text takes as much place. -/
theorem Position.below_advance (p : Position) (cs : List Char) :
    (p.advance cs).below = p.below.advance cs := by
  induction cs generalizing p with
  | nil => rfl
  | cons c cs ih =>
    rw [advance_cons, advance_cons, ih]
    congr 1
    unfold after below
    split <;> rfl

/-- Only the first token is marked, wherever the tokens stand. -/
theorem Token.afterLine_map (f : Position → Position) (ts : List Token) :
    afterLine (ts.map (move f)) = (afterLine ts).map (move f) := by
  rcases ts with _ | ⟨⟨kind, p, newline⟩, ts⟩ <;> rfl

namespace Token

variable (f : Position → Position) (t : Token)

@[simp] theorem isEof_move : (t.move f).isEof = t.isEof := by
  obtain ⟨kind, p, newline⟩ := t
  cases kind <;> rfl

@[simp] theorem isMark_move (text : String) : (t.move f).isMark text = t.isMark text := by
  obtain ⟨kind, p, newline⟩ := t
  cases kind <;> rfl

@[simp] theorem parts_move : (t.move f).parts = t.parts.map (List.map (move f)) := by
  obtain ⟨kind, p, newline⟩ := t
  cases kind <;> first | rfl | exact moveParts_eq f _

end Token

namespace Nested

/-- Tokens elsewhere have the same brackets. -/
theorem move (f : Position → Position) (h : Nested awaited ts) :
    Nested awaited (ts.map (Token.move f)) := by
  induction h with
  | @stop ts he =>
    refine .stop ?_
    cases ts with
    | nil => rfl
    | cons t ts => exact (Token.isEof_move f t).trans he
  | mark ht ha _ ih => exact .mark ((Token.isMark_move f _ _).trans ht) ha ih
  | other hn hm hp _ ihp ih =>
    refine .other ((Token.isEof_move f _).trans hn) (fun text => ?_) ?_ ih
    · rw [Token.isMark_move, hm]
    · rw [Token.parts_move]
      exact List.forall_mem_map.mpr ihp

/-- A line end before them changes no brackets. -/
theorem afterLine_append (h : Nested awaited (ts ++ rest)) :
    Nested awaited (Token.afterLine ts ++ rest) := by
  rcases ts with _ | ⟨⟨kind, p, newline⟩, ts⟩
  · exact h
  · cases h with
    | stop he => exact .stop he
    | mark ht ha h => exact .mark ht ha h
    | other hn hm hp h => exact .other hn hm hp h

end Nested

/-! ## The wrapper -/

/-- The tokens of the line before a wrapped script. -/
def wrapperOpening : List Token :=
  [.mk (.punct "(") ⟨1, 1⟩ false, .mk (.word "function") ⟨1, 2⟩ false,
    .mk (.punct "(") ⟨1, 11⟩ false, .mk (.punct ")") ⟨1, 12⟩ false,
    .mk (.punct "\x7b") ⟨1, 14⟩ false]

/-- The tokens of the line after a wrapped script, which starts at `p`. -/
def wrapperClosing (p : Position) : List Token :=
  [.mk (.punct "\x7d") p true, .mk (.punct ")") (p.after '\x7d') false,
    .mk .eof ((p.after '\x7d').after ')') true]

/-- The tokens of a wrapped script, but for those of the wrapper. -/
def wrapped (body : List Token) : List Token :=
  Token.afterLine (body.map (Token.move Position.below))

/-- The wrapper adds no end token. -/
theorem isEof_of_wrapped (hb : ∀ t ∈ body, t.isEof = false) :
    ∀ t ∈ wrapped body, t.isEof = false := by
  rcases body with _ | ⟨⟨kind, p, newline⟩, body⟩
  · exact hb
  · obtain ⟨ht, hb⟩ := List.forall_mem_cons.mp hb
    refine List.forall_mem_cons.mpr ⟨?_, List.forall_mem_map.mpr fun t h => ?_⟩
    · exact (Token.isEof_move Position.below _).trans ht
    · exact (Token.isEof_move Position.below t).trans (hb t h)

/-- Nested tokens are nested in the wrapper. -/
theorem nested_wrapped (h : Nested [] (body ++ [last])) :
    Nested [] (wrapped body ++ [last.move Position.below]) :=
  .afterLine_append (by simpa using h.move Position.below)

/-- The closing line closes the brace and the bracket. -/
theorem nested_wrapperClosing (p : Position) : Nested ["\x7d", ")"] (wrapperClosing p) :=
  .punct rfl (.punct rfl (.stop rfl))

/-- What is nested behind the opening of the wrapper, if its brackets are still awaited. -/
theorem nested_wrapperOpening (h : Nested ["\x7d", ")"] ts) : Nested [] (wrapperOpening ++ ts) :=
  .punct rfl <| .other rfl (fun _ => rfl) (List.forall_mem_nil _) <|
    .punct rfl <| .punct rfl <| .punct rfl h

namespace Lexer

/-- The characters of the line before a wrapped script. -/
def openingLine : List Char :=
  ['(', 'f', 'u', 'n', 'c', 't', 'i', 'o', 'n', ' ', '(', ')', ' ', '\x7b']

/-- The characters of the line after a wrapped script. -/
def closingLine : List Char := ['\x7d', ')']

/-- The lines of a wrapped script. -/
theorem wrapSource_toList (source : String) :
    (wrapSource source).toList = openingLine ++ '\n' :: (source.toList ++ '\n' :: closingLine) := by
  have happend : ∀ before after : String, (before ++ source ++ after).toList =
      before.toList ++ (source.toList ++ after.toList) := by
    intro before after
    rw [String.toList_append, String.toList_append, List.append_assoc]
  exact happend "(function () \x7b\n" "\n\x7d)"

/-- The tokens of the first line. -/
theorem scan_openingLine :
    scanTokens 15 false 0 false none [] [] ⟨openingLine, .start⟩ =
      ⟨wrapperOpening, false, [], ⟨[], ⟨1, 15⟩⟩⟩ := rfl

/-- The tokens of the last line, wherever it starts. -/
theorem scan_closingLine (previous : Option Token) (p : Position) :
    scanTokens (closingLine.length + 1) false 0 true previous [] [] ⟨closingLine, p⟩ =
      ⟨(wrapperClosing p).dropLast, false, [], ⟨[], (p.after '\x7d').after ')'⟩⟩ := rfl

/-- What the lexer finds in a text that starts on the second line, from what it finds in
the text on its own. -/
theorem scan_below (chars : List Char) :
    scanTokens (chars.length + 1) false 0 true none [] [] ⟨chars, ⟨2, 1⟩⟩ =
      (scanTokens (chars.length + 1) false 0 false none [] []
        ⟨chars, .start⟩).afterLine.move (Token.move Position.below) Position.below := by
  rw [← scan_newline]
  exact (scan_move (Position.below_advance .start) _).1 false 0 true none
    ⟨chars, .start⟩ ⟨[], rfl⟩

/-- The tokens of a text without issues, wrapped. -/
theorem tokensOf_wrapSource {source : String} {body : List Token} {last : Token}
    (hi : (tokensOf source).2 = []) (hs : (tokensOf source).1 = body ++ [last]) :
    tokensOf (wrapSource source) =
      (wrapperOpening ++ wrapped body ++ wrapperClosing (last.position.below.after '\n'), []) := by
  have hbelow := scan_below source.toList
  unfold tokensOf tokenizeChars at hi hs
  generalize scanTokens (source.toList.length + 1) false 0 false none [] []
    ⟨source.toList, .start⟩ = scan at hi hs hbelow
  obtain ⟨value, closed, issues, cursor⟩ := scan
  cases hi
  obtain ⟨rfl, hlast⟩ := List.append_inj' hs rfl
  cases hlast
  have hsource := @scan_above closingLine (source.toList.length + 1)
    ((source.toList ++ '\n' :: closingLine).length + 1) 0 true none ⟨source.toList, ⟨2, 1⟩⟩
    (by rw [hbelow]; rfl) (Nat.lt_succ_self _)
    (by simp only [List.length_append, List.length_cons]; omega)
  obtain ⟨fuel, hfuel⟩ : ∃ fuel, fuel = (wrapSource source).toList.length + 1 := ⟨_, rfl⟩
  have hlen : openingLine.length = 14 := rfl
  have hopening := @scan_above (source.toList ++ '\n' :: closingLine) 15 fuel 0 false none
    ⟨openingLine, .start⟩ (congrArg Scan.issues scan_openingLine) (by decide)
    (by simp only [hfuel, wrapSource_toList, List.length_append, List.length_cons, hlen]; omega)
  have hbrace : regexMayFollow (lastToken none wrapperOpening) = regexMayFollow none := rfl
  dsimp only at hsource hopening
  rw [hbelow, scan_closingLine] at hsource
  rw [scan_openingLine, scan_congr hbrace] at hopening
  have hwhole := hopening.trans (congrArg (Scan.onto wrapperOpening.reverse []) hsource)
  rw [Cursor.above, ← wrapSource_toList] at hwhole
  rw [tokensOf, tokenizeChars, ← hfuel, hwhole]
  simp [Scan.onto, Scan.move, Scan.afterLine, Token.afterLine_map, wrapped, wrapperClosing,
    Cursor.move, Token.position]

end Lexer

/-- The wrapper cannot be closed from inside. The tokens of an accepted script are found in
the wrapped script, a line further down and without issues, between those of the wrapper.
The brackets of the whole are nested by kind, those of the script on their own as well, and
the brace that the wrapper opens before the script is closed by its own brace behind it. -/
theorem validated_wrapSource {source : String} (h : (validate source).isOk = true) :
    ∃ body last, (Lexer.tokensOf source).1 = body ++ [last] ∧
      last.isEof = true ∧ (∀ t ∈ body, t.isEof = false) ∧
      let closing := wrapperClosing (last.position.below.after '\n')
      Lexer.tokensOf (wrapSource source) = (wrapperOpening ++ wrapped body ++ closing, []) ∧
      Nested [] (wrapperOpening ++ wrapped body ++ closing) ∧
      Nested [] (body ++ [last]) ∧
      fromPartner 0 (wrapped body ++ closing) = closing := by
  obtain ⟨hlex, hparse, -⟩ := validate_isOk_iff.mp h
  have hended : WellEnded (Lexer.tokensOf source).1 :=
    (Lexer.tokenizeChars_lexed source.toList).wellEnded
  have hnested := Program.ofTokens_nested hparse
  obtain ⟨body, last, hs, hlast, hb⟩ := hended.exists_eq_append
  rw [hs] at hnested
  have hwrapped := nested_wrapped hnested
  have hend : ([last.move Position.below].headD default).isEof = true :=
    (Token.isEof_move Position.below last).trans hlast
  have hclosing := nested_wrapperClosing (last.position.below.after '\n')
  refine ⟨body, last, hs, hlast, hb, Lexer.tokensOf_wrapSource hlex hs, ?_, hnested, ?_⟩
  · rw [List.append_assoc]
    exact nested_wrapperOpening (hwrapped.append (isEof_of_wrapped hb) hend hclosing)
  · exact hwrapped.fromPartner_append (isEof_of_wrapped hb) hend _

/-- A script of one block, whose braces are like those of the wrapper. -/
theorem validated_wrapSource_block :
    (validate "\x7b f(); \x7d").isOk = true ∧
      ∃ body last, (Lexer.tokensOf "\x7b f(); \x7d").1 = body ++ [last] ∧
        last.isEof = true ∧ (∀ t ∈ body, t.isEof = false) ∧
        let closing := wrapperClosing (last.position.below.after '\n')
        Lexer.tokensOf (wrapSource "\x7b f(); \x7d") =
          (wrapperOpening ++ wrapped body ++ closing, []) ∧
        Nested [] (wrapperOpening ++ wrapped body ++ closing) ∧
        Nested [] (body ++ [last]) ∧
        fromPartner 0 (wrapped body ++ closing) = closing := by
  have h : (validate "\x7b f(); \x7d").isOk = true := by decide +kernel
  exact ⟨h, validated_wrapSource h⟩

end ScriptHooks.Script

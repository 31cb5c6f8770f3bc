/-
ScriptHooks.Proofs.Script.PrependedScript — a script in front of another text.

A script without issues that ends with a semicolon can be put in front of any text, on lines of
its own, and and the text is read as before.

* The lexer goes on below the script as if the text started there (`tokenizeChars_below`): nothing
  of the script is open at its end, and where a slash may start a regular expression behind a
  semicolon it may at the start of a text as well. The tokens of the text are those it has alone,
  moved down by the lines of the script.
* The parser goes on behind the semicolon as if the tokens of the text started there
  (`ofTokens_continued`): the loop over statements is in the state in which it starts, up to the
  count of tokens taken, and the line end before the first token of the text makes no difference.

`read_below_script` puts the two together: the statements are those of the script and then those of
the text, moved down, and the issues are those of the text, moved down. The text may have issues of
any number, in the lexer or the parser.

An `else` at the start of the text would belong to an `if` at the end of the script. The witness is
about a script that ends with an `if`, in front of a text with faults of both kinds.
-/
import ScriptHooks.Proofs.Script.ContinuedStatements
import ScriptHooks.Proofs.Script.LinesBelow
import ScriptHooks.Proofs.Script.StatementSoundness
import ScriptHooks.Proofs.Script.TokenPlaces
import ScriptHooks.Script.TreeText

namespace ScriptHooks.Script

open Parse

/-! ## Lines below a text -/

/-- How many lines a text has, be they empty. -/
def lineCount (source : String) : Nat := source.toList.count '\n' + 1

/-- The place so many lines below. -/
def Position.down (lines : Nat) (p : Position) : Position := ⟨p.line + lines, p.column⟩

/-- Further down, text takes as much place. -/
theorem Position.down_advance (lines : Nat) (p : Position) (cs : List Char) :
    (p.advance cs).down lines = (p.down lines).advance cs := by
  induction cs generalizing p with
  | nil => rfl
  | cons c cs ih =>
    rw [advance_cons, advance_cons, ih]
    congr 1
    unfold after down
    split
    · rw [Nat.add_right_comm]
    · rfl

/-- Behind the line feed at the end of a text, the text below it starts. -/
theorem Position.after_lines (chars : List Char) :
    (start.advance chars).after '\n' = start.down (chars.count '\n' + 1) := by
  rw [advance_start, after, if_pos rfl, down, Position.mk.injEq]
  exact ⟨by show 1 + _ + 1 = 1 + (_ + 1); omega, rfl⟩

/-- Tokens that start a line, moved. -/
theorem moveBehind_eq (f : Position → Position) (ts : List Token) :
    moveBehind f true ts = (Token.afterLine ts).map (Token.move f) := by
  cases ts with
  | nil => rfl
  | cons t ts =>
    obtain ⟨kind, position, newline⟩ := t
    rw [moveBehind, moveTokens_eq]
    rfl

namespace Lexer

/-- Outside of substitutions a round that finds an end has come to the end of the text. -/
theorem round_at_end (depth : Nat) (newline : Bool) (previous : Option Token) (cursor : Cursor) :
    (∀ closed, (round false depth newline previous cursor).find ≠ .ending closed) ∨
      (round false depth newline previous cursor).after.rest = [] := by
  unfold round
  dsimp only [Bool.false_eq_true, if_false]
  split
  case h_1 hrest => exact .inr hrest
  case h_2 =>
    simp only [Bool.false_eq_true, if_false]
    split
    · exact .inl fun _ => nofun
    split <;> exact .inl fun _ => nofun

/-- Outside of substitutions a scan takes the whole text. -/
theorem scan_rest {fuel depth : Nat} {newline : Bool} {previous : Option Token} {cursor : Cursor}
    (hfuel : cursor.rest.length < fuel) :
    (scanTokens fuel false depth newline previous [] [] cursor).cursor.rest = [] := by
  induction fuel generalizing depth newline previous cursor with
  | zero => exact absurd hfuel (Nat.not_lt_zero _)
  | succ fuel ih =>
    have hlt := (round_before false depth newline previous cursor).2
    have hending := round_at_end depth newline previous cursor
    rw [scanTokens_succ]
    generalize round false depth newline previous cursor = r at hlt hending
    obtain ⟨find, position, depth', newline', faults, after⟩ := r
    cases find with
    | ending closed => exact hending.resolve_left fun h => h closed rfl
    | token kind | nothing =>
      have hlt := hlt (fun _ => nofun)
      exact ih (by omega)
    | template =>
      have hlt : after.rest.length < cursor.rest.length := hlt (fun _ => nofun)
      have hle := ((scan_before fuel).2 [] [] after).length_le
      exact ih (by dsimp only; omega)

/-- The scan of a whole text ends behind its last character. -/
theorem scan_cursor (chars : List Char) :
    (scanTokens (chars.length + 1) false 0 false none [] [] ⟨chars, .start⟩).cursor =
      ⟨[], Position.start.advance chars⟩ := by
  have hrest := @scan_rest (chars.length + 1) 0 false none ⟨chars, .start⟩ (Nat.lt_succ_self _)
  obtain ⟨chunk, htaken, hp⟩ :=
    (scan_before (chars.length + 1)).1 false 0 false none [] [] ⟨chars, .start⟩
  rw [hrest, List.append_nil] at htaken
  rw [← htaken] at hp
  exact congrArg₂ Cursor.mk hrest hp

/-- What the lexer finds in a text that starts so many lines below, from what it finds in the text
on its own. -/
theorem ended_down (lines : Nat) (chars : List Char) :
    (scanTokens (chars.length + 1) false 0 true none [] []
      ⟨chars, Position.start.down lines⟩).ended =
        (moveBehind (.down lines) true (tokenizeChars chars).1,
          (tokenizeChars chars).2.map (Issue.move (.down lines))) := by
  have hdown := (scan_move (Position.down_advance lines .start) (chars.length + 1)).1 false 0 true
    none ⟨chars, .start⟩ ⟨[], rfl⟩
  rw [Cursor.move] at hdown
  rw [hdown, Scan.ended_move, scan_newline _ _ _ false, Scan.ended_afterLine, moveBehind_eq]
  rfl

/-- What was found before stands in front of the tokens, and remarks at the end are the same. -/
theorem Scan.ended_onto (scan : Scan (List Token)) (taken : List Token) :
    (scan.onto taken []).ended = (taken.reverse ++ scan.ended.1, scan.ended.2) := by
  simp [onto, ended]

/-- Below a text without issues, behind whose last token a regular expression may start, every text
is lexed as on its own. -/
theorem tokenizeChars_below {chars : List Char} {before : List Token} {stop : Token}
    (hissues : (tokenizeChars chars).2 = []) (htokens : (tokenizeChars chars).1 = before ++ [stop])
    (hregex : regexMayFollow before.getLast? = true) (more : List Char) :
    let down := Position.down (chars.count '\n' + 1)
    tokenizeChars (chars ++ '\n' :: more) =
      (before ++ moveBehind down true (tokenizeChars more).1,
        (tokenizeChars more).2.map (Issue.move down)) := by
  have hcursor := scan_cursor chars
  have hwhole := @scan_above more (chars.length + 1) ((chars ++ '\n' :: more).length + 1) 0 false
    none ⟨chars, .start⟩
  unfold tokenizeChars at hissues htokens
  generalize scanTokens (chars.length + 1) false 0 false none [] [] ⟨chars, .start⟩ = scan
    at hissues htokens hcursor hwhole
  obtain ⟨value, closed, issues, cursor⟩ := scan
  dsimp only at hissues htokens hcursor hwhole
  obtain ⟨rfl, -⟩ := List.append_inj' htokens rfl
  have hlength : (chars ++ '\n' :: more).length = chars.length + more.length + 1 := by
    rw [List.length_append, List.length_cons, Nat.add_assoc]
  have hwhole := hwhole hissues (Nat.lt_succ_self _) (by omega)
  have hprevious : regexMayFollow (lastToken none value) = regexMayFollow none := by
    rw [lastToken, Option.or_none, hregex]
    rfl
  rw [hcursor, Position.after_lines, scan_congr hprevious] at hwhole
  have hended := congrArg Scan.ended hwhole
  rw [Scan.ended_onto, List.reverse_reverse, ended_down] at hended
  exact hended

end Lexer

/-! ## Tokens behind a script -/

namespace Program

/-- Behind a script without issues that ends with a semicolon, tokens are read as on their own. -/
theorem ofTokens_continued {body tokens : List Token} {last stop : Token}
    {f : Position → Position} (x : Continued body last stop (moveBehind f true tokens))
    (hw : WellEnded tokens) (hissues : (ofTokens (body ++ [last, stop])).2 = []) :
    ofTokens (body ++ last :: moveBehind f true tokens) =
      (⟨(ofTokens (body ++ [last, stop])).1.body ++ ((ofTokens tokens).1.move f).body⟩,
        (ofTokens tokens).2.map (Issue.move f)) := by
  have htakes := Grammar.TakesTokens.levels (maxNesting + 1)
  obtain ⟨program, fin, hscript⟩ := htakes.program_ok (.start (body ++ [last, stop]) 0 0)
  obtain ⟨program', fin', htext⟩ := htakes.program_ok (.start tokens 0 0)
  unfold ofTokens Grammar.full at hissues ⊢
  rw [hscript] at hissues ⊢
  rw [htext]
  dsimp only at hissues ⊢
  have hstart : x.mirror.Rel (.start (body ++ [last, stop]) 0 0)
      (.start (body ++ last :: moveBehind f true tokens) 0 0) :=
    ⟨.inl ⟨body, List.suffix_refl _, rfl, rfl⟩, rfl, ⟨rfl, rfl, rfl⟩, rfl⟩
  obtain ⟨left, behind, hrest, hnone, hcounters, hleft, heq⟩ :=
    x.rounds_eq hstart (Nat.lt_succ_self _) hscript hissues
  have hbehind : (Mirror.moved f tokens tokens.length behind.consumed).Rel (.start tokens 0 0)
      behind :=
    ⟨⟨List.suffix_refl _, hw, .inr ⟨Nat.le_refl _, true, hrest⟩⟩, (Nat.zero_add _).symm,
      ⟨hcounters.functionDepth, hcounters.nesting, hcounters.noIn⟩, hnone⟩
  have hstatement := (Mirror.moved_levels f (maxNesting + 1) tokens.length behind.consumed
    tokens).statement
  have hrounds := Mirror.AlikeFrom.rounds
    (Mirror.programRound htakes (Nat.le_refl _) hstatement program.body.reverse)
    htakes.programRound [] hbehind (Nat.lt_succ_self _) (Nat.lt_succ_self _) (hrest ▸ hleft)
  have hout := hrounds.outcome id
  have htext : rounds (Grammar.levels (maxNesting + 1)).programRound (tokens.length + 1) []
      (.start tokens 0 0) = .ok program' fin' := htext
  have hwhole : (Grammar.levels (maxNesting + 1)).program
      (.start (body ++ last :: moveBehind f true tokens) 0 0) =
        rounds (Grammar.levels (maxNesting + 1)).programRound left program.body.reverse behind :=
    heq
  simp only [List.map_nil, List.nil_append, List.reverse_reverse] at hout
  rw [hwhole]
  rw [show (ParserState.start tokens 0 0).rest.length.succ = tokens.length + 1 from rfl, htext]
    at hout
  generalize rounds (Grammar.levels (maxNesting + 1)).programRound left program.body.reverse
    behind = result at hout
  cases hout with
  | ok _ hrel =>
    dsimp only
    rw [hrel.issues]
    rfl

end Program

/-- A script without issues whose last token is a semicolon does not change how a text below it is
read, unless that starts with `else`: the statements are those of the script and then those of the
text, moved down by the lines of the script, and so are the issues of the lexer and the parser,
which are those of the text alone. -/
theorem read_below_script {source : String} (text : String)
    (hlex : (Lexer.tokensOf source).2 = [])
    (hparse : (Program.ofTokens (Lexer.tokensOf source).1).2 = [])
    (hlast : (Lexer.tokensOf source).1.dropLast.getLast?.any (·.isMark ";") = true)
    (helse : ((Lexer.tokensOf text).1.headD default).isWord "else" = false) :
    let whole := Lexer.tokensOf (source ++ "\n" ++ text)
    let down := Position.down (lineCount source)
    whole.2 = (Lexer.tokensOf text).2.map (Issue.move down) ∧
      (Program.ofTokens whole.1).1.body =
        (Program.ofTokens (Lexer.tokensOf source).1).1.body ++
          ((Program.ofTokens (Lexer.tokensOf text).1).1.move down).body ∧
      (Program.ofTokens whole.1).2 =
        (Program.ofTokens (Lexer.tokensOf text).1).2.map (Issue.move down) := by
  have hended : WellEnded (Lexer.tokensOf source).1 :=
    (Lexer.tokenizeChars_lexed source.toList).wellEnded
  have htext : WellEnded (Lexer.tokensOf text).1 :=
    (Lexer.tokenizeChars_lexed text.toList).wellEnded
  have hnested := Program.ofTokens_nested hparse
  obtain ⟨before, stop, htokens, hstop, -⟩ := hended.exists_eq_append
  rw [htokens, List.dropLast_concat, Option.any_eq_true] at hlast
  obtain ⟨last, hgetLast, hmark⟩ := hlast
  obtain ⟨body, rfl⟩ := List.getLast?_eq_some_iff.mp hgetLast
  have htokens : (Lexer.tokensOf source).1 = body ++ [last, stop] := by
    rw [htokens, List.append_assoc]
    rfl
  have hregex : Lexer.regexMayFollow (body ++ [last]).getLast? = true := by
    rw [hgetLast, Lexer.regexMayFollow, Token.isMark_iff.mp hmark]
    rfl
  have hchars : (source ++ "\n" ++ text).toList = source.toList ++ '\n' :: text.toList := by
    rw [String.toList_append, String.toList_append, List.append_assoc]
    rfl
  have hfound : Lexer.tokensOf (source ++ "\n" ++ text) =
      (body ++ last :: moveBehind (.down (lineCount source)) true (Lexer.tokensOf text).1,
        (Lexer.tokensOf text).2.map (Issue.move (.down (lineCount source)))) := by
    rw [Lexer.tokensOf, hchars, Lexer.tokenizeChars_below hlex
      (htokens.trans (List.append_cons body last [stop])) hregex, List.append_assoc]
    rfl
  have htwins := twins_moveBehind (Position.down (lineCount source)) true (Lexer.tokensOf text).1
  have x : Continued body last stop
      (moveBehind (.down (lineCount source)) true (Lexer.tokensOf text).1) :=
    { isMark := hmark
      isEof := hstop
      wellEnded := htokens ▸ hended
      nested := htokens ▸ hnested
      more_ne_nil := List.ne_nil_of_length_pos (by
        rw [length_moveBehind]
        exact List.length_pos_iff.mpr htext.ne_nil)
      noElse := ((twins_headD htwins htext.ne_nil).isWord "else").trans helse }
  have hprogram := Program.ofTokens_continued x htext (htokens ▸ hparse)
  dsimp only
  rw [hfound, htokens]
  exact ⟨rfl, congrArg (·.1.body) hprogram, congrArg (·.2) hprogram⟩

/-- A script that ends with an `if`, in front of a text that starts with a regular expression and
in which the lexer and the parser find faults: behind the statement of the script stands the one
statement of the text that is read, and all issues are those of the text, two lines down. -/
theorem read_below_script_faults :
    let text := "/b/.g(c);\nh(;\nreturn \"d"
    let alone := Lexer.tokensOf text
    let whole := Lexer.tokensOf ("if (a)\n f();" ++ "\n" ++ text)
    (Program.ofTokens alone.1).1.text =
        "[(expr (call 1:6 (. lit \"g\") [(id \"c\" 1:7)]))]" ∧
      (Program.ofTokens whole.1).1.text =
        "[(if (id \"a\" 1:5) (expr (call 2:3 (id \"f\" 2:2) [])))" ++
          " (expr (call 3:6 (. lit \"g\") [(id \"c\" 3:7)]))]" ∧
      whole.2 = [⟨.badSyntax, "unterminated string literal", ⟨5, 8⟩⟩] ∧
      (Program.ofTokens whole.1).2 =
        [⟨.badSyntax, "unexpected ';'", ⟨4, 3⟩⟩,
          ⟨.badSyntax, "'return' outside of a function", ⟨5, 1⟩⟩] := by
  intro text alone whole
  have hlex : (Lexer.tokensOf "if (a)\n f();").2 = [] := by decide +kernel
  have hparse : (Program.ofTokens (Lexer.tokensOf "if (a)\n f();").1).2 = [] := by decide +kernel
  have hlast : (Lexer.tokensOf "if (a)\n f();").1.dropLast.getLast?.any (·.isMark ";") = true := by
    decide +kernel
  have helse : (alone.1.headD default).isWord "else" = false := by decide +kernel
  obtain ⟨hfaults, hbody, hissues⟩ := read_below_script text hlex hparse hlast helse
  refine ⟨by decide +kernel, ?_, hfaults.trans (by decide +kernel),
    hissues.trans (by decide +kernel)⟩
  rw [Program.text, hbody]
  decide +kernel

end ScriptHooks.Script

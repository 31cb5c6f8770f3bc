/-
ScriptHooks.Proofs.Script.LineCommentTheorems — what a line comment takes.

A round of the lexer knows four line ends, but a comment ends only at two of them, a line feed or
a carriage return (`isCommentPart`). So a comment line is as if it were not there exactly if it
ends with one of the two, or if what the comment takes of the next lines adds nothing
(`line_comment_apart_iff`). `line_separator_hides_word` is a text where it does add something: a
line separator, and a word on the next line that is not found.

## What is compared

With the comment line, `b` is found behind `commentLine a t`; without it, `b` is found from the
start and moved down (`foundBelow`), and its first token stands after a line end. The two are
compared for whole texts, and for any state that the lexer may be in when it comes upon the comment:
inside a substitution or not, with any tokens found so far. `Scan.onLine` is what the second form
looks like there.

## How the proof goes

It needs no induction of its own. A round that starts at the comment is the round that starts
behind it (`round_comment`), and a line end in front of a round only marks it (`round_endsLine`).
The rest is `scan_newline`, `scan_move` and `scan_onto`: a scan elsewhere, after a line end, behind
what was found already. `shift` is the one map of places that takes the text behind the comment to
where it would stand without it; places before the comment are never asked for, which is what
`Behind` says.
-/
import ScriptHooks.Proofs.Script.LexerScans

namespace ScriptHooks.Script

namespace Position

/-- Where a place of a text that starts at `p` is if the text starts at `q`. -/
def shift (p q place : Position) : Position :=
  if place.line = p.line then ⟨q.line, q.column + (place.column - p.column)⟩
  else ⟨q.line + (place.line - p.line), place.column⟩

/-- The place is not in front of `p`. -/
def Behind (p place : Position) : Prop :=
  p.line < place.line ∨ p.line = place.line ∧ p.column ≤ place.column

/-- A place further on is behind as well. -/
theorem Behind.after (h : Behind p place) (c : Char) : Behind p (place.after c) := by
  unfold Behind Position.after at *
  split <;> simp only <;> omega

/-- Moving goes along with the characters. -/
theorem shift_after (q : Position) (h : Behind p place) (c : Char) :
    shift p q (place.after c) = (shift p q place).after c := by
  obtain ⟨l, k⟩ := place
  unfold Behind at h
  dsimp only at h
  by_cases hc : c = '\n'
  · have hl : l + 1 ≠ p.line := by omega
    simp only [shift, Position.after, hc, if_true, if_neg hl]
    split <;> simp only [Position.mk.injEq, and_true] <;> omega
  · simp only [shift, Position.after, hc, if_false]
    split
    · simp only [Position.mk.injEq, true_and]
      omega
    · rfl

/-- The start of a text is moved to the other start, and the characters behind it go along. -/
theorem shift_advance (p q : Position) (cs : List Char) :
    shift p q (p.advance cs) = q.advance cs := by
  have hall : ∀ place, Behind p place →
      shift p q (place.advance cs) = (shift p q place).advance cs := by
    induction cs with
    | nil => exact fun _ _ => rfl
    | cons c cs ih =>
      intro place h
      rw [advance_cons, advance_cons, ih _ (h.after c), shift_after q h]
  have hself : shift p q p = q := by simp [shift]
  rw [hall p (.inr ⟨rfl, Nat.le_refl _⟩), hself]

end Position

namespace Lexer

/-! ## Rounds at a comment -/

/-- What ends a comment ends a line. -/
theorem endsLine_of_not_isCommentPart (h : isCommentPart c = false) : endsLine c = true := by
  unfold isCommentPart at h
  unfold endsLine
  grind

/-- What does not end a line is part of a comment. -/
theorem isCommentPart_of_not_endsLine (h : endsLine c = false) : isCommentPart c = true := by
  by_contra hc
  rw [endsLine_of_not_isCommentPart (Bool.eq_false_iff.mpr hc)] at h
  cases h

/-- A round that starts at a comment is the round behind it. -/
theorem round_comment (inside : Bool) (depth : Nat) (newline : Bool) (previous : Option Token)
    (rest : List Char) (p : Position) :
    round inside depth newline previous ⟨'/' :: '/' :: rest, p⟩ =
      round inside depth newline previous ⟨rest.dropWhile isCommentPart,
        p.advance ('/' :: '/' :: rest.takeWhile isCommentPart)⟩ := by
  have h := (SkipStep.comment rest).round_eq inside depth newline previous p
  rw [Bool.or_false, List.cons_append, List.cons_append, List.takeWhile_append_dropWhile] at h
  exact h

/-- A line end in front of a round only marks it. -/
theorem round_endsLine (ht : endsLine t = true) (inside : Bool) (depth : Nat) (newline : Bool)
    (previous : Option Token) (rest : List Char) (p : Position) :
    round inside depth newline previous ⟨t :: rest, p⟩ =
      round inside depth true previous ⟨rest, p.after t⟩ := by
  have hstep : SkipStep [t] rest true [] := .lineEnd ht
  have h := hstep.round_eq inside depth newline previous p
  rw [Bool.or_true] at h
  exact h

/-- If the first rounds agree, then so do the scans. -/
theorem scan_of_round (h : round inside depth newline previous cursor =
      round inside depth newline' previous cursor') (fuel : Nat) (taken : List Token)
    (issues : List Issue) :
    scanTokens (fuel + 1) inside depth newline previous taken issues cursor =
      scanTokens (fuel + 1) inside depth newline' previous taken issues cursor' := by
  rw [scanTokens, scanTokens, h]

/-! ## Comment lines -/

/-- A comment, and the character that ends its line. -/
def commentLine (text : List Char) (stop : Char) : List Char := '/' :: '/' :: text ++ [stop]

/-- A comment that ends with its line. -/
theorem scan_commentLine (ha : ∀ c ∈ a, endsLine c = false) (ht : isCommentPart t = false)
    (fuel : Nat) (inside : Bool) (depth : Nat) (newline : Bool) (previous : Option Token)
    (taken : List Token) (issues : List Issue) (b : List Char) (p : Position) :
    scanTokens (fuel + 1) inside depth newline previous taken issues ⟨commentLine a t ++ b, p⟩ =
      scanTokens (fuel + 1) inside depth true previous taken issues
        ⟨b, p.advance (commentLine a t)⟩ := by
  have ha' : ∀ c ∈ a, isCommentPart c = true := fun c hc => isCommentPart_of_not_endsLine (ha c hc)
  have hsplit : commentLine a t ++ b = '/' :: '/' :: (a ++ t :: b) := by simp [commentLine]
  have hdrop : (a ++ t :: b).dropWhile isCommentPart = t :: b := by
    rw [List.dropWhile_append_of_pos ha', List.dropWhile_cons, ht]
    rfl
  have htake : (a ++ t :: b).takeWhile isCommentPart = a := by
    rw [List.takeWhile_append_of_pos ha', List.takeWhile_cons, ht]
    exact List.append_nil a
  have hp : p.advance (commentLine a t) = (p.advance ('/' :: '/' :: a)).after t :=
    Position.advance_append ..
  rw [hsplit, hp]
  refine scan_of_round ?_ fuel taken issues
  rw [round_comment, hdrop, htake, round_endsLine (endsLine_of_not_isCommentPart ht)]

/-- A comment that goes on behind its line, up to a line feed or carriage return. -/
theorem scan_commentOnward (ha : ∀ c ∈ a, endsLine c = false) (ht : isCommentPart t = true)
    (fuel : Nat) (inside : Bool) (depth : Nat) (newline : Bool) (previous : Option Token)
    (taken : List Token) (issues : List Issue) (b : List Char) (p : Position) :
    scanTokens (fuel + 1) inside depth newline previous taken issues ⟨commentLine a t ++ b, p⟩ =
      scanTokens (fuel + 1) inside depth newline previous taken issues
        ⟨b.dropWhile isCommentPart,
          p.advance (commentLine a t ++ b.takeWhile isCommentPart)⟩ := by
  have ha' : ∀ c ∈ a ++ [t], isCommentPart c = true := by
    intro c hc
    rcases List.mem_append.mp hc with hc | hc
    · exact isCommentPart_of_not_endsLine (ha c hc)
    · rw [List.mem_singleton.mp hc, ht]
  have hsplit : commentLine a t ++ b = '/' :: '/' :: (a ++ [t] ++ b) := rfl
  have htake : commentLine a t ++ b.takeWhile isCommentPart =
      '/' :: '/' :: (a ++ [t] ++ b).takeWhile isCommentPart := by
    rw [List.takeWhile_append_of_pos ha']
    rfl
  rw [hsplit, htake, ← List.dropWhile_append_of_pos ha']
  exact scan_of_round (round_comment ..) fuel taken issues

/-- The scan of a text that starts at `q`, behind a line end, from the scan of the same
text at `p`. -/
def Scan.onLine (p q : Position) (scan : Scan (List Token)) : Scan (List Token) :=
  scan.afterLine.move (Token.move (p.shift q)) (p.shift q)

/-- The scan of a text that starts elsewhere, place by place. -/
theorem scan_shift (fuel : Nat) (inside : Bool) (depth : Nat) (newline : Bool)
    (previous : Option Token) (rest : List Char) (p q : Position) :
    (scanTokens fuel inside depth newline previous [] [] ⟨rest, p⟩).move
        (Token.move (p.shift q)) (p.shift q) =
      scanTokens fuel inside depth newline previous [] [] ⟨rest, q⟩ := by
  have hself : p.shift q p = q := by simp [Position.shift]
  rw [← (scan_move (p.shift_advance q) fuel).1 _ _ _ _ _ ⟨[], rfl⟩, Cursor.move, hself]

/-- A scan on a line of its own is a scan after a line end. -/
theorem scan_onLine (fuel : Nat) (inside : Bool) (depth : Nat) (newline : Bool)
    (previous : Option Token) (rest : List Char) (p q : Position) :
    (scanTokens fuel inside depth newline previous [] [] ⟨rest, p⟩).onLine p q =
      scanTokens fuel inside depth true previous [] [] ⟨rest, q⟩ := by
  rw [Scan.onLine, ← scan_newline, scan_shift]

/-! ## Texts -/

/-- What is found in a text whose first character stands at `q`. -/
def movedTo (q : Position) (found : List Token × List Issue) : List Token × List Issue :=
  (found.1.map (Token.move (Position.start.shift q)),
    found.2.map (Issue.move (Position.start.shift q)))

/-- What is found in `rest` behind these characters. -/
def foundBehind (chunk rest : List Char) : List Token × List Issue :=
  movedTo (Position.start.advance chunk) (tokenizeChars rest)

/-- What is found in `rest` behind a line. -/
def foundBelow (line rest : List Char) : List Token × List Issue :=
  movedTo (Position.start.advance line)
    (Token.afterLine (tokenizeChars rest).1, (tokenizeChars rest).2)

/-- The tokens and issues of a whole text from those before its end. -/
def Scan.ended (scan : Scan (List Token)) : List Token × List Issue :=
  (scan.value ++ [.mk .eof scan.cursor.position true], scan.issues)

/-- The end token is moved like the others. -/
theorem Scan.ended_move (f : Position → Position) (scan : Scan (List Token)) :
    (scan.move (Token.move f) f).ended =
      (scan.ended.1.map (Token.move f), scan.ended.2.map (Issue.move f)) := by
  simp [ended, move, Cursor.move, Token.move, TokenKind.move]

/-- A line end marks the first token, be it the end. -/
theorem Scan.ended_afterLine (scan : Scan (List Token)) :
    scan.afterLine.ended = (Token.afterLine scan.ended.1, scan.ended.2) := by
  obtain ⟨value, closed, issues, cursor⟩ := scan
  rcases value with _ | ⟨⟨kind, p, newline⟩, ts⟩ <;> rfl

/-- What is found behind some characters is a scan that starts behind them. -/
theorem foundBehind_eq (chunk rest : List Char) (h : rest.length < fuel) :
    foundBehind chunk rest = (scanTokens fuel false 0 false none [] []
      ⟨rest, Position.start.advance chunk⟩).ended := by
  rw [(scan_fuel fuel (rest.length + 1)).1 _ _ _ _ _ _ _ h (Nat.lt_succ_self _),
    ← scan_shift _ _ _ _ _ _ .start, Scan.ended_move]
  rfl

/-- What is found below a line is a scan that starts behind it, after a line end. -/
theorem foundBelow_eq (line rest : List Char) (h : rest.length < fuel) :
    foundBelow line rest = (scanTokens fuel false 0 true none [] []
      ⟨rest, Position.start.advance line⟩).ended := by
  rw [(scan_fuel fuel (rest.length + 1)).1 _ _ _ _ _ _ _ h (Nat.lt_succ_self _),
    ← scan_onLine _ _ _ false _ _ .start, Scan.onLine, Scan.ended_move, Scan.ended_afterLine]
  rfl

/-- A comment line takes a character at least. -/
theorem length_lt_of_commentLine (a b : List Char) (t : Char) :
    b.length < (commentLine a t ++ b).length := by
  simp only [commentLine, List.cons_append, List.length_cons, List.length_append]
  omega

/-- A comment that ends with its line adds nothing to the text below. -/
theorem tokenizeChars_commentLine (ha : ∀ c ∈ a, endsLine c = false) (ht : isCommentPart t = false)
    (b : List Char) : tokenizeChars (commentLine a t ++ b) = foundBelow (commentLine a t) b := by
  have hlen := length_lt_of_commentLine a b t
  have hscan := scan_commentLine ha ht (commentLine a t ++ b).length false 0 false none [] [] b
    .start
  rw [foundBelow_eq _ b (Nat.lt_succ_of_lt hlen), ← hscan]
  rfl

/-- A comment that goes on takes the next lines too, up to where it ends. -/
theorem tokenizeChars_commentOnward (ha : ∀ c ∈ a, endsLine c = false)
    (ht : isCommentPart t = true) (b : List Char) :
    tokenizeChars (commentLine a t ++ b) =
      foundBehind (commentLine a t ++ b.takeWhile isCommentPart) (b.dropWhile isCommentPart) := by
  have hlen := length_lt_of_commentLine a b t
  have hdrop : (b.dropWhile isCommentPart).length ≤ b.length :=
    (List.dropWhile_sublist _).length_le
  have hfuel : (b.dropWhile isCommentPart).length < (commentLine a t ++ b).length + 1 := by
    omega
  have hscan := scan_commentOnward ha ht (commentLine a t ++ b).length false 0 false none [] [] b
    .start
  rw [foundBehind_eq _ (b.dropWhile isCommentPart) hfuel, ← hscan]
  rfl

/-- A comment line is as if it were not there, in a text and wherever the lexer comes upon
it, also inside substitutions, exactly if it ends with a line feed or a carriage return
or if leaving out what stands before the next of the two makes no difference either. -/
theorem line_comment_apart_iff {a b : List Char} {t : Char} (ha : ∀ c ∈ a, endsLine c = false) :
    (tokenizeChars (commentLine a t ++ b) = foundBelow (commentLine a t) b ↔
      isCommentPart t = false ∨
        foundBehind (commentLine a t ++ b.takeWhile isCommentPart) (b.dropWhile isCommentPart) =
          foundBelow (commentLine a t) b) ∧
    ∀ fuel inside depth newline previous taken issues p,
      (scanTokens (fuel + 1) inside depth newline previous taken issues
            ⟨commentLine a t ++ b, p⟩ =
          ((scanTokens (fuel + 1) inside depth newline previous [] [] ⟨b, p⟩).onLine p
            (p.advance (commentLine a t))).onto taken issues ↔
        isCommentPart t = false ∨
          scanTokens (fuel + 1) inside depth newline previous taken issues
              ⟨b.dropWhile isCommentPart,
                p.advance (commentLine a t ++ b.takeWhile isCommentPart)⟩ =
            ((scanTokens (fuel + 1) inside depth newline previous [] [] ⟨b, p⟩).onLine p
              (p.advance (commentLine a t))).onto taken issues) := by
  cases ht : isCommentPart t with
  | false =>
    refine ⟨iff_of_true (tokenizeChars_commentLine ha ht b) (.inl rfl), ?_⟩
    intro fuel inside depth newline previous taken issues p
    refine iff_of_true ?_ (.inl rfl)
    rw [scan_onLine, ← (scan_onto (fuel + 1)).1]
    exact scan_commentLine ha ht ..
  | true =>
    constructor
    · rw [tokenizeChars_commentOnward ha ht b]
      simp
    · intro fuel inside depth newline previous taken issues p
      rw [scan_commentOnward ha ht]
      simp

/-- A comment before a line feed, and a word on the next line. -/
theorem line_comment_apart_lineFeed :
    (∀ c ∈ ['x'], endsLine c = false) ∧
      tokenizeChars (commentLine ['x'] '\n' ++ ['y']) =
        foundBelow (commentLine ['x'] '\n') ['y'] := by
  have hx : ∀ c ∈ ['x'], endsLine c = false := List.forall_mem_singleton.mpr rfl
  exact ⟨hx, (line_comment_apart_iff hx).1.mpr (.inl rfl)⟩

/-- Behind a line separator the comment goes on, over the word on the next line. -/
theorem line_separator_hides_word :
    (∀ c ∈ ([] : List Char), endsLine c = false) ∧ endsLine '\u2028' = true ∧
      tokenizeChars (commentLine [] '\u2028' ++ ['a']) ≠
        foundBelow (commentLine [] '\u2028') ['a'] := by
  refine ⟨nofun, by decide, fun h => ?_⟩
  have hlen : (tokenizeChars (commentLine [] '\u2028' ++ ['a'])).1.length =
      (foundBelow (commentLine [] '\u2028') ['a']).1.length := by rw [h]
  revert hlen
  decide +kernel

end Lexer

end ScriptHooks.Script

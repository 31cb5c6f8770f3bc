/-
ScriptHooks.Proofs.Script.LexerRounds — what a round of the lexer can do.

A round first passes blanks and comments. `SkipStep` has one constructor for each kind of step
over them, and `SkipRun` is such steps up to a place where there is nothing to skip (`Stops`).

* `exists_skipRun`: every text starts with one run;
* `SkipRun.skipIgnored`: the lexer skips just that run;
* `SkipRun.round_eq`: a round is the round behind its run, but for the issues of the run and for
  whether a line ends in it.

So what holds of blanks and comments is proved for a step, by cases on its kind, and follows for
runs by induction. `SkipStep.skipIgnored` and `SkipStep.round_eq` are the only lemmas that open the
lexer's loop over blanks.

The side conditions of the constructors are the specification of a comment. A comment to the end of
its line takes characters up to a line feed or a carriage return, and stops there or at the end of
the text: without the second half, a shorter comment would be a step as well. Other line ends are
characters of the comment like any other.

The outline of a round (`Outline`) is free of positions: which characters stand before what is
found and which belong to it, and the messages of the issues with the characters before each.
`round_outline` gives the outline of every round; what holds of whole scans is derived from it by
induction on the fuel.
-/
import Mathlib.Data.List.TakeWhile
import ScriptHooks.Proofs.Script.Scanners

namespace ScriptHooks.Script.Lexer

/-- A message and the characters before the place that it is about. -/
abbrev Remark := String × List Char

/-- The issues of remarks about characters that start here. -/
def issuesAt (remarks : List Remark) (p : Position) : List Issue :=
  remarks.map fun r => .ofSyntax r.1 (p.advance r.2)

/-- Remarks about what stands behind some characters. -/
def behind (chunk : List Char) (remarks : List Remark) : List Remark :=
  remarks.map fun r => (r.1, chunk ++ r.2)

/-- Remarks behind some characters are issues further on. -/
theorem issuesAt_behind (chunk : List Char) (remarks : List Remark) (p : Position) :
    issuesAt (behind chunk remarks) p = issuesAt remarks (p.advance chunk) := by
  simp [issuesAt, behind, Function.comp_def, Position.advance_append]

theorem issuesAt_append (as bs : List Remark) (p : Position) :
    issuesAt (as ++ bs) p = issuesAt as p ++ issuesAt bs p := List.map_append

/-! ## Blanks and comments -/

/-- Neither a blank nor a comment comes next. -/
inductive Stops : List Char → Prop
  | nil : Stops []
  | cons (hc : c = '/' → rest.head? ≠ some '/' ∧ rest.head? ≠ some '*')
      (hl : endsLine c = false) (hg : isGap c = false) : Stops (c :: rest)

/-- One step over blanks and comments: the characters that it takes and those behind them,
whether it sees a line end, and its remarks. Of a block comment it sees the line feeds only. -/
inductive SkipStep : List Char → List Char → Bool → List Remark → Prop
  | lineEnd (hl : endsLine c = true) : SkipStep [c] tail true []
  | blank (hl : endsLine c = false) (hg : isGap c = true) : SkipStep [c] tail false []
  | lineComment (ht : ∀ c ∈ text, isCommentPart c = true)
      (hs : ∀ c ∈ tail.head?, isCommentPart c = false) :
      SkipStep ('/' :: '/' :: text) tail false []
  | blockComment
      (h : ∀ p, skipBlockComment false (text ++ tail) p = ((true, saw), ⟨tail, p.advance text⟩)) :
      SkipStep ('/' :: '*' :: text) tail saw []
  | openComment
      (h : ∀ p, skipBlockComment false (text ++ tail) p = ((false, saw), ⟨tail, p.advance text⟩)) :
      SkipStep ('/' :: '*' :: text) tail saw [("unterminated block comment", [])]

/-- A step takes a character, so that runs end. -/
theorem SkipStep.ne_nil (h : SkipStep chunk tail saw remarks) : chunk ≠ [] := by
  cases h <;> exact List.cons_ne_nil _ _

/-- The comment up to the end of its line. -/
theorem SkipStep.comment (rest : List Char) :
    SkipStep ('/' :: '/' :: rest.takeWhile isCommentPart) (rest.dropWhile isCommentPart) false
      [] := by
  refine .lineComment (fun _ => List.mem_takeWhile_imp) fun d hd => ?_
  have hstop := List.head?_dropWhile_not isCommentPart rest
  rwa [Option.mem_def.mp hd] at hstop

/-- There is nothing to skip, or there is a step to take. -/
theorem stops_or_skipStep (rest : List Char) : Stops rest ∨
    ∃ chunk tail saw remarks, rest = chunk ++ tail ∧ SkipStep chunk tail saw remarks := by
  rcases rest with _ | ⟨c, rest⟩
  · exact .inl .nil
  by_cases hline : c = '/' ∧ rest.head? = some '/'
  · obtain ⟨rfl, hr⟩ := hline
    obtain ⟨rest, rfl⟩ := List.head?_eq_some_iff.mp hr
    exact .inr ⟨_, _, false, [], by simp, .comment rest⟩
  by_cases hblock : c = '/' ∧ rest.head? = some '*'
  · obtain ⟨rfl, hr⟩ := hblock
    obtain ⟨rest, rfl⟩ := List.head?_eq_some_iff.mp hr
    obtain ⟨⟨closed, saw⟩, text, tail, rfl, h⟩ := skipBlockComment_scans false rest
    cases closed with
    | true => exact .inr ⟨'/' :: '*' :: text, tail, saw, [], rfl, .blockComment h⟩
    | false => exact .inr ⟨'/' :: '*' :: text, tail, saw, _, rfl, .openComment h⟩
  cases hl : endsLine c with
  | true => exact .inr ⟨[c], rest, true, [], rfl, .lineEnd hl⟩
  | false =>
    cases hg : isGap c with
    | true => exact .inr ⟨[c], rest, false, [], rfl, .blank hl hg⟩
    | false =>
      exact .inl (.cons (fun hc => ⟨fun hr => hline ⟨hc, hr⟩, fun hr => hblock ⟨hc, hr⟩⟩) hl hg)

/-- Where no comment starts, blanks are looked at one by one, and those that end a line are
noted. -/
theorem skipIgnored_plain {c : Char} {rest : List Char}
    (hc : c = '/' → rest.head? ≠ some '/' ∧ rest.head? ≠ some '*') (fuel : Nat) (b : Bool)
    (issues : List Issue) (p : Position) :
    skipIgnored (fuel + 1) b issues ⟨c :: rest, p⟩ =
      if endsLine c then skipIgnored fuel true issues ⟨rest, p.after c⟩
      else if isGap c then skipIgnored fuel b issues ⟨rest, p.after c⟩
      else (b, issues, ⟨c :: rest, p⟩) := by
  rw [skipIgnored]
  dsimp only
  split
  case h_1 heq => cases heq
  case h_2 heq =>
    cases heq
    exact absurd rfl (hc rfl).1
  case h_3 heq =>
    cases heq
    exact absurd rfl (hc rfl).2
  case h_4 heq =>
    cases heq
    rfl

/-- Where there is nothing to skip, nothing is skipped. -/
theorem Stops.skipIgnored (h : Stops rest) (fuel : Nat) (b : Bool) (issues : List Issue)
    (p : Position) : skipIgnored fuel b issues ⟨rest, p⟩ = (b, issues, ⟨rest, p⟩) := by
  cases fuel with
  | zero => rfl
  | succ fuel =>
    cases h with
    | nil => rfl
    | cons hc hl hg => simp [skipIgnored_plain hc, hl, hg]

/-- A line end or a blank does not start a comment. -/
theorem ne_slash (h : endsLine c = true ∨ isGap c = true) : c ≠ '/' := by
  rintro rfl
  revert h
  decide

/-- The lexer takes the step, notes whether a line ends in it and what it remarks. -/
theorem SkipStep.skipIgnored (h : SkipStep chunk tail saw remarks) (fuel : Nat) (b : Bool)
    (issues : List Issue) (p : Position) :
    skipIgnored (fuel + 1) b issues ⟨chunk ++ tail, p⟩ =
      skipIgnored fuel (b || saw) (issues ++ issuesAt remarks p) ⟨tail, p.advance chunk⟩ := by
  cases h with
  | lineEnd hl =>
    have hc := ne_slash (.inl hl)
    simp [skipIgnored_plain (fun h => absurd h hc), hl, issuesAt]
  | blank hl hg =>
    have hc := ne_slash (.inr hg)
    simp [skipIgnored_plain (fun h => absurd h hc), hl, hg, issuesAt]
  | @lineComment text tail ht hs =>
    have hpart : ∀ c ∈ '/' :: '/' :: text, isCommentPart c = true :=
      List.forall_mem_cons.mpr ⟨rfl, List.forall_mem_cons.mpr ⟨rfl, ht⟩⟩
    rw [List.cons_append, List.cons_append, Lexer.skipIgnored]
    dsimp only
    rw [← List.cons_append, ← List.cons_append, skipWhile_append hpart hs]
    simp [issuesAt]
  | blockComment h =>
    rw [List.cons_append, List.cons_append, Lexer.skipIgnored]
    simp [h, issuesAt]
  | openComment h =>
    rw [List.cons_append, List.cons_append, Lexer.skipIgnored]
    simp [h, issuesAt]

/-- Steps over blanks and comments up to where it stops. -/
inductive SkipRun : List Char → List Char → Bool → List Remark → Prop
  | stops (h : Stops tail) : SkipRun [] tail false []
  | step (h : SkipStep chunk (gap ++ tail) saw remarks) (hrun : SkipRun gap tail saw' remarks') :
      SkipRun (chunk ++ gap) tail (saw || saw') (remarks ++ behind chunk remarks')

/-- Every text starts with a run, maybe an empty one. -/
theorem exists_skipRun (rest : List Char) :
    ∃ gap tail saw remarks, rest = gap ++ tail ∧ SkipRun gap tail saw remarks := by
  induction hn : rest.length using Nat.strong_induction_on generalizing rest with
  | h n ih =>
    rcases stops_or_skipStep rest with h | ⟨chunk, rest, saw, remarks, rfl, h⟩
    · exact ⟨[], rest, false, [], rfl, .stops h⟩
    · have hlen : rest.length < n := by
        have := List.length_pos_iff.mpr h.ne_nil
        rw [List.length_append] at hn
        omega
      obtain ⟨gap, tail, saw', remarks', rfl, hrun⟩ := ih _ hlen rest rfl
      exact ⟨chunk ++ gap, tail, _, _, (List.append_assoc ..).symm, .step h hrun⟩

/-- Enough fuel skips the whole run. -/
theorem SkipRun.skipIgnored (h : SkipRun gap tail saw remarks) {fuel : Nat}
    (hf : (gap ++ tail).length < fuel) (b : Bool) (issues : List Issue) (p : Position) :
    skipIgnored fuel b issues ⟨gap ++ tail, p⟩ =
      (b || saw, issues ++ issuesAt remarks p, ⟨tail, p.advance gap⟩) := by
  induction h generalizing fuel b issues p with
  | stops h => simp [h.skipIgnored, issuesAt]
  | @step chunk gap tail saw remarks saw' remarks' h hrun ih =>
    obtain ⟨fuel, rfl⟩ : ∃ n, fuel = n + 1 := ⟨fuel - 1, by omega⟩
    have := List.length_pos_iff.mpr h.ne_nil
    rw [List.append_assoc, List.length_append] at hf
    rw [List.append_assoc, h.skipIgnored, ih (by omega), Bool.or_assoc, List.append_assoc,
      issuesAt_append, issuesAt_behind, Position.advance_append]

/-! ## Rounds -/

/-- A round that starts at blanks or a comment is the round behind them, but for their
remarks. -/
theorem SkipStep.round_eq (h : SkipStep chunk tail saw remarks) (inside : Bool) (depth : Nat)
    (newline : Bool) (previous : Option Token) (p : Position) :
    round inside depth newline previous ⟨chunk ++ tail, p⟩ =
      { round inside depth (newline || saw) previous ⟨tail, p.advance chunk⟩ with
        issues := issuesAt remarks p ++
          (round inside depth (newline || saw) previous ⟨tail, p.advance chunk⟩).issues } := by
  obtain ⟨gap, tail, saw', remarks', rfl, hrun⟩ := exists_skipRun tail
  have hlen : (gap ++ tail).length < (chunk ++ (gap ++ tail)).length := by
    have := List.length_pos_iff.mpr h.ne_nil
    simp only [List.length_append]
    omega
  unfold round
  simp only [h.skipIgnored, hrun.skipIgnored hlen, hrun.skipIgnored (Nat.lt_succ_self _),
    Bool.false_or, List.nil_append, Bool.or_assoc]
  cases tail with
  | nil => rfl
  | cons c tail =>
    dsimp only
    cases (if inside then braceDepth depth c else some depth) with
    | none => rfl
    | some depth' =>
      dsimp only
      split
      · rfl
      · cases (scanLexeme previous c tail ((p.advance chunk).advance gap)).kind <;>
          simp only [List.append_assoc]

/-- A round is the round behind its run, but for what the run remarks and for whether a line ends
in it. -/
theorem SkipRun.round_eq (h : SkipRun gap tail saw remarks) (inside : Bool) (depth : Nat)
    (newline : Bool) (previous : Option Token) (p : Position) :
    round inside depth newline previous ⟨gap ++ tail, p⟩ =
      { round inside depth (newline || saw) previous ⟨tail, p.advance gap⟩ with
        issues := issuesAt remarks p ++
          (round inside depth (newline || saw) previous ⟨tail, p.advance gap⟩).issues } := by
  induction h generalizing newline p with
  | stops _ =>
    rw [Bool.or_false]
    rfl
  | step h _ ih =>
    rw [List.append_assoc, h.round_eq, ih, issuesAt_append, issuesAt_behind,
      Position.advance_append, Bool.or_assoc, List.append_assoc]

/-- Behind a run there is nothing to skip. -/
theorem SkipRun.stops_tail (h : SkipRun gap tail saw remarks) : Stops tail := by
  induction h with
  | stops h => exact h
  | step _ _ ih => exact ih

/-- In a round without issues the run has no remarks. -/
theorem SkipRun.remarks_eq_nil (h : SkipRun gap tail saw remarks)
    (hi : (round inside depth newline previous ⟨gap ++ tail, p⟩).issues = []) : remarks = [] := by
  rw [h.round_eq] at hi
  exact List.map_eq_nil_iff.mp (List.append_eq_nil_iff.mp hi).1

/-- At the end of the text a round finds the end, and nothing is closed by it. -/
theorem round_nil (inside : Bool) (depth : Nat) (newline : Bool) (previous : Option Token)
    (p : Position) : round inside depth newline previous ⟨[], p⟩ =
      ⟨.ending false, p, depth, newline, [], ⟨[], p⟩⟩ := by
  simp [round, Stops.nil.skipIgnored]

/-- The round where there is nothing to skip. -/
theorem Stops.round_eq (h : Stops (c :: rest)) (inside : Bool) (depth : Nat) (newline : Bool)
    (previous : Option Token) (p : Position) :
    round inside depth newline previous ⟨c :: rest, p⟩ =
      let lexeme := scanLexeme previous c rest p
      let issues := lexeme.fault.toList.map fun fault => .ofSyntax fault p
      match (if inside then braceDepth depth c else some depth) with
      | none => ⟨.ending true, p, depth, newline, [], ⟨rest, p.after c⟩⟩
      | some depth =>
        if c == '\x60' then ⟨.template, p, depth, newline, [], ⟨rest, p.after c⟩⟩
        else
          match lexeme.kind with
          | some kind => ⟨.token kind, p, depth, newline, issues, lexeme.after⟩
          | none => ⟨.nothing, p, depth, newline, issues, lexeme.after⟩ := by
  unfold round
  rewrite [h.skipIgnored]
  cases newline <;> rfl

/-- A round without its positions. -/
structure Outline where
  find : Find
  /-- The characters before what is found. -/
  before : List Char
  /-- The characters of what is found; for a template only its opening mark. -/
  own : List Char
  depth : Nat
  sawLineEnd : Bool
  remarks : List Remark

/-- The round with this outline from a position on, with these characters after it. -/
def Outline.at (o : Outline) (newline : Bool) (p : Position) (tail : List Char) : Round :=
  ⟨o.find, p.advance o.before, o.depth, newline || o.sawLineEnd, issuesAt o.remarks p,
    ⟨tail, p.advance (o.before ++ o.own)⟩⟩

/-- Whether what is found can stand after the token. -/
def Find.Follows (find : Find) (previous : Option Token) : Prop :=
  match find with
  | .token kind => (kind = .regex → regexMayFollow previous = true) ∧ kind ≠ .eof ∧
      ∀ parts, kind ≠ .template parts
  | _ => True

/-- A regular expression is found only where the token before lets one start. -/
theorem scanLexeme_follows (previous : Option Token) (c : Char) (rest : List Char) (p : Position)
    (h : (scanLexeme previous c rest p).kind = some kind) :
    (Find.token kind).Follows previous := by
  unfold scanLexeme at h
  split at h
  · cases h
    exact ⟨nofun, nofun, nofun⟩
  split at h
  · cases h
    exact ⟨nofun, nofun, nofun⟩
  split at h
  · cases h
    exact ⟨nofun, nofun, nofun⟩
  split at h
  · rename_i hr
    cases h
    exact ⟨fun _ => (Bool.and_eq_true_iff.mp hr).2, nofun, nofun⟩
  split at h
  · cases h
    exact ⟨nofun, nofun, nofun⟩
  · cases h

/-- Every round has an outline, wherever its characters stand and whether or not a line
ends before them. It takes a character unless the text ends. -/
theorem round_outline (inside : Bool) (depth : Nat) (previous : Option Token)
    (rest : List Char) : ∃ (o : Outline) (tail : List Char), rest = o.before ++ o.own ++ tail ∧
      (o.own = [] → o.find = .ending false) ∧ o.find.Follows previous ∧
      ∀ newline p, round inside depth newline previous ⟨rest, p⟩ = o.at newline p tail := by
  obtain ⟨chunk, tail, saw, remarks, rfl, hrun⟩ := exists_skipRun rest
  unfold round
  simp only [hrun.skipIgnored (Nat.lt_succ_self _), Bool.false_or, List.nil_append]
  cases tail with
  | nil =>
    refine ⟨⟨.ending false, chunk, [], depth, saw, remarks⟩, [], by simp, fun _ => rfl,
      trivial, fun newline p => ?_⟩
    simp [Outline.at]
  | cons c tail =>
    dsimp only
    cases hd : if inside then braceDepth depth c else some depth with
    | none =>
      refine ⟨⟨.ending true, chunk, [c], depth, saw, remarks⟩, tail, by simp, nofun, trivial,
        fun newline p => ?_⟩
      simp [Outline.at, Position.advance_append]
    | some depth' =>
      dsimp only
      by_cases hq : (c == '\x60') = true
      · simp only [if_pos hq]
        refine ⟨⟨.template, chunk, [c], depth', saw, remarks⟩, tail, by simp, nofun, trivial,
          fun newline p => ?_⟩
        simp [Outline.at, Position.advance_append]
      · simp only [if_neg hq]
        obtain ⟨kind, fault, skip, ⟨own, tail', rfl, hs⟩, hl⟩ := scanLexeme_takes previous c tail
        have hmore : ∀ p, issuesAt remarks p ++
            fault.toList.map (fun m => Issue.ofSyntax m (p.advance chunk)) =
            issuesAt (remarks ++ fault.toList.map fun m => (m, chunk)) p := by
          intro p
          simp [issuesAt, Function.comp_def]
        cases kind with
        | some kind =>
          refine ⟨⟨.token kind, chunk, c :: own, depth', saw,
            remarks ++ fault.toList.map fun m => (m, chunk)⟩, tail', by simp, nofun, ?_, ?_⟩
          · exact scanLexeme_follows previous c (own ++ tail') .start (by rw [hl])
          · intro newline p
            simp only [hl, hs, hmore, Outline.at, Position.advance_append, Position.advance_cons]
        | none =>
          refine ⟨⟨.nothing, chunk, c :: own, depth', saw,
            remarks ++ fault.toList.map fun m => (m, chunk)⟩, tail', by simp, nofun, ?_, ?_⟩
          · trivial
          intro newline p
          simp only [hl, hs, hmore, Outline.at, Position.advance_append, Position.advance_cons]

end ScriptHooks.Script.Lexer

/-
ScriptHooks.Proofs.Script.MovedRuns — tokens at other places are read alike.

Moved tokens give the tree and the faults of the first ones, moved. Whether a line ends before the
first token of a script may differ (`moveBehind`), since no production asks that of the token which
it starts with: this is what the script behind another one needs.

`Mirror.moved` is the mirror of such lists. Its second list is the first with every token moved, or,
as long as nothing is taken, with another answer about the first line end. Nothing is ever lost in
it. That it is a mirror comes from the lists being twins token by token (`twins_of_moved`), also
inside brackets, where the parser looks ahead for an arrow (`arrowAfterGroup_twins`).

`moved_levels` is the result: any number of levels is alike with itself. The induction is on the
levels, for every such mirror at once, since the lists of templates are moved lists too and have a
mirror of their own (`mirrored_of_moved`). A substitution is not behind a line of the script, so its
first token is moved like any other.

That the end token is never taken is used throughout (`ParserState.MovesTo.wellEnded`): a list that
ends well does so after any steps, and is never empty.
-/
import ScriptHooks.Proofs.Script.MirroredProductions

namespace ScriptHooks.Script

open Parse

/-! ## Lists at other places -/

/-- The tokens at other places, with or without a line end before the first of them. -/
def moveBehind (f : Position → Position) (newline : Bool) : List Token → List Token
  | [] => []
  | t :: ts => .mk (t.kind.move f) (f t.position) newline :: moveTokens f ts

section Lists

variable {f : Position → Position} {ts ts' : List Token}

/-- Moved tokens are those behind the line end that there was. -/
theorem moveTokens_cons (f : Position → Position) (t : Token) (ts : List Token) :
    moveTokens f (t :: ts) = moveBehind f t.newlineBefore (t :: ts) := by
  obtain ⟨kind, position, newline⟩ := t
  rfl

/-- As many tokens are left. -/
theorem length_moveTokens (f : Position → Position) (ts : List Token) :
    (moveTokens f ts).length = ts.length := by
  rw [moveTokens_eq, List.length_map]

theorem length_moveBehind (f : Position → Position) (newline : Bool) (ts : List Token) :
    (moveBehind f newline ts).length = ts.length := by
  cases ts with
  | nil => rfl
  | cons t ts => rw [moveBehind, List.length_cons, length_moveTokens, List.length_cons]

/-- Moved tokens are twins. -/
theorem twins_moveTokens (f : Position → Position) (ts : List Token) :
    List.Forall₂ (Token.Twin f) ts (moveTokens f ts) := by
  induction ts with
  | nil => exact .nil
  | cons t ts ih => exact .cons (t.twin_move f) ih

/-- They are so behind any line end. -/
theorem twins_moveBehind (f : Position → Position) (newline : Bool) (ts : List Token) :
    List.Forall₂ (Token.Twin f) ts (moveBehind f newline ts) := by
  cases ts with
  | nil => exact .nil
  | cons t ts => exact .cons ⟨rfl, rfl⟩ (twins_moveTokens f ts)

/-- The next tokens are twins. -/
theorem twins_headD (h : List.Forall₂ (Token.Twin f) ts ts') (hne : ts ≠ []) :
    (ts.headD default).Twin f (ts'.headD default) := by
  cases h with
  | nil => exact absurd rfl hne
  | cons ht _ => exact ht

/-- Brackets stand alike in both lists. -/
theorem arrowAfterGroup_twins (h : List.Forall₂ (Token.Twin f) ts ts') (depth : Nat) :
    arrowAfterGroup depth ts' = arrowAfterGroup depth ts := by
  induction h generalizing depth with
  | nil => rfl
  | @cons t t' ts ts' ht hts ih =>
    have hnext : (ts'.headD default).isMark "=>" = (ts.headD default).isMark "=>" := by
      cases hts with
      | nil => rfl
      | cons hu _ => exact hu.isMark "=>"
    rw [arrowAfterGroup, arrowAfterGroup, ht.kind]
    cases t.kind with
    | punct text => simp only [TokenKind.move, ih, hnext]
    | word | number | string | regex | template => exact ih depth
    | eof => rfl

/-- The lists of the mirror are twins token by token. -/
theorem twins_of_moved {top : Nat} (h : ts' = moveTokens f ts ∨
    top ≤ ts.length ∧ ∃ newline, ts' = moveBehind f newline ts) :
    List.Forall₂ (Token.Twin f) ts ts' := by
  obtain rfl | ⟨-, newline, rfl⟩ := h
  · exact twins_moveTokens f ts
  · exact twins_moveBehind f newline ts

/-- There is an end token. -/
theorem WellEnded.ne_nil (h : WellEnded ts) : ts ≠ [] := by
  cases h <;> exact List.cons_ne_nil _ _

/-- An end of the list that is not empty ends well too. -/
theorem WellEnded.of_suffix (h : WellEnded ts) (hs : ts' <:+ ts) (hne : ts' ≠ []) :
    WellEnded ts' := by
  induction h with
  | @stop t ht =>
    obtain rfl | hnil := List.suffix_cons_iff.mp hs
    · exact .stop ht
    · exact absurd (List.suffix_nil.mp hnil) hne
  | token ht hp hr _ ih =>
    obtain rfl | hs := List.suffix_cons_iff.mp hs
    · exact .token ht hp hr
    · exact ih hs

/-- The end token is still there after any steps. -/
theorem ParserState.MovesTo.wellEnded {s s' : ParserState} (h : s.MovesTo s')
    (hw : WellEnded s.rest) : WellEnded s'.rest := by
  refine hw.of_suffix h.suffix fun hnil => ?_
  obtain ⟨taken, hrest, heof, -⟩ := h.exists_taken
  obtain ⟨body, last, hbody, hlast, -⟩ := hw.exists_eq_append
  rw [hnil, List.append_nil] at hrest
  have hmem : last ∈ taken := by rw [← hrest, hbody]; simp
  rw [heof last hmem] at hlast
  cases hlast

/-- The lists of the substitutions of the token that comes next. -/
theorem WellEnded.of_mem_template {s : ParserState} {parts : List (List Token)}
    {part : List Token} (h : WellEnded s.rest) (hk : s.peek.kind = .template parts)
    (hpart : part ∈ parts) : WellEnded part := by
  obtain ⟨t, ts, hrest⟩ := List.exists_cons_of_ne_nil h.ne_nil
  rw [hrest] at h
  rw [ParserState.peek, ParserState.tokenAhead, hrest] at hk
  have hk : t.kind = .template parts := hk
  exact h.parts part (by rwa [Token.parts, hk])

end Lists

/-! ## The mirror of moved tokens -/

/-- The lists that are left of `origin`, and their tokens at other places. In a list of `top` tokens
or more a line may end before another first token than before. -/
def Mirror.moved (f : Position → Position) (origin : List Token) (top offset : Nat) : Mirror where
  move := f
  lists ts ts' := ts <:+ origin ∧ WellEnded ts ∧
    (ts' = moveTokens f ts ∨ top ≤ ts.length ∧ ∃ newline, ts' = moveBehind f newline ts)
  lost _ := False
  top := top
  gap := 0
  offset := offset
  lost_suffix _ := id
  ne_nil := by
    rintro ts ts' ⟨-, hw, -⟩ rfl
    cases hw
  length := by
    rintro ts ts' ⟨-, -, rfl | ⟨-, newline, rfl⟩⟩
    · exact length_moveTokens f ts
    · exact length_moveBehind f newline ts
  tail := by
    rintro t t' ts ts' ⟨hsuffix, hw, hlists⟩ ht -
    refine ⟨(List.suffix_cons t ts).trans hsuffix, hw.tail ht, .inl ?_⟩
    obtain hlists | ⟨-, newline, hlists⟩ := hlists
    · exact (List.cons.inj hlists).2
    · exact (List.cons.inj hlists).2
  head := by
    rintro ts ts' ⟨-, hw, hlists⟩ -
    exact twins_headD (twins_of_moved hlists) hw.ne_nil
  newline := by
    rintro ts ts' ⟨-, hw, rfl | ⟨htop, -⟩⟩ - hlt
    · obtain ⟨t, ts, rfl⟩ := List.exists_cons_of_ne_nil hw.ne_nil
      rw [moveTokens_cons]
      rfl
    · exact absurd hlt (Nat.not_lt.mpr htop)
  second := by
    rintro ts ts' ⟨-, hw, hlists⟩ - name hname
    cases twins_of_moved hlists with
    | nil => cases hname
    | cons ht hts =>
      refine twins_headD hts (hw.tail ?_).ne_nil
      exact (Token.single_of_word hname).notEof
  arrow := by
    rintro ts ts' ⟨-, -, hlists⟩ - -
    exact arrowAfterGroup_twins (twins_of_moved hlists) 0

namespace Mirror

variable {f : Position → Position}

/-- If productions do the same on the lists of a mirror, and on moved lists, then they do so with
templates as well: a substitution does not start where a line end may have come before. -/
theorem mirrored_of_moved {M : Mirror} {g : Grammar} (hg : g.TakesTokens)
    (hw : ∀ {ts ts' : List Token}, M.lists ts ts' → WellEnded ts)
    (hmoved : ∀ top offset origin, (moved M.move origin top offset).AlikeGrammar (top + 1) g g)
    (h : M.AlikeGrammar (M.top + 1) g g) : M.Mirrored M.top g g where
  toAlikeGrammar := h.mono (Nat.le_succ _)
  le_top := Nat.le_refl _
  takes := hg
  template := fun {parts s s'} hrel _ hk => by
    refine templateLiteral_alike hg (fun part hpart => ?_) hrel
    refine ⟨moved M.move part part.length 0, rfl, rfl, fun _ => id, ?_, ?_⟩
    · exact ⟨List.suffix_refl part, (hw hrel.lists).of_mem_template hk hpart, .inl rfl⟩
    · exact Mirrored.substitutionOf hg (hmoved part.length 0 part).assignment

/-- Any number of levels is alike with itself on moved tokens. -/
theorem moved_levels (f : Position → Position) (levels top offset : Nat) (origin : List Token) :
    (moved f origin top offset).AlikeGrammar (top + 1) (Grammar.levels levels)
      (Grammar.levels levels) := by
  induction levels generalizing top offset origin with
  | zero => exact .exhausted
  | succ levels ih =>
    have hg := mirrored_of_moved (M := moved f origin top offset)
      (Grammar.TakesTokens.levels levels) (fun h => h.2.1) ih (ih top offset origin)
    exact hg.next (ih top offset origin).assignment (ih top offset origin).unary

end Mirror

end ScriptHooks.Script

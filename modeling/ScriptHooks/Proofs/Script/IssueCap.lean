/-
ScriptHooks.Proofs.Script.IssueCap — how many issues a program may have.

A parser records nothing once it has `maxIssues` issues, but those that it takes over from the
substitutions of a template are not counted against this. So there is one such allowance for the
list itself and one more for each list of a substitution in it: what a state has and what the lists
ahead of it may add never grows (`ParserState.issueBound`, `StepRelation.cappedIssues`). As this is
a relation of states like any other, the bound for programs follows by `StepRelation.ofTokens`.

The bound is reached with any number of substitutions (`crowded`), by a list that uses up its own
allowance before a template in which each substitution uses up one:

* fifty closing braces too many use up the allowance of the list, one round of the loop over
  statements each (`rounds_braces`);
* in a substitution there is no such loop, since a substitution is one expression. Statements are
  found there inside a function, so each substitution is an arrow function with fifty closing
  brackets for a body, each at the start of a line, where recovery stops (`crowdedPart`).

The two halves give `issues_bounded_iff`: a number bounds the issues of all lists with at most so
many substitutions exactly if it is enough for as many allowances and one. A script of this kind,
with a single issue on top of the fifty, is `overfullScript`.
-/
import Mathlib.Algebra.BigOperators.Ring.List
import Mathlib.Algebra.Order.BigOperators.Group.List
import Mathlib.Algebra.Order.Ring.Nat
import ScriptHooks.Proofs.Script.ChainOutcomes
import ScriptHooks.Proofs.Script.LexerScans
import ScriptHooks.Proofs.Script.ProductionRelations

namespace ScriptHooks.Script

open Parse

/-! ## One allowance for each list -/

/-- What the issues of a state may come to: its own up to the cap, unless there are more already,
and as many again for each list of a substitution ahead. -/
def ParserState.issueBound (s : ParserState) : Nat :=
  max maxIssues s.issues.length + maxIssues * (listsWithin s.rest).length

namespace ParserState

/-- The issues that there are count. -/
theorem length_issues_le (s : ParserState) : s.issues.length ≤ s.issueBound :=
  (le_max_right _ _).trans (Nat.le_add_right _ _)

/-- At the start there is one allowance for the list and one for each list in it. -/
theorem issueBound_start (tokens : List Token) (functions nesting : Nat) :
    (start tokens functions nesting).issueBound =
      maxIssues * ((listsWithin tokens).length + 1) := by
  show max maxIssues 0 + maxIssues * (listsWithin tokens).length = _
  rw [Nat.max_zero, Nat.mul_succ, Nat.add_comm]

/-- A fault that is recorded was allowed. -/
theorem issueBound_noting (s : ParserState) (fault : Fault) :
    (s.noting fault).issueBound = s.issueBound := by
  unfold noting
  split
  case isTrue hroom =>
    have hnoted : max maxIssues (s.issues ++ [fault.issue]).length =
        max maxIssues s.issues.length := by
      rw [List.length_append, max_eq_left hroom, max_eq_left hroom.le]
    rw [issueBound, hnoted, issueBound]
  case isFalse => rfl

/-- Behind a template its lists are no longer counted. -/
theorem issueBound_pass (s : ParserState) : s.pass.issueBound ≤ s.issueBound := by
  unfold pass
  split
  · exact le_rfl
  · rename_i token rest hrest
    split
    · exact le_rfl
    · have hfewer : (listsWithin rest).length ≤ (listsWithin s.rest).length := by
        rw [hrest, listsWithin_cons, List.length_append]
        exact Nat.le_add_left _ _
      exact Nat.add_le_add_left (Nat.mul_le_mul_left _ hfewer) _

/-- Behind a template that comes next, its lists are no longer ahead. -/
theorem lists_template {s : ParserState} {parts : List (List Token)}
    (h : s.peek.kind = .template parts) :
    (listsWithin s.rest).length =
      (parts.map fun part => (listsWithin part).length + 1).sum +
        (listsWithin s.pass.rest).length := by
  cases hrest : s.rest with
  | nil =>
    rw [peek, tokenAhead, hrest] at h
    cases h
  | cons token rest =>
    have hkind : token.kind = .template parts := by
      rw [← h, peek, tokenAhead, hrest]
      rfl
    have hpass : s.pass.rest = rest := by
      simp [pass, hrest, Token.isEof, hkind]
    have hparts : token.parts = parts := by rw [Token.parts, hkind]
    rw [hpass, listsWithin_cons, hparts, List.length_append, List.length_append,
      List.length_flatMap, List.sum_map_add, List.map_const', List.sum_replicate_nat]
    omega

/-- The issues of the substitutions that have been read stay within the allowances of the lists of
all of them. -/
theorem length_substitutions_le {parts : List (List Token)}
    {inner : List (List Token × ParserState)} {functions nesting : Nat}
    (hparts : inner.map Prod.fst <+: parts)
    (hinner : ∀ x ∈ inner, x.2.issueBound ≤ (start x.1 functions nesting).issueBound) :
    (inner.flatMap fun x => x.2.issues).length ≤
      maxIssues * (parts.map fun part => (listsWithin part).length + 1).sum := by
  have hone : ∀ x ∈ inner, x.2.issues.length ≤ maxIssues * ((listsWithin x.1).length + 1) := by
    intro x hx
    rw [← issueBound_start x.1 functions nesting]
    exact x.2.length_issues_le.trans (hinner x hx)
  obtain ⟨later, rfl⟩ := hparts
  calc (inner.flatMap fun x => x.2.issues).length
      = (inner.map fun x => x.2.issues.length).sum := List.length_flatMap
    _ ≤ (inner.map fun x => maxIssues * ((listsWithin x.1).length + 1)).sum :=
      List.sum_le_sum hone
    _ = maxIssues * (inner.map fun x => (listsWithin x.1).length + 1).sum :=
      List.sum_map_mul_left inner _ _
    _ ≤ maxIssues *
        ((inner.map Prod.fst ++ later).map fun part => (listsWithin part).length + 1).sum := by
      rw [List.map_append, List.sum_append, List.map_map]
      exact Nat.mul_le_mul_left _ (Nat.le_add_right _ _)

end ParserState

/-- No step lets the issues come to more than they could before. -/
def StepRelation.cappedIssues : StepRelation where
  rel s s' := s'.issueBound ≤ s.issueBound
  refl _ := le_rfl
  trans h h' := h'.trans h
  pass := ParserState.issueBound_pass
  noting s fault := (s.issueBound_noting fault).le
  nested h := h
  withoutIn h := h
  insideFunction h := h
  template := by
    intro s parts inner h hparts hinner
    have hissues := ParserState.length_substitutions_le hparts hinner
    have hlists := ParserState.lists_template h
    have hpass : s.pass.issues = s.issues := Gives.pass_issues s
    simp only [ParserState.issueBound, List.length_append, hlists, hpass, Nat.mul_add]
    omega

/-- No program has more issues than there are allowances. -/
theorem Program.length_issues_le (tokens : List Token) :
    (Program.ofTokens tokens).2.length ≤ maxIssues * ((listsWithin tokens).length + 1) := by
  obtain ⟨s, hs, hissues⟩ := StepRelation.cappedIssues.ofTokens tokens
  rw [hissues, ← ParserState.issueBound_start tokens 0 0]
  exact s.length_issues_le.trans hs

/-! ## A template as a statement -/

namespace Grammar

variable {g : Grammar} {token stop : Token} {parts : List (List Token)} {more : List Token}
  {taken functions nesting k : Nat} {noIn : Bool} {issues issues' : List Issue} {exprs : List Expr}

/-- A template with a semicolon after it is a statement if its substitutions are read. -/
theorem statement_template (ht : token.kind = .template parts) (hstop : stop.isMark ";" = true)
    (h : Runs ((levels k).substitutions parts)
      ⟨stop :: more, taken + 1, functions, 3, false, issues⟩ exprs
      ⟨stop :: more, taken + 1, functions, 3, false, issues'⟩) :
    Runs (levels (k + 3)).statement
      ⟨token :: stop :: more, taken, functions, 0, false, issues⟩ (.expr (.template exprs))
      ⟨more, taken + 1 + 1, functions, 0, false, issues'⟩ := by
  have hmark : ∀ mark, token.isMark mark = false := fun mark => by simp [Token.isMark, ht]
  have hword : ∀ word, token.isWord word = false := fun word => by simp [Token.isWord, ht]
  have hnone : token.word? = none := by simp [Token.word?, ht]
  have hend : stop.endsOperand = true := Token.endsOperand_of_isMark hstop
  have hprimary : Runs (levels k).primary
      ⟨token :: stop :: more, taken, functions, 3, false, issues⟩ (.template exprs)
      ⟨stop :: more, taken + 1, functions, 3, false, issues'⟩ := by
    unfold primary
    refine .peek (rfl : _ = token) ?_
    rw [ht]
    exact (Runs.pass (by simp [Token.isEof, ht])).bind (h.bind rfl)
  have hunary : Runs (levels (k + 1)).unary
      ⟨token :: stop :: more, taken, functions, 2, false, issues⟩ (.template exprs)
      ⟨stop :: more, taken + 1, functions, 2, false, issues'⟩ := by
    refine Runs.nested ?_ (by decide)
    refine unaryInner_of_chain (hword "await") ?_ ?_ hend
    · show token.prefixOperator? = none
      simp [Token.prefixOperator?, ht]
    · exact chain_of_primary (hword "new") hprimary (link_none hend)
  have hconditional : Runs (levels (k + 1)).conditional
      ⟨token :: stop :: more, taken, functions, 2, false, issues⟩ (.template exprs)
      ⟨stop :: more, taken + 1, functions, 2, false, issues'⟩ := by
    have hoperator : Runs (nextOperator 1)
        ⟨stop :: more, taken + 1, functions, 2, false, issues'⟩ none
        ⟨stop :: more, taken + 1, functions, 2, false, issues'⟩ :=
      nextOperator_outside hstop (by simp : ∀ link ∈ ([] : List Link).head?, link.strength < 1)
    have hbinary : Runs ((levels (k + 1)).binary 1)
        ⟨token :: stop :: more, taken, functions, 2, false, issues⟩ (.template exprs)
        ⟨stop :: more, taken + 1, functions, 2, false, issues'⟩ := by
      unfold binary operators
      exact hunary.bind (hoperator.bind rfl)
    have hchoice : stop.isMark "?" = false := Token.isMark_of_endsOperand hend (by decide)
    unfold conditional
    exact hbinary.bind (.unlessMark hchoice rfl)
  have harrow : ParserState.startsArrow
      ⟨token :: stop :: more, taken, functions, 2, false, issues⟩ = false := by
    show (if token.isName = true then _ else token.isMark "(" && _) = false
    simp [Token.isName, hnone, hmark]
  have hstatement : (levels (k + 2)).statementInner
        ⟨token :: stop :: more, taken, functions, 1, false, issues⟩ =
      (levels (k + 2)).expressionStatement
        ⟨token :: stop :: more, taken, functions, 1, false, issues⟩ := by
    have hpeek : ParserState.peek
        ⟨token :: stop :: more, taken, functions, 1, false, issues⟩ = token := rfl
    unfold statementInner
    rw [peek_bind hpeek, hmark, hmark, if_neg Bool.false_ne_true, if_neg Bool.false_ne_true, hnone]
  exact (statement_of_conditional harrow hstatement hstop (.of_runs hconditional)).runs trivial

/-- The issues of the substitutions are put together. -/
theorem substitutions_run (count taken : Nat) (more : List Token) (issues : List Issue)
    (h : ∀ part ∈ parts, ∃ e inner, Runs g.substitution (.start part functions nesting) e inner ∧
      inner.issues.length = count) :
    ∃ exprs issues', issues'.length = issues.length + parts.length * count ∧
      Runs (g.substitutions parts) ⟨more, taken, functions, nesting, noIn, issues⟩ exprs
        ⟨more, taken, functions, nesting, noIn, issues'⟩ := by
  induction parts generalizing issues with
  | nil => exact ⟨[], issues, by simp, rfl⟩
  | cons part parts ih =>
    obtain ⟨e, inner, hpart, hcount⟩ := h part List.mem_cons_self
    obtain ⟨exprs, issues', hlength, hparts⟩ :=
      ih (issues ++ inner.issues) fun p hp => h p (List.mem_cons_of_mem _ hp)
    refine ⟨e :: exprs, issues', ?_, ?_⟩
    · rw [hlength, List.length_append, hcount, List.length_cons, Nat.succ_mul]
      omega
    · unfold substitutions
      exact (Runs.onTokens hpart).bind (hparts.bind rfl)

end Grammar

/-! ## A list that uses up every allowance -/

namespace Grammar

variable {g : Grammar} {s : ParserState} {body : List Stmt} {brace : Token} {more : List Token}
  {taken functions nesting fuel n : Nat} {noIn : Bool} {issues : List Issue}

/-- A closing brace that starts a statement is a fault, and is passed over. -/
theorem programRound_brace (h : s.peek.isMark "\x7d" = true) :
    Runs (g.programRound body) s (.more body) (s.noting s.unexpected).pass := by
  have hopen : s.isAtEnd = false := (Token.single_of_isMark h).notEof
  unfold programRound
  refine .get ?_
  rw [hopen, h, if_neg Bool.false_ne_true, if_pos rfl]
  rfl

/-- A closing brace too many is one more issue, as long as there is room. -/
theorem programRound_brace_noted (h : brace.isMark "\x7d" = true)
    (hroom : issues.length < maxIssues) :
    Runs (g.programRound body)
      ⟨brace :: more, taken, functions, nesting, noIn, issues⟩ (.more body)
      ⟨more, taken + 1, functions, nesting, noIn, issues ++ [brace.misplaced.issue]⟩ := by
  have hopen : brace.isEof = false := (Token.single_of_isMark h).notEof
  have hfault : ParserState.unexpected ⟨brace :: more, taken, functions, nesting, noIn, issues⟩ =
      brace.misplaced := by
    rw [Token.misplaced, Token.isMark_iff.mp h]
    rfl
  have hround : Runs (g.programRound body)
      ⟨brace :: more, taken, functions, nesting, noIn, issues⟩ (.more body) _ :=
    programRound_brace h
  rw [hfault, ParserState.noting, if_pos hroom] at hround
  simpa [ParserState.pass, hopen] using hround

/-- As many closing braces as there is room for issues. -/
theorem rounds_braces (h : brace.isMark "\x7d" = true) (hroom : issues.length + n ≤ maxIssues) :
    rounds g.programRound (fuel + n) body
        ⟨List.replicate n brace ++ more, taken, functions, nesting, noIn, issues⟩ =
      rounds g.programRound fuel body
        ⟨more, taken + n, functions, nesting, noIn,
          issues ++ List.replicate n brace.misplaced.issue⟩ := by
  induction n generalizing taken issues with
  | zero => simp
  | succ n ih =>
    have hmore : (issues ++ [brace.misplaced.issue]).length + n ≤ maxIssues := by
      rw [List.length_append, List.length_singleton]
      omega
    rw [← Nat.add_assoc, List.replicate_succ, List.cons_append,
      rounds_more (programRound_brace_noted h (by omega)), ih hmore, List.append_assoc,
      List.singleton_append, ← List.replicate_succ, Nat.add_assoc, Nat.add_comm 1]

end Grammar

def Token.lineMark (text : String) : Token := .mk (.punct text) .start true

def Token.stop : Token := .mk .eof .start false

/-- A function with closing brackets for a body, each at the start of a line. No statement starts
so, and parsing goes on at the next one. -/
def crowdedPart : List Token :=
  (["(", ")", "=>", "\x7b"] ++ List.replicate maxIssues ")" ++ ["\x7d"]).map .lineMark ++ [.stop]

/-- A template with so many substitutions, as a statement. -/
def crowdedTemplate (n : Nat) : List Token :=
  [.mk (.template (List.replicate n crowdedPart)) .start true, .lineMark ";", .stop]

/-- Closing braces too many, and such a statement. -/
def crowded (n : Nat) : List Token :=
  List.replicate maxIssues (.lineMark "\x7d") ++ crowdedTemplate n

theorem Token.single_lineMark (text : String) : (Token.lineMark text).Single := ⟨rfl, rfl⟩

/-- Tokens without parts of their own before a list leave it well ended, with the same lists in
it. -/
theorem WellEnded.of_single (h : ∀ t ∈ ts, t.Single) (hrest : WellEnded rest) :
    WellEnded (ts ++ rest) ∧ listsWithin (ts ++ rest) = listsWithin rest := by
  induction ts with
  | nil => exact ⟨hrest, rfl⟩
  | cons t ts ih =>
    obtain ⟨ht, hts⟩ := List.forall_mem_cons.mp h
    obtain ⟨hended, hlists⟩ := ih hts
    refine ⟨.token ht.notEof (by simp [ht.noParts]) hended, ?_⟩
    rw [List.cons_append, listsWithin_cons, ht.noParts, hlists]
    rfl

/-- The list of a substitution ends well and has no templates in it. -/
theorem crowdedPart_wellEnded : WellEnded crowdedPart ∧ listsWithin crowdedPart = [] :=
  WellEnded.of_single (List.forall_mem_map.mpr fun text _ => Token.single_lineMark text) (.stop rfl)

/-- The template has as many lists in it as substitutions. -/
theorem crowdedTemplate_wellEnded (n : Nat) :
    WellEnded (crowdedTemplate n) ∧ (listsWithin (crowdedTemplate n)).length = n := by
  obtain ⟨hended, hlists⟩ := crowdedPart_wellEnded
  constructor
  · refine .token rfl (fun part hpart => ?_) (.token rfl (List.forall_mem_nil _) (.stop rfl))
    rw [List.eq_of_mem_replicate hpart]
    exact hended
  · have hinner : (List.replicate n crowdedPart).flatMap listsWithin = [] := by
      refine List.flatMap_eq_nil_iff.mpr fun part hpart => ?_
      rw [List.eq_of_mem_replicate hpart, hlists]
    have hrest : listsWithin [.lineMark ";", .stop] = [] := rfl
    rw [crowdedTemplate, listsWithin_cons, hrest]
    show (List.replicate n crowdedPart ++ (List.replicate n crowdedPart).flatMap listsWithin ++
      []).length = n
    rw [hinner, List.append_nil, List.append_nil, List.length_replicate]

theorem crowded_wellEnded (n : Nat) :
    WellEnded (crowded n) ∧ (listsWithin (crowded n)).length = n := by
  have hbraces : ∀ t ∈ List.replicate maxIssues (.lineMark "\x7d"), Token.Single t := by
    intro t ht
    rw [List.eq_of_mem_replicate ht]
    exact Token.single_lineMark _
  obtain ⟨hended, hlists⟩ := crowdedTemplate_wellEnded n
  obtain ⟨hwhole, hsame⟩ := WellEnded.of_single hbraces hended
  exact ⟨hwhole, (congrArg List.length hsame).trans hlists⟩

/-- Inside three productions, a substitution uses up its allowance. -/
theorem substitution_crowdedPart : ∃ e inner,
    Runs (Grammar.levels 198).substitution (.start crowdedPart 0 3) e inner ∧
      inner.issues.length = maxIssues := by
  have hread : (match (Grammar.levels 198).substitution (.start crowdedPart 0 3) with
      | .ok _ inner => inner.issues.length
      | .error _ _ => 0) = maxIssues := by
    decide +kernel
  cases hr : (Grammar.levels 198).substitution (.start crowdedPart 0 3) with
  | ok e inner =>
    rw [hr] at hread
    exact ⟨e, inner, hr, hread⟩
  | error fault inner =>
    rw [hr] at hread
    cases hread

/-- Such a statement is read, and its substitutions add what they may. -/
theorem statement_crowdedTemplate (n taken : Nat) (issues : List Issue) :
    ∃ stmt issues', issues'.length = issues.length + n * maxIssues ∧
      Runs Grammar.full.statement ⟨crowdedTemplate n, taken, 0, 0, false, issues⟩ stmt
        ⟨[.stop], taken + 1 + 1, 0, 0, false, issues'⟩ := by
  have hparts : ∀ part ∈ List.replicate n crowdedPart, ∃ e inner,
      Runs (Grammar.levels 198).substitution (.start part 0 3) e inner ∧
        inner.issues.length = maxIssues := by
    intro part hpart
    rw [List.eq_of_mem_replicate hpart]
    exact substitution_crowdedPart
  obtain ⟨exprs, issues', hlength, hruns⟩ :=
    Grammar.substitutions_run maxIssues (taken + 1) [.lineMark ";", .stop] issues hparts
  rw [List.length_replicate] at hlength
  exact ⟨_, issues', hlength, Grammar.statement_template rfl rfl hruns⟩

/-- Reading the list leaves an allowance of issues for each substitution and one more. -/
theorem program_crowded (n : Nat) : ∃ program s,
    Runs Grammar.full.program (.start (crowded n) 0 0) program s ∧
      s.issues.length = maxIssues * (n + 1) := by
  have hbraces : Parse.rounds Grammar.full.programRound (4 + maxIssues) []
        (.start (crowded n) 0 0) =
      Parse.rounds Grammar.full.programRound 4 [] ⟨crowdedTemplate n, 0 + maxIssues, 0, 0, false,
        [] ++ List.replicate maxIssues (Token.lineMark "\x7d").misplaced.issue⟩ :=
    Grammar.rounds_braces rfl le_rfl
  have hfuel : (ParserState.start (crowded n) 0 0).rest.length + 1 = 4 + maxIssues := by
    simp [ParserState.start, crowded, crowdedTemplate]
    omega
  obtain ⟨stmt, issues, hlength, hstatement⟩ := statement_crowdedTemplate n (0 + maxIssues)
    ([] ++ List.replicate maxIssues (Token.lineMark "\x7d").misplaced.issue)
  have hround := Grammar.programRound_runs [] rfl rfl hstatement
  refine ⟨⟨[stmt]⟩, ⟨[.stop], 0 + maxIssues + 1 + 1, 0, 0, false, issues⟩, ?_, ?_⟩
  · rw [Grammar.program_eq]
    refine .loop ?_
    rw [hfuel, Runs, hbraces, rounds_more hround]
    exact Runs.rounds_done (Grammar.programRound_end rfl)
  · rw [hlength, List.nil_append, List.length_replicate, Nat.mul_comm n, Nat.mul_succ, Nat.add_comm]

namespace Program

/-- The bound is reached. -/
theorem length_issues_crowded (n : Nat) :
    (ofTokens (crowded n)).2.length = maxIssues * (n + 1) := by
  obtain ⟨program, s, hruns, hissues⟩ := program_crowded n
  rw [ofTokens, hruns]
  exact hissues

/-- How many issues the cap admits: lists with at most so many substitutions, at any depth, have at
most so many issues exactly if these are enough for one cap for the list and one for each of the
substitutions. -/
theorem issues_bounded_iff (lists bound : Nat) :
    (∀ tokens, WellEnded tokens → (listsWithin tokens).length ≤ lists →
      (ofTokens tokens).2.length ≤ bound) ↔ maxIssues * (lists + 1) ≤ bound := by
  constructor
  · intro h
    obtain ⟨hended, hlists⟩ := crowded_wellEnded lists
    rw [← length_issues_crowded lists]
    exact h (crowded lists) hended hlists.le
  · intro h tokens _ hlists
    calc (ofTokens tokens).2.length
        ≤ maxIssues * ((listsWithin tokens).length + 1) := length_issues_le tokens
      _ ≤ maxIssues * (lists + 1) := Nat.mul_le_mul_left _ (Nat.succ_le_succ hlists)
      _ ≤ bound := h

/-- As many closing braces as issues are recorded, and a template with a function in a substitution.
The body of the function is a closing bracket. -/
def overfullScript : String :=
  .ofList (List.replicate maxIssues '\x7d') ++ "\x60$\x7b()=>\x7b);\x7d\x7d\x60"

/-- The issue of the function comes on top of those that use up the cap. -/
theorem overfullScript_exceeds :
    (Lexer.tokensOf overfullScript).2 = [] ∧ WellEnded (Lexer.tokensOf overfullScript).1 ∧
      (ofTokens (Lexer.tokensOf overfullScript).1).2.length = maxIssues + 1 := by
  have hchars : overfullScript.toList =
      List.replicate maxIssues '\x7d' ++ "\x60$\x7b()=>\x7b);\x7d\x7d\x60".toList := by
    rw [overfullScript, String.toList_append, String.toList_ofList]
  rw [Lexer.tokensOf, hchars]
  refine ⟨by decide +kernel, (Lexer.tokenizeChars_lexed _).wellEnded, by decide +kernel⟩

end Program

end ScriptHooks.Script

/-
ScriptHooks.Proofs.Script.ChainOutcomes — what is made of a script that is one chain of operators.

After a fault, parsing goes on at the next line. What is left there is again a chain, with or
without an operator before it (`Remains`), so that each round of the loop over statements either
takes all that is left or records a fault of a known kind and leaves less (`rounds_remains`). The
main statement puts together the tree of the chain, when it is accepted, and which issues there are
when it is not (`Program.ofTokens_chain`).

The steps:

* `Remains` is closed under taking tokens from the front (`Remains.suffix`), so it holds wherever
  recovery stops;
* `recover_spec`: recovery leaves fewer tokens, and stops at the end or at the start of a line.
  It is here that a line end in the source decides what is reported;
* `statement_remains`: a statement that starts there takes all of it, or fails for an excess, or
  fails for the operator that it starts with;
* `programRound_runs` and `programRound_fails`: the round of the loop over statements for each
  of these.

`Recorded` says that nothing but faults of some kind has been recorded in between; it is transitive,
and rounds add to it. The first fault of a chain is an excess, since a chain starts with an operand.
The later issues need not be about length or depth: an operator at the start of a line is one of
them (`Program.brokenPower_not_excess_alone`). That is by the design of the recovery, which stops at
a line start without a look at what stands there.
-/
import ScriptHooks.Proofs.Script.ChainStatements
import ScriptHooks.Proofs.Script.LoopRounds

namespace ScriptHooks.Script

open Parse

/-! ## What is left after a fault -/

/-- What can be left of a chain with these links, the semicolon after it and the end token. -/
inductive Remains (links : List Link) (stop eof : Token) : List Token → Prop
  | nothing : Remains links stop eof []
  | atEnd : Remains links stop eof [eof]
  | operand (chain : OperatorChain) (h : chain.links ⊆ links) :
    Remains links stop eof (chain.tokens ++ [stop, eof])
  | operators (rest : List Link) (h : rest ⊆ links) :
    Remains links stop eof (Link.tokens rest ++ [stop, eof])

/-- The tokens are at their end, or at a token at the start of a line that is no semicolon. -/
def StartsLine (ts : List Token) : Prop :=
  (ts.headD default).isEof = false →
    (ts.headD default).newlineBefore = true ∧ (ts.headD default).isMark ";" = false

section Remains

variable {links : List Link} {stop eof token : Token} {ts ts' : List Token}

/-- One token less is left. -/
theorem Remains.tail (h : Remains links stop eof ts) : Remains links stop eof ts.tail := by
  cases h with
  | nothing => exact .nothing
  | atEnd => exact .nothing
  | operand chain h => exact .operators chain.links h
  | operators rest h =>
    cases rest with
    | nil => exact .atEnd
    | cons link rest => exact .operand (link.chain rest) fun other hother => h (.tail _ hother)

/-- Fewer tokens are left. -/
theorem Remains.suffix (h : Remains links stop eof ts) (hs : ts' <:+ ts) :
    Remains links stop eof ts' := by
  obtain ⟨taken, rfl⟩ := hs
  induction taken with
  | nil => exact h
  | cons token taken ih => exact ih h.tail

/-- Before the end there is the semicolon at least. -/
theorem Remains.two_le_length (heof : eof.isEof = true) (h : Remains links stop eof ts)
    (hopen : (ts.headD default).isEof = false) : 2 ≤ ts.length := by
  cases h with
  | nothing => cases hopen
  | atEnd => cases heof.symm.trans hopen
  | operand chain h => simp [OperatorChain.tokens]
  | operators rest h => simp

/-- A mark that is neither a semicolon nor an operator is not left. -/
theorem Remains.isMark (hstop : stop.isMark ";" = true) (heof : eof.isEof = true)
    (h : Remains links stop eof ts) {mark : String}
    (hmark : mark ∉ ";" :: binaryOperators.map Prod.fst) :
    (ts.headD default).isMark mark = false := by
  cases h with
  | nothing => rfl
  | atEnd => simp [Token.isMark, Token.isEof_iff.mp heof]
  | operand chain h => exact Token.isMark_of_isPlain chain.isPlain mark
  | operators rest h =>
    obtain ⟨next, more, htokens, hnext⟩ := Link.exists_endsOperand hstop rest [eof]
    rw [htokens]
    exact Token.isMark_of_endsOperand hnext hmark

/-- After the semicolon the end comes. -/
theorem Remains.of_semicolon (heof : eof.isEof = true) (h : Remains links stop eof ts)
    (hmark : (ts.headD default).isMark ";" = true) : ts = [stop, eof] := by
  cases h with
  | nothing => cases hmark
  | atEnd => simp [Token.isMark, Token.isEof_iff.mp heof] at hmark
  | operand chain h =>
    cases (Token.isMark_of_isPlain chain.isPlain ";").symm.trans hmark
  | operators rest h =>
    cases rest with
    | nil => rfl
    | cons link rest =>
      have hstarts : link.operator.Starts link.operand := .inr link.isOperator
      have hother : link.operator.isMark ";" = false := hstarts.isMark (by decide)
      cases hother.symm.trans hmark

end Remains

namespace ParserState

variable {links : List Link} {stop eof : Token} {s s' : ParserState}

/-- A token that does not end the list is passed. -/
theorem rest_pass (h : s.isAtEnd = false) : ∃ token, s.rest = token :: s.pass.rest := by
  have hrest : s.rest ≠ [] := by
    intro hnil
    rw [isAtEnd, peek, tokenAhead, hnil] at h
    cases h
  obtain ⟨token, rest, hcons⟩ := List.exists_cons_of_ne_nil hrest
  have htoken : token.isEof = false := by
    rw [isAtEnd, peek, tokenAhead, hcons] at h
    exact h
  refine ⟨token, ?_⟩
  rw [pass, hcons]
  simp [htoken]

/-- A token that is passed is no longer left. -/
theorem length_pass (h : s.isAtEnd = false) : s.pass.rest.length < s.rest.length := by
  obtain ⟨token, hrest⟩ := rest_pass h
  rw [hrest]
  exact Nat.lt_succ_self _

/-- What is skipped ends at the end or at the start of a line. -/
theorem skipToBoundary_spec (hstop : stop.isMark ";" = true) (heof : eof.isEof = true)
    (h : Remains links stop eof s.rest) {fuel : Nat} (hfuel : s.rest.length < fuel) :
    s.Onward (skipToBoundary fuel 0 s) ∧ StartsLine (skipToBoundary fuel 0 s).rest := by
  induction fuel generalizing s with
  | zero => exact absurd hfuel (Nat.not_lt_zero _)
  | succ fuel ih =>
    have hopen : s.peek.isMark "\x7b" = false := h.isMark hstop heof (by decide)
    have hclose : s.peek.isMark "\x7d" = false := h.isMark hstop heof (by decide)
    rw [skipToBoundary]
    simp only [hopen, hclose, true_and, Bool.false_eq_true, false_or, if_false]
    by_cases hend : s.isAtEnd = true
    · rw [if_pos hend]
      exact ⟨.refl s, fun hne => by cases hend.symm.trans hne⟩
    rw [if_neg hend]
    by_cases hsemicolon : s.peek.isMark ";" = true
    · obtain ⟨token, hrest⟩ := rest_pass (Bool.eq_false_iff.mpr hend)
      rw [h.of_semicolon heof hsemicolon] at hrest
      have hlast : s.pass.rest = [eof] := (List.cons.inj hrest).2.symm
      rw [if_pos hsemicolon, hlast]
      exact ⟨.pass s, fun hne => by cases heof.symm.trans hne⟩
    rw [if_neg hsemicolon]
    by_cases hline : s.peek.newlineBefore = true
    · rw [if_pos hline]
      exact ⟨.refl s, fun _ => ⟨hline, Bool.eq_false_iff.mpr hsemicolon⟩⟩
    · rw [if_neg hline]
      have hshorter := length_pass (Bool.eq_false_iff.mpr hend)
      obtain ⟨honward, hstarts⟩ := ih (h.suffix (Onward.pass s).suffix) (by omega)
      exact ⟨(Onward.pass s).trans honward, hstarts⟩

/-- A fault is recorded while there is room for it. -/
theorem noting_eq (s : ParserState) (fault : Fault) :
    s.noting fault = { s with issues := (s.noting fault).issues } := by
  unfold noting
  split
  · rfl
  · rfl

/-- Recovery leaves fewer tokens than there were before the statement, and these start a line. -/
theorem recover_spec (hstop : stop.isMark ";" = true) (heof : eof.isEof = true)
    (h : Remains links stop eof s.rest) (hopen : s.isAtEnd = false) (hsuffix : s'.rest <:+ s.rest)
    (hcount : s'.consumed + s'.rest.length = s.consumed + s.rest.length) :
    s'.Onward (s'.recover s.consumed) ∧ (s'.recover s.consumed).rest.length < s.rest.length ∧
      StartsLine (s'.recover s.consumed).rest := by
  have hskip : ∀ middle : ParserState, s'.Onward middle → middle.rest.length < s.rest.length →
      s'.Onward (skipToBoundary (middle.rest.length + 1) 0 middle) ∧
        (skipToBoundary (middle.rest.length + 1) 0 middle).rest.length < s.rest.length ∧
        StartsLine (skipToBoundary (middle.rest.length + 1) 0 middle).rest := by
    intro middle honward hshorter
    have hleft := h.suffix (honward.suffix.trans hsuffix)
    obtain ⟨honward', hstarts⟩ := skipToBoundary_spec hstop heof hleft (Nat.lt_succ_self _)
    exact ⟨honward.trans honward', honward'.suffix.length_le.trans_lt hshorter, hstarts⟩
  unfold recover
  split
  case isTrue hsame =>
    have hrest : s'.rest = s.rest := hsuffix.eq_of_length (by omega)
    have hopen' : s'.isAtEnd = false := by
      rw [isAtEnd, peek, tokenAhead, hrest]
      exact hopen
    exact hskip _ (.pass s') (hrest ▸ length_pass hopen')
  case isFalse hmore =>
    have := hsuffix.length_le
    exact hskip _ (.refl s') (by omega)

/-- The state after a statement that failed. -/
theorem recover_noting (hstop : stop.isMark ";" = true) (heof : eof.isEof = true)
    (h : Remains links stop eof s.rest) (hopen : s.isAtEnd = false) (hs : s.Onward s')
    (fault : Fault) : ∃ rest taken, (s'.noting fault).recover s.consumed =
        { s with rest := rest, consumed := taken, issues := (s'.noting fault).issues } ∧
      rest <:+ s.rest ∧ rest.length < s.rest.length ∧ StartsLine rest := by
  have hnoted := noting_eq s' fault
  have hrest : (s'.noting fault).rest = s'.rest := by rw [hnoted]
  have hconsumed : (s'.noting fault).consumed = s'.consumed := by rw [hnoted]
  have hsuffix : (s'.noting fault).rest <:+ s.rest := hrest ▸ hs.suffix
  obtain ⟨honward, hshorter, hstarts⟩ :=
    recover_spec hstop heof h hopen hsuffix (by rw [hrest, hconsumed, hs.count])
  have hleft := honward.suffix.trans hsuffix
  obtain ⟨passed, -, hstate⟩ := honward
  obtain ⟨taken, -, hs'⟩ := hs
  obtain ⟨hfunctions, hnesting, hnoIn⟩ : (s'.noting fault).functionDepth = s.functionDepth ∧
      (s'.noting fault).nesting = s.nesting ∧ (s'.noting fault).noIn = s.noIn := by
    rw [hnoted, hs']
    exact ⟨rfl, rfl, rfl⟩
  rw [hfunctions, hnesting, hnoIn] at hstate
  exact ⟨_, _, hstate, hleft, hshorter, hstarts⟩

end ParserState

/-- The fault is one that may come after the first one of a chain with these links: an excess too,
or an operator at the start of a line that may not stand before an operand, which is any but `+`
and `-`. -/
def Fault.Follows (links : List Link) (fault : Fault) : Prop :=
  fault.IsExcess ∨ ∃ link ∈ links, link.operator.newlineBefore = true ∧
    link.operator.prefixOperator? = none ∧ fault = link.operator.misplaced

/-- Nothing but faults of this kind has been recorded in between. -/
def Recorded (kind : Fault → Prop) (issues issues' : List Issue) : Prop :=
  ∃ faults : List Fault, issues' = issues ++ faults.map Fault.issue ∧ ∀ fault ∈ faults, kind fault

namespace Recorded

variable {kind : Fault → Prop} {issues issues' issues'' : List Issue}

/-- Nothing was recorded. -/
theorem refl (issues : List Issue) : Recorded kind issues issues :=
  ⟨[], (List.append_nil issues).symm, by simp⟩

theorem trans (h : Recorded kind issues issues') (h' : Recorded kind issues' issues'') :
    Recorded kind issues issues'' := by
  obtain ⟨faults, rfl, hfaults⟩ := h
  obtain ⟨faults', rfl, hfaults'⟩ := h'
  refine ⟨faults ++ faults', by simp, ?_⟩
  intro fault hfault
  rcases List.mem_append.mp hfault with hmem | hmem
  · exact hfaults fault hmem
  · exact hfaults' fault hmem

/-- A fault of the kind was recorded, if there was room. -/
theorem noting {fault : Fault} (s : ParserState) (h : kind fault) :
    Recorded kind s.issues (s.noting fault).issues := by
  unfold ParserState.noting
  split
  · exact ⟨[fault], rfl, by simpa using h⟩
  · exact refl s.issues

end Recorded

namespace Grammar

variable {g : Grammar} {links : List Link} {stop eof : Token} {ts : List Token}
  {taken functions fuel k : Nat} {issues : List Issue} {body : List Stmt}

/-- A statement that starts with an operand takes all that is left, or fails for an excess. -/
theorem statement_opening {opening : List Token} {left : Expr} {rest : List Link}
    (h : Opening opening left) (hstop : stop.isMark ";" = true) (hk : k + 3 = maxNesting) :
    (∃ stmt taken', Runs (levels (k + 4)).statement
      ⟨opening ++ (Link.tokens rest ++ [stop, eof]), taken, functions, 0, false, issues⟩ stmt
      ⟨[eof], taken', functions, 0, false, issues⟩) ∨
    Fails (levels (k + 4)).statement
      ⟨opening ++ (Link.tokens rest ++ [stop, eof]), taken, functions, 0, false, issues⟩
      (Fault.Follows links) := by
  by_cases hafford : (Link.join left rest).Affordable 2
  · exact .inl ⟨_, _, (statement_within h hstop hk).runs hafford⟩
  · exact .inr (((statement_within h hstop hk).fails hafford).mono fun fault => .inl)

/-- A statement that starts in what is left of a chain takes all of it or fails as such statements
may. -/
theorem statement_remains (hstop : stop.isMark ";" = true) (heof : eof.isEof = true)
    (h : Remains links stop eof ts) (hline : StartsLine ts)
    (hopen : (ts.headD default).isEof = false) (hk : k + 3 = maxNesting) :
    (∃ stmt taken', Runs (levels (k + 4)).statement
      ⟨ts, taken, functions, 0, false, issues⟩ stmt
      ⟨[eof], taken', functions, 0, false, issues⟩) ∨
    Fails (levels (k + 4)).statement ⟨ts, taken, functions, 0, false, issues⟩
      (Fault.Follows links) := by
  obtain ⟨hnewline, hmark⟩ := hline hopen
  cases h with
  | nothing => cases hopen
  | atEnd => cases heof.symm.trans hopen
  | operand chain h => exact statement_opening (.plain chain.isPlain) hstop hk
  | operators rest h =>
    cases rest with
    | nil => cases hstop.symm.trans hmark
    | cons link rest =>
      cases hprefix : link.operator.prefixOperator? with
      | some op => exact statement_opening (.signed link hprefix) hstop hk
      | none =>
        refine .inr ((statement_misplaced link hprefix).mono ?_)
        rintro fault rfl
        exact .inr ⟨link, h List.mem_cons_self, hnewline, hprefix, rfl⟩

section Round

variable {s s' : ParserState} {stmt : Stmt} {kind : Fault → Prop}

/-- At the end the loop is done. -/
theorem programRound_end (h : s.isAtEnd = true) :
    Runs (g.programRound body) s (.done ⟨body.reverse⟩) s := by
  unfold programRound
  refine .get ?_
  rw [if_pos h]
  rfl

variable (body) in
/-- A statement that is read is added. -/
theorem programRound_runs (hopen : s.isAtEnd = false) (hbrace : s.peek.isMark "\x7d" = false)
    (h : Runs g.statement s stmt s') :
    Runs (g.programRound body) s (.more (stmt :: body)) s' := by
  unfold programRound
  refine .get ?_
  rw [hopen, hbrace, if_neg Bool.false_ne_true, if_neg Bool.false_ne_true]
  exact h.recovering.bind rfl

variable (body) in
/-- A statement that fails leaves its fault, and parsing goes on behind it. -/
theorem programRound_error {fault : Fault} (hopen : s.isAtEnd = false)
    (hbrace : s.peek.isMark "\x7d" = false) (h : g.statement s = .error fault s') :
    Runs (g.programRound body) s (.more body) ((s'.noting fault).recover s.consumed) := by
  have hrecovering : Runs (recovering g.statement) s none
      ((s'.noting fault).recover s.consumed) := by
    unfold Runs recovering
    rw [h]
  unfold programRound
  refine .get ?_
  rw [hopen, hbrace, if_neg Bool.false_ne_true, if_neg Bool.false_ne_true]
  exact hrecovering.bind rfl

variable (body) in
/-- The same for a statement of which only the kind of its fault is known. -/
theorem programRound_fails (hopen : s.isAtEnd = false) (hbrace : s.peek.isMark "\x7d" = false)
    (h : Fails g.statement s kind) : ∃ fault s', kind fault ∧ s.Onward s' ∧
      Runs (g.programRound body) s (.more body) ((s'.noting fault).recover s.consumed) := by
  obtain ⟨fault, s', hfault, hkind, hs⟩ := h
  exact ⟨fault, s', hkind, hs, programRound_error body hopen hbrace hfault⟩

end Round

/-- What is left of a chain is gone through to the end. -/
theorem rounds_remains (hstop : stop.isMark ";" = true) (heof : eof.isEof = true)
    (hk : k + 3 = maxNesting) (h : Remains links stop eof ts) (hline : StartsLine ts)
    (hfuel : ts.length < fuel) :
    ∃ program s', Runs (rounds (levels (k + 4)).programRound fuel body)
        ⟨ts, taken, functions, 0, false, issues⟩ program s' ∧
      Recorded (Fault.Follows links) issues s'.issues := by
  induction fuel generalizing ts taken issues body with
  | zero => exact absurd hfuel (Nat.not_lt_zero _)
  | succ fuel ih =>
    unfold rounds
    by_cases hend : ParserState.isAtEnd ⟨ts, taken, functions, 0, false, issues⟩ = true
    · exact ⟨_, _, (programRound_end hend).bind rfl, .refl issues⟩
    have hopen : ParserState.isAtEnd ⟨ts, taken, functions, 0, false, issues⟩ = false :=
      Bool.eq_false_iff.mpr hend
    have hbrace :
        (ParserState.peek ⟨ts, taken, functions, 0, false, issues⟩).isMark "\x7d" = false :=
      h.isMark hstop heof (by decide)
    rcases statement_remains hstop heof h hline hopen hk with ⟨stmt, taken', hruns⟩ | hfails
    · have hlong := h.two_le_length heof hopen
      obtain ⟨program, s', hrest, hrecorded⟩ := ih .atEnd (fun hne => by cases heof.symm.trans hne)
        (by rw [List.length_singleton]; omega)
      exact ⟨program, s', (programRound_runs body hopen hbrace hruns).bind hrest, hrecorded⟩
    · obtain ⟨fault, s', hkind, honward, hround⟩ := programRound_fails body hopen hbrace hfails
      obtain ⟨rest, taken', hstate, hsuffix, hshorter, hline'⟩ :=
        ParserState.recover_noting hstop heof h hopen honward fault
      have hnoted : Recorded (Fault.Follows links) issues (s'.noting fault).issues := by
        obtain ⟨_, -, hs'⟩ := honward
        have hissues : s'.issues = issues := by rw [hs']
        exact hissues ▸ .noting s' hkind
      obtain ⟨program, s'', hrest, hrecorded⟩ := ih (h.suffix hsuffix) hline'
        (hshorter.trans_le (Nat.le_of_lt_succ hfuel))
      rw [hstate] at hround
      exact ⟨program, s'', hround.bind hrest, hnoted.trans hrecorded⟩

/-- The rounds of a script that is one chain: the first one takes all of it, or its fault is an
excess. -/
theorem rounds_chain (chain : OperatorChain) (hstop : stop.isMark ";" = true)
    (heof : eof.isEof = true) (hk : k + 3 = maxNesting)
    (hfuel : (chain.tokens ++ [stop, eof]).length ≤ fuel) :
    (chain.tree.Affordable 2 → ∃ s', Runs (rounds (levels (k + 4)).programRound (fuel + 1) [])
      (.start (chain.tokens ++ [stop, eof]) 0 0) ⟨[.expr chain.tree]⟩ s' ∧ s'.issues = []) ∧
    (¬chain.tree.Affordable 2 → ∃ program s', ∃ fault : Fault,
      Runs (rounds (levels (k + 4)).programRound (fuel + 1) [])
        (.start (chain.tokens ++ [stop, eof]) 0 0) program s' ∧
      fault.IsExcess ∧ Recorded (Fault.Follows chain.links) [fault.issue] s'.issues) := by
  have hremains : Remains chain.links stop eof (chain.tokens ++ [stop, eof]) :=
    .operand chain fun link hlink => hlink
  have hopen : ParserState.isAtEnd (.start (chain.tokens ++ [stop, eof]) 0 0) = false :=
    Token.isEof_of_isPlain chain.isPlain
  have hbrace : (ParserState.peek (.start (chain.tokens ++ [stop, eof]) 0 0)).isMark "\x7d" =
      false :=
    Token.isMark_of_isPlain chain.isPlain "\x7d"
  have hstatement : RunsWithin (chain.tree.Affordable 2) (levels (k + 4)).statement
      (.start (chain.tokens ++ [stop, eof]) 0 0) (.expr chain.tree)
      ⟨[eof], 0 + 1 + (Link.tokens chain.links).length + 1, 0, 0, false, []⟩ :=
    statement_within (.plain chain.isPlain) hstop hk
  constructor
  · intro hafford
    obtain ⟨fuel, rfl⟩ : ∃ n, fuel = n + 1 := by
      have := hremains.two_le_length heof hopen
      exact Nat.exists_eq_add_one.mpr (by omega)
    have hend : ParserState.isAtEnd
        ⟨[eof], 0 + 1 + (Link.tokens chain.links).length + 1, 0, 0, false, []⟩ = true := heof
    have hround := programRound_runs [] hopen hbrace (hstatement.runs hafford)
    exact ⟨_, hround.bind ((programRound_end hend).bind rfl), rfl⟩
  · intro hexcess
    obtain ⟨fault, s', hkind, honward, hround⟩ :=
      programRound_fails [] hopen hbrace (hstatement.fails hexcess)
    obtain ⟨rest, taken, hstate, hsuffix, hshorter, hline⟩ :=
      ParserState.recover_noting hstop heof hremains hopen honward fault
    have hissues : (s'.noting fault).issues = [fault.issue] := by
      obtain ⟨_, -, hs'⟩ := honward
      rw [hs']
      rfl
    rw [hstate, hissues] at hround
    have hleft : ∃ program s'', Runs (rounds (levels (k + 4)).programRound fuel [])
        ⟨rest, taken, 0, 0, false, [fault.issue]⟩ program s'' ∧
        Recorded (Fault.Follows chain.links) [fault.issue] s''.issues :=
      rounds_remains hstop heof hk (hremains.suffix hsuffix) hline (hshorter.trans_le hfuel)
    obtain ⟨program, s'', hrest, hrecorded⟩ := hleft
    exact ⟨program, s'', fault, hround.bind hrest, hkind, hrecorded⟩

end Grammar

namespace Program

/-- What is made of a chain with a semicolon after it. It has exactly one tree that is read as the
chain and in which each operator is the loosest of its range. If that tree fits at the two levels of
nesting that a statement and its expression open, it is the only statement. Otherwise the first
issue is an excess, and each one after it is another one or says that an operator that may not stand
before an operand is at the start of a line, where parsing goes on. -/
theorem ofTokens_chain (chain : OperatorChain) (p₁ p₂ : Position) (b₁ b₂ : Bool) :
    ∃ tree, (∀ other, chain.IsTree other ↔ other = tree) ∧
      (tree.Affordable 2 ∧
          ofTokens (chain.tokens ++ [.mk (.punct ";") p₁ b₁, .mk .eof p₂ b₂]) =
            (⟨[.expr tree]⟩, []) ∨
        ¬tree.Affordable 2 ∧ ∃ fault faults,
          (ofTokens (chain.tokens ++ [.mk (.punct ";") p₁ b₁, .mk .eof p₂ b₂])).2 =
            List.map Fault.issue (fault :: faults) ∧
          fault.IsExcess ∧ ∀ later ∈ faults, later.Follows chain.links) := by
  have hstop : (Token.mk (.punct ";") p₁ b₁).isMark ";" = true := rfl
  have heof : (Token.mk .eof p₂ b₂).isEof = true := rfl
  obtain ⟨k, hk⟩ : ∃ k, k + 3 = maxNesting := ⟨197, rfl⟩
  have hrounds : ∀ tokens, Grammar.full.program (.start tokens 0 0) =
      Parse.rounds (Grammar.levels (k + 4)).programRound (tokens.length + 1) []
        (.start tokens 0 0) := by
    intro tokens
    rw [Grammar.full, ← hk, Grammar.program_eq]
    rfl
  obtain ⟨haccepted, hrefused⟩ := Grammar.rounds_chain chain hstop heof hk le_rfl
  refine ⟨chain.tree, fun other => OperatorChain.isTree_iff, ?_⟩
  by_cases hafford : chain.tree.Affordable 2
  · obtain ⟨s', hruns, hissues⟩ := haccepted hafford
    refine .inl ⟨hafford, ?_⟩
    rw [ofTokens, hrounds, hruns]
    exact congrArg _ hissues
  · obtain ⟨program, s', fault, hruns, hfault, faults, hissues, hfaults⟩ := hrefused hafford
    refine .inr ⟨hafford, fault, faults, ?_, hfault, hfaults⟩
    rw [ofTokens, hrounds, hruns]
    exact hissues

/-- A power of 198 exponents on one line, and a factor on the next one. -/
def brokenPower : OperatorChain where
  first := .mk (.word "a") ⟨1, 1⟩ true
  links :=
    (List.range 198).map (fun i => ⟨.mk (.punct "**") ⟨1, 3 * i + 2⟩ false,
      .mk (.word "a") ⟨1, 3 * i + 4⟩ false, rfl, rfl⟩) ++
    [⟨.mk (.punct "*") ⟨2, 1⟩ true, .mk (.word "a") ⟨2, 2⟩ false, rfl, rfl⟩]
  isPlain := rfl

/-- An excess where the chain breaks off, and then the operator that starts the second line. -/
theorem issues_brokenPower :
    (ofTokens (brokenPower.tokens ++
        [.mk (.punct ";") ⟨2, 3⟩ false, .mk .eof ⟨2, 4⟩ false])).2 =
      [Fault.issue ⟨"script nesting is too deep", ⟨1, 595⟩⟩,
        Fault.issue ⟨"unexpected '*'", ⟨2, 1⟩⟩] := by
  decide +kernel

/-- A chain is neither always accepted nor refused for excesses alone. -/
theorem brokenPower_not_excess_alone :
    ¬((∃ tree, brokenPower.IsTree tree ∧
        ofTokens (brokenPower.tokens ++
          [.mk (.punct ";") ⟨2, 3⟩ false, .mk .eof ⟨2, 4⟩ false]) = (⟨[.expr tree]⟩, [])) ∨
      ∀ issue ∈ (ofTokens (brokenPower.tokens ++
          [.mk (.punct ";") ⟨2, 3⟩ false, .mk .eof ⟨2, 4⟩ false])).2,
        ∃ fault : Fault, fault.IsExcess ∧ issue = fault.issue) := by
  have hissues := issues_brokenPower
  rintro (⟨tree, -, haccepted⟩ | hexcess)
  · rw [haccepted] at hissues
    cases hissues
  · rw [hissues] at hexcess
    obtain ⟨fault, hfault, hissue⟩ := hexcess _ (List.mem_cons_of_mem _ List.mem_cons_self)
    have hmessage : "unexpected '*'" = fault.message := congrArg Issue.message hissue
    rw [Fault.IsExcess, ← hmessage] at hfault
    revert hfault
    decide

end Program

end ScriptHooks.Script

/-
ScriptHooks.Proofs.Script.ChainReading — what the productions of operators make of a chain.

A production reads a chain up to the first operator that is looser than its bound, provided that the
tree of that part can be afforded (`Grammar.ReadsChain`); otherwise it fails because something is
too long or too deep. `RunsWithin affordable p s a s'` says both at once, and has the rules of
`Runs` for sequences: a part that costs nothing may stand before or behind, and of two parts that
cost something the second may assume the first was afforded (`RunsWithin.andThen`).

The loop over operators keeps a left operand into which nothing more can be hung on the right: each
round puts the next operator above it, with a right operand that a level of nesting further down has
read up to the bound of that operator (`Grammar.operators_within`). The invariant is `Closed`, and
the tree of each round is found by `Link.join_inside`. The induction is on the room that the loop
has. Where it is used up and an operator still comes, the left operand alone has as many levels as
a tree may have, so that such a chain is one of those that cannot be afforded.

By induction on the levels that are left, every right operand is read so
(`Grammar.readsChain_operand`). At the last level not even an operand is read, and the tree of an
operand cannot be afforded there either, so that the statement is the same at every level.

A chain here ends with a semicolon. Any token that ends an operand and is no operator would do for
these lemmas; statements end so.
-/
import ScriptHooks.Proofs.Script.OperatorChains
import ScriptHooks.Proofs.Script.ParseRuns

namespace ScriptHooks.Script

open Parse

/-! ## Operands -/

namespace Grammar

variable {g : Grammar} {token next : Token} {more : List Token} {taken functions nesting : Nat}
  {noIn : Bool} {issues : List Issue} {s s' : ParserState}

/-- A word that is not reserved, with what ends an operand behind it, is a name. -/
theorem primaryWord_plain {name : String} (hk : token.kind = .word name)
    (hname : isReservedWord name = false) (hnext : next.endsOperand = true) :
    Runs (g.primaryWord name token.position)
      ⟨token :: next :: more, taken, functions, nesting, noIn, issues⟩
      token.atom ⟨next :: more, taken + 1, functions, nesting, noIn, issues⟩ := by
  have hpass : Runs pass ⟨token :: next :: more, taken, functions, nesting, noIn, issues⟩ ()
      ⟨next :: more, taken + 1, functions, nesting, noIn, issues⟩ :=
    .pass (by simp [Token.isEof, hk])
  unfold primaryWord
  split
  case h_2 | h_3 | h_4 | h_5 =>
    have hatom : token.atom = .literal := by simp [Token.atom, hk]
    rw [hatom]
    exact hpass.bind rfl
  case h_10 hthis hnull htrue hfalse _ _ _ _ =>
    have hatom : token.atom = .ident name token.position := by
      simpa [Token.atom, hk] using ⟨hthis, hnull, htrue, hfalse⟩
    have hfunction : next.isWord "function" = false :=
      Token.isWord_of_endsOperand hnext (by decide)
    refine .tokenAhead (rfl : _ = next) ?_
    rw [hfunction, Bool.and_false, hname, hatom]
    exact hpass.bind rfl
  all_goals exact absurd hname (by decide)

/-- A plain token is an operand. -/
theorem primary_plain (h : token.isPlain = true) (hnext : next.endsOperand = true) :
    Runs g.primary ⟨token :: next :: more, taken, functions, nesting, noIn, issues⟩
      token.atom ⟨next :: more, taken + 1, functions, nesting, noIn, issues⟩ := by
  unfold primary
  refine .peek (rfl : _ = token) ?_
  rcases Token.isPlain_cases h with hk | ⟨name, hk, hname⟩
  · have hatom : token.atom = .literal := by simp [Token.atom, hk]
    have hpass : Runs pass ⟨token :: next :: more, taken, functions, nesting, noIn, issues⟩ ()
        ⟨next :: more, taken + 1, functions, nesting, noIn, issues⟩ :=
      .pass (Token.isEof_of_isPlain h)
    rw [hk, hatom]
    exact hpass.bind rfl
  · rw [hk]
    exact primaryWord_plain hk hname hnext

/-- No link of a chain starts with what ends an operand. -/
theorem link_none {expr : Expr} (h : next.endsOperand = true) :
    Runs (g.link expr) ⟨next :: more, taken, functions, nesting, noIn, issues⟩ none
      ⟨next :: more, taken, functions, nesting, noIn, issues⟩ := by
  have hmark : ∀ mark ∈ [".", "?.", "[", "("], next.isMark mark = false := by
    intro mark hm
    refine Token.isMark_of_endsOperand h ?_
    revert mark
    decide
  have hkind : ∀ parts, next.kind ≠ .template parts := by
    intro parts hk
    rcases Token.endsOperand_cases h with ⟨text, -, hk'⟩ | ⟨name, -, hk'⟩
    · cases hk.symm.trans hk'
    · cases hk.symm.trans hk'
  unfold link
  refine .peek (rfl : _ = next) (.unlessMark (hmark "." (by simp)) ?_)
  refine .unlessMark (hmark "?." (by simp)) (.unlessMark (hmark "[" (by simp)) ?_)
  rw [hmark "(" (by simp), if_neg Bool.false_ne_true]
  split
  · exact absurd ‹_› (hkind _)
  · rfl

/-- An operand after which no link starts is a chain. -/
theorem chain_of_primary {expr : Expr} (hnew : s.peek.isWord "new" = false)
    (h : Runs g.primary s expr s') (hlink : Runs (g.link expr) s' none s') :
    Runs g.chain s expr s' := by
  unfold chain
  refine .peek rfl ?_
  rw [hnew, if_neg Bool.false_ne_true]
  refine h.bind ?_
  obtain ⟨room, hroom⟩ : ∃ room, maxChain = room + 1 := ⟨_, rfl⟩
  show Runs (g.links maxChain false expr) _ _ _
  rw [hroom, links]
  exact hlink.bind rfl

/-- A chain with what ends an operand after it has no operator behind it. -/
theorem unaryInner_of_chain {expr : Expr} (hawait : s.peek.isWord "await" = false)
    (hoperator : s.peek.prefixOperator? = none) (h : Runs g.chain s expr s')
    (hend : s'.peek.endsOperand = true) : Runs g.unaryInner s expr s' := by
  have hup : s'.peek.isMark "++" = false := Token.isMark_of_endsOperand hend (by decide)
  have hdown : s'.peek.isMark "--" = false := Token.isMark_of_endsOperand hend (by decide)
  unfold unaryInner
  refine .peek rfl ?_
  rw [hawait, if_neg Bool.false_ne_true, hoperator]
  refine h.bind (.peek rfl ?_)
  rw [hup, hdown, Bool.or_self, Bool.and_false]
  rfl

/-- A plain token with what ends an operand after it is an operand without links and operators. -/
theorem unaryInner_plain (h : token.isPlain = true) (hnext : next.endsOperand = true) :
    Runs g.unaryInner ⟨token :: next :: more, taken, functions, nesting, noIn, issues⟩
      token.atom ⟨next :: more, taken + 1, functions, nesting, noIn, issues⟩ := by
  have hnew : token.isWord "new" = false := Token.isWord_of_isPlain h (by decide)
  have hawait : token.isWord "await" = false := Token.isWord_of_isPlain h (by decide)
  have hchain : Runs g.chain ⟨token :: next :: more, taken, functions, nesting, noIn, issues⟩
      token.atom ⟨next :: more, taken + 1, functions, nesting, noIn, issues⟩ :=
    chain_of_primary hnew (primary_plain h hnext) (link_none hnext)
  exact unaryInner_of_chain hawait (Token.prefixOperator_of_isPlain h) hchain hnext

end Grammar

/-! ## Within bounds -/

/-- The fault is that an expression is too long or that something is nested too deeply. -/
def Fault.IsExcess (fault : Fault) : Prop :=
  fault.message ∈ ["expression is too long", "expression is nested too deeply",
    "script nesting is too deep"]

/-- The production gives the value and leads to the other state if that can be afforded; otherwise
it fails for the excess. -/
structure RunsWithin (affordable : Prop) (p : Parse α) (s : ParserState) (a : α)
    (s' : ParserState) : Prop where
  runs : affordable → Runs p s a s'
  fails : ¬affordable → Fails p s Fault.IsExcess

namespace RunsWithin

variable {affordable affordable' : Prop} {p : Parse α} {f : α → Parse β}

/-- What runs in any case can always be afforded. -/
theorem of_runs (h : Runs p s a s') : RunsWithin True p s a s' :=
  ⟨fun _ => h, fun hn => absurd trivial hn⟩

/-- Behind a part that has its cost, a part that has none. -/
theorem bind (h : RunsWithin affordable p s a s') (hf : Runs (f a) s' b s'') :
    RunsWithin affordable (p >>= f) s b s'' where
  runs := fun ha => (h.runs ha).bind hf
  fails := fun hn => (h.fails hn).bind

/-- Behind a part that has no cost, one that has. -/
theorem after (h : Runs p s a s') (hs : s.Onward s') (hf : RunsWithin affordable (f a) s' b s'') :
    RunsWithin affordable (p >>= f) s b s'' where
  runs := fun ha => h.bind (hf.runs ha)
  fails := fun hn => .after h hs (hf.fails hn)

/-- A production that does the same. -/
theorem congr {q : Parse α} (h : p s = q s) (hq : RunsWithin affordable q s a s') :
    RunsWithin affordable p s a s' where
  runs := fun ha => h.trans (hq.runs ha)
  fails := by
    intro hn
    obtain ⟨fault, s'', hfault, hexcess, hs⟩ := hq.fails hn
    exact ⟨fault, s'', h.trans hfault, hexcess, hs⟩

/-- What affords the whole affords its first part. -/
theorem andThen (h : RunsWithin affordable' p s a s') (hs : s.Onward s')
    (hf : affordable' → RunsWithin affordable (f a) s' b s'')
    (hpart : affordable → affordable') : RunsWithin affordable (p >>= f) s b s'' where
  runs := fun ha => (h.runs (hpart ha)).bind ((hf (hpart ha)).runs ha)
  fails := by
    intro hn
    by_cases ha : affordable'
    · exact .after (h.runs ha) hs ((hf ha).fails hn)
    · exact (h.fails ha).bind

/-- A level of nesting is part of the cost. -/
theorem nested {ts ts' : List Token} {taken taken' functions nesting : Nat} {noIn : Bool}
    {issues issues' : List Issue}
    (h : nesting < maxNesting → RunsWithin affordable p
      ⟨ts, taken, functions, nesting + 1, noIn, issues⟩ a
      ⟨ts', taken', functions, nesting + 1, noIn, issues'⟩)
    (hlevel : affordable → nesting < maxNesting) :
    RunsWithin affordable (nested p) ⟨ts, taken, functions, nesting, noIn, issues⟩ a
      ⟨ts', taken', functions, nesting, noIn, issues'⟩ where
  runs := fun ha => .nested ((h (hlevel ha)).runs ha) (hlevel ha)
  fails := by
    have hdeep : ∀ position, Fault.IsExcess ⟨"script nesting is too deep", position⟩ :=
      fun _ => by simp [Fault.IsExcess]
    intro hn
    by_cases hl : nesting < maxNesting
    · exact .nested ((h hl).fails hn) hl
    · exact .nested_of_le (Nat.not_lt.mp hl) hdeep

end RunsWithin

/-! ## Operators -/

namespace Grammar

variable {g : Grammar} {left : Expr} {links : List Link} {stop : Token} {more : List Token}
  {floor room taken functions nesting : Nat} {chained : Bool} {issues : List Issue}

/-- An operator that binds tightly enough comes next. -/
theorem nextOperator_link (link : Link) (h : floor ≤ link.strength) :
    Runs (nextOperator floor)
      ⟨link.operator :: more, taken, functions, nesting, false, issues⟩
      (some (link.op, link.strength))
      ⟨link.operator :: more, taken, functions, nesting, false, issues⟩ := by
  unfold nextOperator
  refine .get ?_
  show Runs (pure ((link.operator.binaryOperator? false).filter _)) _ _ _
  rw [link.binaryOperator, Option.filter_some_pos]
  · rfl
  · exact decide_eq_true h

/-- No operator of sufficient strength comes next. -/
theorem nextOperator_outside (hstop : stop.isMark ";" = true)
    (h : ∀ link ∈ links.head?, link.strength < floor) :
    Runs (nextOperator floor)
      ⟨Link.tokens links ++ stop :: more, taken, functions, nesting, false, issues⟩ none
      ⟨Link.tokens links ++ stop :: more, taken, functions, nesting, false, issues⟩ := by
  unfold nextOperator
  refine .get ?_
  cases links with
  | nil =>
    have hnone : stop.binaryOperator? false = none := by
      rw [Token.binaryOperator?, Token.isMark_iff.mp hstop]
      decide
    show Runs (pure ((stop.binaryOperator? false).filter _)) _ _ _
    rw [hnone]
    rfl
  | cons link links =>
    have hlt : link.strength < floor := h link (by simp)
    show Runs (pure ((link.operator.binaryOperator? false).filter _)) _ _ _
    rw [link.binaryOperator, Option.filter_some_neg]
    · rfl
    · simpa using hlt

/-- The levels of a tree are measured, as far as its turns to the right are within bounds. -/
theorem boundDepth_within {s : ParserState} (hturns : nesting + 1 + left.rightTurns ≤ maxNesting) :
    RunsWithin (left.Affordable nesting) (boundDepth left) s left s := by
  unfold boundDepth
  by_cases hheight : (Branch.expr left).height ≤ maxExpressionDepth
  · have hfits : ¬left.isDeeperThan maxExpressionDepth = true :=
      fun h => Nat.not_lt.mpr hheight (Expr.isDeeperThan_iff.mp h)
    rw [if_neg hfits]
    exact ⟨fun _ => rfl, fun hn => absurd ⟨hturns, hheight⟩ hn⟩
  · have hdeep : left.isDeeperThan maxExpressionDepth = true :=
      Expr.isDeeperThan_iff.mpr (Nat.not_le.mp hheight)
    rw [if_pos hdeep]
    refine ⟨fun ha => absurd ha.height_le hheight, fun _ => .fail ?_⟩
    simp [Fault.IsExcess, ParserState.fault]

/-- Where no operator follows, the tree so far is measured if there was one. -/
theorem operators_end {s : ParserState} (hnext : Runs (nextOperator floor) s none s)
    (hturns : nesting + 1 + left.rightTurns ≤ maxNesting)
    (hlevels : chained = false → (Branch.expr left).height ≤ maxExpressionDepth) :
    RunsWithin (left.Affordable nesting) (g.operators floor room chained left) s left s := by
  have hmeasure : RunsWithin (left.Affordable nesting)
      (if chained = true then boundDepth left else pure left) s left s := by
    cases chained with
    | false => exact ⟨fun _ => rfl, fun hn => absurd ⟨hturns, hlevels rfl⟩ hn⟩
    | true => exact boundDepth_within hturns
  unfold operators
  exact .after hnext (.refl s) hmeasure

/-- Where the bound is reached, the loop ends and the tree is measured. -/
theorem operators_stop (hstop : stop.isMark ";" = true)
    (hnone : ∀ link ∈ links.head?, link.strength < floor)
    (hturns : nesting + 1 + left.rightTurns ≤ maxNesting)
    (hlevels : chained = false → (Branch.expr left).height ≤ maxExpressionDepth) :
    RunsWithin ((Link.join left (Link.inside floor links)).Affordable nesting)
      (g.operators floor room chained left)
      ⟨Link.tokens links ++ stop :: more, taken, functions, nesting, false, issues⟩
      (Link.join left (Link.inside floor links))
      ⟨Link.tokens (Link.outside floor links) ++ stop :: more,
        taken + (Link.tokens (Link.inside floor links)).length, functions, nesting, false,
        issues⟩ := by
  rw [Link.inside_eq_nil hnone, Link.outside_eq_self hnone]
  exact operators_end (nextOperator_outside hstop hnone) hturns hlevels

/-- At a depth of nesting, the production reads a chain up to the first operator that binds less
tightly than the bound; what it can afford is counted from some depth. -/
def ReadsChain (p : Parse Expr) (floor nesting depth : Nat) : Prop :=
  ∀ (chain : OperatorChain) (stop : Token) (more : List Token) (taken functions : Nat)
    (issues : List Issue), stop.isMark ";" = true →
    RunsWithin ((chain.upTo floor).Affordable depth) p
      ⟨chain.tokens ++ stop :: more, taken, functions, nesting, false, issues⟩ (chain.upTo floor)
      ⟨Link.tokens (Link.outside floor chain.links) ++ stop :: more,
        taken + 1 + (Link.tokens (Link.inside floor chain.links)).length, functions, nesting, false,
        issues⟩

/-- Reading a chain up to a bound goes on past what is inside it. -/
theorem onward_chain (floor : Nat) (chain : OperatorChain) (stop : Token) (more : List Token)
    (taken functions nesting : Nat) (issues : List Issue) :
    ParserState.Onward ⟨chain.tokens ++ stop :: more, taken, functions, nesting, false, issues⟩
      ⟨Link.tokens (Link.outside floor chain.links) ++ stop :: more,
        taken + 1 + (Link.tokens (Link.inside floor chain.links)).length, functions, nesting, false,
        issues⟩ := by
  have htokens : chain.tokens ++ stop :: more =
      (chain.first :: Link.tokens (Link.inside floor chain.links)) ++
        (Link.tokens (Link.outside floor chain.links) ++ stop :: more) := by
    rw [OperatorChain.tokens, ← Link.tokens_inside_append floor chain.links]
    simp
  have hcount : taken + 1 + (Link.tokens (Link.inside floor chain.links)).length =
      taken + (chain.first :: Link.tokens (Link.inside floor chain.links)).length := by
    rw [List.length_cons]
    omega
  rw [htokens, hcount]
  exact .of_taken _ _ _ _ _ _ _

/-- The operators after a left operand, and their right operands, are hung into its tree one after
the other. -/
theorem operators_within (hg : ∀ floor, ReadsChain (g.operand floor) floor nesting (nesting + 1))
    (hstop : stop.isMark ";" = true) (hturns : nesting + 1 + left.rightTurns ≤ maxNesting)
    (hroom : maxExpressionDepth ≤ room + (Branch.expr left).height)
    (hlevels : chained = false → (Branch.expr left).height ≤ maxExpressionDepth)
    (hclosed : ∀ link ∈ links.head?, left.Closed link.op) :
    RunsWithin ((Link.join left (Link.inside floor links)).Affordable nesting)
      (g.operators floor room chained left)
      ⟨Link.tokens links ++ stop :: more, taken, functions, nesting, false, issues⟩
      (Link.join left (Link.inside floor links))
      ⟨Link.tokens (Link.outside floor links) ++ stop :: more,
        taken + (Link.tokens (Link.inside floor links)).length, functions, nesting, false,
        issues⟩ := by
  induction room generalizing chained left links taken with
  | zero =>
    rcases Link.next_cases floor links with hnone | ⟨link, links, rfl, hfloor⟩
    · exact operators_stop hstop hnone hturns hlevels
    · -- the left operand alone has as many levels as a tree may have
      have hdeep : ¬(Link.join left (Link.inside floor (link :: links))).Affordable nesting := by
        intro hafford
        rw [Link.join_inside hfloor (hclosed link (by simp))] at hafford
        have hheight := hafford.of_attachAll.height_le
        rw [Expr.height_binary] at hheight
        omega
      refine ⟨fun hafford => absurd hafford hdeep, fun _ => ?_⟩
      unfold operators
      refine .after (nextOperator_link link hfloor) (.refl _) (.fail ?_)
      simp [Fault.IsExcess, ParserState.fault]
  | succ room ih =>
    rcases Link.next_cases floor links with hnone | ⟨link, links, rfl, hfloor⟩
    · exact operators_stop hstop hnone hturns hlevels
    · have hright := hg (rightFloor link.op) (link.chain links) stop more (taken + 1) functions
        issues hstop
      have hwhole := Link.join_inside hfloor (hclosed link (by simp)) links
      have hpart : (Link.join left (Link.inside floor (link :: links))).Affordable nesting →
          ((link.chain links).upTo (rightFloor link.op)).Affordable (nesting + 1) := by
        intro hafford
        rw [hwhole] at hafford
        exact hafford.of_attachAll.of_binary
      have hpass : Runs pass
          ⟨Link.tokens (link :: links) ++ stop :: more, taken, functions, nesting, false, issues⟩ ()
          ⟨(link.chain links).tokens ++ stop :: more, taken + 1, functions, nesting, false,
            issues⟩ :=
        .pass link.isEof_operator
      unfold operators
      refine .after (nextOperator_link link hfloor) (.refl _) ?_
      show RunsWithin _ (pass >>= fun _ => g.operand (rightFloor link.op) >>= fun right =>
        g.operators floor room true (.binary link.op left right)) _ _ _
      refine .after hpass (.of_taken [link.operator] _ _ _ _ _ _) ?_
      refine .andThen hright (onward_chain _ _ _ _ _ _ _ _) (fun hafford => ?_) hpart
      have hle : floor ≤ rightFloor link.op := hfloor.trans (strength_le_rightFloor link.op)
      have hcount : taken + (Link.tokens (Link.inside floor (link :: links))).length =
          taken + 1 + 1 + (Link.tokens (Link.inside (rightFloor link.op) links)).length +
            (Link.tokens (Link.inside floor (Link.outside (rightFloor link.op) links))).length := by
        rw [Link.inside_of_le hfloor, Link.inside_append hle, Link.tokens_cons, Link.tokens_append]
        simp only [List.length_cons, List.length_append]
        omega
      rw [hwhole, hcount, Link.outside_of_le hfloor, ← Link.outside_outside hle]
      refine ih ?_ ?_ (fun h => by cases h) (Link.head_outside _ _)
      · have hturns' := hafford.nesting_le
        simp only [Expr.rightTurns]
        omega
      · rw [Expr.height_binary]
        omega

/-- A plain token needs one level of nesting. -/
theorem unary_plain {token : Token} (h : token.isPlain = true) (hstop : stop.isMark ";" = true) :
    RunsWithin (nesting < maxNesting) (nested g.unaryInner)
      ⟨[token] ++ (Link.tokens links ++ stop :: more), taken, functions, nesting, false, issues⟩
      token.atom
      ⟨Link.tokens links ++ stop :: more, taken + 1, functions, nesting, false, issues⟩ := by
  obtain ⟨next, rest, htokens, hnext⟩ := Link.exists_endsOperand hstop links more
  rw [htokens]
  exact .nested (fun _ => ⟨fun _ => unaryInner_plain h hnext, fun hn => absurd ‹_› hn⟩) id

variable (floor) in
/-- An operand and the operators after it that bind tightly enough. -/
theorem binary_within {opening : List Token}
    (hg : ∀ floor, ReadsChain (g.operand floor) floor nesting (nesting + 1))
    (hstop : stop.isMark ";" = true) (hleft : left.isJoined = false)
    (hheight : (Branch.expr left).height ≤ maxExpressionDepth)
    (hunary : RunsWithin (nesting < maxNesting) g.unary
      ⟨opening ++ (Link.tokens links ++ stop :: more), taken, functions, nesting, false, issues⟩
      left
      ⟨Link.tokens links ++ stop :: more, taken + opening.length, functions, nesting, false,
        issues⟩) :
    RunsWithin ((Link.join left (Link.inside floor links)).Affordable nesting) (g.binary floor)
      ⟨opening ++ (Link.tokens links ++ stop :: more), taken, functions, nesting, false, issues⟩
      (Link.join left (Link.inside floor links))
      ⟨Link.tokens (Link.outside floor links) ++ stop :: more,
        taken + opening.length + (Link.tokens (Link.inside floor links)).length, functions,
        nesting, false, issues⟩ := by
  have hturns : left.rightTurns = 0 := Expr.rightTurns_of_operand hleft
  unfold binary
  refine .andThen hunary (.of_taken opening _ _ _ _ _ _) (fun hlevel => ?_) fun hafford => ?_
  · have hroom : maxExpressionDepth ≤ maxChain := by decide
    exact operators_within hg hstop (by omega) (by omega) (fun _ => hheight)
      fun link _ => Expr.closed_of_operand hleft link.op
  · have := hafford.nesting_le
    omega

/-- Operands at every level and for every bound. -/
theorem readsChain_operand (hn : n + nesting = maxNesting) (floor : Nat) :
    ReadsChain ((levels (n + 1)).operand floor) floor nesting (nesting + 1) := by
  induction n generalizing nesting floor with
  | zero =>
    intro chain stop more taken functions issues hstop
    show RunsWithin _ (nested (exhausted.binary floor)) _ _ _
    refine .nested (fun hlt => ?_) fun hafford => ?_
    · omega
    · have := hafford.nesting_le
      omega
  | succ n ih =>
    intro chain stop more taken functions issues hstop
    refine .nested (fun hlt => ?_) fun hafford => ?_
    · have hheight := chain.first.height_atom.trans (by decide : 1 ≤ maxExpressionDepth)
      exact binary_within floor (ih (by omega)) hstop chain.first.isJoined_atom hheight
        (unary_plain chain.isPlain hstop)
    · have := hafford.nesting_le
      omega

end Grammar

end ScriptHooks.Script

/-
ScriptHooks.Proofs.Script.HostileNesting — whether a script can drive the depth of its tree.

The depth of a program is at most what the budget of nesting allows, and two more for each method
whose parameters are entered on a path. So the trees of a set of scripts have bounded depth if and
only if their methods are nested to a bounded depth in the parameters of each other
(`depth_bounded_iff_methodNesting_bounded`).

Nothing bounds that nesting. `nestedScript` declares a pattern with a method that has such a pattern
for its parameter, and so on; it is accepted however deep it is (`nestedScript_accepted`), and at
two thousand levels it is deeper than any limit of the interpreter's stack.

The proof follows the pattern from the text to the tree, each step by induction on its depth:

* the lexer: `Lexes p chunk tokens` says that a chunk of text is lexed to these tokens wherever it
  stands, and pieces are put together by `Lexes.append`;
* the parser: `PatternTokens n tokens` says that the tokens are a pattern of that depth, whatever
  their places are. A method is read by `objectLiteralOver_method`, given that the parameter is,
  and the bound that the parser has for patterns is the number of tokens, which is more than the
  depth (`PatternTokens.lt_length`);
* the checks: a pattern contributes no name and no fault to the harvest of the program, since
  methods in patterns are not looked into.
-/
import ScriptHooks.Proofs.Script.LexerScans
import ScriptHooks.Proofs.Script.NestingBudget
import ScriptHooks.Proofs.Script.ParseRuns
import ScriptHooks.Script.Validation

namespace ScriptHooks.Script

open Parse

/-- The program that the tokens of a script spell, faulty statements left out. -/
def Program.ofSource (source : String) : Program := (ofTokens (Lexer.tokensOf source).1).1

/-! ## Nested patterns -/

/-- What stands behind the opening brace of a pattern with a method that has such a pattern for its
parameter, so many times over. -/
def patternChars : Nat → List Char
  | 0 => ['\x7d']
  | n + 1 => 'm' :: '(' :: '\x7b' :: (patternChars n ++ [')', '\x7b', '\x7d', '\x7d'])

/-- A variable statement with nested patterns, such as `var{m({m({}){}}){}}`. -/
def nestedScript (n : Nat) : String :=
  String.ofList ('v' :: 'a' :: 'r' :: '\x7b' :: patternChars n)

/-- A mark on the line of the token before it. -/
def Token.mark (text : String) (position : Position) : Token := .mk (.punct text) position false

/-- The tokens of `patternChars`, wherever they stand. -/
inductive PatternTokens : Nat → List Token → Prop
  | closing (p : Position) : PatternTokens 0 [.mark "\x7d" p]
  | method (p₁ p₂ p₃ p₄ p₅ p₆ p₇ : Position) (h : PatternTokens n ts) :
      PatternTokens (n + 1) (.mk (.word "m") p₁ false :: .mark "(" p₂ :: .mark "\x7b" p₃ ::
        (ts ++ [.mark ")" p₄, .mark "\x7b" p₅, .mark "\x7d" p₆, .mark "\x7d" p₇]))

/-- A pattern has more tokens than levels. -/
theorem PatternTokens.lt_length (h : PatternTokens n ts) : n < ts.length := by
  induction h with
  | closing => exact Nat.zero_lt_one
  | method p₁ p₂ p₃ p₄ p₅ p₆ p₇ h ih =>
    simp only [List.length_cons, List.length_append]
    omega

namespace Lexer

/-- From the position on, the characters are lexed to these tokens, whatever stands around them. -/
def Lexes (p : Position) (chunk : List Char) (tokens : List Token) : Prop :=
  ∀ fuel previous rest, ∃ last,
    scanTokens (fuel + tokens.length) false 0 false previous [] [] ⟨chunk ++ rest, p⟩ =
      (scanTokens fuel false 0 false last [] [] ⟨rest, p.advance chunk⟩).onto tokens.reverse []

namespace Lexes

variable {p : Position} {chunk chunk' : List Char} {tokens tokens' : List Token}

/-- Pieces of text one after the other. -/
theorem append (h : Lexes p chunk tokens) (h' : Lexes (p.advance chunk) chunk' tokens') :
    Lexes p (chunk ++ chunk') (tokens ++ tokens') := by
  intro fuel previous rest
  obtain ⟨middle, hfirst⟩ := h (fuel + tokens'.length) previous (chunk' ++ rest)
  obtain ⟨last, hsecond⟩ := h' fuel middle rest
  refine ⟨last, ?_⟩
  rw [List.length_append, Nat.add_comm tokens.length, ← Nat.add_assoc, List.append_assoc, hfirst,
    hsecond, Scan.onto_onto, Position.advance_append, List.reverse_append, List.append_nil]

/-- The tokens of a text that is lexed piece by piece. -/
theorem tokenizeChars (h : Lexes .start chunk tokens) :
    tokenizeChars chunk = (tokens ++ [.mk .eof (Position.start.advance chunk) true], []) := by
  obtain ⟨last, hscan⟩ := h (chunk.length + 1) none []
  have hfuel := (scan_fuel (chunk.length + 1) (chunk.length + 1 + tokens.length)).1 false 0 false
    none [] [] ⟨chunk, .start⟩ (Nat.lt_succ_self _) (by simp only; omega)
  rw [List.append_nil] at hscan
  rw [Lexer.tokenizeChars, hfuel, hscan]
  simp [Scan.onto, scanTokens, round, skipIgnored]

theorem keyword (p : Position) : Lexes p ['v', 'a', 'r', '\x7b']
    [.mk (.word "var") p false, .mark "\x7b" (((p.after 'v').after 'a').after 'r')] := by
  intro fuel previous rest
  refine ⟨some (.mark "\x7b" (((p.after 'v').after 'a').after 'r')), ?_⟩
  rw [← (scan_onto fuel).1]
  rfl

/-- A method opens a bracket for its parameter and a brace for the pattern there. -/
theorem methodStart (p : Position) : Lexes p ['m', '(', '\x7b']
    [.mk (.word "m") p false, .mark "(" (p.after 'm'), .mark "\x7b" ((p.after 'm').after '(')] := by
  intro fuel previous rest
  refine ⟨some (.mark "\x7b" ((p.after 'm').after '(')), ?_⟩
  rw [← (scan_onto fuel).1]
  rfl

/-- Behind the parameter, an empty body, and the pattern around the method ends. -/
theorem methodEnd (p : Position) : Lexes p [')', '\x7b', '\x7d', '\x7d']
    [.mark ")" p, .mark "\x7b" (p.after ')'), .mark "\x7d" ((p.after ')').after '\x7b'),
      .mark "\x7d" (((p.after ')').after '\x7b').after '\x7d')] := by
  intro fuel previous rest
  refine ⟨some (.mark "\x7d" (((p.after ')').after '\x7b').after '\x7d')), ?_⟩
  rw [← (scan_onto fuel).1]
  rfl

theorem closing (p : Position) : Lexes p ['\x7d'] [.mark "\x7d" p] := by
  intro fuel previous rest
  refine ⟨some (.mark "\x7d" p), ?_⟩
  rw [← (scan_onto fuel).1]
  rfl

end Lexes

/-- A nested pattern is lexed to its tokens. -/
theorem lexes_pattern (n : Nat) (p : Position) :
    ∃ tokens, PatternTokens n tokens ∧ Lexes p (patternChars n) tokens := by
  induction n generalizing p with
  | zero => exact ⟨_, .closing p, .closing p⟩
  | succ n ih =>
    obtain ⟨tokens, htokens, hlexes⟩ := ih (p.advance ['m', '(', '\x7b'])
    have hmethod := (Lexes.methodStart p).append (hlexes.append (.methodEnd _))
    exact ⟨_, .method _ _ _ _ _ _ _ htokens, hmethod⟩

/-- The tokens of the script are those of a pattern behind `var`. -/
theorem tokensOf_nestedScript (n : Nat) : ∃ p₁ p₂ tokens p₃, PatternTokens n tokens ∧
    tokensOf (nestedScript n) =
      (.mk (.word "var") p₁ false :: .mark "\x7b" p₂ :: (tokens ++ [.mk .eof p₃ true]), []) := by
  obtain ⟨tokens, htokens, hlexes⟩ := lexes_pattern n
    (Position.start.advance ['v', 'a', 'r', '\x7b'])
  have hscript := ((Lexes.keyword .start).append hlexes).tokenizeChars
  rw [tokensOf, nestedScript, String.toList_ofList]
  exact ⟨_, _, tokens, _, htokens, hscript⟩

end Lexer

/-! ## Reading nested patterns -/

namespace Grammar

variable {g : Grammar} {objectPattern : Parse Expr} {e : Expr} {inner more : List Token}
  {taken taken' functions nesting : Nat} {noIn : Bool} {issues : List Issue}
  {p₁ p₂ p₃ p₄ p₅ p₆ p₇ p₈ : Position}

/-- The only parameter of a method is an object pattern. -/
theorem parameters_pattern
    (h : Runs objectPattern ⟨.mark "\x7b" p₃ :: inner, taken, functions, nesting, noIn, issues⟩
      e ⟨.mark ")" p₄ :: more, taken', functions, nesting, noIn, issues⟩) :
    Runs (g.parameters (g.bindingTargetOver objectPattern))
      ⟨.mark "\x7b" p₃ :: inner, taken, functions, nesting, noIn, issues⟩
      [e] ⟨more, taken' + 1, functions, nesting, noIn, issues⟩ := by
  have hparameter : Runs (g.parameter (g.bindingTargetOver objectPattern))
      ⟨.mark "\x7b" p₃ :: inner, taken, functions, nesting, noIn, issues⟩
      e ⟨.mark ")" p₄ :: more, taken', functions, nesting, noIn, issues⟩ := by
    unfold parameter
    exact .bind rfl (.bind h rfl)
  unfold parameters loop
  exact .bind rfl (.bind (.bind rfl (.bind hparameter rfl)) rfl)

/-- An object whose only property is a method with an object pattern for its parameter. -/
theorem objectLiteralOver_method
    (h : Runs objectPattern ⟨.mark "\x7b" p₄ :: inner, taken + 3, functions, nesting, false, issues⟩
      e ⟨.mark ")" p₅ :: .mark "\x7b" p₆ :: .mark "\x7d" p₇ :: .mark "\x7d" p₈ :: more, taken',
        functions, nesting, false, issues⟩) :
    Runs (g.objectLiteralOver objectPattern)
      ⟨.mark "\x7b" p₁ :: .mk (.word "m") p₂ false :: .mark "(" p₃ :: .mark "\x7b" p₄ :: inner,
        taken, functions, nesting, noIn, issues⟩
      (.object [.method (.named "m") (.mk (some "m") [e] [] false p₂)] p₁)
      ⟨more, taken' + 4, functions, nesting, noIn, issues⟩ := by
  have hfunction : Runs (g.functionRest (g.bindingTargetOver objectPattern) (some "m") p₂)
      ⟨.mark "(" p₃ :: .mark "\x7b" p₄ :: inner, taken + 2, functions, nesting, false, issues⟩
      (.mk (some "m") [e] [] false p₂)
      ⟨.mark "\x7d" p₈ :: more, taken' + 3, functions, nesting, false, issues⟩ := by
    unfold functionRest
    exact .bind rfl (.bind (parameters_pattern h) rfl)
  have hproperty : Runs (g.property (g.bindingTargetOver objectPattern))
      ⟨.mk (.word "m") p₂ false :: .mark "(" p₃ :: .mark "\x7b" p₄ :: inner, taken + 1, functions,
        nesting, false, issues⟩
      (.method (.named "m") (.mk (some "m") [e] [] false p₂))
      ⟨.mark "\x7d" p₈ :: more, taken' + 3, functions, nesting, false, issues⟩ := by
    unfold property propertyRest
    have hrest := Runs.bind hfunction (f := fun f => pure (Property.method (.named "m") f)) rfl
    exact .bind rfl (.bind rfl (.bind rfl (.bind rfl (.bind rfl (.bind rfl hrest)))))
  unfold objectLiteralOver loop
  exact .bind rfl (.bind rfl (.withoutIn (.bind rfl (.bind (.bind rfl (.bind hproperty rfl)) rfl))))

/-- A nested pattern is read as nested objects, whose methods contribute nothing. -/
theorem objectLiteralWithin_pattern (h : PatternTokens n inner) :
    ∀ bound > n, ∀ taken noIn p₁ more, ∃ e taken', Runs (g.objectLiteralWithin bound)
      ⟨.mark "\x7b" p₁ :: (inner ++ more), taken, functions, nesting, noIn, issues⟩
      e ⟨more, taken', functions, nesting, noIn, issues⟩ ∧
      n < (Branch.expr e).height ∧ e.harvestPattern = .empty := by
  induction h with
  | closing p =>
    intro bound hn taken noIn p₁ more
    obtain ⟨bound, rfl⟩ : ∃ k, bound = k + 1 := Nat.exists_eq_add_one.mpr hn
    exact ⟨_, _, rfl, Branch.height_pos _, rfl⟩
  | @method n _ q₁ q₂ q₃ q₄ q₅ q₆ q₇ h ih =>
    intro bound hn taken noIn p₁ more
    obtain ⟨bound, rfl⟩ : ∃ k, bound = k + 1 := Nat.exists_eq_add_one.mpr (Nat.zero_lt_of_lt hn)
    obtain ⟨e, taken', hruns, hheight, -⟩ := ih bound (Nat.lt_of_succ_lt_succ hn) (taken + 3) false
      q₃ (.mark ")" q₄ :: .mark "\x7b" q₅ :: .mark "\x7d" q₆ :: .mark "\x7d" q₇ :: more)
    have hheight' : n + 1 < (Branch.expr (.object [.method (.named "m")
        (.mk (some "m") [e] [] false q₁)] p₁)).height :=
      Nat.lt_of_le_of_lt hheight (Branch.height_lt_of_mem_children List.mem_cons_self)
    rw [objectLiteralWithin]
    simp only [List.cons_append, List.append_assoc, List.nil_append]
    exact ⟨_, _, objectLiteralOver_method hruns, hheight', rfl⟩

/-- A nested pattern is declared without an initial value. -/
theorem declaration_pattern (h : PatternTokens n inner) (p₁ p₂ p₃ : Position) :
    ∃ e taken', Runs (g.declaration .var)
      ⟨.mk (.word "var") p₁ false :: .mark "\x7b" p₂ :: (inner ++ [.mk .eof p₃ true]), 0,
        functions, nesting, noIn, issues⟩
      (.declare .var [.mk e none]) ⟨[.mk .eof p₃ true], taken', functions, nesting, noIn, issues⟩ ∧
      n < (Branch.expr e).height ∧ e.harvestPattern = .empty := by
  have hbound : (inner ++ [Token.mk .eof p₃ true]).length + 1 + 1 > n := by
    have := h.lt_length
    rw [List.length_append]
    omega
  obtain ⟨e, taken', hruns, hheight, hharvest⟩ :=
    objectLiteralWithin_pattern h _ hbound 1 noIn p₂ [.mk .eof p₃ true]
  have hdeclarator : Runs g.declarator
      ⟨.mark "\x7b" p₂ :: (inner ++ [.mk .eof p₃ true]), 1, functions, nesting, noIn, issues⟩
      (.mk e none) ⟨[.mk .eof p₃ true], taken', functions, nesting, noIn, issues⟩ := by
    unfold declarator
    exact .bind hruns rfl
  have hdeclarators : Runs g.declarators
      ⟨.mk (.word "var") p₁ false :: .mark "\x7b" p₂ :: (inner ++ [.mk .eof p₃ true]), 0,
        functions, nesting, noIn, issues⟩
      [.mk e none] ⟨[.mk .eof p₃ true], taken', functions, nesting, noIn, issues⟩ := by
    unfold declarators loop
    exact .bind rfl (.bind rfl (.bind (.bind hdeclarator rfl) rfl))
  refine ⟨e, taken', ?_, hheight, hharvest⟩
  unfold declaration
  exact .bind hdeclarators rfl

end Grammar

/-- The program declares the pattern. No issue is recorded, and the tree is deeper than the
pattern. -/
theorem Program.ofTokens_pattern {inner : List Token} (h : PatternTokens n inner)
    (p₁ p₂ p₃ : Position) :
    ∃ e, ofTokens (.mk (.word "var") p₁ false :: .mark "\x7b" p₂ ::
        (inner ++ [.mk .eof p₃ true])) = (⟨[.declare .var [.mk e none]]⟩, []) ∧
      n < (Branch.expr e).height ∧ e.harvestPattern = .empty := by
  obtain ⟨e, taken, hruns, hheight, hharvest⟩ :=
    Grammar.declaration_pattern (g := Grammar.levels maxNesting) h p₁ p₂ p₃
  refine ⟨e, ?_, hheight, hharvest⟩
  have hstatement : Runs Grammar.full.statement
      (.start (.mk (.word "var") p₁ false :: .mark "\x7b" p₂ :: (inner ++ [.mk .eof p₃ true])) 0 0)
      (.declare .var [.mk e none]) ⟨[.mk .eof p₃ true], taken, 0, 0, false, []⟩ :=
    Runs.nested hruns (by decide)
  have hprogram : Runs Grammar.full.program
      (.start (.mk (.word "var") p₁ false :: .mark "\x7b" p₂ :: (inner ++ [.mk .eof p₃ true])) 0 0)
      ⟨[.declare .var [.mk e none]]⟩ ⟨[.mk .eof p₃ true], taken, 0, 0, false, []⟩ := by
    unfold Grammar.program loop
    exact .bind rfl (.bind (.bind rfl (.bind hstatement.recovering rfl)) rfl)
  unfold ofTokens
  rw [hprogram]

/-- Nested patterns are accepted, however deep they are. -/
theorem nestedScript_accepted (n : Nat) :
    (validate (nestedScript n)).isOk = true ∧ n < (Program.ofSource (nestedScript n)).depth := by
  obtain ⟨p₁, p₂, inner, p₃, hinner, htokens⟩ := Lexer.tokensOf_nestedScript n
  obtain ⟨e, hprogram, hheight, hharvest⟩ := Program.ofTokens_pattern hinner p₁ p₂ p₃
  constructor
  · rw [validate_isOk_iff, htokens, hprogram]
    refine ⟨rfl, rfl, ?_⟩
    have hviolations : Program.violations ⟨[.declare .var [.mk e none]]⟩ =
        (e.harvestPattern ++ Harvest.empty ++ Harvest.empty ++ Harvest.empty).violations := rfl
    rw [hviolations, hharvest]
    rfl
  · rw [Program.ofSource, htokens, hprogram, ← not_le, Program.depth_le_iff]
    intro hdepth
    have hstmt : (Branch.expr e).height < (Branch.stmt (.declare .var [.mk e none])).height :=
      Branch.height_lt_of_mem_children List.mem_cons_self
    have := hdepth _ (List.mem_singleton_self _)
    omega

/-! ## What bounds the depth -/

namespace Program

/-- Methods that are entered are levels. -/
theorem methodNesting_le_depth (program : Program) : program.methodNesting ≤ program.depth := by
  refine methodNesting_le_iff.mpr fun s hs => ?_
  have hheight := depth_le_iff.mp le_rfl s hs
  have := (Branch.stmt s).methodNesting_lt_height
  omega

/-- The bound for the depth, for any tokens. -/
theorem depth_le_methodNesting (tokens : List Token) :
    (ofTokens tokens).1.depth ≤ depthBudget + 2 * (ofTokens tokens).1.methodNesting := by
  refine depth_le_iff.mpr fun s hs => ?_
  have hfits : (Branch.stmt s).height ≤ depthBudget + 2 * (Branch.stmt s).methodNesting :=
    ofTokens_fits tokens s hs
  have := methodNesting_le_iff.mp le_rfl s hs
  omega

/-- The depth of the tree of a script lies between the nesting of its methods and twice that, but
for the budget. So the trees of a set of scripts have bounded depth if and only if their methods
are nested to a bounded depth. -/
theorem depth_bounded_iff_methodNesting_bounded (scripts : String → Prop) :
    (∀ source, (ofSource source).methodNesting ≤ (ofSource source).depth ∧
      (ofSource source).depth ≤ depthBudget + 2 * (ofSource source).methodNesting) ∧
    ((∃ bound, ∀ source, scripts source → (ofSource source).depth ≤ bound) ↔
      ∃ bound, ∀ source, scripts source → (ofSource source).methodNesting ≤ bound) := by
  have hbounds : ∀ source, (ofSource source).methodNesting ≤ (ofSource source).depth ∧
      (ofSource source).depth ≤ depthBudget + 2 * (ofSource source).methodNesting :=
    fun source => ⟨methodNesting_le_depth _, depth_le_methodNesting _⟩
  refine ⟨hbounds, ?_, ?_⟩
  · rintro ⟨bound, h⟩
    exact ⟨bound, fun source hs => (hbounds source).1.trans (h source hs)⟩
  · rintro ⟨bound, h⟩
    refine ⟨depthBudget + 2 * bound, fun source hs => ?_⟩
    have := (hbounds source).2
    have := h source hs
    omega

/-- Two thousand levels and more are accepted. -/
theorem nestedScript_deeper_than_2000 :
    (validate (nestedScript 2000)).isOk = true ∧
      2000 < (ofSource (nestedScript 2000)).depth :=
  nestedScript_accepted 2000

end Program

end ScriptHooks.Script

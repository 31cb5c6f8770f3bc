/-
ScriptHooks.Proofs.Script.RestoredCounters — no function of the parser leaves anything open.

The parser counts the productions and functions that are open, and keeps a flag for whether `in` is
an operator. What the counts decide: whether a `return` is accepted, whether the nesting is too
deep, and where the head of a loop ends. A count that was not put back after a fault would make the
rest of a script be read as if it stood deeper than it does.

The functions of the parser are listed by what they give (`ParserFunction`). Each of them leaves the
counters as it finds them, whether it gives a value or fails (`ParserFunction.keeps_counters`), also
those that recursion does not go through and those that are given another function for the patterns
in what they read. The proof is by cases on the list, and each case is a lemma of
`ProductionRelations` at the relation `sameCounters`. Two functions need a lemma of their own,
because the general one asks that a template comes next and this does not
(`templateLiteral_counters`, `substitutions_counters`).

So the rounds of a loop all begin with the counters with which the loop begins (`Parse.Begins`), and
in a list of statements the faults that were passed over are not seen by the statements behind them:
what differs from the state in which the list was begun is the place in the tokens and the issues
(`RestoresCounters`). In a script nothing is open then, and what is behind a fault is read as by a
parser that starts there (`script_read_afresh`).

`Begins` follows the rounds of the loop, so it is an induction over the rounds before: each of them
gave something to go on with, with faults on the way or without.
-/
import ScriptHooks.Proofs.Script.ContinuedStatements
import ScriptHooks.Proofs.Script.Termination

namespace ScriptHooks.Script

open Parse

/-! ## Functions of the parser -/

/-- The functions of the parser. Those that may meet an object pattern are given the function that
reads it, or the one that reads whatever is bound there. -/
inductive ParserFunction : Type → Type
  | program : ParserFunction Program
  | statementsUntil (stop : Token → Bool) : ParserFunction (List Stmt)
  | block : ParserFunction (List Stmt)
  | statement : ParserFunction Stmt
  | statementInner : ParserFunction Stmt
  | wordStatement (name : String) (position : Position) : ParserFunction Stmt
  | expressionStatement : ParserFunction Stmt
  | declaration (kind : VarKind) : ParserFunction Stmt
  | declarators : ParserFunction (List Declarator)
  | declarator : ParserFunction Declarator
  | bindingTarget : ParserFunction Expr
  | bindingTargetOver (objectPattern : ParserFunction Expr) : ParserFunction Expr
  | parenthesized : ParserFunction Expr
  | ifStatement : ParserFunction Stmt
  | forStatement : ParserFunction Stmt
  | forHead : ParserFunction ForHead
  | forSubject : ParserFunction Expr
  | forInRest (head : ForHead) : ParserFunction Stmt
  | forRest (init : Option ForHead) : ParserFunction Stmt
  | whileStatement (position : Position) : ParserFunction Stmt
  | doStatement (position : Position) : ParserFunction Stmt
  | withStatement (position : Position) : ParserFunction Stmt
  | returnStatement : ParserFunction Stmt
  | throwStatement : ParserFunction Stmt
  | tryStatement : ParserFunction Stmt
  | catchClause : ParserFunction CatchClause
  | switchStatement : ParserFunction Stmt
  | switchCase : ParserFunction SwitchCase
  | caseTest : ParserFunction (Option Expr)
  | jumpLabel : ParserFunction (Option String)
  | function (isDeclaration : Bool) : ParserFunction Function
  | functionRest (target : ParserFunction Expr) (name : Option String) (position : Position) :
    ParserFunction Function
  | parameters (target : ParserFunction Expr) : ParserFunction (List Expr)
  | parameter (target : ParserFunction Expr) : ParserFunction Expr
  | arrow : ParserFunction Expr
  | arrowBody : ParserFunction (List Stmt)
  | expression : ParserFunction Expr
  | assignment : ParserFunction Expr
  | assignmentInner : ParserFunction Expr
  | conditional : ParserFunction Expr
  | binary (precedence : Nat) : ParserFunction Expr
  | operators (precedence room : Nat) (chained : Bool) (left : Expr) : ParserFunction Expr
  | operand (precedence : Nat) : ParserFunction Expr
  | nextOperator (precedence : Nat) : ParserFunction (Option (String × Nat))
  | unary : ParserFunction Expr
  | unaryInner : ParserFunction Expr
  | chain : ParserFunction Expr
  | links (room : Nat) (linked : Bool) (e : Expr) : ParserFunction Expr
  | link (e : Expr) : ParserFunction (Option Expr)
  | newExpression : ParserFunction Expr
  | innerNew : ParserFunction Expr
  | newLinks (room : Nat) (callee : Expr) : ParserFunction Expr
  | arguments : ParserFunction (List Expr)
  | item : ParserFunction Expr
  | computedProperty : ParserFunction Expr
  | propertyName : ParserFunction String
  | primary : ParserFunction Expr
  | primaryWord (name : String) (position : Position) : ParserFunction Expr
  | templateLiteral (parts : List (List Token)) : ParserFunction Expr
  | substitutions (parts : List (List Token)) : ParserFunction (List Expr)
  | substitution : ParserFunction Expr
  | arrayLiteral : ParserFunction Expr
  | objectLiteral : ParserFunction Expr
  | objectLiteralOver (objectPattern : ParserFunction Expr) : ParserFunction Expr
  | property (target : ParserFunction Expr) : ParserFunction Property
  | propertyRest (target : ParserFunction Expr) (token : Token) (key : PropertyKey) :
    ParserFunction Property
  | propertyKey : ParserFunction PropertyKey
  | boundDepth (e : Expr) : ParserFunction Expr

namespace ParserFunction

/-- What the function does where the grammar has so many levels left. -/
def read (g : Grammar) : ParserFunction α → Parse α
  | program => g.program
  | statementsUntil stop => g.statementsUntil stop
  | block => g.block
  | statement => g.statement
  | statementInner => g.statementInner
  | wordStatement name position => g.wordStatement name position
  | expressionStatement => g.expressionStatement
  | declaration kind => g.declaration kind
  | declarators => g.declarators
  | declarator => g.declarator
  | bindingTarget => g.bindingTarget
  | bindingTargetOver objectPattern => g.bindingTargetOver (objectPattern.read g)
  | parenthesized => g.parenthesized
  | ifStatement => g.ifStatement
  | forStatement => g.forStatement
  | forHead => g.forHead
  | forSubject => g.forSubject
  | forInRest head => g.forInRest head
  | forRest init => g.forRest init
  | whileStatement position => g.whileStatement position
  | doStatement position => g.doStatement position
  | withStatement position => g.withStatement position
  | returnStatement => g.returnStatement
  | throwStatement => g.throwStatement
  | tryStatement => g.tryStatement
  | catchClause => g.catchClause
  | switchStatement => g.switchStatement
  | switchCase => g.switchCase
  | caseTest => g.caseTest
  | jumpLabel => Grammar.jumpLabel
  | function isDeclaration => g.function isDeclaration
  | functionRest target name position => g.functionRest (target.read g) name position
  | parameters target => g.parameters (target.read g)
  | parameter target => g.parameter (target.read g)
  | arrow => g.arrow
  | arrowBody => g.arrowBody
  | expression => g.expression
  | assignment => g.assignment
  | assignmentInner => g.assignmentInner
  | conditional => g.conditional
  | binary precedence => g.binary precedence
  | operators precedence room chained left => g.operators precedence room chained left
  | operand precedence => g.operand precedence
  | nextOperator precedence => Grammar.nextOperator precedence
  | unary => g.unary
  | unaryInner => g.unaryInner
  | chain => g.chain
  | links room linked e => g.links room linked e
  | link e => g.link e
  | newExpression => g.newExpression
  | innerNew => g.innerNew
  | newLinks room callee => g.newLinks room callee
  | arguments => g.arguments
  | item => g.item
  | computedProperty => g.computedProperty
  | propertyName => Grammar.propertyName
  | primary => g.primary
  | primaryWord name position => g.primaryWord name position
  | templateLiteral parts => g.templateLiteral parts
  | substitutions parts => g.substitutions parts
  | substitution => g.substitution
  | arrayLiteral => g.arrayLiteral
  | objectLiteral => g.objectLiteral
  | objectLiteralOver objectPattern => g.objectLiteralOver (objectPattern.read g)
  | property target => g.property (target.read g)
  | propertyRest target token key => g.propertyRest (target.read g) token key
  | propertyKey => g.propertyKey
  | boundDepth e => Grammar.boundDepth e

end ParserFunction

/-! ## Counters -/

namespace StepRelation.KeepsGrammar

variable {g : Grammar}

/-- The substitutions are read from states of their own, of which only the issues are kept. -/
theorem substitutions_counters (hg : sameCounters.KeepsGrammar g) (parts : List (List Token)) :
    sameCounters.Keeps (g.substitutions parts) := by
  intro s
  obtain ⟨inner, -, -, hs⟩ := hg.substitutions parts s
  rw [KeepsFrom, hs]
  exact ⟨rfl, rfl, rfl⟩

/-- Also where no template comes next. -/
theorem templateLiteral_counters (hg : sameCounters.KeepsGrammar g) (parts : List (List Token)) :
    sameCounters.Keeps (g.templateLiteral parts) :=
  .bind .pass fun _ => .bind (hg.substitutions_counters parts) fun _ => .pure

end StepRelation.KeepsGrammar

/-- Where a production fails, the relation holds between the states. -/
theorem StepRelation.Keeps.of_error {R : StepRelation} {p : Parse α} {s s' : ParserState}
    {fault : Fault} (hk : R.Keeps p) (hr : p s = .error fault s') : R.rel s s' := by
  have h := hk s
  unfold KeepsFrom leaves at h
  rwa [hr] at h

/-- Every function of the parser leaves the counters as it finds them, if the productions do that
recursion goes through. -/
theorem ParserFunction.keeps_counters {g : Grammar} (hg : StepRelation.sameCounters.KeepsGrammar g)
    (f : ParserFunction α) : StepRelation.sameCounters.Keeps (f.read g) := by
  induction f with
  | program => exact hg.program
  | statementsUntil stop => exact hg.statementsUntil stop
  | block => exact hg.block
  | statement => exact hg.statement
  | statementInner => exact hg.statementInner
  | wordStatement name position => exact hg.wordStatement name position
  | expressionStatement => exact hg.expressionStatement
  | declaration kind => exact hg.declaration kind
  | declarators => exact hg.declarators
  | declarator => exact hg.declarator
  | bindingTarget => exact hg.bindingTarget
  | bindingTargetOver _ ih => exact hg.bindingTargetOver ih
  | parenthesized => exact hg.parenthesized
  | ifStatement => exact hg.ifStatement
  | forStatement => exact hg.forStatement
  | forHead => exact hg.forHead
  | forSubject => exact hg.forSubject
  | forInRest head => exact hg.forInRest head
  | forRest init => exact hg.forRest init
  | whileStatement position => exact hg.whileStatement position
  | doStatement position => exact hg.doStatement position
  | withStatement position => exact hg.withStatement position
  | returnStatement => exact hg.returnStatement
  | throwStatement => exact hg.throwStatement
  | tryStatement => exact hg.tryStatement
  | catchClause => exact hg.catchClause
  | switchStatement => exact hg.switchStatement
  | switchCase => exact hg.switchCase
  | caseTest => exact hg.caseTest
  | jumpLabel => exact StepRelation.KeepsGrammar.jumpLabel
  | function isDeclaration => exact hg.function isDeclaration
  | functionRest _ name position ih => exact hg.functionRest ih name position
  | parameters _ ih => exact hg.parameters ih
  | parameter _ ih => exact hg.parameter ih
  | arrow => exact hg.arrow
  | arrowBody => exact hg.arrowBody
  | expression => exact hg.expression
  | assignment => exact hg.assignment
  | assignmentInner => exact hg.assignmentInner
  | conditional => exact hg.conditional
  | binary precedence => exact hg.binary precedence
  | operators precedence room chained left => exact hg.operators precedence room chained left
  | operand precedence => exact hg.operand precedence
  | nextOperator precedence => exact StepRelation.KeepsGrammar.nextOperator precedence
  | unary => exact hg.unary
  | unaryInner => exact hg.unaryInner
  | chain => exact hg.chain
  | links room linked e => exact hg.links room linked e
  | link e => exact hg.link e
  | newExpression => exact hg.newExpression
  | innerNew => exact hg.innerNew
  | newLinks room callee => exact hg.newLinks room callee
  | arguments => exact hg.arguments
  | item => exact hg.item
  | computedProperty => exact hg.computedProperty
  | propertyName => exact StepRelation.KeepsGrammar.propertyName
  | primary => exact hg.primary
  | primaryWord name position => exact hg.primaryWord name position
  | templateLiteral parts => exact hg.templateLiteral_counters parts
  | substitutions parts => exact hg.substitutions_counters parts
  | substitution => exact hg.substitution
  | arrayLiteral => exact hg.arrayLiteral
  | objectLiteral => exact hg.objectLiteral
  | objectLiteralOver _ ih => exact hg.objectLiteralOver ih
  | property _ ih => exact hg.property ih
  | propertyRest _ token key ih => exact hg.propertyRest ih token key
  | propertyKey => exact hg.propertyKey
  | boundDepth e => exact StepRelation.KeepsGrammar.boundDepth e

namespace ParserState

/-- With the same counters, two states differ in the place in the tokens and the issues only. -/
theorem SameCounters.eq {s s' : ParserState} (h : s.SameCounters s') :
    s' = { s with rest := s'.rest, consumed := s'.consumed, issues := s'.issues } := by
  obtain ⟨rest, consumed, functionDepth, nesting, noIn, issues⟩ := s
  obtain ⟨rest', consumed', functionDepth', nesting', noIn', issues'⟩ := s'
  obtain ⟨rfl, rfl, rfl⟩ := h
  rfl

end ParserState

/-! ## Rounds -/

/-- From this accumulator and state, the loop comes to begin a further round with those. -/
inductive Parse.Begins (step : σ → Parse (Step σ β)) (acc : σ) (s : ParserState) :
    σ → ParserState → Prop
  | first : Begins step acc s acc s
  | next {acc' acc'' : σ} {s' s'' : ParserState} (h : Begins step acc s acc' s')
    (hr : step acc' s' = .ok (.more acc'') s'') : Begins step acc s acc'' s''

namespace Parse.Begins

variable {step : σ → Parse (Step σ β)} {acc acc' : σ} {s s' : ParserState}

/-- The loop goes on from where it begins a round, with the rounds that are left. -/
theorem exists_rounds (h : Begins step acc s acc' s') :
    ∃ n, ∀ fuel, rounds step (n + fuel) acc s = rounds step fuel acc' s' := by
  induction h with
  | first => exact ⟨0, fun fuel => by rw [Nat.zero_add]⟩
  | next _ hr ih =>
    obtain ⟨n, hn⟩ := ih
    refine ⟨n + 1, fun fuel => ?_⟩
    rw [Nat.add_assoc, Nat.add_comm 1, hn, rounds]
    simp only [Bind.bind, EStateM.bind, hr]

/-- What every round keeps holds where a round begins. -/
theorem keeps {R : StepRelation} (hs : ∀ acc, R.Keeps (step acc)) (h : Begins step acc s acc' s') :
    R.rel s s' := by
  induction h with
  | first => exact R.refl s
  | next _ hr ih => exact R.trans ih ((hs _).of_ok hr)

end Parse.Begins

/-- In a list of statements whose reading starts from `s`, a statement is begun in `s'`: in a
script, or in a block or case, up to a token at which `stop` holds. -/
inductive Grammar.BeginsStatement (g : Grammar) (s s' : ParserState) : Prop
  | script {body : List Stmt} (h : Begins g.programRound [] s body s')
  | list {stop : Token → Bool} {body : List Stmt} (h : Begins (g.statementsRound stop) [] s body s')

/-- Every statement of a list is begun with the counters of the first. -/
theorem Grammar.BeginsStatement.sameCounters {g : Grammar}
    (hg : StepRelation.sameCounters.KeepsGrammar g) {s s' : ParserState}
    (h : g.BeginsStatement s s') : s.SameCounters s' := by
  cases h with
  | script h => exact h.keeps hg.programRound
  | list h => exact h.keeps (hg.statementsRound _)

/-- The functions of the parser put the counters back, and the statements of a list are not told of
the faults in those before them. -/
structure Grammar.RestoresCounters (g : Grammar) : Prop where
  /-- With a value, as many functions and productions are open as before, and `in` means the
  same. -/
  value {α : Type} (f : ParserFunction α) (s s' : ParserState) (a : α)
    (h : f.read g s = .ok a s') :
    s'.nesting = s.nesting ∧ s'.functionDepth = s.functionDepth ∧ s'.noIn = s.noIn
  /-- And so with a fault. -/
  fault {α : Type} (f : ParserFunction α) (s s' : ParserState) (fault : Fault)
    (h : f.read g s = .error fault s') :
    s'.nesting = s.nesting ∧ s'.functionDepth = s.functionDepth ∧ s'.noIn = s.noIn
  /-- A statement of a list is begun as the list was, but for the place and the issues. -/
  statement (s s' : ParserState) (h : g.BeginsStatement s s') :
    s' = { s with rest := s'.rest, consumed := s'.consumed, issues := s'.issues }
  /-- In a script nothing is open there, and `in` is an operator. -/
  script (tokens : List Token) (body : List Stmt) (s' : ParserState)
    (h : Begins g.programRound [] (.start tokens 0 0) body s') :
    s'.nesting = 0 ∧ s'.functionDepth = 0 ∧ s'.noIn = false

/-- The parser restores its counters, for every token list and from every state. -/
theorem Grammar.counters_restored (levels : Nat) : (Grammar.levels levels).RestoresCounters where
  value f s s' a h := by
    have hg := StepRelation.KeepsGrammar.levels .sameCounters levels
    have hsame : s.SameCounters s' := StepRelation.Keeps.of_ok (f.keeps_counters hg) h
    exact ⟨hsame.nesting, hsame.functionDepth, hsame.noIn⟩
  fault f s s' fault h := by
    have hg := StepRelation.KeepsGrammar.levels .sameCounters levels
    have hsame : s.SameCounters s' := StepRelation.Keeps.of_error (f.keeps_counters hg) h
    exact ⟨hsame.nesting, hsame.functionDepth, hsame.noIn⟩
  statement s s' h := (h.sameCounters (.levels .sameCounters levels)).eq
  script tokens body s' h := by
    have hg := StepRelation.KeepsGrammar.levels .sameCounters levels
    have hsame := (Grammar.BeginsStatement.script h).sameCounters hg
    exact ⟨hsame.nesting, hsame.functionDepth, hsame.noIn⟩

/-! ## Statements behind faults -/

/-- The same place in the tokens with nothing open, where as many issues have been recorded. -/
def ParserState.afresh (s : ParserState) : ParserState :=
  { start s.rest 0 0 with issues := s.issues }

/-- What comes before a statement of a script, with faults or without, does not matter to what
follows: the rest of the script is read as by a parser that starts there, inside of nothing. It has
the statements that were read before, and the issues, which are counted on. -/
theorem Grammar.script_read_afresh (levels : Nat) {tokens : List Token} (hw : WellEnded tokens)
    {body : List Stmt} {s : ParserState}
    (h : Begins (Grammar.levels levels).programRound [] (.start tokens 0 0) body s) :
    ∃ program fin fin',
      (Grammar.levels levels).program (.start tokens 0 0) = .ok program fin ∧
      rounds (Grammar.levels levels).programRound (s.rest.length + 1) body s.afresh =
        .ok program fin' ∧
      fin.issues = fin'.issues := by
  have htakes := Grammar.TakesTokens.levels levels
  have hmoves : (ParserState.start tokens 0 0).MovesTo s := h.keeps htakes.moves.programRound
  have hsame := (Grammar.BeginsStatement.script h).sameCounters (.levels .sameCounters levels)
  -- the rounds up to the statement, and those that are left of more than enough
  obtain ⟨n, hn⟩ := h.exists_rounds
  have hlength : s.rest.length ≤ tokens.length := hmoves.suffix.length_le
  have hprogram : (Grammar.levels levels).program (.start tokens 0 0) =
      rounds (Grammar.levels levels).programRound (tokens.length + 1) body s := by
    have henough := htakes.loopsEnd.program [] (.start tokens 0 0) (tokens.length + 1)
      (n + (tokens.length + 1)) (Nat.lt_succ_self _) (by show tokens.length < _; omega)
    exact henough.trans (hn _)
  -- from the statement on both are alike
  have hrel : (Mirror.moved id s.rest (s.rest.length + 1) s.consumed).Rel s.afresh s :=
    { lists := ⟨List.suffix_refl _, hmoves.wellEnded hw, .inl (moveTokens_id s.rest).symm⟩
      consumed := (Nat.zero_add _).symm
      counters := ⟨hsame.functionDepth, hsame.nesting, hsame.noIn⟩
      issues := (List.map_id s.issues).symm }
  have hstatement := (Mirror.moved_levels id levels (s.rest.length + 1) s.consumed s.rest).statement
  have hleft : s.rest.length < s.rest.length + 1 := Nat.lt_succ_self _
  have hrounds := Mirror.AlikeFrom.rounds
    (Mirror.programRound htakes (Nat.le_refl _) hstatement []) htakes.programRound body hrel
    (Nat.lt_succ_of_lt hleft) hleft (Nat.lt_succ_of_le hlength)
  have hout := hrounds.outcome id
  have hbody : body.map (Stmt.move (Mirror.moved id s.rest (s.rest.length + 1) s.consumed).move) ++
      [] = body := by
    rw [List.append_nil]
    exact (congrArg (body.map ·) (funext Stmt.move_id)).trans (List.map_id' body)
  rw [hbody] at hout
  obtain ⟨program, fin, hwhole⟩ := htakes.program_ok (.start tokens 0 0)
  rw [← hprogram, hwhole] at hout
  generalize rounds (Grammar.levels levels).programRound (s.rest.length + 1) body s.afresh = result
    at hout ⊢
  cases hout with
  | ok program hfin =>
    have hread : program.move id = program := congrArg Program.mk (Stmt.moveAll_id program.body)
    have hissues := hfin.issues.trans (List.map_id _)
    exact ⟨_, fin, _, hwhole, congrArg (EStateM.Result.ok · _) hread.symm, hissues⟩

end ScriptHooks.Script

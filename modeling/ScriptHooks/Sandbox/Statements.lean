/-
ScriptHooks.Sandbox.Statements — what statements do, and how they end.

A statement ends normally or with a jump, which the statements around it pass on until
one is reached that it is meant for. `endOfRound` is the rule for loops: a `continue`
for the loop begins the next round, a `break` without a label ends the loop, and any
other jump ends it and is passed on.

What a script throws may be caught; that its budget is used up may not, and then no
`finally` runs either.

A loop is `Run.loop`: its rounds are counted by the budget, so the loop needs no
bound of its own. Where a loop declares names, each round has variables of its own; a
function made in one round keeps those of that round.
-/
import ScriptHooks.Sandbox.Expressions

namespace ScriptHooks.Sandbox

namespace Evaluator

open Run

/-! ## Blocks and declarations -/

def runStatements (e : Evaluator) (scope : Scope) : List Stmt → Run Completion
  | [] => pure .normal
  | statement :: rest => do
    match ← e.statement [] scope statement with
    | .normal => runStatements e scope rest
    | jump => pure jump

def runBlock (e : Evaluator) (scope : Scope) (block : Block) : Run Completion := do
  match block with
  | .mk names functions body =>
    let scope ← declareLexical scope names
    let scope ← declareFunctions scope functions
    runStatements e scope body

/-- A declared name or pattern gets its value, if it is given one. -/
def runDeclaration (e : Evaluator) (scope : Scope) (kind : DeclarationKind) (target : Expr) :
    Run Unit := do
  let binding := if kind = .var then Binding.assign else .firstValue
  match target with
  | .assign pattern value => e.bind binding scope pattern (← e.expr scope value)
  | pattern =>
    if kind = .var then pure () else e.bind binding scope pattern .undefined

/-! ## Loops -/

/-- How a loop ends after a round of its body, if it ends. -/
def endOfRound (labels : List Name) : Completion → Option Completion
  | .normal => none
  | .continue_ none => none
  | .continue_ (some label) =>
    if labels.contains label then none else some (.continue_ (some label))
  | .break_ none => some .normal
  | jump => some jump

def runWhile (e : Evaluator) (labels : List Name) (scope : Scope) (test : Expr) (body : Stmt) :
    Run Completion :=
  loop (fun _ => do
    if (← e.expr scope test).isTruthy then
      match endOfRound labels (← e.statement [] scope body) with
      | some ending => pure (.ok ending)
      | none => pure (.error ())
    else pure (.ok .normal)) ()

/-- Rounds until a test fails after one. -/
def runDoWhile (e : Evaluator) (labels : List Name) (scope : Scope) (body : Stmt)
    (test : Expr) : Run Completion :=
  loop (fun _ => do
    match endOfRound labels (← e.statement [] scope body) with
    | some ending => pure (.ok ending)
    | none =>
      if (← e.expr scope test).isTruthy then pure (.error ()) else pure (.ok .normal)) ()

/-- Rounds with a step after each; every round has variables of its own. -/
def runFor (e : Evaluator) (labels : List Name) (scope : Scope) (names : List LexicalName)
    (start : Stmt) (test step : Expr) (body : Stmt) : Run Completion := do
  let scope ← declareLexical scope names
  let _ ← e.statement [] scope start
  loop (fun scope => do
    if (← e.expr scope test).isTruthy then
      match endOfRound labels (← e.statement [] scope body) with
      | some ending => pure (.ok ending)
      | none =>
        let scope ← copyVariables names.length scope
        let _ ← e.expr scope step
        pure (.error scope)
    else pure (.ok .normal)) scope

/-- A round of a loop over items: its target gets the item, then the body runs. -/
def runRound (e : Evaluator) (scope : Scope) (names : List LexicalName)
    (kind : Option DeclarationKind) (target : Expr) (item : Value) (body : Stmt) :
    Run Completion := do
  let scope ← declareLexical scope names
  let binding := match kind with
    | some .let_ => Binding.firstValue
    | some .const => .firstValue
    | _ => .assign
  e.bind binding scope target item
  e.statement [] scope body

/-- The names that a loop over an object sees: those of the object, then those of its
prototypes, each once. -/
def namesAlong (seen : List Name) : Nat → Option Ref → Run (List Name)
  | fuel + 1, some ref => do
    let found ← object ref
    let own := found.ownKeys.filterMap fun
      | .text name => some name
      | .symbol _ => none
    let shown := (← namesOf ref).filter fun name => !seen.contains name
    let more ← namesAlong (own ++ seen) fuel found.proto
    pure (shown ++ more)
  | _, _ => pure []

def runForIn (e : Evaluator) (labels : List Name) (scope : Scope) (names : List LexicalName)
    (kind : Option DeclarationKind) (target subject : Expr) (body : Stmt) :
    Run Completion := do
  let value ← e.expr scope subject
  if value.isNullish then pure .normal
  else
    let ref ← toObject value
    let keys ← namesAlong [] (← chainLength) (some ref)
    loop (fun keys => do
      match keys with
      | [] => pure (.ok .normal)
      | key :: rest =>
        if ← hasProperty ref (.text key) then
          let ending ← runRound e scope names kind target (.text key) body
          match endOfRound labels ending with
          | some ending => pure (.ok ending)
          | none => pure (.error rest)
        else pure (.error rest)) keys

/-- Where a loop takes its items from. -/
inductive ItemSource
  /-- An array, which may change meanwhile, from a place on. -/
  | array (ref : Ref) (place : Nat)
  | known (items : List Value)
  | iterator (iterator : Value)

def itemSource (m : Machine) (value : Value) : Run ItemSource := do
  let isArray ← match value with
    | .object ref =>
      match (← object ref).kind with
      | .array _ _ _ => pure (some ref)
      | _ => pure none
    | _ => pure none
  match isArray with
  | some ref => pure (.array ref 0)
  | none =>
    match ← knownItems m value with
    | some items => pure (.known items)
    | none => pure (.iterator (← iteratorOf m value))

def nextFrom (m : Machine) : ItemSource → Run (Option (Value × ItemSource))
  | .array ref place => do
    if place < (← lengthOf m (.object ref)) then
      pure (some (← itemAt m ref place, .array ref (place + 1)))
    else pure none
  | .known [] => pure none
  | .known (item :: rest) => pure (some (item, .known rest))
  | .iterator iterator => do
    pure ((← nextItem m iterator).map fun item => (item, .iterator iterator))

def closeSource (m : Machine) : ItemSource → Run Unit
  | .iterator iterator => do
    match ← getMethod m iterator "return" with
    | some method =>
      let _ ← m.call method iterator []
    | none => pure ()
  | _ => pure ()

def attempt (act : Run α) : Run (Except Value α) :=
  tryCatch (do pure (.ok (← act))) fun
    | .thrown value => pure (.error value)
    | halt => throw halt

def runForOf (e : Evaluator) (labels : List Name) (scope : Scope) (names : List LexicalName)
    (kind : Option DeclarationKind) (target subject : Expr) (body : Stmt) :
    Run Completion := do
  let m := e.toMachine
  let source ← itemSource m (← e.expr scope subject)
  loop (fun source => do
    match ← nextFrom m source with
    | none => pure (.ok .normal)
    | some (item, rest) =>
      match ← attempt (runRound e scope names kind target item body) with
      | .ok ending =>
        match endOfRound labels ending with
        | some ending =>
          closeSource m source
          pure (.ok ending)
        | none => pure (.error rest)
      | .error thrown =>
        let _ ← attempt (closeSource m source)
        throw (.thrown thrown)) source

/-! ## Handlers and cases -/

def runHandler (e : Evaluator) (scope : Scope) (shape : TryShape) (pattern : Expr)
    (handler : Block) (thrown : Value) : Run Completion := do
  match shape.pattern with
  | none => runBlock e scope handler
  | some names =>
    let scope ← declareLexical scope names
    e.bind .firstValue scope pattern thrown
    runBlock e scope handler

/-- A `try` statement. A finisher that jumps decides how the statement ends. -/
def runTry (e : Evaluator) (scope : Scope) (shape : TryShape) (body : Block) (pattern : Expr)
    (handler finisher : Block) : Run Completion := do
  let outcome ← attempt (runBlock e scope body)
  let outcome ← match outcome with
    | .error thrown =>
      if shape.catches then attempt (runHandler e scope shape pattern handler thrown)
      else pure outcome
    | .ok _ => pure outcome
  let ending ← if shape.finishes then runBlock e scope finisher else pure .normal
  match ending, outcome with
  | .normal, .ok completion => pure completion
  | .normal, .error thrown => throw (.thrown thrown)
  | jump, _ => pure jump

/-- The cases from the one that matches on; nothing if none does. -/
def matchingCases (e : Evaluator) (scope : Scope) (value : Value) :
    List Case → Run (Option (List Case))
  | [] => pure none
  | .mk isDefault test body :: rest => do
    if !isDefault && isSame value (← e.expr scope test) then
      pure (some (.mk isDefault test body :: rest))
    else matchingCases e scope value rest

def defaultCases : List Case → List Case
  | [] => []
  | .mk isDefault test body :: rest =>
    if isDefault then .mk isDefault test body :: rest else defaultCases rest

def runCases (e : Evaluator) (scope : Scope) : List Case → Run Completion
  | [] => pure .normal
  | .mk _ _ body :: rest => do
    match ← runStatements e scope body with
    | .normal => runCases e scope rest
    | .break_ none => pure .normal
    | jump => pure jump

def runSwitch (e : Evaluator) (scope : Scope) (subject : Expr) (names : List LexicalName)
    (functions : List Code) (cases : List Case) : Run Completion := do
  let value ← e.expr scope subject
  let scope ← declareLexical scope names
  let scope ← declareFunctions scope functions
  match ← matchingCases e scope value cases with
  | some found => runCases e scope found
  | none => runCases e scope (defaultCases cases)

/-! ## Statements -/

def runStatement (e : Evaluator) (labels : List Name) (scope : Scope) (statement : Stmt) :
    Run Completion := do
  match statement with
  | .empty => pure .normal
  | .expr expr =>
    let _ ← e.expr scope expr
    pure .normal
  | .declare kind targets =>
    targets.forM (runDeclaration e scope kind)
    pure .normal
  | .block block => runBlock e scope block
  | .if_ test yes no =>
    if (← e.expr scope test).isTruthy then e.statement [] scope yes
    else e.statement [] scope no
  | .for_ names start test step body => runFor e labels scope names start test step body
  | .forIn names kind target subject body =>
    runForIn e labels scope names kind target subject body
  | .forOf names kind target subject body =>
    runForOf e labels scope names kind target subject body
  | .while_ test body => runWhile e labels scope test body
  | .doWhile body test => runDoWhile e labels scope body test
  | .return_ value => pure (.return_ (← e.expr scope value))
  | .throw_ value => throw (.thrown (← e.expr scope value))
  | .try_ shape body pattern handler finisher =>
    runTry e scope shape body pattern handler finisher
  | .switch subject names functions cases => runSwitch e scope subject names functions cases
  | .break_ label => pure (.break_ label)
  | .continue_ label => pure (.continue_ label)
  | .labeled label body =>
    match ← e.statement (label :: labels) scope body with
    | .break_ (some target) =>
      pure (if target = label then .normal else .break_ (some target))
    | ending => pure ending

end Evaluator

end ScriptHooks.Sandbox

/-
ScriptHooks.Proofs.Script.LoopRounds — the loops of the parser, each by one of its rounds.

Every list in a script is read by a loop: the items of an array, of a call and of an object, the
operands of a comma, declarators, statements, the cases of a switch. In the productions the rounds
are nameless. Here they have names, so that what holds of one round can be said once, and each
production that loops is given as the loop of its round (the lemmas that end in `_eq`, which all
hold by unfolding).

Two uses: that a round takes a token whenever the loop goes on, for termination
(`Parse.Step.GoesOn`), and that a round on moved tokens is the moved round, for substitutions and
for lines put before a text. Neither is about what the list means.

Arguments and parameters are read by the same round over different items, `itemsRound`.
-/
import ScriptHooks.Script.Parser

namespace ScriptHooks.Script

open Parse

/-- Whether the loop goes on after this round. -/
def Parse.Step.GoesOn : Step σ β → Prop
  | .more _ => True
  | .done _ => False

namespace Grammar

/-- One round of the loop over the expressions behind commas. -/
def sequenceRound (g : Grammar) (items : List Expr) : Parse (Step (List Expr) (List Expr)) := do
  if ← acceptMark "," then
    let item ← g.assignment
    return .more (item :: items)
  return .done items.reverse

theorem expression_eq (g : Grammar) : g.expression = (do
    let first ← g.assignment
    unless (← peek).isMark "," do
      return first
    let items ← loop g.sequenceRound [first]
    return .sequence items) := rfl

def arrayRound (g : Grammar) (items : List Expr) : Parse (Step (List Expr) Expr) := do
  if ← acceptMark "]" then
    return .done (.array items.reverse)
  if ← acceptMark "," then
    return .more items
  let item ← g.item
  unless ← acceptMark "," do
    expect "]"
    return .done (.array (item :: items).reverse)
  return .more (item :: items)

theorem arrayLiteral_eq (g : Grammar) :
    g.arrayLiteral = (do expect "["; withoutIn false (loop g.arrayRound [])) := rfl

/-- One round of the loop over arguments or parameters, up to a closing mark. -/
def itemsRound (p : Parse Expr) (close : String) (items : List Expr) :
    Parse (Step (List Expr) (List Expr)) := do
  if ← acceptMark close then
    return .done items.reverse
  let item ← p
  unless ← acceptMark "," do
    expect close
    return .done (item :: items).reverse
  return .more (item :: items)

theorem arguments_eq (g : Grammar) :
    g.arguments = (do expect "("; withoutIn false (loop (itemsRound g.item ")") [])) := rfl

theorem parameters_eq (g : Grammar) (target : Parse Expr) :
    g.parameters target = loop (itemsRound (g.parameter target) ")") [] := rfl

/-- One round of the loop over the properties of an object. -/
def propertiesRound (g : Grammar) (target : Parse Expr) (position : Position)
    (properties : List Property) : Parse (Step (List Property) Expr) := do
  if ← acceptMark "\x7d" then
    return .done (.object properties.reverse position)
  let property ← g.property target
  unless ← acceptMark "," do
    expect "\x7d"
    return .done (.object (property :: properties).reverse position)
  return .more (property :: properties)

theorem objectLiteralOver_eq (g : Grammar) (objectPattern : Parse Expr) :
    g.objectLiteralOver objectPattern = (do
      let position := (← peek).position
      expect "\x7b"
      withoutIn false
        (loop (g.propertiesRound (g.bindingTargetOver objectPattern) position) [])) := rfl

def declaratorsRound (g : Grammar) (taken : List Declarator) :
    Parse (Step (List Declarator) (List Declarator)) := do
  let declarator ← g.declarator
  if ← acceptMark "," then
    return .more (declarator :: taken)
  return .done (declarator :: taken).reverse

theorem declarators_eq (g : Grammar) :
    g.declarators = (do pass; loop g.declaratorsRound []) := rfl

/-- One round of the loop over the statements of a block or a case. -/
def statementsRound (g : Grammar) (stop : Token → Bool) (body : List Stmt) :
    Parse (Step (List Stmt) (List Stmt)) := do
  let token ← peek
  if token.isEof || stop token then
    return .done body.reverse
  match ← recovering g.statement with
  | some statement => return .more (statement :: body)
  | none => return .more body

theorem statementsUntil_eq (g : Grammar) (stop : Token → Bool) :
    g.statementsUntil stop = loop (g.statementsRound stop) [] := rfl

/-- One round of the loop over the cases of a `switch`. -/
def switchRound (g : Grammar) (discriminant : Expr) (cases : List SwitchCase) :
    Parse (Step (List SwitchCase) Stmt) := do
  if ← acceptMark "\x7d" then
    return .done (.switch discriminant cases.reverse)
  let case ← g.switchCase
  if ← isAtEnd then
    fail "unterminated 'switch' body"
  else return .more (case :: cases)

theorem switchStatement_eq (g : Grammar) : g.switchStatement = (do
    pass
    let discriminant ← g.parenthesized
    expect "\x7b"
    loop (g.switchRound discriminant) []) := rfl

/-- One round of the loop over the statements of a script. -/
def programRound (g : Grammar) (body : List Stmt) : Parse (Step (List Stmt) Program) := do
  let s ← get
  if s.isAtEnd then
    return .done ⟨body.reverse⟩
  if s.peek.isMark "\x7d" then
    set (s.noting s.unexpected).pass
    return .more body
  match ← recovering g.statement with
  | some statement => return .more (statement :: body)
  | none => return .more body

theorem program_eq (g : Grammar) : g.program = loop g.programRound [] := rfl

end Grammar

end ScriptHooks.Script

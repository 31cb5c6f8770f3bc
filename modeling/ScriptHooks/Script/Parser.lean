/-
ScriptHooks.Script.Parser — tokens read as a program.

The productions are written over a `Grammar`, the handful of productions that
recursion goes through: statements, assignments, unary expressions, operands of
operators, and the callees of `new`. Each of them opens one more level of nesting,
so the grammar for `maxNesting` levels is built by as many rounds of
`Grammar.next`, beginning with one that refuses everything (`exhausted`), and every
production is an ordinary function.

Expression chains are built in loops and measured afterwards (`boundDepth`): links
of calls and properties by `links`, operators by `operators`. The latter takes an
operator if it binds at least as tightly as asked for, and gives its right operand
the bound that the operator sets. Operators of equal strength group to the left, and
powers to the right.

What cannot be told from the next token is told by looking ahead: an arrow function
by the arrow behind its parameters (`arrowAfterGroup`), a declaration with `let` by
the token behind the word, a key of a property by what follows it.

Object patterns stand where a name is bound. They are read like object literals,
with patterns for values, and within a bound of their own on how many are inside
each other (`objectLiteralWithin`).

A fault inside a statement list is recorded, and the list goes on at the next
plausible start of a statement, so that one report covers the whole script. A
substitution of a template is one expression, read on its own tokens.
-/
import ScriptHooks.Script.Depth
import ScriptHooks.Script.ParserState

namespace ScriptHooks.Script

open Parse

/-- The productions that recursion goes through. -/
structure Grammar where
  statement : Parse Stmt
  assignment : Parse Expr
  unary : Parse Expr
  /-- The right operand of an operator, of at least this precedence. -/
  operand : Nat → Parse Expr
  /-- A `new` directly after a `new`. -/
  innerNew : Parse Expr

def assignmentOperators : List String :=
  ["=", "+=", "-=", "*=", "/=", "%=", "**=", "<<=", ">>=", ">>>=", "&=", "|=", "^=", "&&=",
    "||=", "??="]

/-- The punctuators that are binary operators, with their precedence. -/
def binaryOperators : List (String × Nat) := [
  ("??", 1), ("||", 2), ("&&", 3), ("|", 4), ("^", 5), ("&", 6), ("==", 7), ("!=", 7),
  ("===", 7), ("!==", 7), ("<", 8), (">", 8), ("<=", 8), (">=", 8), ("<<", 9), (">>", 9),
  (">>>", 9), ("+", 10), ("-", 10), ("*", 11), ("/", 11), ("%", 11), ("**", 12)]

/-- The precedence of `in` and `instanceof`. -/
def relationPrecedence : Nat := 8

def Token.binaryOperator? (token : Token) (noIn : Bool) : Option (String × Nat) :=
  match token.kind with
  | .punct text => binaryOperators.find? fun entry => entry.1 == text
  | .word name =>
    if name == "instanceof" || (name == "in" && !noIn) then some (name, relationPrecedence)
    else none
  | _ => none

def Token.startsKey (token : Token) : Bool :=
  match token.kind with
  | .word _ => true
  | .string _ => true
  | .number => true
  | .punct text => text == "["
  | _ => false

/-- Whether an arrow follows the bracket that closes a group; `depth` counts the
open brackets, and a closing one too many counts as none. -/
def arrowAfterGroup : Nat → List Token → Bool
  | _, [] => false
  | depth, token :: rest =>
    match token.kind with
    | .eof => false
    | .punct text =>
      if ["(", "[", "\x7b"].contains text then arrowAfterGroup (depth + 1) rest
      else if [")", "]", "\x7d"].contains text then
        if depth ≤ 1 then (rest.headD default).isMark "=>" else arrowAfterGroup (depth - 1) rest
      else arrowAfterGroup depth rest
    | _ => arrowAfterGroup depth rest

def ParserState.startsArrow (s : ParserState) : Bool :=
  if s.peek.isName then (s.tokenAhead 1).isMark "=>"
  else s.peek.isMark "(" && arrowAfterGroup 0 s.rest

/-- Whether the `let` that comes next declares. -/
def ParserState.letDeclares (s : ParserState) : Bool :=
  let next := s.tokenAhead 1
  next.isMark "[" || next.isMark "\x7b" || next.isName

def Token.prefixOperator? (token : Token) : Option String :=
  match token.kind with
  | .punct text => if ["!", "~", "+", "-", "++", "--"].contains text then some text else none
  | .word name => if ["typeof", "void", "delete"].contains name then some name else none
  | _ => none

/-- The keyword of the declaration that comes next, if one does. -/
def ParserState.declares (s : ParserState) : Option VarKind :=
  if s.peek.isWord "var" then some .var
  else if s.peek.isWord "const" then some .const
  else if s.peek.isWord "let" && s.letDeclares then some .let_
  else none

namespace Grammar

/-- Fail if the tree of an expression has too many levels. -/
def boundDepth (expr : Expr) : Parse Expr :=
  if expr.isDeeperThan maxExpressionDepth then fail "expression is nested too deeply"
  else pure expr

def expression (g : Grammar) : Parse Expr := do
  let first ← g.assignment
  unless (← peek).isMark "," do
    return first
  let items ← loop (fun items => do
    if ← acceptMark "," then
      let item ← g.assignment
      return .more (item :: items)
    return .done items.reverse) [first]
  return .sequence items

/-- An expression between round brackets. -/
def parenthesized (g : Grammar) : Parse Expr := do
  expect "("
  let expr ← withoutIn false g.expression
  expect ")"
  return expr

/-- An item of a list, spread or not. -/
def item (g : Grammar) : Parse Expr := do
  if ← acceptMark "..." then
    return .spread (← g.assignment)
  g.assignment

/-- An array literal or pattern. Holes leave no trace. -/
def arrayLiteral (g : Grammar) : Parse Expr := do
  expect "["
  withoutIn false <| loop (fun items => do
    if ← acceptMark "]" then
      return .done (.array items.reverse)
    if ← acceptMark "," then
      return .more items
    let item ← g.item
    unless ← acceptMark "," do
      expect "]"
      return .done (.array (item :: items).reverse)
    return .more (item :: items)) []

def arguments (g : Grammar) : Parse (List Expr) := do
  expect "("
  withoutIn false <| loop (fun items => do
    if ← acceptMark ")" then
      return .done items.reverse
    let item ← g.item
    unless ← acceptMark "," do
      expect ")"
      return .done (item :: items).reverse
    return .more (item :: items)) []

/-- Statements up to a token at which `stop` holds, or the end. -/
def statementsUntil (g : Grammar) (stop : Token → Bool) : Parse (List Stmt) :=
  loop (fun body => do
    let token ← peek
    if token.isEof || stop token then
      return .done body.reverse
    match ← recovering g.statement with
    | some statement => return .more (statement :: body)
    | none => return .more body) []

def block (g : Grammar) : Parse (List Stmt) := do
  expect "\x7b"
  let body ← g.statementsUntil (·.isMark "\x7d")
  expect "\x7d"
  return body

def propertyKey (g : Grammar) : Parse PropertyKey := do
  match (← peek).kind with
  | .word name =>
    pass
    return .named name
  | .string name =>
    pass
    return .named name
  | .number =>
    pass
    return .computed .literal
  | .punct "[" =>
    pass
    let key ← g.assignment
    expect "]"
    return .computed key
  | _ => failExpecting "a property name"

def propertyName : Parse String := do
  let token ← peek
  match token.word? with
  | some name =>
    pass
    return name
  | none =>
    if token.isMark "#" then unsupported "private fields"
    else failExpecting "a property name"

def bindingTargetOver (g : Grammar) (objectPattern : Parse Expr) : Parse Expr := do
  let token ← peek
  if token.isMark "[" then g.arrayLiteral
  else if token.isMark "\x7b" then objectPattern
  else
    match token.word? with
    | some name =>
      if isReservedWord name then failExpecting "a binding name"
      else
        pass
        return .ident name token.position
    | none => failExpecting "a binding name"

/-- One parameter: a rest parameter, or a target with or without a default. -/
def parameter (g : Grammar) (target : Parse Expr) : Parse Expr := do
  if ← acceptMark "..." then
    return .spread (← target)
  let pattern ← target
  if ← acceptMark "=" then
    return .binary "=" pattern (← g.assignment)
  return pattern

/-- Parameters after the opening bracket, the closing one included. -/
def parameters (g : Grammar) (target : Parse Expr) : Parse (List Expr) :=
  loop (fun items => do
    if ← acceptMark ")" then
      return .done items.reverse
    let item ← g.parameter target
    unless ← acceptMark "," do
      expect ")"
      return .done (item :: items).reverse
    return .more (item :: items)) []

def functionRest (g : Grammar) (target : Parse Expr) (name : Option String)
    (position : Position) : Parse Function := do
  expect "("
  let params ← g.parameters target
  let body ← insideFunction g.block
  return .mk name params body false position

/-- What follows a plain key: a value, a method, or nothing for a bare name. -/
def propertyRest (g : Grammar) (target : Parse Expr) (token : Token) (key : PropertyKey) :
    Parse Property := do
  if ← acceptMark ":" then
    return .keyValue key (← g.assignment)
  if (← peek).isMark "(" then
    let name := match key with
      | .named name => some name
      | .computed _ => none
    return .method key (← g.functionRest target name token.position)
  match token.word? with
  | some name =>
    if isReservedWord name then failExpecting "':' after property name"
    else if ← acceptMark "=" then
      return .shorthand name token.position (some (← g.assignment))
    else return .shorthand name token.position none
  | none => failExpecting "':' after property name"

def property (g : Grammar) (target : Parse Expr) : Parse Property := do
  if ← acceptMark "..." then
    return .spread (← g.assignment)
  let token ← peek
  if token.isMark "*" then
    unsupported "generator methods"
  else
    let keyFollows := (← tokenAhead 1).startsKey
    if (token.isWord "get" || token.isWord "set") && keyFollows then
      pass
      let key ← g.propertyKey
      return .method key (← g.functionRest target none token.position)
    else if token.isWord "async" && keyFollows then
      unsupported "async methods"
    else
      let key ← g.propertyKey
      g.propertyRest target token key

/-- An object literal or pattern, with the given production for the object patterns
among the parameters of its methods. -/
def objectLiteralOver (g : Grammar) (objectPattern : Parse Expr) : Parse Expr := do
  let position := (← peek).position
  expect "\x7b"
  withoutIn false <| loop (fun properties => do
    if ← acceptMark "\x7d" then
      return .done (.object properties.reverse position)
    let property ← g.property (g.bindingTargetOver objectPattern)
    unless ← acceptMark "," do
      expect "\x7d"
      return .done (.object (property :: properties).reverse position)
    return .more (property :: properties)) []

/-- An object literal in which methods have parameters that are object patterns with
methods, and so on, at most so many times over. -/
def objectLiteralWithin (g : Grammar) : Nat → Parse Expr
  | 0 => unexpected
  | bound + 1 => g.objectLiteralOver (g.objectLiteralWithin bound)

/-- An object literal or pattern. Each one inside takes a token, so that no more can
be inside each other than tokens are left. -/
def objectLiteral (g : Grammar) : Parse Expr := do
  g.objectLiteralWithin ((← get).rest.length + 1)

def bindingTarget (g : Grammar) : Parse Expr := g.bindingTargetOver g.objectLiteral

def function (g : Grammar) (isDeclaration : Bool) : Parse Function := do
  let position := (← peek).position
  pass
  let token ← peek
  if token.isMark "*" then
    unsupported "generator functions"
  else if token.isName then
    pass
    g.functionRest g.bindingTarget token.word? position
  else if isDeclaration then
    fail "function declaration requires a name"
  else g.functionRest g.bindingTarget none position

/-- The body of an arrow: a block, or an expression that is returned. -/
def arrowBody (g : Grammar) : Parse (List Stmt) := do
  if (← peek).isMark "\x7b" then g.block
  else return [.return_ (some (← g.assignment))]

def arrow (g : Grammar) : Parse Expr := do
  let token ← peek
  let params ←
    match token.word? with
    | some name => do
      pass
      pure [Expr.ident name token.position]
    | none => do
      expect "("
      g.parameters g.bindingTarget
  expect "=>"
  let body ← insideFunction g.arrowBody
  return .function (.mk none params body true token.position)

def substitution (g : Grammar) : Parse Expr := do
  if ← isAtEnd then
    fail "empty template substitution"
  else
    let expr ← g.expression
    unless ← isAtEnd do
      unexpected
    return expr

def substitutions (g : Grammar) : List (List Token) → Parse (List Expr)
  | [] => pure []
  | tokens :: rest => do
    let expr ← onTokens tokens g.substitution
    let exprs ← g.substitutions rest
    return expr :: exprs

def templateLiteral (g : Grammar) (parts : List (List Token)) : Parse Expr := do
  pass
  return .template (← g.substitutions parts)

def primaryWord (g : Grammar) (name : String) (position : Position) : Parse Expr := do
  match name with
  | "function" => return .function (← g.function false)
  | "this" | "null" | "true" | "false" =>
    pass
    return .literal
  | "class" | "super" => unsupported "classes"
  | "import" => unsupported "module syntax"
  | "yield" => unsupported "'yield'"
  | _ =>
    if name == "async" && (← tokenAhead 1).isWord "function" then
      unsupported "'async function'"
    else if isReservedWord name then
      fail ("unexpected keyword '" ++ name ++ "'")
    else
      pass
      return .ident name position

def primary (g : Grammar) : Parse Expr := do
  let token ← peek
  match token.kind with
  | .word name => g.primaryWord name token.position
  | .number =>
    pass
    return .literal
  | .string _ =>
    pass
    return .literal
  | .regex =>
    pass
    return .literal
  | .template parts => g.templateLiteral parts
  | .eof => fail "unexpected end of input"
  | .punct "(" =>
    pass
    let expr ← withoutIn false g.expression
    expect ")"
    return expr
  | .punct "[" => g.arrayLiteral
  | .punct "\x7b" => g.objectLiteral
  | .punct _ => unexpected

/-- A computed property after its opening bracket, the closing one included. -/
def computedProperty (g : Grammar) : Parse Expr := do
  let property ← withoutIn false g.expression
  expect "]"
  return property

/-- The links of the callee of a `new`, at most so many. -/
def newLinks (g : Grammar) : Nat → Expr → Parse Expr
  | 0, callee => pure callee
  | room + 1, callee => do
    if ← acceptMark "." then
      let property ← propertyName
      g.newLinks room (.member callee property)
    else if ← acceptMark "[" then
      let property ← g.computedProperty
      g.newLinks room (.index callee property)
    else return callee

/-- A `new` with its callee and arguments. -/
def newExpression (g : Grammar) : Parse Expr := do
  let position := (← peek).position
  pass
  if (← peek).isMark "." then
    unsupported "'new.target'"
  else
    let first ← if (← peek).isWord "new" then g.innerNew else g.primary
    let callee ← g.newLinks maxChain first
    let args ← if (← peek).isMark "(" then g.arguments else pure []
    boundDepth (.call callee args true position)

/-- One link of a chain: a property, a call or a tagged template. Nothing if none
comes next. -/
def link (g : Grammar) (expr : Expr) : Parse (Option Expr) := do
  let token ← peek
  if ← acceptMark "." then
    return some (.member expr (← propertyName))
  if ← acceptMark "?." then
    if (← peek).isMark "(" then
      return some (.call expr (← g.arguments) false token.position)
    if ← acceptMark "[" then
      return some (.index expr (← g.computedProperty))
    return some (.member expr (← propertyName))
  if ← acceptMark "[" then
    return some (.index expr (← g.computedProperty))
  if token.isMark "(" then
    return some (.call expr (← g.arguments) false token.position)
  match token.kind with
  | .template parts => return some (.call expr [← g.templateLiteral parts] false token.position)
  | _ => return none

/-- The links of a chain, fewer than so many; `linked` says whether there was one. -/
def links (g : Grammar) : Nat → Bool → Expr → Parse Expr
  | 0, _, _ => fail "expression is too long"
  | room + 1, linked, expr => do
    match ← g.link expr with
    | some expr => g.links room true expr
    | none => if linked then boundDepth expr else return expr

def chain (g : Grammar) : Parse Expr := do
  let first ← if (← peek).isWord "new" then g.newExpression else g.primary
  g.links maxChain false first

/-- An operand with the operators before and after it. -/
def unaryInner (g : Grammar) : Parse Expr := do
  let token ← peek
  if token.isWord "await" then
    unsupported "'await'"
  else
    match token.prefixOperator? with
    | some operator =>
      pass
      return .unary operator (← g.unary)
    | none =>
      let expr ← g.chain
      let next ← peek
      if !next.newlineBefore && (next.isMark "++" || next.isMark "--") then
        pass
        return .unary (if next.isMark "++" then "++" else "--") expr
      return expr

/-- The operator of at least the given precedence that comes next, if one does. -/
def nextOperator (precedence : Nat) : Parse (Option (String × Nat)) := do
  let s ← get
  return (s.peek.binaryOperator? s.noIn).filter fun entry => precedence ≤ entry.2

/-- Operators of at least the given precedence and their right operands, after a
left one; at most so many. `chained` says whether there was one. -/
def operators (g : Grammar) (precedence : Nat) : Nat → Bool → Expr → Parse Expr
  | room, chained, left => do
    match ← nextOperator precedence with
    | none => if chained then boundDepth left else return left
    | some (operator, strength) =>
      match room with
      | 0 => fail "expression is too long"
      | room + 1 =>
        pass
        let right ← g.operand (if operator == "**" then strength else strength + 1)
        g.operators precedence room true (.binary operator left right)

/-- Operands joined by operators of at least the given precedence. -/
def binary (g : Grammar) (precedence : Nat) : Parse Expr := do
  let left ← g.unary
  g.operators precedence maxChain false left

def conditional (g : Grammar) : Parse Expr := do
  let test ← g.binary 1
  if ← acceptMark "?" then
    let consequent ← withoutIn false g.assignment
    expect ":"
    let alternate ← g.assignment
    return .conditional test consequent alternate
  return test

/-- An arrow function, an assignment, or what is above them in precedence. -/
def assignmentInner (g : Grammar) : Parse Expr := do
  if (← get).startsArrow then
    g.arrow
  else
    let left ← g.conditional
    match (← peek).kind with
    | .punct text =>
      if assignmentOperators.contains text then
        pass
        return .binary text left (← g.assignment)
      return left
    | _ => return left

/-! ## Statements -/

/-- A target with or without an initial value. -/
def declarator (g : Grammar) : Parse Declarator := do
  let target ← g.bindingTarget
  if ← acceptMark "=" then
    return .mk target (some (← g.assignment))
  return .mk target none

/-- Declarators after the keyword that comes next. -/
def declarators (g : Grammar) : Parse (List Declarator) := do
  pass
  loop (fun taken => do
    let declarator ← g.declarator
    if ← acceptMark "," then
      return .more (declarator :: taken)
    return .done (declarator :: taken).reverse) []

def declaration (g : Grammar) (kind : VarKind) : Parse Stmt := do
  let declarators ← g.declarators
  semicolon
  return .declare kind declarators

def expressionStatement (g : Grammar) : Parse Stmt := do
  let expr ← g.expression
  semicolon
  return .expr expr

def ifStatement (g : Grammar) : Parse Stmt := do
  pass
  let test ← g.parenthesized
  let consequent ← g.statement
  if ← eatWord "else" then
    return .if_ test consequent (some (← g.statement))
  return .if_ test consequent none

/-- What a `for` statement starts with; `in` is no operator there. -/
def forHead (g : Grammar) : Parse ForHead :=
  withoutIn true do
    match (← get).declares with
    | some kind => return .declare kind (← g.declarators)
    | none => return .expr (← g.expression)

/-- The word between the head and the subject of a loop over keys or items, and the
subject. -/
def forSubject (g : Grammar) : Parse Expr := do
  if ← eatWord "of" then
    g.assignment
  else
    pass
    g.expression

/-- A loop over keys or items, from the word after its head on. -/
def forInRest (g : Grammar) (head : ForHead) : Parse Stmt := do
  let subject ← g.forSubject
  expect ")"
  return .forIn head subject (← g.statement)

/-- A counting loop, from the first semicolon on. -/
def forRest (g : Grammar) (init : Option ForHead) : Parse Stmt := do
  expect ";"
  let test ← if (← peek).isMark ";" then pure none else some <$> g.expression
  expect ";"
  let update ← if (← peek).isMark ")" then pure none else some <$> g.expression
  expect ")"
  return .for_ init test update (← g.statement)

def forStatement (g : Grammar) : Parse Stmt := do
  pass
  if (← peek).isWord "await" then
    unsupported "'for await'"
  else
    expect "("
    if (← peek).isMark ";" then g.forRest none
    else
      let head ← g.forHead
      let next ← peek
      if next.isWord "of" || next.isWord "in" then g.forInRest head
      else g.forRest (some head)

/-- The handler of a `try`, after its keyword. -/
def catchClause (g : Grammar) : Parse CatchClause := do
  if ← acceptMark "(" then
    let target ← g.bindingTarget
    expect ")"
    return .mk (some target) (← g.block)
  return .mk none (← g.block)

def tryStatement (g : Grammar) : Parse Stmt := do
  pass
  let block ← g.block
  let handler ← if ← eatWord "catch" then some <$> g.catchClause else pure none
  let finalizer ← if ← eatWord "finally" then some <$> g.block else pure none
  if handler.isNone && finalizer.isNone then
    fail "'try' without 'catch' or 'finally'"
  else return .try_ block handler finalizer

def endsCase (token : Token) : Bool :=
  token.isMark "\x7d" || token.isWord "case" || token.isWord "default"

/-- What a case starts with: a test, or nothing for the default. -/
def caseTest (g : Grammar) : Parse (Option Expr) := do
  if ← eatWord "case" then
    return some (← g.expression)
  if ← eatWord "default" then
    return none
  failExpecting "'case' or 'default'"

def switchCase (g : Grammar) : Parse SwitchCase := do
  let test ← g.caseTest
  expect ":"
  return .mk test (← g.statementsUntil endsCase)

def switchStatement (g : Grammar) : Parse Stmt := do
  pass
  let discriminant ← g.parenthesized
  expect "\x7b"
  loop (fun cases => do
    if ← acceptMark "\x7d" then
      return .done (.switch discriminant cases.reverse)
    let case ← g.switchCase
    if ← isAtEnd then
      fail "unterminated 'switch' body"
    else return .more (case :: cases)) []

/-- The label after `break` or `continue`, if one comes next on the same line. -/
def jumpLabel : Parse (Option String) := do
  let token ← peek
  if token.isName && !token.newlineBefore then
    pass
    return token.word?
  return none

/-- A `return` statement, which must be inside a function. -/
def returnStatement (g : Grammar) : Parse Stmt := do
  if (← get).functionDepth = 0 then
    fail "'return' outside of a function"
  else
    pass
    let next ← peek
    let argument ←
      if next.isMark ";" || next.isMark "\x7d" || next.isEof || next.newlineBefore then pure none
      else some <$> g.expression
    semicolon
    return .return_ argument

def throwStatement (g : Grammar) : Parse Stmt := do
  pass
  if (← peek).newlineBefore then
    fail "illegal newline after 'throw'"
  else
    let argument ← g.expression
    semicolon
    return .throw_ argument

def whileStatement (g : Grammar) (position : Position) : Parse Stmt := do
  pass
  let test ← g.parenthesized
  return .while_ test (← g.statement) position

def doStatement (g : Grammar) (position : Position) : Parse Stmt := do
  pass
  let body ← g.statement
  expectWord "while"
  let test ← g.parenthesized
  let _ ← acceptMark ";"
  return .doWhile body test position

def withStatement (g : Grammar) (position : Position) : Parse Stmt := do
  pass
  let object ← g.parenthesized
  return .with_ object (← g.statement) position

def wordStatement (g : Grammar) (name : String) (position : Position) : Parse Stmt := do
  match name with
  | "var" => g.declaration .var
  | "const" => g.declaration .const
  | "function" => return .function (← g.function true)
  | "if" => g.ifStatement
  | "for" => g.forStatement
  | "while" => g.whileStatement position
  | "do" => g.doStatement position
  | "with" => g.withStatement position
  | "return" => g.returnStatement
  | "throw" => g.throwStatement
  | "try" => g.tryStatement
  | "switch" => g.switchStatement
  | "break" =>
    pass
    let label ← jumpLabel
    semicolon
    return .break_ label position
  | "continue" =>
    pass
    let label ← jumpLabel
    semicolon
    return .continue_ label position
  | "debugger" =>
    pass
    semicolon
    return .empty
  | "class" => unsupported "'class'"
  | "import" | "export" => unsupported "module syntax"
  | _ =>
    let s ← get
    if name == "let" && s.letDeclares then g.declaration .let_
    else if name == "async" && (s.tokenAhead 1).isWord "function" then
      unsupported "'async function'"
    else if !isReservedWord name && (s.tokenAhead 1).isMark ":" then
      pass
      pass
      return .labeled name (← g.statement) position
    else g.expressionStatement

def statementInner (g : Grammar) : Parse Stmt := do
  let token ← peek
  if token.isMark "\x7b" then
    return .block (← g.block)
  if token.isMark ";" then
    pass
    return .empty
  match token.word? with
  | some name => g.wordStatement name token.position
  | none => g.expressionStatement

/-- The grammar with one more level of nesting. -/
def next (g : Grammar) : Grammar where
  statement := nested g.statementInner
  assignment := nested g.assignmentInner
  unary := nested g.unaryInner
  operand := fun precedence => nested (g.binary precedence)
  innerNew := nested g.newExpression

/-- The grammar that has no level of nesting left. -/
def exhausted : Grammar where
  statement := fail "script nesting is too deep"
  assignment := fail "script nesting is too deep"
  unary := fail "script nesting is too deep"
  operand := fun _ => fail "script nesting is too deep"
  innerNew := fail "script nesting is too deep"

/-- The grammar with so many levels of nesting. -/
def levels : Nat → Grammar
  | 0 => exhausted
  | n + 1 => (levels n).next

/-- The grammar of scripts. The counter of open productions refuses the level after
`maxNesting` before the levels run out. -/
def full : Grammar := levels (maxNesting + 1)

/-- The statements of a whole script. A closing brace too many is reported and
passed over. -/
def program (g : Grammar) : Parse Program :=
  loop (fun body => do
    let s ← get
    if s.isAtEnd then
      return .done ⟨body.reverse⟩
    if s.peek.isMark "\x7d" then
      set (s.noting s.unexpected).pass
      return .more body
    match ← recovering g.statement with
    | some statement => return .more (statement :: body)
    | none => return .more body) []

end Grammar

/-- The program that a token list, ended by its end token, spells, and the issues in
the order in which they were recorded. -/
def Program.ofTokens (tokens : List Token) : Program × List Issue :=
  match Grammar.full.program (.start tokens 0 0) with
  | .ok program s => (program, s.issues)
  | .error fault s => (⟨[]⟩, (s.noting fault).issues)

end ScriptHooks.Script

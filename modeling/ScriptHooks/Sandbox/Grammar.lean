/-
ScriptHooks.Sandbox.Grammar — the grammar of scripts that are to be run.

A `Grammar` reads what a construct may contain: expressions, statements, patterns.
Each function here reads one construct, given the grammar of what is inside it, and
so none of them calls itself through another: a production is a plain definition
that can be unfolded alone.

`Grammar.ofDepth` ties the knot, one level of nesting at a time. The grammar of
depth `n + 1` reads a construct with the grammar of depth `n` for its parts, and the
grammar of depth 0 reads nothing and says that the script is too deep. The recursion
is on the depth only, which is why it needs no measure of the text. `maxDepth` is
the depth that a whole script gets; `readProgram` reads a whole script.

Since names are resolved when a script runs, reading only collects them: each block
hands the names that it declared to the statement that it becomes, and each function
what its header tells.
-/
import ScriptHooks.Numeric.Shortest
import ScriptHooks.Sandbox.ReadState

namespace ScriptHooks.Sandbox

open Reading

/-- What the names of a pattern are for. -/
inductive PatternUse
  | assign
  | declare (kind : DeclarationKind)
  | parameter
  deriving DecidableEq

/-- What may stand where a statement is read. -/
inductive StatementPlace
  /-- Anything. -/
  | list
  /-- No declaration. -/
  | single
  deriving DecidableEq

/-- How what a construct contains is read. In the flags, `true` admits `in` as an
operator. -/
structure Grammar where
  /-- An expression, commas included. -/
  expr : Bool → Reading Expr
  /-- An expression without commas. -/
  assign : Bool → Reading Expr
  /-- An operand with what stands before it; whether a power may follow. -/
  unary : Reading Expr
  /-- An operand with what stands after it; whether calls belong to it. -/
  postfix_ : Bool → Reading Expr
  /-- A pattern in brackets. -/
  pattern : PatternUse → Reading Expr
  statement : StatementPlace → Reading Stmt

namespace Grammar

/-! ## Names and keys -/

/-- The complaint about a keyword where a name should be. -/
def reservedIdentifier (name : Name) : Reading α :=
  fail ("'" ++ name.toText ++ "' is a reserved identifier")

def keyOf (name : Name) : Expr := .text name

/-- An expression that is the value of a name: a function without a name gets it. -/
def named (name : Name) : Expr → Expr
  | .function (.mk header parameters body) =>
    if header.name.isEmpty && header.kind != .method then
      .function (.mk { header with name := name } parameters body)
    else .function (.mk header parameters body)
  | other => other

/-- The value for a target: a function without a name gets that of the target. -/
def valueFor (target value : Expr) : Expr :=
  match target with
  | .ident name => named name value
  | _ => value

def numberKey (x : Float) : Name :=
  if !Numeric.isFinite x then Units.ofString "Infinity"
  else Units.ofChars ((⟨21, -5, false, false⟩ : Numeric.FloatStyle).render x)

/-- A key of an object: whether it is a name that could be a variable, and the key. -/
def key (g : Grammar) : Reading (Option Name × Expr) := do
  match ← lexeme with
  | .ident name reserved =>
    advance
    pure (if reserved then none else some name, keyOf name)
  | .keyword word =>
    advance
    pure (none, keyOf (Units.ofString word))
  | .text value =>
    advance
    pure (none, keyOf value)
  | .number value =>
    advance
    pure (none, keyOf (numberKey value))
  | .bigint value =>
    advance
    pure (none, keyOf (Units.ofString (toString value)))
  | .punct "[" =>
    advance
    let inner ← g.expr true
    expect "]"
    pure (none, inner)
  | _ => fail "invalid property name"

/-! ## Targets -/

def target (complaint : String) (expr : Expr) : Reading Expr :=
  match expr with
  | .ident name =>
    if name == Units.ofString "eval" || name == Units.ofString "arguments" then
      fail "invalid lvalue in strict mode"
    else pure expr
  | .member _ _ _ => pure expr
  | .index _ _ _ => pure expr
  | _ => fail complaint

/-- What is said of an expression that cannot be assigned to. -/
def badTarget : String := "invalid assignment left-hand side"

def declareParameter (name : Name) : Reading Unit :=
  changeFunction fun f => { f with parameters := f.parameters ++ [name] }

def bind (use : PatternUse) (name : Name) : Reading Unit :=
  match use with
  | .assign => pure ()
  | .declare kind => declareName kind name
  | .parameter => declareParameter name

/-- The name that a pattern binds where nothing else can stand. -/
def bindingName (use : PatternUse) : Reading Expr := do
  match ← lexeme with
  | .ident name reserved =>
    if reserved then fail "invalid destructuring target"
    else
      if name == Units.ofString "eval" || name == Units.ofString "arguments" then
        fail "invalid destructuring target"
      advance
      bind use name
      pure (.ident name)
  | _ => fail "invalid destructuring target"

/-- A target inside a pattern: a name to bind, or a place to assign to. -/
def leaf (g : Grammar) (use : PatternUse) : Reading Expr :=
  match use with
  | .assign => do target "invalid destructuring target" (← g.postfix_ true)
  | _ => bindingName use

def atPattern : Reading Bool := do
  pure ((← atPunct "[") || (← atPunct "\x7b"))

/-- A part of a pattern: a pattern of its own, or a target. -/
def part (g : Grammar) (use : PatternUse) : Reading Expr := do
  if ← atPattern then
    let ahead ← outlook
    if use != .assign || [",", "=", "\x7d", "]", ")"].any ahead.leadsTo then g.pattern use
    else leaf g use
  else leaf g use

def withDefault (g : Grammar) (part : Expr) : Reading Expr := do
  if ← accept "=" then
    let value ← g.assign true
    pure (.assign part (valueFor part value))
  else pure part

/-- The rest of a pattern; nothing may follow it. -/
def restOf (g : Grammar) (use : PatternUse) (close complaint : String) : Reading Expr := do
  advance
  let rest ← part g use
  if ← atPunct close then pure rest else fail complaint

/-- An element of an array pattern; nothing where the pattern ends. -/
def element (g : Grammar) (use : PatternUse) : Reading (Option Expr) := do
  if ← atPunct "]" then pure none
  else if ← accept "," then pure (some .hole)
  else if ← atPunct "..." then
    let rest ← restOf g use "]" "rest element must be the last one"
    pure (some (.spread rest))
  else
    let inner ← withDefault g (← part g use)
    if !(← atPunct "]") then
      expect ","
    pure (some inner)

/-- A field of an object pattern; nothing where the pattern ends. -/
def patternField (g : Grammar) (use : PatternUse) : Reading (Option Entry) := do
  if ← atPunct "\x7d" then pure none
  else if ← atPunct "..." then
    let rest ← restOf g use "\x7d" "assignment rest property must be last"
    pure (some (.mk .spread .null rest))
  else
    let (name, key) ← key g
    let inner ← match name with
      | some name =>
        if ← accept ":" then part g use
        else
          if name == Units.ofString "eval" || name == Units.ofString "arguments" then
            fail "invalid destructuring target"
          bind use name
          pure (.ident name)
      | none =>
        expect ":"
        part g use
    let inner ← withDefault g inner
    if !(← atPunct "\x7d") then
      expect ","
    pure (some (.mk .field key inner))

def bracketed (g : Grammar) (use : PatternUse) : Reading Expr := do
  if ← accept "[" then
    let elements ← gather (element g use)
    expect "]"
    pure (.array elements)
  else
    expect "\x7b"
    let fields ← gather (patternField g use)
    expect "\x7d"
    pure (.object fields)

/-! ## Functions -/

/-- A parameter and the comma after it; nothing where the parameters end. -/
def parameter (g : Grammar) : Reading (Option Expr) := do
  if ← atPunct ")" then pure none
  else
    let isRest ← accept "..."
    let inner ← if ← atPattern then g.pattern .parameter
      else
        match ← lexeme with
        | .ident name reserved =>
          if reserved then
            reservedIdentifier name
          advance
          declareParameter name
          pure (.ident name)
        | _ => fail "missing formal parameter"
    let inner ← if isRest then pure (.spread inner) else withDefault g inner
    if isRest then
      if !(← atPunct ")") then
        unexpected
    else if !(← atPunct ")") then
      expect ","
    pure (some inner)

/-- The number of parameters before the first that is not a plain one. -/
def arityOf : List Expr → Nat
  | .assign _ _ :: _ => 0
  | .spread _ :: _ => 0
  | _ :: rest => arityOf rest + 1
  | [] => 0

def checkNames (name : Name) (parameters : List Name) : Reading Unit := do
  let special := fun n : Name => n == Units.ofString "eval" || n == Units.ofString "arguments"
  if special name then fail "invalid function name in strict code"
  if parameters.any special then fail "invalid argument name in strict code"
  if parameters.eraseDups.length ≠ parameters.length then
    fail "duplicate argument names not allowed in this context"

def statements (g : Grammar) : Reading (List Stmt) :=
  gather do
    if ← atPunct "\x7d" then pure none
    else pure (some (← g.statement .list))

def bracedBody (g : Grammar) : Reading (List Stmt) := do
  expect "\x7b"
  let body ← statements g
  expect "\x7d"
  pure body

def functionFrom (kind : FunctionKind) (name : Name) (bindsName : Bool) (start : Cursor)
    (readParameters : Reading (List Expr)) (readBody : Reading (List Stmt)) : Reading Code := do
  let outer ← get
  modify fun s => { s with blocks := [], function := { isProgram := false } }
  let ((parameters, body), block) ← inBlock { isBody := true } do
    let parameters ← readParameters
    let body ← readBody
    pure (parameters, body)
  let record := (← get).function
  checkNames name record.parameters
  modify fun s => { s with
    blocks := outer.blocks
    function := { outer.function with
      usesArguments :=
        outer.function.usesArguments || (kind == .arrow && record.usesArguments) } }
  let header : FunctionHeader := {
    kind := kind
    name := name
    bindsName := bindsName
    arity := arityOf parameters
    parameters := record.parameters
    vars := record.vars.reverse
    usesArguments := record.usesArguments
    textStart := start.rest
    textLength := (← get).lastEnd - start.offset }
  pure (.mk header parameters (.mk block.names.reverse block.functions.reverse body))

def parameters (g : Grammar) : Reading (List Expr) := do
  expect "("
  let items ← gather (parameter g)
  expect ")"
  pure items

/-- The parameters of a getter or setter, which has as many as given. -/
def countedParameters (g : Grammar) (count : Nat) : Reading (List Expr) := do
  let items ← parameters g
  if items.length = count then pure items
  else fail "invalid number of arguments for getter or setter"

def function (g : Grammar) (kind : FunctionKind) (name : Name) (bindsName : Bool)
    (start : Cursor) : Reading Code :=
  let read := match kind with
    | .getter => countedParameters g 0
    | .setter => countedParameters g 1
    | _ => parameters g
  functionFrom kind name bindsName start read (bracedBody g)

def arrowParameters (g : Grammar) : Reading (List Expr) := do
  let items ← match ← lexeme with
    | .ident name _ =>
      advance
      declareParameter name
      pure [.ident name]
    | _ => parameters g
  expect "=>"
  pure items

/-- The body of an arrow function: in braces, or an expression that is returned. -/
def arrowBody (g : Grammar) (inOk : Bool) : Reading (List Stmt) := do
  if ← atPunct "\x7b" then bracedBody g
  else
    let value ← g.assign inOk
    pure [.return_ value]

def arrow (g : Grammar) (inOk : Bool) : Reading Expr := do
  let start := (← get).word.start
  let code ← functionFrom .arrow Units.empty false start (arrowParameters g) (arrowBody g inOk)
  pure (.function code)

def functionOperand (g : Grammar) : Reading Expr := do
  let start := (← get).word.start
  advance
  let (name, bindsName) ← match ← lexeme with
    | .ident name reserved =>
      if reserved then
        reservedIdentifier name
      advance
      pure (name, true)
    | _ => pure (Units.empty, false)
  let code ← function g .normal name bindsName start
  pure (.function code)

def functionStatement (g : Grammar) : Reading Stmt := do
  let start := (← get).word.start
  advance
  match ← lexeme with
  | .ident name reserved =>
    if reserved then
      reservedIdentifier name
    advance
    let code ← function g .normal name false start
    declareFunction code
    pure .empty
  | _ => fail "function name expected"

/-! ## Literals -/

/-- The rest of a template, after its first piece. -/
def template (g : Grammar) (head : Units) (last : Bool) : Reading Expr := do
  let piece := fun (parts, last) => do
    if last then pure none
    else
      advance
      let inner ← g.expr true
      if !(← atPunct "\x7d") then
        fail "expected '\x7d' after template expression"
      let (lexeme, after) ← lift (← get).after.template
      modify fun s => { s with
        word := ⟨lexeme, s.word.start, false⟩, after := after, lastEnd := s.after.offset }
      match lexeme with
      | .template text last => pure (some (Expr.text text :: inner :: parts, last))
      | _ => pure none
  let (parts, _) ← grow piece ([Expr.text head], last)
  advance
  pure (.template parts.reverse)

/-- A regular expression, of whose first slash and what is before it `size`
characters were read. -/
def regex : Reading Expr := do
  let s ← get
  let (source, flags, after) ←
    lift (Cursor.regex ⟨s.word.start.rest.drop 1, s.word.start.offset + 1⟩)
  modify fun s => { s with after := after }
  advance
  pure (.regex source flags)

/-- An item of an array literal; nothing where the literal ends. -/
def arrayItem (g : Grammar) : Reading (Option Expr) := do
  if ← atPunct "]" then pure none
  else if ← accept "," then pure (some .hole)
  else
    let item ← if ← accept "..." then return some (.spread (← spreadItem)) else g.assign true
    if !(← atPunct "]") then
      expect ","
    pure (some item)
where
  /-- The list whose items are taken, and the comma after it. -/
  spreadItem : Reading Expr := do
    let item ← g.assign true
    if !(← atPunct "]") then
      expect ","
    pure item

/-- The keyword before the key of a getter or setter, if there is one. -/
def accessorKind : Reading (Option (FunctionKind × EntryKind)) := do
  let kind ← if ← atName (Units.ofString "get") then
      pure (some (FunctionKind.getter, EntryKind.getter))
    else if ← atName (Units.ofString "set") then
      pure (some (FunctionKind.setter, EntryKind.setter))
    else pure none
  match kind with
  | none => pure none
  | some kind =>
    match ← peek with
    | some ⟨.punct t, _, _⟩ =>
      pure (if [":", ",", "\x7d", "(", "="].contains t then none else some kind)
    | _ => pure (some kind)

def entry (g : Grammar) : Reading Entry := do
  let start := (← get).word.start
  if ← accept "..." then pure (.mk .spread .null (← g.assign true))
  else
    match ← accessorKind with
    | some (functionKind, entryKind) =>
      advance
      let (_, key) ← key g
      let code ← function g functionKind (nameOf key) false start
      pure (.mk entryKind key (.function code))
    | none =>
      let computed ← atPunct "["
      let (name, key) ← key g
      if ← atPunct "(" then
        let code ← function g .method (nameOf key) false start
        pure (.mk .method key (.function code))
      else
        match name, ← atPunct ":" with
        | some name, false =>
          if name == Units.ofString "arguments" then
            changeFunction fun f => { f with usesArguments := true }
          pure (.mk .field key (.ident name))
        | _, _ =>
          expect ":"
          let value ← g.assign true
          match key, computed with
          | .text name, false =>
            if name == Units.ofString "__proto__" then pure (.mk .proto key value)
            else pure (.mk .field key (named name value))
          | _, _ => pure (.mk .field key value)
where
  /-- The name that a method gets from its key. -/
  nameOf : Expr → Name
    | .text name => name
    | _ => Units.empty

/-- The entries of an object literal, up to the one that no comma follows. -/
def entries (g : Grammar) : Reading (List Entry) := do
  let (read, _) ← grow (fun (read, done) => do
    if done || (← atPunct "\x7d") then pure none
    else
      let next ← entry g
      let more ← accept ","
      pure (some (next :: read, !more))) (([] : List Entry), false)
  let isProto := fun
    | Entry.mk .proto _ _ => true
    | _ => false
  if 1 < (read.filter isProto).length then
    fail "duplicate __proto__ property name"
  pure read.reverse

/-! ## Operands -/

/-- A pattern with the value that is taken apart. -/
def destructuring (g : Grammar) : Reading Expr := do
  let pattern ← g.pattern .assign
  expect "="
  let value ← g.assign true
  pure (.assign pattern value)

def bracketOperand (g : Grammar) : Reading Expr := do
  if (← outlook).leadsTo "=" then destructuring g
  else if ← accept "[" then
    let items ← gather (arrayItem g)
    expect "]"
    pure (.array items)
  else
    expect "\x7b"
    let read ← entries g
    expect "\x7d"
    pure (.object read)

/-- An argument and the comma after it; nothing where the arguments end. -/
def argument (g : Grammar) : Reading (Option Expr) := do
  if ← atPunct ")" then pure none
  else
    let isSpread ← accept "..."
    let value ← g.assign true
    if !(← atPunct ")") then
      expect ","
    pure (some (if isSpread then .spread value else value))

def arguments (g : Grammar) : Reading (List Expr) := do
  expect "("
  let items ← gather (argument g)
  expect ")"
  pure items

/-- A `new` expression, after its keyword. -/
def construction (g : Grammar) : Reading Expr := do
  if ← accept "." then
    if !(← atName (Units.ofString "target")) then
      fail "expecting target"
    if (← get).function.isProgram then
      fail "new.target only allowed within functions"
    advance
    pure .newTarget
  else
    let callee ← g.postfix_ false
    if ← atPunct "(" then pure (.new callee (← arguments g))
    else pure (.new callee [])

/-- An operand without what stands after it. -/
def primary (g : Grammar) : Reading Expr := do
  match ← lexeme with
  | .number value => advance; pure (.number value)
  | .bigint value => advance; pure (.bigint value)
  | .text value => advance; pure (.text value)
  | .template head last => template g head last
  | .ident name reserved =>
    if reserved then
      reservedIdentifier name
    if name == Units.ofString "arguments" then
      changeFunction fun f => { f with usesArguments := true }
    advance
    pure (.ident name)
  | .keyword word =>
    match word with
    | "null" => advance; pure .null
    | "true" => advance; pure (.bool true)
    | "false" => advance; pure (.bool false)
    | "this" => advance; pure .this
    | "function" => functionOperand g
    | "new" => advance; construction g
    | "import" =>
      advance
      expect "("
      noOperand
    | _ => noOperand
  | .punct text =>
    match text with
    | "(" =>
      advance
      let inner ← g.expr true
      expect ")"
      pure inner
    | "[" => bracketOperand g
    | "\x7b" => bracketOperand g
    | "/" => regex
    | "/=" => regex
    | _ => noOperand
  | .eof => noOperand

def memberName : Reading Name := do
  match ← lexeme with
  | .ident name _ => advance; pure name
  | .keyword word => advance; pure (Units.ofString word)
  | _ => fail "expecting field name"

/-- What stands after an operand: a member, an index, arguments or a template. -/
def suffix (g : Grammar) (calls : Bool) (operand : Expr × Bool) : Reading (Option (Expr × Bool)) := do
  let (object, optional) := operand
  match ← lexeme with
  | .punct "." =>
    advance
    let name ← memberName
    pure (some (.member object name false, optional))
  | .punct "[" =>
    advance
    let key ← g.expr true
    expect "]"
    pure (some (.index object key false, optional))
  | .punct "(" =>
    if calls then pure (some (.call object (← arguments g) false, optional)) else pure none
  | .punct "?." =>
    if !calls then
      fail "new keyword cannot be used with an optional chain"
    advance
    if ← atPunct "(" then pure (some (.call object (← arguments g) true, true))
    else if ← accept "[" then
      let key ← g.expr true
      expect "]"
      pure (some (.index object key true, true))
    else pure (some (.member object (← memberName) true, true))
  | .template head last =>
    match ← template g head last with
    | .template parts =>
      let (texts, values) := pieces parts
      pure (some (.call object (.array texts :: values) false, optional))
    | _ => pure none
  | _ => pure none
where
  /-- The texts and the expressions of a template. -/
  pieces : List Expr → List Expr × List Expr
    | .text value :: rest =>
      let (texts, values) := pieces rest
      (.text value :: texts, values)
    | value :: rest =>
      let (texts, values) := pieces rest
      (texts, value :: values)
    | [] => ([], [])

def postfixed (g : Grammar) (calls : Bool) : Reading Expr := do
  let operand ← primary g
  let (full, optional) ← grow (suffix g calls) (operand, false)
  pure (if optional then .chain full else full)

/-! ## Operators -/

/-- An operand with a step up or down after it. -/
def stepped (g : Grammar) : Reading Expr := do
  let operand ← g.postfix_ true
  if (← get).word.newlineBefore then pure operand
  else
    let step := fun increment => do
      let place ← target "invalid increment/decrement operand" operand
      advance
      pure (Expr.update increment false place)
    if ← atPunct "++" then step true
    else if ← atPunct "--" then step false
    else pure operand

/-- The operator that stands before an operand, if there is one. -/
def prefixOp : Lexeme → Option UnaryOp
  | .punct "+" => some .plus
  | .punct "-" => some .minus
  | .punct "!" => some .not
  | .punct "~" => some .bitNot
  | .keyword "void" => some .void
  | _ => none

/-- An operand with what stands before it, and whether its power must not be taken. -/
def signed (g : Grammar) : Reading (Expr × Bool) := do
  match prefixOp (← lexeme) with
  | some op =>
    advance
    pure (.unary op (← g.unary), true)
  | none =>
    let step := fun increment => do
      advance
      let operand ← g.unary
      pure (Expr.update increment true (← target "invalid increment/decrement operand" operand), false)
    if ← atPunct "++" then step true
    else if ← atPunct "--" then step false
    else if ← atKeyword "typeof" then
      advance
      pure (.typeof (← g.unary), true)
    else if ← atKeyword "delete" then
      advance
      match ← g.unary with
      | .ident _ => fail "cannot delete a direct reference in strict mode"
      | operand => pure (.delete operand, true)
    else pure (← stepped g, false)

def power (g : Grammar) : Reading Expr := do
  let (operand, isSigned) ← signed g
  if ← atPunct "**" then
    if isSigned then
      fail "unparenthesized unary expression can't appear on the left-hand side of '**'"
    advance
    pure (.binary .pow operand (← g.unary))
  else pure operand

/-- The binary operators by level, those that bind most first. -/
def binaryLevels : List (List (String × BinaryOp)) := [
  [("*", .mul), ("/", .div), ("%", .mod)],
  [("+", .add), ("-", .sub)],
  [("<<", .shiftLeft), (">>", .shiftRight), (">>>", .shiftRightZero)],
  [("<", .less), (">", .greater), ("<=", .lessEqual), (">=", .greaterEqual),
    ("instanceof", .instanceOf), ("in", .in_)],
  [("==", .equal), ("!=", .notEqual), ("===", .same), ("!==", .notSame)],
  [("&", .bitAnd)],
  [("^", .bitXor)],
  [("|", .bitOr)]]

def operatorOf (level : List (String × BinaryOp)) (inOk : Bool) : Lexeme → Option BinaryOp
  | .punct text => (level.find? fun entry => entry.1 == text).map (·.2)
  | .keyword word =>
    if word == "in" && !inOk then none
    else (level.find? fun entry => entry.1 == word).map (·.2)
  | _ => none

/-- Operands joined by the operators of some levels; the last level binds least. -/
def joined (g : Grammar) (inOk : Bool) : List (List (String × BinaryOp)) → Reading Expr
  | [] => power g
  | level :: lower => do
    let operand ← joined g inOk lower
    grow (fun left => do
      match operatorOf level inOk (← lexeme) with
      | none => pure none
      | some op =>
        advance
        let right ← joined g inOk lower
        pure (some (.binary op left right))) operand

def binary (g : Grammar) (inOk : Bool) : Reading Expr := joined g inOk binaryLevels.reverse

def joinedBy (operand : Reading Expr) (text : String) (op : LogicOp) : Reading Expr := do
  grow (fun left => do
    if ← accept text then pure (some (.logic op left (← operand))) else pure none) (← operand)

def logical (g : Grammar) (inOk : Bool) : Reading Expr := do
  let first ← joinedBy (joinedBy (binary g inOk) "&&" .and) "||" .or
  if ← atPunct "??" then
    match first with
    | .logic _ _ _ => fail "cannot mix ?? with && or ||"
    | _ =>
      grow (fun left => do
        if ← accept "??" then pure (some (.logic .coalesce left (← binary g inOk)))
        else pure none) first
  else pure first

def conditional (g : Grammar) (inOk : Bool) : Reading Expr := do
  let test ← logical g inOk
  if ← accept "?" then
    let yes ← g.assign true
    expect ":"
    let no ← g.assign inOk
    pure (.conditional test yes no)
  else pure test

def compoundOps : List (String × BinaryOp) := [
  ("+=", .add), ("-=", .sub), ("*=", .mul), ("/=", .div), ("%=", .mod), ("**=", .pow),
  ("<<=", .shiftLeft), (">>=", .shiftRight), (">>>=", .shiftRightZero),
  ("&=", .bitAnd), ("|=", .bitOr), ("^=", .bitXor)]

/-- The operators of assignments that may not happen. -/
def logicOps : List (String × LogicOp) := [("&&=", .and), ("||=", .or), ("??=", .coalesce)]

def tableEntry (table : List (String × α)) : Lexeme → Option α
  | .punct text => (table.find? fun entry => entry.1 == text).map (·.2)
  | _ => none

def atArrow : Reading Bool := do
  match ← lexeme with
  | .punct "(" =>
    let ahead ← outlook
    pure (ahead.leadsTo "=>" && !ahead.newlineBefore)
  | .ident _ false =>
    match ← peek with
    | some ⟨.punct "=>", _, newline⟩ => pure (!newline)
    | _ => pure false
  | _ => pure false

def assignment (g : Grammar) (inOk : Bool) : Reading Expr := do
  if ← atArrow then arrow g inOk
  else
    let left ← conditional g inOk
    let word ← lexeme
    if ← accept "=" then
      let place ← target badTarget left
      let value ← g.assign inOk
      pure (.assign place (valueFor place value))
    else
      match tableEntry compoundOps word, tableEntry logicOps word with
      | some op, _ =>
        advance
        let place ← target badTarget left
        pure (.compound op place (← g.assign inOk))
      | none, some op =>
        advance
        let place ← target badTarget left
        let value ← g.assign inOk
        pure (.logicAssign op place (valueFor place value))
      | none, none => pure left

def commas (g : Grammar) (inOk : Bool) : Reading Expr := do
  grow (fun first => do
    if ← accept "," then pure (some (.sequence first (← g.assign inOk))) else pure none)
    (← g.assign inOk)

/-! ## Declarations -/

/-- A declared name or pattern with its value. -/
def declaration (g : Grammar) (kind : DeclarationKind) (inOk : Bool) : Reading Expr := do
  match ← lexeme with
  | .ident name reserved =>
    if reserved then
      reservedIdentifier name
    advance
    declareName kind name
    if ← accept "=" then
      let value ← g.assign inOk
      pure (.assign (.ident name) (named name value))
    else
      if kind == .const then
        fail "missing initializer for const variable"
      pure (.ident name)
  | _ =>
    if (← atPattern) && (← outlook).leadsTo "=" then
      let pattern ← g.pattern (.declare kind)
      expect "="
      let value ← g.assign inOk
      pure (.assign pattern value)
    else fail "variable name expected"

def declarations (g : Grammar) (kind : DeclarationKind) (inOk : Bool) : Reading (List Expr) := do
  let first ← declaration g kind inOk
  let rest ← gather do
    if ← accept "," then pure (some (← declaration g kind inOk)) else pure none
  pure (first :: rest)

def declarationKind : Reading (Option DeclarationKind) := do
  if ← atKeyword "var" then pure (some .var)
  else if ← atKeyword "let" then pure (some .let_)
  else if ← atKeyword "const" then pure (some .const)
  else pure none

/-! ## Statements -/

def block (g : Grammar) (start : BlockRecord := {}) : Reading Block := do
  expect "\x7b"
  let (body, declared) ← inBlock start (statements g)
  expect "\x7d"
  pure (.mk declared.names.reverse declared.functions.reverse body)

def parenthesized (g : Grammar) : Reading Expr := do
  expect "("
  let inner ← g.expr true
  expect ")"
  pure inner

/-- An `if` statement, after its keyword. -/
def ifStatement (g : Grammar) : Reading Stmt := do
  let test ← parenthesized g
  let yes ← g.statement .single
  if ← atKeyword "else" then
    advance
    pure (.if_ test yes (← g.statement .single))
  else pure (.if_ test yes .empty)

def loopBody (g : Grammar) : Reading Stmt := within .loop (g.statement .single)

/-- What stands before the first semicolon of a loop. -/
def loopStart (g : Grammar) : Reading Stmt := do
  if ← atPunct ";" then pure .empty
  else
    match ← declarationKind with
    | some kind =>
      advance
      pure (.declare kind (← declarations g kind false))
    | none => pure (.expr (← g.expr false))

/-- A loop with a test, after its opening parenthesis. -/
def countingLoop (g : Grammar) : Reading Stmt := do
  let ((start, test, step, body), declared) ← inBlock {} do
    let start ← loopStart g
    expect ";"
    let test ← if ← atPunct ";" then pure (.bool true) else g.expr true
    expect ";"
    let step ← if ← atPunct ")" then pure .undefined else g.expr true
    expect ")"
    let body ← loopBody g
    pure (start, test, step, body)
  pure (.for_ declared.names.reverse start test step body)

def loopTarget (g : Grammar) : Reading (Option DeclarationKind × Expr) := do
  match ← declarationKind with
  | some kind =>
    advance
    match ← lexeme with
    | .ident name reserved =>
      if reserved then
        fail "variable name expected"
      advance
      declareName kind name
      pure (some kind, .ident name)
    | _ =>
      if ← atPattern then pure (some kind, ← g.pattern (.declare kind))
      else fail "variable name expected"
  | none =>
    if ← atPattern then
      let following := (← outlook).following
      let leads := match following with
        | .keyword word => word == "in"
        | .ident name _ => name == Units.ofString "of"
        | _ => false
      if leads then pure (none, ← g.pattern .assign)
      else pure (none, ← target "invalid for in/of left hand-side" (← g.postfix_ true))
    else pure (none, ← target "invalid for in/of left hand-side" (← g.postfix_ true))

/-- A loop over items, after its opening parenthesis. -/
def itemLoop (g : Grammar) : Reading Stmt := do
  let ((isOf, kind, place, subject, body), declared) ← inBlock {} do
    let (kind, place) ← loopTarget g
    let isOf ← atName (Units.ofString "of")
    if ← atPunct "=" then
      fail "a declaration in the head of a for-in loop can't have an initializer"
    if !isOf && !(← atKeyword "in") then
      fail "expected 'of' or 'in' in for control expression"
    advance
    let subject ← if isOf then g.assign true else g.expr true
    expect ")"
    let body ← loopBody g
    pure (isOf, kind, place, subject, body)
  let names := declared.names.reverse
  pure (if isOf then .forOf names kind place subject body else .forIn names kind place subject body)

/-- A `for` statement, after its keyword. -/
def forStatement (g : Grammar) : Reading Stmt := do
  let semicolon ← if ← atPunct "(" then pure (← outlook).semicolon else pure false
  expect "("
  if semicolon then countingLoop g else itemLoop g

/-- A `while` statement, after its keyword. -/
def whileStatement (g : Grammar) : Reading Stmt := do
  let test ← parenthesized g
  pure (.while_ test (← loopBody g))

/-- A `do` statement, after its keyword. -/
def doStatement (g : Grammar) : Reading Stmt := do
  let body ← loopBody g
  expectKeyword "while"
  let test ← parenthesized g
  let _ ← accept ";"
  pure (.doWhile body test)

def checkJump (label : Option Name) (goesOn : Bool) : Reading Unit := do
  let targets := (← get).function.targets
  match label with
  | some name =>
    if targets.contains (.label name) then pure () else fail "break/continue label not found"
  | none =>
    if goesOn then
      if targets.contains .loop then pure () else fail "continue must be inside loop"
    else if targets.contains .loop || targets.contains .switch then pure ()
    else fail "break must be inside loop or switch"

/-- A `break` or `continue` statement, after its keyword. -/
def jump (goesOn : Bool) : Reading Stmt := do
  let label ← match (← get).word with
    | ⟨.ident name false, _, false⟩ => pure (some name)
    | _ => pure none
  checkJump label goesOn
  if label.isSome then
    advance
  expectEnd
  pure (if goesOn then .continue_ label else .break_ label)

/-- A `return` statement, after its keyword. -/
def returnStatement (g : Grammar) : Reading Stmt := do
  let s ← get
  let ends := s.word.newlineBefore || match s.word.lexeme with
    | .punct t => t == ";" || t == "\x7d"
    | _ => false
  let value ← if ends then pure .undefined else g.expr true
  expectEnd
  pure (.return_ value)

/-- A `throw` statement, after its keyword. -/
def throwStatement (g : Grammar) : Reading Stmt := do
  if (← get).word.newlineBefore then
    fail "line terminator not allowed after throw"
  let value ← g.expr true
  expectEnd
  pure (.throw_ value)

def caseBody (g : Grammar) : Reading (List Stmt) :=
  gather do
    if (← atPunct "\x7d") || (← atKeyword "case") || (← atKeyword "default") then pure none
    else pure (some (← g.statement .list))

/-- A case of a `switch`; nothing where it ends. -/
def case (g : Grammar) : Reading (Option Case) := do
  if ← atPunct "\x7d" then pure none
  else if ← atKeyword "case" then
    advance
    let test ← g.expr true
    expect ":"
    pure (some (.mk false test (← caseBody g)))
  else if ← atKeyword "default" then
    advance
    expect ":"
    pure (some (.mk true .undefined (← caseBody g)))
  else fail "invalid switch statement"

/-- A `switch` statement, after its keyword. -/
def switchStatement (g : Grammar) : Reading Stmt := do
  let subject ← parenthesized g
  expect "\x7b"
  let (cases, declared) ← inBlock {} (within .switch (gather (case g)))
  let isDefault := fun
    | Case.mk isDefault _ _ => isDefault
  if 1 < (cases.filter isDefault).length then
    fail "duplicate default"
  expect "\x7d"
  pure (.switch subject declared.names.reverse declared.functions.reverse cases)

def caughtPattern (g : Grammar) : Reading Expr := do
  expect "("
  let pattern ← match ← lexeme with
    | .ident name false =>
      advance
      declareLexical name false
      pure (.ident name)
    | _ => if ← atPattern then g.pattern (.declare .let_) else fail "identifier expected"
  expect ")"
  pure pattern

def handler (g : Grammar) : Reading (Option (List LexicalName) × Expr × Block) := do
  if ← atPunct "\x7b" then
    let body ← block g
    pure (none, .undefined, body)
  else
    let (pattern, declared) ← inBlock {} (caughtPattern g)
    let caught := match pattern with
      | .ident name => some name
      | _ => none
    let body ← block g { caught := caught }
    pure (some declared.names.reverse, pattern, body)

/-- A `try` statement, after its keyword. -/
def tryStatement (g : Grammar) : Reading Stmt := do
  let body ← block g
  let (catches, names, pattern, handling) ← if ← atKeyword "catch" then
      advance
      let (names, pattern, body) ← handler g
      pure (true, names, pattern, body)
    else pure (false, none, .undefined, default)
  if ← atKeyword "finally" then
    advance
    let finisher ← block g
    pure (.try_ ⟨catches, names, true⟩ body pattern handling finisher)
  else if catches then pure (.try_ ⟨true, names, false⟩ body pattern handling default)
  else fail "expecting catch or finally"

def labeledStatement (g : Grammar) (name : Name) : Reading Stmt := do
  if (← get).function.targets.contains (.label name) then
    fail "duplicate label name"
  advance
  advance
  let body ← within (.label name) (g.statement .single)
  pure (.labeled name body)

def expressionStatement (g : Grammar) : Reading Stmt := do
  let value ← g.expr true
  expectEnd
  pure (.expr value)

def declarationStatement (g : Grammar) (kind : DeclarationKind) (place : StatementPlace) :
    Reading Stmt := do
  if kind != .var && place == .single then
    fail "lexical declarations can't appear in single-statement context"
  advance
  let targets ← declarations g kind true
  expectEnd
  pure (.declare kind targets)

/-- A statement that starts with a keyword; nothing if it is an expression. -/
def keywordStatement (g : Grammar) (word : String) (place : StatementPlace) :
    Reading (Option Stmt) := do
  match word with
  | "var" => return some (← declarationStatement g .var place)
  | "let" => return some (← declarationStatement g .let_ place)
  | "const" => return some (← declarationStatement g .const place)
  | "return" =>
    if (← get).function.isProgram then
      fail "return not in a function"
    advance
    return some (← returnStatement g)
  | "throw" => advance; return some (← throwStatement g)
  | "if" => advance; return some (← ifStatement g)
  | "for" => advance; return some (← forStatement g)
  | "while" => advance; return some (← whileStatement g)
  | "do" => advance; return some (← doStatement g)
  | "break" => advance; return some (← jump false)
  | "continue" => advance; return some (← jump true)
  | "switch" => advance; return some (← switchStatement g)
  | "try" => advance; return some (← tryStatement g)
  | "with" => fail "invalid keyword: with"
  | "function" =>
    if place == .single then
      fail "function declarations can't appear in single-statement context"
    return some (← functionStatement g)
  | "debugger" => advance; expectEnd; return some .empty
  | "enum" => fail "unsupported keyword: enum"
  | "export" => fail "unsupported keyword: export"
  | "extends" => fail "unsupported keyword: extends"
  | _ => return none

def anyStatement (g : Grammar) (place : StatementPlace) : Reading Stmt := do
  match ← lexeme with
  | .punct "\x7b" => pure (.block (← block g))
  | .punct ";" => advance; pure .empty
  | .keyword word =>
    match ← keywordStatement g word place with
    | some statement => pure statement
    | none => expressionStatement g
  | .ident name reserved =>
    if reserved then
      reservedIdentifier name
    match ← peek with
    | some ⟨.punct ":", _, _⟩ => labeledStatement g name
    | _ => expressionStatement g
  | _ => expressionStatement g

/-! ## The knot -/

def tooDeep : Reading α := throw .tooDeep

def ofDepth : Nat → Grammar
  | 0 => ⟨fun _ => tooDeep, fun _ => tooDeep, tooDeep, fun _ => tooDeep, fun _ => tooDeep,
      fun _ => tooDeep⟩
  | depth + 1 => {
      expr := fun inOk => commas (ofDepth depth) inOk
      assign := fun inOk => assignment (ofDepth depth) inOk
      unary := fun s => power (ofDepth depth) s
      postfix_ := fun calls => postfixed (ofDepth depth) calls
      pattern := fun use => bracketed (ofDepth depth) use
      statement := fun place => anyStatement (ofDepth depth) place }

end Grammar

/-- How deep constructs may nest. -/
def maxDepth : Nat := 3000

def programBody : Reading (List Stmt) :=
  gather do
    match ← lexeme with
    | .eof => pure none
    | _ => pure (some (← (Grammar.ofDepth maxDepth).statement .list))

def programFrom : Reading Program := do
  advance
  let (body, declared) ← inBlock { isBody := true } programBody
  let vars := (← get).function.vars.reverse
  pure ⟨vars, .mk declared.names.reverse declared.functions.reverse body⟩

def readProgram (source : String) : Except ReadFault Program :=
  let chars := source.toList
  let start : Cursor := ⟨chars, 0⟩
  let state : ReadState := {
    word := ⟨.eof, start, false⟩
    after := start
    lastEnd := 0
    blocks := []
    function := { isProgram := true }
    rounds := chars.length + 2 }
  match programFrom.run state with
  | .ok program _ => .ok program
  | .error fault _ => .error fault

end ScriptHooks.Sandbox

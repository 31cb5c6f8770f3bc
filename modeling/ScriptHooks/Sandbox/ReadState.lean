/-
ScriptHooks.Sandbox.ReadState — where the reading of a script stands.

The state holds the word at which reading stands, what the blocks around it have
declared so far, and what the function around it allows. A reading either gives a
value and moves on, or ends with a `ReadFault`; there is no recovery, since a
script with a fault is not run at all.

`rounds` bounds every loop of reading. It is set to two more than the characters
of the text, which is more than there are words to pass.

Declarations are checked as they are read: `declareLexical`, `declareVar` and
`declareFunction` refuse names that a block cannot have twice. A name declared with
`var` is also noted in the blocks between it and the body of its function, because
a later `let` of that name in one of them is a fault.
-/
import ScriptHooks.Sandbox.Lexeme

namespace ScriptHooks.Sandbox

/-- Why a script cannot be read. -/
inductive ReadFault
  | badSyntax (message : String)
  /-- The nesting is deeper than reading goes. -/
  | tooDeep

/-- What a block has declared so far, the latest first. -/
structure BlockRecord where
  names : List LexicalName := []
  functions : List Code := []
  /-- The names declared with `var` here or in blocks inside. -/
  vars : List Name := []
  /-- The block is the body of a function, or the program. -/
  isBody : Bool := false
  /-- The name that a handler around the block binds. -/
  caught : Option Name := none

def BlockRecord.declares (block : BlockRecord) (name : Name) : Bool :=
  block.names.any (·.name == name)
    || (!block.isBody && block.functions.any (·.header.name == name))

/-- What a `break` or `continue` may leave. -/
inductive JumpTarget
  | loop
  | switch
  | label (name : Name)
  deriving DecidableEq

/-- What the function being read has so far. -/
structure FunctionRecord where
  isProgram : Bool
  parameters : List Name := []
  /-- The latest first. -/
  vars : List Name := []
  usesArguments : Bool := false
  targets : List JumpTarget := []

/-- Where reading stands. -/
structure ReadState where
  word : Word
  after : Cursor
  /-- Where the word before ends. -/
  lastEnd : Nat
  /-- The blocks of the function being read, the innermost first. -/
  blocks : List BlockRecord
  function : FunctionRecord
  /-- No loop of reading has more rounds than this. -/
  rounds : Nat

abbrev Reading := EStateM ReadFault ReadState

namespace Reading

def fail (message : String) : Reading α := throw (.badSyntax message)

/-- What a lexer step gives, or its fault. -/
def lift : Except String α → Reading α
  | .ok value => pure value
  | .error message => fail message

def advance : Reading Unit := do
  let (word, after) ← lift (← get).after.next
  modify fun s => { s with word := word, after := after, lastEnd := s.after.offset }

def lexeme : Reading Lexeme := return (← get).word.lexeme

def wordText : Reading String := do
  let s ← get
  pure (String.ofList (s.word.start.rest.take (s.after.offset - s.word.start.offset)))

def atPunct (text : String) : Reading Bool := do
  match ← lexeme with
  | .punct t => pure (t == text)
  | _ => pure false

def atKeyword (word : String) : Reading Bool := do
  match ← lexeme with
  | .keyword w => pure (w == word)
  | _ => pure false

def atName (name : Name) : Reading Bool := do
  match ← lexeme with
  | .ident n _ => pure (n == name)
  | _ => pure false

/-- The word after the one at which reading stands; nothing if it is faulty. -/
def peek : Reading (Option Word) := do
  match (← get).after.next with
  | .ok (word, _) => pure (some word)
  | .error _ => pure none

/-- The complaint about a word that cannot stand here. -/
def unexpected : Reading α := do
  match ← lexeme with
  | .eof => fail "Unexpected end of input"
  | .number _ => fail "Unexpected number"
  | .bigint _ => fail "Unexpected number"
  | .text _ => fail "Unexpected string"
  | .template _ _ => fail "Unexpected string template"
  | .ident name _ => fail ("Unexpected identifier '" ++ name.toText ++ "'")
  | _ => fail ("Unexpected token '" ++ (← wordText) ++ "'")

/-- The complaint about a word where an operand should be. -/
def noOperand : Reading α := do
  fail ("unexpected token in expression: '" ++ (← wordText) ++ "'")

/-- Past this punctuator, which must come next. -/
def expect (text : String) : Reading Unit := do
  if ← atPunct text then advance else unexpected

/-- Past this keyword, which must come next. -/
def expectKeyword (word : String) : Reading Unit := do
  if ← atKeyword word then advance else unexpected

/-- Past this punctuator if it comes next, and whether it did. -/
def accept (text : String) : Reading Bool := do
  if ← atPunct text then
    advance
    pure true
  else pure false

/-- Past the end of a statement, which may be understood at a line's end. -/
def expectEnd : Reading Unit := do
  if ← atPunct ";" then advance
  else
    let s ← get
    match s.word.lexeme with
    | .eof => pure ()
    | .punct "\x7d" => pure ()
    | _ => if s.word.newlineBefore then pure () else fail "expecting ';'"

def gatherFrom (step : Reading (Option α)) (items : List α) : Nat → Reading (List α)
  | 0 => pure items.reverse
  | rounds + 1 => do
    match ← step with
    | none => pure items.reverse
    | some item => gatherFrom step (item :: items) rounds

def gather (step : Reading (Option α)) : Reading (List α) := do
  gatherFrom step [] (← get).rounds

def growFrom (step : α → Reading (Option α)) (value : α) : Nat → Reading α
  | 0 => pure value
  | rounds + 1 => do
    match ← step value with
    | none => pure value
    | some grown => growFrom step grown rounds

def grow (step : α → Reading (Option α)) (value : α) : Reading α := do
  growFrom step value (← get).rounds

/-! ## Looking ahead -/

/-- What follows a bracketed part, and what stands directly inside it. -/
structure Outlook where
  following : Lexeme := .eof
  newlineBefore : Bool := false
  semicolon : Bool := false
  ellipsis : Bool := false

/-- Whether a slash after this lexeme begins a regular expression. -/
def startsRegex : Lexeme → Bool
  | .number _ => false
  | .bigint _ => false
  | .text _ => false
  | .punct t => !(["--", "++", ")", "]", "\x7d"].contains t)
  | .keyword w => !(["null", "false", "true", "this"].contains w)
  | .ident name _ => name == Units.ofString "of"
  | _ => true

/-- What closes an open bracket; a template goes on where its expression ends. -/
inductive Bracket
  | round | square | curly | substitution
  deriving DecidableEq

/-- The brackets still open after a word, if it closes what is open; `none` where it
does not. -/
def bracketsAfter (stack : List Bracket) : Lexeme → Option (List Bracket)
  | .punct "(" => some (.round :: stack)
  | .punct "[" => some (.square :: stack)
  | .punct "\x7b" => some (.curly :: stack)
  | .punct ")" => close .round
  | .punct "]" => close .square
  | .punct "\x7d" => close .curly
  | .template _ last => some (if last then stack else .substitution :: stack)
  | _ => some stack
where
  /-- The brackets without the innermost, if it is this one. -/
  close (bracket : Bracket) : Option (List Bracket) :=
    match stack with
    | top :: rest => if top = bracket then some rest else none
    | [] => none

/-- What stands directly inside the outermost bracket, noted. -/
def Outlook.note (outlook : Outlook) (stack : List Bracket) (lexeme : Lexeme) : Outlook :=
  match stack, lexeme with
  | [_], .punct ";" => { outlook with semicolon := true }
  | [_], .punct "..." => { outlook with ellipsis := true }
  | _, _ => outlook

/-- The scan of a bracketed part, from a word inside it or its first one. -/
def scanFrom (stack : List Bracket) (outlook : Outlook) (last lexeme : Lexeme) (after : Cursor) :
    Nat → Outlook
  | 0 => outlook
  | rounds + 1 =>
    let goOn := fun (stack : List Bracket) (outlook : Outlook) (last : Lexeme) (after : Cursor) =>
      match after.next with
      | .error _ => outlook
      | .ok (word, next) =>
        if stack.isEmpty then
          { outlook with following := word.lexeme, newlineBefore := word.newlineBefore }
        else scanFrom stack outlook last word.lexeme next rounds
    let outlook := outlook.note stack lexeme
    match lexeme with
    | .eof => outlook
    | .punct t =>
      if (t == "/" || t == "/=") && startsRegex last then
        let size := t.length - 1
        let start : Cursor :=
          ⟨if size = 0 then after.rest else '=' :: after.rest, after.offset - size⟩
        match start.regex with
        | .ok (_, _, after) => goOn stack outlook (.text default) after
        | .error _ => outlook
      else if t == "\x7d" && stack.head? == some .substitution then
        match after.template with
        | .ok (piece, after) =>
          match piece with
          | .template _ true => goOn stack.tail outlook piece after
          | _ => goOn stack outlook piece after
        | .error _ => outlook
      else
        match bracketsAfter stack lexeme with
        | some stack => goOn stack outlook lexeme after
        | none => outlook
    | _ =>
      match bracketsAfter stack lexeme with
      | some stack => goOn stack outlook lexeme after
      | none => outlook

/-- What follows the bracketed part that starts at the word where reading stands. -/
def outlook : Reading Outlook := do
  let s ← get
  pure (scanFrom [] {} .eof s.word.lexeme s.after s.rounds)

/-- Whether a word follows the bracketed part. -/
def Outlook.leadsTo (outlook : Outlook) (text : String) : Bool :=
  match outlook.following with
  | .punct t => t == text
  | _ => false

/-! ## Blocks and declarations -/

def changeBlock (change : BlockRecord → BlockRecord) : Reading Unit :=
  modify fun s => { s with
    blocks := match s.blocks with
      | block :: rest => change block :: rest
      | [] => [] }

def changeFunction (change : FunctionRecord → FunctionRecord) : Reading Unit :=
  modify fun s => { s with function := change s.function }

/-- Read inside a block of its own; what it declared comes with the result. -/
def inBlock (start : BlockRecord) (inner : Reading α) : Reading (α × BlockRecord) := do
  modify fun s => { s with blocks := start :: s.blocks }
  let value ← inner
  let block := (← get).blocks.headD {}
  modify fun s => { s with blocks := s.blocks.drop 1 }
  -- names declared with `var` pass through to the block around
  changeBlock fun b => { b with vars := block.vars ++ b.vars }
  pure (value, block)

/-- No variable goes by the names that strict code reserves. -/
def checkVariableName (name : Name) : Reading Unit :=
  if name == Units.ofString "arguments" || name == Units.ofString "eval" then
    fail "invalid variable name in strict mode"
  else pure ()

/-- The complaint about a name that is declared twice. -/
def redefined (what : String) : Reading α := fail ("invalid redefinition of " ++ what)

def declareLexical (name : Name) (constant : Bool) : Reading Unit := do
  checkVariableName name
  let s ← get
  let block := s.blocks.headD {}
  if block.declares name || block.caught == some name then redefined "lexical identifier"
  else if block.isBody && s.function.parameters.contains name then redefined "parameter name"
  else if block.vars.contains name then
    redefined (if s.function.isProgram then "global identifier" else "a variable")
  else changeBlock fun b => { b with names := ⟨name, constant⟩ :: b.names }

def declareVar (name : Name) : Reading Unit := do
  checkVariableName name
  let s ← get
  if s.blocks.any (·.declares name) then redefined "lexical identifier"
  else
    changeBlock fun b => { b with vars := name :: b.vars }
    changeFunction fun f =>
      if f.vars.contains name then f else { f with vars := name :: f.vars }

/-- Declare a function: like `var` in a body, else in the block. -/
def declareFunction (code : Code) : Reading Unit := do
  let name := code.header.name
  let s ← get
  let block := s.blocks.headD {}
  if block.isBody then declareVar name
  else if block.declares name || block.caught == some name || block.vars.contains name then
    redefined "lexical identifier"
  changeBlock fun b => { b with functions := code :: b.functions }

def declareName (kind : DeclarationKind) (name : Name) : Reading Unit :=
  match kind with
  | .var => declareVar name
  | .let_ => declareLexical name false
  | .const => declareLexical name true

def within (target : JumpTarget) (inner : Reading α) : Reading α := do
  changeFunction fun f => { f with targets := target :: f.targets }
  let value ← inner
  changeFunction fun f => { f with targets := f.targets.drop 1 }
  pure value

end Reading

end ScriptHooks.Sandbox

/-
ScriptHooks.Script.ParserState — where the parser stands, and the steps on it.

A parse runs on a `ParserState` and gives a value or a `Fault`; the state after a
fault is kept, because parsing goes on behind it. The state has the tokens that
are left, how many were taken, the issues recorded so far, and three counters that
govern what is allowed: how deeply productions are nested, how many functions are
open, and whether `in` is an operator.

The steps from which productions are made:

* looking: `peek`, `tokenAhead`, `isAtEnd`. Nothing is taken, and behind the end
  token there is the end token again;
* taking: `pass`, `acceptMark`, `eatWord`, `expect`, `expectWord`, and `semicolon`,
  which may also be left out before a closing brace, at the end, or where a line
  ends. The end token is never taken;
* running inside: `nested`, `withoutIn` and `insideFunction` change a counter for a
  production and put it back, whether that gives a value or a fault. `onTokens` runs
  a production on the tokens of a substitution, and takes over its issues;
* loops: `loop` repeats a step until it is done. A step that goes on takes a token,
  so that one round more than there are tokens is enough;
* faults: `recovering` records a fault and goes on at the next plausible start of a
  statement. What has braces around it is skipped as a unit.

Only so many issues are recorded (`maxIssues`). Depth is bounded on the way
(`maxNesting`); chains, which are built in loops, by the number of their links
(`maxChain`) and by the depth of what was built (`maxExpressionDepth`).
-/
import ScriptHooks.Script.Token

namespace ScriptHooks.Script

def maxNesting : Nat := 200

/-- How many operators or links one chain may have. -/
def maxChain : Nat := 1000

/-- How many levels the tree of one expression may have. -/
def maxExpressionDepth : Nat := 500

/-- After this many issues no more are recorded. -/
def maxIssues : Nat := 50

def reservedWords : List String := [
  "await", "break", "case", "catch", "class", "const", "continue", "debugger", "default",
  "delete", "do", "else", "enum", "export", "extends", "finally", "for", "function", "if",
  "import", "in", "instanceof", "new", "return", "super", "switch", "throw", "try", "typeof",
  "var", "void", "while", "with", "yield"]

def isReservedWord (word : String) : Bool := reservedWords.contains word

def Token.isName (token : Token) : Bool := token.word?.any fun word => !isReservedWord word

/-- Why a production fails, and where. -/
structure Fault where
  message : String
  position : Position
  deriving Repr, DecidableEq

def Fault.issue (fault : Fault) : Issue := .ofSyntax fault.message fault.position

/-- Where the parser stands. -/
structure ParserState where
  /-- The tokens that are left; the end token is never taken. -/
  rest : List Token
  /-- How many tokens have been taken. -/
  consumed : Nat
  /-- How many functions are open. -/
  functionDepth : Nat
  /-- How many productions are open. -/
  nesting : Nat
  /-- Whether `in` is not an operator here. -/
  noIn : Bool
  /-- The issues recorded so far. -/
  issues : List Issue

namespace ParserState

/-- The beginning of a token list inside so many functions and productions. -/
def start (tokens : List Token) (functionDepth nesting : Nat) : ParserState :=
  ⟨tokens, 0, functionDepth, nesting, false, []⟩

/-- The token that comes after the next `offset` tokens; the end token from the end
of the list on. -/
def tokenAhead (s : ParserState) (offset : Nat) : Token := (s.rest.drop offset).headD default

def peek (s : ParserState) : Token := s.tokenAhead 0

def isAtEnd (s : ParserState) : Bool := s.peek.isEof

/-- The state after the next token; at the end it stays. -/
def pass (s : ParserState) : ParserState :=
  match s.rest with
  | [] => s
  | token :: rest => if token.isEof then s else { s with rest := rest, consumed := s.consumed + 1 }

/-- A fault at the next token. -/
def fault (s : ParserState) (message : String) : Fault := ⟨message, s.peek.position⟩

/-- The fault that the next token does not fit. -/
def unexpected (s : ParserState) : Fault := s.fault ("unexpected " ++ s.peek.describe)

/-- The state with the fault recorded, unless enough are. -/
def noting (s : ParserState) (fault : Fault) : ParserState :=
  if s.issues.length < maxIssues then { s with issues := s.issues ++ [fault.issue] } else s

/-- Past the tokens up to the next plausible start of a statement. Brace groups are
skipped as a unit, so that a fault inside a nested literal does not close the
block around it. -/
def skipToBoundary : Nat → Nat → ParserState → ParserState
  | 0, _, s => s
  | fuel + 1, depth, s =>
    if s.isAtEnd then s
    else
      let token := s.peek
      if depth = 0 ∧ token.isMark ";" then s.pass
      else if depth = 0 ∧ (token.isMark "\x7d" ∨ token.newlineBefore) then s
      else if token.isMark "\x7b" then skipToBoundary fuel (depth + 1) s.pass
      else if token.isMark "\x7d" then skipToBoundary fuel (depth - 1) s.pass
      else skipToBoundary fuel depth s.pass

/-- The state from which parsing goes on after a fault in a statement that began
when `start` tokens had been taken. At least one token is passed. -/
def recover (s : ParserState) (start : Nat) : ParserState :=
  let s := if s.consumed = start then s.pass else s
  skipToBoundary (s.rest.length + 1) 0 s

end ParserState

/-- A production: it takes tokens and gives a value or a fault. -/
abbrev Parse := EStateM Fault ParserState

namespace Parse

/-- The token that comes after the next `offset` tokens. -/
def tokenAhead (offset : Nat) : Parse Token := do return (← get).tokenAhead offset

def peek : Parse Token := do return (← get).peek

def isAtEnd : Parse Bool := do return (← get).isAtEnd

def pass : Parse Unit := modify (·.pass)

def fail (message : String) : Parse α := do throw ((← get).fault message)

/-- Fail because the next token does not fit. -/
def unexpected : Parse α := do throw (← get).unexpected

/-- Fail because the language leaves something out. -/
def unsupported (what : String) : Parse α :=
  fail (what ++ " is not supported in extension scripts")

/-- Fail because something else was expected than the next token. -/
def failExpecting (what : String) : Parse α := do
  fail ("expected " ++ what ++ " but found " ++ (← peek).describe)

/-- Take the punctuator if it comes next. -/
def acceptMark (text : String) : Parse Bool := do
  if (← peek).isMark text then
    pass
    return true
  return false

/-- Take the word if it comes next. -/
def eatWord (name : String) : Parse Bool := do
  if (← peek).isWord name then
    pass
    return true
  return false

/-- Take the punctuator, which must come next. -/
def expect (text : String) : Parse Unit := do
  unless ← acceptMark text do
    failExpecting ("'" ++ text ++ "'")

/-- Take the word, which must come next. -/
def expectWord (name : String) : Parse Unit := do
  unless ← eatWord name do
    failExpecting ("'" ++ name ++ "'")

/-- The end of a statement: a semicolon, or a place where it may be left out. -/
def semicolon : Parse Unit := do
  if ← acceptMark ";" then
    return
  let token ← peek
  unless token.isMark "\x7d" || token.isEof || token.newlineBefore do
    failExpecting "';'"

/-- Run a production one level deeper. -/
def nested (p : Parse α) : Parse α := fun s =>
  if maxNesting < s.nesting + 1 then .error (s.fault "script nesting is too deep") s
  else
    match p { s with nesting := s.nesting + 1 } with
    | .ok value s => .ok value { s with nesting := s.nesting - 1 }
    | .error fault s => .error fault { s with nesting := s.nesting - 1 }

/-- Run a production with `in` an operator or not, and put back what was so before. -/
def withoutIn (noIn : Bool) (p : Parse α) : Parse α := fun before =>
  match p { before with noIn := noIn } with
  | .ok value s => .ok value { s with noIn := before.noIn }
  | .error fault s => .error fault { s with noIn := before.noIn }

def insideFunction (p : Parse α) : Parse α := fun s =>
  match withoutIn false p { s with functionDepth := s.functionDepth + 1 } with
  | .ok value s => .ok value { s with functionDepth := s.functionDepth - 1 }
  | .error fault s => .error fault { s with functionDepth := s.functionDepth - 1 }

/-- Run a production on a token list of its own, inside the same functions and
productions. Its issues join those recorded so far. -/
def onTokens (tokens : List Token) (p : Parse α) : Parse α := fun s =>
  match p (.start tokens s.functionDepth s.nesting) with
  | .ok value inner => .ok value { s with issues := s.issues ++ inner.issues }
  | .error fault inner => .error fault { s with issues := s.issues ++ inner.issues }

/-- What a step of a loop says: go on with a new accumulator, or be done. -/
inductive Step (σ β : Type)
  | more (acc : σ)
  | done (value : β)

/-- Repeat a step until it is done. A step that goes on takes a token, so that one
more round than tokens suffices; rounds beyond that fail. -/
def rounds (step : σ → Parse (Step σ β)) : Nat → σ → Parse β
  | 0, _ => unexpected
  | fuel + 1, acc => do
    match ← step acc with
    | .more acc => rounds step fuel acc
    | .done value => return value

def loop (step : σ → Parse (Step σ β)) (init : σ) : Parse β := do
  rounds step ((← get).rest.length + 1) init

/-- Run a production; a fault is recorded and parsing moves on to the next plausible
start of a statement. -/
def recovering (p : Parse α) : Parse (Option α) := fun before =>
  match p before with
  | .ok value s => .ok (some value) s
  | .error fault s => .ok none ((s.noting fault).recover before.consumed)

end Parse

end ScriptHooks.Script

/-
ScriptHooks.Sandbox.Session — calls into scripts, each in a world of its own.

A session puts the globals in place, runs the program, calls its entry point with the
argument if there is one, and takes what is returned as JSON. Then nothing is left of
its world but the result and what was logged and requested.

Time is counted in steps: a script that uses up its steps has exceeded its time budget.
`stepsPerMillisecond` says how many make a millisecond, and without a limit a script
has `mostSteps`, so that every session ends. Memory is counted in bytes, of which the
world takes `worldSize` before the script starts.

What a script throws becomes an error of the host, with the name and the message of an
error object, or the JSON of any other value (`describeThrown`). At the top of a program
a `SyntaxError` means that the source could not be compiled; everything else is a
failure at run time.

`acceptSource` compiles a source without running it: inside a function that is never
called. `engine` puts both together, as the runtime that services call.
-/
import ScriptHooks.Sandbox.Conversion
import ScriptHooks.Sandbox.Evaluator
import ScriptHooks.Sandbox.Grammar
import ScriptHooks.Hook.Compiler

namespace ScriptHooks.Sandbox

/-- What a call into a script may use. -/
structure Limits where
  /-- Milliseconds; none is no limit. -/
  time : Option Nat := none
  /-- Bytes; none is no limit. -/
  memory : Option Nat := none
  deriving DecidableEq, Repr

/-- The steps that are taken to fill a millisecond. -/
def stepsPerMillisecond : Nat := 10000

/-- More steps than any script is given. -/
def mostSteps : Nat := 20000000

/-- The bytes that a world takes before its script starts. -/
def worldSize : Nat := 160000

namespace Limits

def steps (limits : Limits) : Nat :=
  match limits.time with
  | some milliseconds => min (milliseconds * stepsPerMillisecond) mostSteps
  | none => mostSteps

def timeComplaint (limits : Limits) : String :=
  "execution exceeded time budget of " ++ toString (limits.time.getD 0) ++ " ms"

end Limits

def startWorld (limits : Limits) (host : HostAccess) : Option World :=
  match limits.memory with
  | some bytes =>
    if bytes < worldSize then none
    else some { realm with
      host := host, budget := limits.steps, memory := some (bytes - worldSize) }
  | none => some { realm with host := host, budget := limits.steps }

/-! ## Failures -/

/-- What was thrown and not caught. -/
structure Failure where
  /-- The name of the error, if it is an error with a name. -/
  name : Option String := none
  message : String

def Failure.text (failure : Failure) : String :=
  match failure.name with
  | some name => if name.isEmpty then failure.message else name ++ ": " ++ failure.message
  | none => failure.message

namespace Run

def hostMachine : Machine := evaluator.toMachine

/-- What is done, or nothing if it is thrown out of. -/
def ifPossible (act : Run α) : Run (Option α) :=
  tryCatch (do pure (some (← act))) fun _ => pure none

def errorName (value : Value) : Run (Option String) := do
  match ← ifPossible (getValue hostMachine value "name") with
  | some (.text name) => pure name.decode.toOption
  | _ => pure none

/-- The message of an error; what is no text is taken as one. -/
def errorMessage (value : Value) : Run String := do
  let message ← ifPossible do
    let message ← getValue hostMachine value "message"
    if message.isNullish then pure Units.empty else toText hostMachine message
  match message with
  | some text => pure (text.decode.toOption.getD "")
  | none => pure ""

/-- What is said of a thrown value: the name and message of an error, else the value. -/
def describeThrown (value : Value) : Run Failure := do
  let isError ← match value with
    | .object ref => pure (match (← object ref).kind with | .error => true | _ => false)
    | _ => pure false
  if isError then
    let name ← errorName value
    pure ⟨name, ← errorMessage value⟩
  else
    match ← returnedJson hostMachine value with
    | .ok (.string text) => pure ⟨none, text⟩
    | .ok other => pure ⟨none, other.compact⟩
    | .error _ => pure ⟨none, "uncaught exception"⟩

/-! ## The session -/

/-- What is done, with what is said of a script that fails meanwhile. -/
def reporting (report : Failure → HookError) (late : HookError) (act : Run α) :
    ExceptT HookError Run α :=
  ExceptT.mk (tryCatch (do pure (.ok (← act))) fun
    | .thrown value => do pure (.error (report (← describeThrown value)))
    | _ => pure (.error late))

def runSource (source : String) : Run Unit :=
  match readProgram source with
  | .ok program => runProgram program
  | .error (.badSyntax message) => fail .syntaxError message
  | .error .tooDeep => rangeError "Maximum call stack size exceeded"

def setGlobal (name : String) (value : Json) : Run Unit := do
  let value ← ofHost hostMachine value
  setValue hostMachine (.object Intrinsic.global.ref) name value

/-- A program that fails at its top was not compiled if the failure is one of syntax. -/
def programError (script : String) (failure : Failure) : HookError :=
  if failure.name = some "SyntaxError" then .compile script failure.text
  else .runtime script failure.text

def entryPoint (script entry : String) : ExceptT HookError Run Value := do
  let found ← ifPossible (getValue hostMachine (.object Intrinsic.global.ref) entry)
  match found with
  | some value =>
    if ← isCallable value then pure value
    else throw (.runtime script ("'" ++ entry ++ "' is not a function"))
  | none => throw (.runtime script ("'" ++ entry ++ "' is not a function"))

def session (limits : Limits) (c : ScriptCall) : ExceptT HookError Run Json := do
  let late := HookError.runtime c.script limits.timeComplaint
  let thrown := fun failure : Failure => HookError.runtime c.script failure.text
  for (name, value) in c.globals do
    reporting thrown late (setGlobal name value)
  reporting (programError c.script) late (runSource c.program)
  let f ← entryPoint c.script c.entry
  let result ← reporting thrown late do
    let values ← c.argument.toList.mapM (ofHost hostMachine)
    hostMachine.call f .undefined values
  match ← returnedJson hostMachine result with
  | .ok json => pure json
  | .error fault => throw (.conversion c.script fault.message)

end Run

def World.effects (world : World) : Effects := ⟨world.logs.reverse, world.requests.reverse⟩

def answerCall (limits : Limits) (send : HttpTransport) (c : ScriptCall) : CallResult :=
  if limits.time = some 0 then ⟨.error (.runtime c.script limits.timeComplaint), {}⟩
  else
    match startWorld limits ⟨c.context, send⟩ with
    | none =>
      ⟨.error (.runtime c.script "QuickJS: Allocation failed while creating object"), {}⟩
    | some world =>
      match (Run.session limits c).run world with
      | .ok outcome world => ⟨outcome, world.effects⟩
      | .error _ world => ⟨.error (.runtime c.script limits.timeComplaint), world.effects⟩

/-- Whether a source is accepted inside a function that is never called. -/
def acceptSource (script source : String) : Except HookError Unit :=
  let report := fun failure : Failure => HookError.compile script failure.text
  let late := HookError.compile script "InternalError: interrupted"
  let act := Run.reporting report late (Run.runSource (wrapSource source))
  match act.run { bareRealm with budget := mostSteps } with
  | .ok outcome _ => outcome
  | .error _ _ => .error late

def engine (limits : Limits) (send : HttpTransport) : ScriptRuntime where
  call := answerCall limits send
  checkSyntax := acceptSource

end ScriptHooks.Sandbox

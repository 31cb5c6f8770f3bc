/-
ScriptHooks.Hook.Runtime — what the hooks need of a script engine.

A call runs a program and one of its functions with some globals. Besides its
outcome it leaves effects: what the script logged and the requests it sent. Effects
of several calls are put together in the order of the calls.

A runtime is whatever answers such calls, and says of a source whether it is
well-formed. It is a parameter of the hooks: the sandbox is one, and what is shown of
the hooks holds of any.
-/
import ScriptHooks.Hook.Error
import ScriptHooks.Host.HttpMessage

namespace ScriptHooks

/-- How grave a log line is. -/
inductive LogLevel
  | info
  | warn
  | error
  deriving Repr, DecidableEq

namespace LogLevel

def name : LogLevel → String
  | info => "info"
  | warn => "warn"
  | error => "error"

end LogLevel

/-- Who is logging: the script, and the scope and event it runs for. -/
structure LogContext where
  script : String
  scope : String := ""
  event : String := ""
  deriving Repr, DecidableEq

/-- A line that a script logged. -/
structure LogRecord where
  level : LogLevel
  context : LogContext
  message : String
  deriving Repr, DecidableEq

/-- A request that a script sent, and whether the response is to be saved. -/
structure SentRequest where
  request : HttpRequest
  save : Bool

/-- What a run leaves behind, in order. -/
structure Effects where
  logs : List LogRecord := []
  requests : List SentRequest := []

/-- The effects of two runs, the first one first. -/
def Effects.append (a b : Effects) : Effects := ⟨a.logs ++ b.logs, a.requests ++ b.requests⟩

instance : Append Effects := ⟨Effects.append⟩

/-- One call into a script. -/
structure ScriptCall where
  /-- The script's name in errors. -/
  script : String
  program : String
  /-- The function to call. -/
  entry : String
  globals : Payload
  /-- What the function is given, if anything. -/
  argument : Option Json
  context : LogContext

/-- How a call went. -/
structure CallResult where
  outcome : Except HookError Json
  effects : Effects

/-- A script engine. -/
structure ScriptRuntime where
  /-- Run a program and call one of its functions. -/
  call : ScriptCall → CallResult
  /-- Whether a source is accepted; nothing of it runs. The first text is the
  script's name in errors. -/
  checkSyntax : String → String → Except HookError Unit

end ScriptHooks

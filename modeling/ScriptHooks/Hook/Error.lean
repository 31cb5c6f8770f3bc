/-
ScriptHooks.Hook.Error — what can go wrong when scripts are kept and run.

Each kind of error has a message of its own, and errors about a script name it by the text of
its identity. Callers want to know whether the script is to blame or the host
(`isFaultOfScript`).
-/
import ScriptHooks.Hook.Definition

namespace ScriptHooks

/-- Why an operation failed. -/
inductive HookError
  /-- The source, or what the script says about itself, is refused. -/
  | validation (error : Script.ValidationError)
  /-- An accepted script no longer compiles. -/
  | compile (script : String) (message : String)
  /-- The script threw, or used up its time. -/
  | runtime (script : String) (message : String)
  /-- What the script returned is not of the expected type. -/
  | conversion (script : String) (message : String)
  | invalidScopePath (raw : String)
  | scriptNotFound (id : String)
  | store (message : String)
  | config (message : String)
  | io (message : String)
  | json (complaint : Json.Complaint)
  | http (message : String)

namespace HookError

def message : HookError → String
  | validation error => "Validation error: " ++ error.summary
  | compile script message => "Compile error: " ++ script ++ ": " ++ message
  | runtime script message => "Runtime error: " ++ script ++ ": " ++ message
  | conversion script message => "Conversion error: " ++ script ++ ": " ++ message
  | invalidScopePath raw => ScopePath.invalidMessage raw
  | scriptNotFound id => "Script not found: " ++ id
  | store message => "Store error: " ++ message
  | config message => "Configuration error: " ++ message
  | io message => "IO error: " ++ message
  | json complaint => "JSON error: " ++ complaint.message
  | http message => "HTTP error: " ++ message

/-- Whether the error came out of running a script, and not out of the host. -/
def isFaultOfScript : HookError → Bool
  | compile _ _ => true
  | runtime _ _ => true
  | conversion _ _ => true
  | _ => false

def ofProblem (problem : ScriptMetadata.Problem) : HookError :=
  .validation (.ofMetadata problem.message)

end HookError

end ScriptHooks

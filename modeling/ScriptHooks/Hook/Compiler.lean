/-
ScriptHooks.Hook.Compiler — sources made into compiled scripts.

A source must match its digest, pass validation and be accepted by the script
engine. The engine is asked without running anything: the source is put inside a
function that is never called (`wrapSource`), on lines of its own, so that a comment
at its end does not swallow what closes the function.
-/
import ScriptHooks.Hook.CompiledCache
import ScriptHooks.Script.Validation

namespace ScriptHooks

def wrapSource (source : String) : String := "(function () \x7b\n" ++ source ++ "\n\x7d)"

/-- Compile a source under the digest it is known by. The engine's part gets the name
for errors and the source. -/
def compileScript (checkSyntax : String → String → Except HookError Unit) (hash source : String) :
    Except HookError CompiledScript :=
  if contentHash source ≠ hash then
    .error (.compile hash "source does not match its content hash")
  else
    match Script.validate source with
    | .error error => .error (.compile hash error.summary)
    | .ok _ =>
      match checkSyntax hash source with
      | .error error => .error error
      | .ok _ => .ok ⟨hash, source⟩

end ScriptHooks

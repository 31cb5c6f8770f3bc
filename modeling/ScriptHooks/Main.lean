/-
ScriptHooks.Main — the command line.

The files and variables that a command may ask for are looked up first; everything else
is decided without looking at the world.
-/
import ScriptHooks.Command.Execution
import ScriptHooks.Host.Exchange

namespace ScriptHooks

def helpText : String :=
  "scripthooks - validate and run extension scripts\n\n"
    ++ "Usage: scripthooks [--config FILE] validate FILE\n"
    ++ "       scripthooks [--config FILE] run FILE --event EVENT [--scope SCOPE]\n"
    ++ "                   [--payload JSON] [--name NAME]\n"

def versionText : String := "scripthooks 0.1.0\n"

def settingVariables : List String :=
  [EngineSettings.pathVariable, "EXTSCRIPT_ARTIFACT_IDLE_SECS",
    "EXTSCRIPT_ASYNC_QUEUE_IDLE_SECS", "EXTSCRIPT_MAX_EXECUTION_MS"]

/-- What stands at a path. What is there and is no file cannot be read. -/
def lookAt (path : String) : IO PathContent := do
  try
    return .file (← IO.FS.readBinFile path)
  catch
    | .noFileOrDirectory _ _ _ => return .missing
    | _ => return .directory

/-- The surroundings, as far as these paths and the variables for settings go. -/
def lookAround (paths : List String) : IO Surroundings := do
  let contents ← paths.mapM fun path => do pure (path, ← lookAt path)
  let values ← settingVariables.mapM fun name => do pure (name, ← IO.getEnv name)
  return {
    contentAt := fun path => (Json.lookup path contents).getD .missing
    envValue := fun name => (Json.lookup name values).join }

def localRuntime : RuntimeMaker := fun settings =>
  Sandbox.engine settings.limits (offlineTransport settings.http)

/-- Carry out a command line; the exit code says whether that worked. -/
def runCommandLine (line : CommandLine) : IO UInt32 := do
  let surroundings ← lookAround (line.command.file :: line.settingsPath.toList)
  let report := line.execute surroundings localRuntime
  IO.print report.printed
  match report.fault with
  | none => return 0
  | some fault => do
    IO.eprintln ("Error: " ++ fault.message)
    return 1

end ScriptHooks

open ScriptHooks in
/-- Read the words of the command line and do what they say. -/
def main (arguments : List String) : IO UInt32 := do
  let environment ← IO.getEnv EngineSettings.pathVariable
  match CommandLine.parse environment arguments with
  | .ok line => runCommandLine line
  | .error .helpAsked => do
    IO.print helpText
    return 0
  | .error .versionAsked => do
    IO.print versionText
    return 0
  | .error _ => do
    IO.eprint helpText
    return 2

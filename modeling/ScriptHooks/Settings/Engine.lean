/-
ScriptHooks.Settings.Engine — the settings of the whole engine.

Settings are JSON, with names in either of two spellings; what is absent is as it is by
default. `EngineSettings.limits` says what a script may use.

`EngineSettings.fields` holds the rules of reading: for each entry its names and how its
value is stored. `Node.record` makes a decoder of them, which takes an object with these
names or a list of the values in this order. `toJson` writes the first spelling of each.
-/
import ScriptHooks.Host.HttpSettings
import ScriptHooks.Sandbox.Session

namespace ScriptHooks

open Json Json.Node

/-- The settings of the engine. -/
structure EngineSettings where
  /-- Seconds that a compiled script is kept without being used. -/
  artifactIdleSecs : Nat := 12 * 60 * 60
  /-- Seconds that the worker of a queue waits for more work. -/
  queueIdleSecs : Nat := 60 * 60
  /-- Milliseconds that a script may run; none is no limit. -/
  maxExecutionMs : Option Nat := none
  /-- Bytes that a script may use; none is no limit. -/
  memoryLimitBytes : Option Nat := none
  http : HttpSettings := {}
  deriving Repr, DecidableEq

namespace EngineSettings

def fields : List (FieldRule EngineSettings) :=
  [withDefault "artifact_idle_secs" ["artifactIdleSecs"] (unsigned "u64" 64)
      fun v r => { r with artifactIdleSecs := v },
    withDefault "async_queue_idle_secs" ["asyncQueueIdleSecs"] (unsigned "u64" 64)
      fun v r => { r with queueIdleSecs := v },
    withDefault "max_execution_ms" ["maxExecutionMs"] (optional (unsigned "u64" 64))
      fun v r => { r with maxExecutionMs := v },
    withDefault "memory_limit_bytes" ["memoryLimitBytes"] (optional (unsigned "usize" 64))
      fun v r => { r with memoryLimitBytes := v },
    withDefault "http" [] HttpSettings.decode fun v r => { r with http := v }]

/-- Settings; what is absent is as it is by default. -/
def decode : Decoder EngineSettings := record (title "EngineConfig") fields {}

def toJson (settings : EngineSettings) : Json :=
  .ofEntries [("artifact_idle_secs", .ofNat settings.artifactIdleSecs),
    ("async_queue_idle_secs", .ofNat settings.queueIdleSecs),
    ("max_execution_ms", .orNull (settings.maxExecutionMs.map .ofNat)),
    ("memory_limit_bytes", .orNull (settings.memoryLimitBytes.map .ofNat)),
    ("http", settings.http.toJson)]

def limits (settings : EngineSettings) : Sandbox.Limits :=
  ⟨settings.maxExecutionMs, settings.memoryLimitBytes⟩

/-- Milliseconds that a compiled script is kept without being used. -/
def artifactIdleMs (settings : EngineSettings) : Nat := settings.artifactIdleSecs * 1000

/-- Milliseconds that the worker of a queue waits for more work. -/
def queueIdleMs (settings : EngineSettings) : Nat := settings.queueIdleSecs * 1000

end EngineSettings

end ScriptHooks

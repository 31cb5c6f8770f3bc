/-
ScriptHooks.Settings.Load — where settings come from.

They are read from a file that is named, or that the environment names; without either,
and if there is no such file, they are as they are by default. Single settings are then
replaced by what the environment says of them.

The files and variables that loading may look at are a parameter, `Surroundings`, so
loading is a function of them and of the path.

A variable counts only if it holds more than blanks. It must then hold a number that
fits sixty-four bits; anything else is an error, not a default. For the time that a
script may run the number zero is special: it takes the limit away. In a file the same
number is a limit of no time. `ScriptHooks.Proofs.Settings` compares the two.
-/
import ScriptHooks.Hook.Error
import ScriptHooks.Json.Reader
import ScriptHooks.Settings.Engine
import ScriptHooks.Text.Quoted

namespace ScriptHooks

/-- What stands at a path. -/
inductive PathContent
  | missing
  | directory
  | file (bytes : ByteArray)

/-- What surrounds a program: its files and its environment. -/
structure Surroundings where
  contentAt : String → PathContent
  envValue : String → Option String

namespace Surroundings

def readText (surroundings : Surroundings) (path : String) : Except String String :=
  match surroundings.contentAt path with
  | .missing => .error "No such file or directory (os error 2)"
  | .directory => .error "Is a directory (os error 21)"
  | .file bytes =>
    match String.fromUTF8? bytes with
    | some text => .ok text
    | none => .error "stream did not contain valid UTF-8"

/-- The text of a file is what its bytes encode. -/
theorem readText_file {surroundings : Surroundings} {path text : String}
    (h : surroundings.contentAt path = .file text.toUTF8) :
    surroundings.readText path = .ok text := by
  have hdecoded : String.fromUTF8? text.toUTF8 = some text := dif_pos text.isValidUTF8
  rw [readText, h]
  simp only [hdecoded]

def isThere (surroundings : Surroundings) (path : String) : Bool :=
  match surroundings.contentAt path with
  | .missing => false
  | _ => true

end Surroundings

/-! ## Numbers in the environment -/

/-- Why a text is no number. -/
inductive NumeralFault
  | empty
  | badDigit
  | tooLarge
  deriving DecidableEq, Repr

def NumeralFault.message : NumeralFault → String
  | .empty => "cannot parse integer from empty string"
  | .badDigit => "invalid digit found in string"
  | .tooLarge => "number too large to fit in target type"

/-- The value of digits in turn: whatever comes first, a character that is no digit or a
value beyond sixty-four bits, is complained of. -/
def readDigits (value : Nat) : List Char → Except NumeralFault Nat
  | [] => .ok value
  | c :: rest =>
    if c.isDigit then
      let value := value * 10 + (c.toNat - '0'.toNat)
      if value < 0x10000000000000000 then readDigits value rest else .error .tooLarge
    else .error .badDigit

/-- A number that fits sixty-four bits, maybe after a plus sign. -/
def readNumeral (text : String) : Except NumeralFault Nat :=
  match text.toList with
  | [] => .error .empty
  | ['+'] => .error .badDigit
  | '+' :: digits => readDigits 0 digits
  | digits => readDigits 0 digits

namespace EngineSettings

def pathVariable : String := "EXTSCRIPT_CONFIG_PATH"

/-- The number that a variable holds; none if it is not set or blank. -/
def numberIn (surroundings : Surroundings) (name : String) : Except HookError (Option Nat) :=
  match surroundings.envValue name with
  | none => .ok none
  | some raw =>
    let trimmed := Text.trimBlanks raw
    if trimmed.isEmpty then .ok none
    else
      match readNumeral trimmed with
      | .ok n => .ok (some n)
      | .error fault =>
        .error (.config (name ++ "=" ++ Text.quoted raw ++ " is not a non-negative integer: "
          ++ fault.message))

/-- The settings with what the environment says of them. -/
def override (surroundings : Surroundings) (settings : EngineSettings) :
    Except HookError EngineSettings := do
  let artifact ← numberIn surroundings "EXTSCRIPT_ARTIFACT_IDLE_SECS"
  let queue ← numberIn surroundings "EXTSCRIPT_ASYNC_QUEUE_IDLE_SECS"
  let execution ← numberIn surroundings "EXTSCRIPT_MAX_EXECUTION_MS"
  let maxExecutionMs := match execution with
    | some milliseconds => if milliseconds = 0 then none else some milliseconds
    | none => settings.maxExecutionMs
  pure { settings with
    artifactIdleSecs := artifact.getD settings.artifactIdleSecs
    queueIdleSecs := queue.getD settings.queueIdleSecs
    maxExecutionMs := maxExecutionMs }

/-- The settings in a file; those by default if there is no file, or it is blank. -/
def loadFile (surroundings : Surroundings) (path : String) : Except HookError EngineSettings :=
  if !surroundings.isThere path then .ok {}
  else
    match surroundings.readText path with
    | .error problem => .error (.io problem)
    | .ok text =>
      if (Text.trimBlanks text).isEmpty then .ok {}
      else
        (Json.decodeText (some Json.nestingLimit) decode text).mapError fun complaint =>
          .config ("Failed to parse settings file " ++ path ++ ": " ++ complaint.message)

/-- The settings, from a named file or the one that the environment names. -/
def load (surroundings : Surroundings) (path : Option String) :
    Except HookError EngineSettings := do
  let path := path.orElse fun _ => surroundings.envValue pathVariable
  let settings ← match path with
    | some path => loadFile surroundings path
    | none => pure {}
  override surroundings settings

end EngineSettings

end ScriptHooks

/-
ScriptHooks.Command.Execution — carrying out commands.

A command reads the settings and a script, works on a store of its own, and prints a
report in JSON. What it prints stands even if it fails afterwards: a script that is
refused is reported, and that is a failure.

Both commands submit the script to a new service with nothing in it, under the name that is
given or else that of the file. `validate` looks at the source first, and reports its issues
or else what the service made of it. `run` goes on to fire the event at the script, if the
script listens to it and returns a result.

The script runtime is a parameter (`RuntimeMaker`): settings are known only when a
command is carried out, and the runtime depends on them.
`ScriptHooks.Proofs.Command.ValidatedFiles` compares the verdicts on files of one name.
-/
import ScriptHooks.Command.Line
import ScriptHooks.Hook.Service
import ScriptHooks.Script.Report
import ScriptHooks.Settings.Load

namespace ScriptHooks

/-- Why a command fails. -/
inductive CommandFault
  | hook (error : HookError)
  | unknownEvent (name : String)
  | unreadable (file problem : String)
  | nameless (file : String)
  | refused (file : String)
  | payloadSyntax (complaint : Json.Complaint)
  | payloadKind (value : Json)
  | isAsync (id : String)
  | notSubscribed (id event : String)

/-- The cause that an error was made of, if it was made of one. -/
def HookError.cause? : HookError → Option String
  | .validation error => some error.summary
  | .io message => some message
  | .json complaint => some complaint.message
  | .http message => some message
  | _ => none

namespace CommandFault

/-- The wording of a fault: what failed, and after a colon why. -/
def message : CommandFault → String
  | hook error =>
    match error.cause? with
    | some cause => error.message ++ ": " ++ cause
    | none => error.message
  | unknownEvent name => HookEvent.unknownMessage name
  | unreadable file problem => "reading " ++ file ++ ": " ++ problem
  | nameless file => "cannot derive a script name from " ++ file
  | refused file => file ++ " failed validation"
  | payloadSyntax complaint => "parsing --payload: " ++ complaint.message
  | payloadKind value => "--payload must be a JSON object, got " ++ value.compact
  | isAsync id => id ++ " declares async: true; only sync scripts return a result"
  | notSubscribed id event => id ++ " does not subscribe to " ++ event

end CommandFault

/-- What a command printed, and why it failed if it did. -/
structure CommandReport where
  printed : String := ""
  fault : Option CommandFault := none

namespace CommandReport

def print (value : Json) (fault : Option CommandFault := none) : CommandReport :=
  ⟨value.pretty ++ "\n", fault⟩

/-- Nothing printed. -/
def fail (fault : CommandFault) : CommandReport := { fault := some fault }

/-- A report, or the fault that there is none. -/
def ofExcept : Except CommandFault CommandReport → CommandReport
  | .ok report => report
  | .error fault => fail fault

end CommandReport

/-! ## Names of files -/

/-- The last part of a path, if it names anything. -/
def lastPart (path : String) : Option (List Char) :=
  match (splitSlashes path.toList).filter fun part => !part.isEmpty && part != ['.'] with
  | [] => none
  | parts => if parts.getLast? = some ['.', '.'] then none else parts.getLast?
where
  /-- The parts between the slashes of a path. -/
  splitSlashes : List Char → List (List Char)
    | [] => [[]]
    | c :: rest =>
      match splitSlashes rest with
      | [] => [[]]
      | part :: parts => if c = '/' then [] :: part :: parts else (c :: part) :: parts

/-- The name of a file without its ending. A point at the start begins no ending. -/
def fileStem (path : String) : Option String :=
  (lastPart path).map fun name =>
    let ending := (name.reverse.takeWhile (· != '.')).length
    let stem := name.take (name.length - ending - 1)
    String.ofList (if stem.isEmpty then name else stem)

/-! ## Commands -/

abbrev RuntimeMaker := EngineSettings → ScriptRuntime

def emptyService (maker : RuntimeMaker) (settings : EngineSettings) : Service where
  runtime := maker settings
  store := .empty
  cache := { idleMs := settings.artifactIdleMs }

def scriptText (surroundings : Surroundings) (file : String) : Except CommandFault String :=
  (surroundings.readText file).mapError (.unreadable file ·)

/-- The name of a script: the one that is given, or else that of its file. -/
def nameOfScript (file : String) (name : Option String) : Except CommandFault String :=
  match name.orElse fun _ => fileStem file with
  | some name => .ok name
  | none => .error (.nameless file)

def refusal (error : Script.ValidationError) : Json :=
  .ofEntries [("valid", .bool false), ("issues", error.toJson)]

def acceptance (definition : ScriptDefinition) (tree : Script.SymbolTree) : Json :=
  .ofEntries [("valid", .bool true), ("contentHash", .string definition.contentHash),
    ("metadata", definition.metadata.toJson), ("symbols", tree.root.toJson)]

def validateScript (maker : RuntimeMaker) (settings : EngineSettings) (file source : String) :
    Except CommandFault CommandReport :=
  match Script.validate source with
  | .error error => .ok (.print (refusal error) (some (.refused file)))
  | .ok tree => do
    let name ← nameOfScript file none
    match ((emptyService maker settings).submitScript ⟨.root, name, source, true⟩).outcome with
    | .ok definition => pure (.print (acceptance definition tree))
    | .error (.validation error) => pure (.print (refusal error) (some (.refused file)))
    | .error error => throw (.hook error)

def readPayload : Option String → Except CommandFault Payload
  | none => .ok []
  | some raw =>
    match Json.parse raw with
    | .error complaint => .error (.payloadSyntax complaint)
    | .ok (.object payload) => .ok payload
    | .ok other => .error (.payloadKind other)

def anyResult : ResultType Json := ⟨"Value", Json.Node.toJson⟩

def runScript (maker : RuntimeMaker) (settings : EngineSettings) (event : HookEvent)
    (scope : ScopePath) (payload : Payload) (name source : String) :
    Except CommandFault CommandReport := do
  let saved := (emptyService maker settings).submitScript ⟨scope, name, source, true⟩
  let definition ← saved.outcome.mapError CommandFault.hook
  if definition.asyncCapable then throw (.isAsync definition.id.text)
  if !definition.listensTo event.name then
    throw (.notSubscribed definition.id.text event.name)
  let fired := saved.service.fireAndWait 0 anyResult event.name scope payload .null
  let result ← fired.outcome.mapError CommandFault.hook
  pure (.print result)

def readEvent (name : String) : Except CommandFault HookEvent :=
  match HookEvent.ofName? name with
  | some event => .ok event
  | none => .error (.unknownEvent name)

def readScope (raw : String) : Except CommandFault ScopePath :=
  match ScopePath.parse? raw with
  | some scope => .ok scope
  | none => .error (.hook (.invalidScopePath raw))

namespace Command

def file : Command → String
  | validate file => file
  | run file _ _ _ _ => file

def carryOut (surroundings : Surroundings) (maker : RuntimeMaker) (settings : EngineSettings) :
    Command → Except CommandFault CommandReport
  | validate file => do
    let source ← scriptText surroundings file
    validateScript maker settings file source
  | run file event scope payload name => do
    let event ← readEvent event
    let scope ← readScope scope
    let payload ← readPayload payload
    let source ← scriptText surroundings file
    let name ← nameOfScript file name
    runScript maker settings event scope payload name source

end Command

namespace CommandLine

def execute (surroundings : Surroundings) (maker : RuntimeMaker) (line : CommandLine) :
    CommandReport :=
  .ofExcept do
    let settings ← (EngineSettings.load surroundings line.settingsPath).mapError CommandFault.hook
    line.command.carryOut surroundings maker settings

end CommandLine

end ScriptHooks

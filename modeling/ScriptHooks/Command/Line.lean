/-
ScriptHooks.Command.Line — what the words of a command line ask for.

The first plain word names a command; options with values stand anywhere, `--name value`
or `--name=value`. `validate` checks a script, `run` also fires an event at it.

The words are read level by level: those before the command, then those after it. A
`WordLevel` says what may stand on a level, and one function, used for both, gathers the
words of a level. What a command needs is asked for only when all words are gathered, so
a word that cannot stand there is complained of before one that is missing.

To ask for help or for the version is not a command but a reason not to carry one out,
and stands among the faults.
-/

namespace ScriptHooks

/-- Why a command line is not carried out. Asking for help is one reason. -/
inductive UsageFault
  | helpAsked
  | versionAsked
  /-- Nothing is asked for at all. -/
  | nothingAsked
  | noCommand
  | unknownCommand
  | unknownArgument
  | missingArgument
  | missingValue
  | repeatedOption
  | unneededValue
  deriving DecidableEq, Repr

/-- What a command does. -/
inductive Command
  /-- Check a script. -/
  | validate (file : String)
  /-- Register a script and fire an event at it. -/
  | run (file event scope : String) (payload name : Option String)
  deriving DecidableEq, Repr

/-- A command and the file of settings that it is given. -/
structure CommandLine where
  settingsPath : Option String
  command : Command
  deriving DecidableEq, Repr

/-! ## Words of one level -/

/-- What may stand before or after the name of a command. -/
structure WordLevel where
  /-- The options, each with a value. -/
  options : List String
  /-- How many plain words there may be. -/
  places : Nat := 0
  /-- The plain words that end the level. -/
  commands : List String := []
  /-- Whether the version may be asked for. -/
  hasVersion : Bool := false

/-- The words of a level. -/
structure GatheredWords where
  options : List (String × String) := []
  plain : List String := []
  /-- The word that ended the level, and the words after it. -/
  rest : Option (String × List String) := none

namespace GatheredWords

def value? (words : GatheredWords) (option : String) : Option String :=
  (words.options.find? fun entry => entry.1 == option).map (·.2)

/-- The words with an option; none may be given twice. -/
def add (words : GatheredWords) (option value : String) : Except UsageFault GatheredWords :=
  if (words.value? option).isSome then .error .repeatedOption
  else .ok { words with options := words.options ++ [(option, value)] }

end GatheredWords

/-- The name of an option and the value written behind it, if the word is an option. -/
def optionWord? (word : String) : Option (String × Option String) :=
  match word.toList with
  | '-' :: '-' :: chars =>
    let name := String.ofList (chars.takeWhile (· != '='))
    match chars.dropWhile (· != '=') with
    | '=' :: value => some (name, some (String.ofList value))
    | _ => some (name, none)
  | _ => none

namespace WordLevel

/-- What a word of single letters asks for: only the first one matters. -/
def letterFault (level : WordLevel) : Option Char → UsageFault
  | some 'h' => .helpAsked
  | some 'V' => if level.hasVersion then .versionAsked else .unknownArgument
  | _ => .unknownArgument

def flagFault (level : WordLevel) (name : String) (value : Option String) : UsageFault :=
  let asked :=
    if name = "help" then some UsageFault.helpAsked
    else if name = "version" && level.hasVersion then some .versionAsked
    else none
  match asked, value with
  | some fault, none => fault
  | some _, some _ => .unneededValue
  | none, _ => .unknownArgument

def plainFault (level : WordLevel) (trailing : Bool) (word : String) : UsageFault :=
  if level.commands.isEmpty || (trailing && level.commands.contains word) then .unknownArgument
  else .unknownCommand

/-- The words of a level after those gathered. An option may be waiting for its value; two
hyphens make all words after them plain. -/
def gather (level : WordLevel) (words : GatheredWords) (waiting : Option String)
    (trailing : Bool) : List String → Except UsageFault GatheredWords
  | [] => if waiting.isSome then .error .missingValue else .ok words
  | word :: rest =>
    let plain : Except UsageFault GatheredWords :=
      if words.plain.length < level.places then
        if waiting.isSome then .error .missingValue
        else gather level { words with plain := words.plain ++ [word] } none trailing rest
      else .error (level.plainFault trailing word)
    if trailing then plain
    else if waiting.isNone && level.commands.contains word then
      .ok { words with rest := some (word, rest) }
    else if word = "--" then gather level words waiting true rest
    else
      match optionWord? word with
      | some (name, value) =>
        if level.options.contains name then
          if waiting.isSome then .error .missingValue
          else
            match value with
            | some value => do gather level (← words.add name value) none false rest
            | none => gather level words (some name) false rest
        else
          match level.flagFault name value with
          | .helpAsked => .error (if waiting.isSome then .missingValue else .helpAsked)
          | .versionAsked => .error (if waiting.isSome then .missingValue else .versionAsked)
          | fault => .error fault
      | none =>
        if word.startsWith "-" && word != "-" then
          match level.letterFault word.toList[1]? with
          | .unknownArgument => .error .unknownArgument
          | fault => .error (if waiting.isSome then .missingValue else fault)
        else
          match waiting with
          | some name => do gather level (← words.add name word) none false rest
          | none => plain

end WordLevel

namespace CommandLine

/-! ## The levels of this program -/

def settingsOption : String := "config"

def topLevel : WordLevel where
  options := [settingsOption]
  commands := ["validate", "run", "help"]
  hasVersion := true

def validateLevel : WordLevel where
  options := [settingsOption]
  places := 1

def runLevel : WordLevel where
  options := [settingsOption, "event", "scope", "payload", "name"]
  places := 1

/-- The file of settings that words name, or else the environment; no name is empty. -/
def settingsIn (environment : Option String) (words : GatheredWords) :
    Except UsageFault (Option String) :=
  let path := (words.value? settingsOption).orElse fun _ => environment
  if path = some "" then .error .missingValue else .ok path

/-- The file that a command is about; no name is empty. -/
def fileIn (words : GatheredWords) : Except UsageFault String :=
  match words.plain with
  | [] => .error .missingArgument
  | file :: _ => if file.isEmpty then .error .missingValue else .ok file

def readCommand (name : String) (words : GatheredWords) : Except UsageFault Command := do
  let file ← fileIn words
  if name = "validate" then pure (.validate file)
  else
    match words.value? "event" with
    | none => throw .missingArgument
    | some event =>
      pure (.run file event ((words.value? "scope").getD "") (words.value? "payload")
        (words.value? "name"))

def helpFault : List String → UsageFault
  | [] => .helpAsked
  | [word] => if topLevel.commands.contains word then .helpAsked else .unknownCommand
  | _ => .unknownCommand

/-- What the words of a command line ask for; `environment` is the file of settings that
the environment names. What is said after the command counts more than what is said
before. -/
def parse (environment : Option String) (arguments : List String) :
    Except UsageFault CommandLine := do
  let words ← topLevel.gather {} none false arguments
  match words.rest with
  | none =>
    let path ← settingsIn environment words
    throw (if path.isNone then .nothingAsked else .noCommand)
  | some (name, rest) =>
    if name = "help" then throw (helpFault rest)
    let level := if name = "validate" then validateLevel else runLevel
    let inner ← level.gather {} none false rest
    let innerPath ← settingsIn environment inner
    let command ← readCommand name inner
    let outerPath ← settingsIn environment words
    let path := if (inner.value? settingsOption).isSome then innerPath else outerPath
    pure ⟨path, command⟩

end CommandLine

end ScriptHooks

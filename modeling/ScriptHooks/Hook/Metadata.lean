/-
ScriptHooks.Hook.Metadata — what a script says about itself.

The description is versioned; only version 1 exists, and a script that does not
say is taken to mean it. It names the script, the events that it is for, whether it
is to be queued, and the parameters that operators may set for it.

`decode` reads a description without checking; an unknown field is skipped, and what
may be left out has a default. `ScriptMetadata.ofJson` reads a description and checks
it: the value must be an object, the version a known one, the identity and the title
not void, the events known and at least one, and the parameters named, each its own.
Of several problems the first in this order is reported (`problem`).

A version may be any value. A text is kept as it is, and anything else is written out.
-/
import ScriptHooks.Hook.Event
import ScriptHooks.Script.Issue

namespace ScriptHooks

open Json Json.Node

/-- The only version of the description. -/
def supportedApiVersion : Nat := 1

/-- A parameter that operators may set for a script. -/
structure ParameterField where
  name : String
  description : String := ""
  fieldType : String := "string"
  required : Bool := false
  deriving Repr, DecidableEq

namespace ParameterField

def toJson (field : ParameterField) : Json :=
  .ofEntries [("name", .string field.name), ("description", .string field.description),
    ("type", .string field.fieldType), ("required", .bool field.required)]

/-- A parameter; only its name must be there. -/
def decode : Decoder ParameterField :=
  record (title "ParameterField")
    [Node.required "name" string fun v r => { r with name := v },
      withDefault "description" [] string fun v r => { r with description := v },
      withDefault "type" [] string fun v r => { r with fieldType := v },
      withDefault "required" [] bool fun v r => { r with required := v }] { name := "" }

end ParameterField

/-- What a script says about itself. -/
structure ScriptMetadata where
  apiVersion : Nat := supportedApiVersion
  id : String := ""
  displayName : String := ""
  version : Option String := none
  /-- The script runs in a queue and not in the chain. -/
  isAsync : Bool := false
  events : List String := []
  parameters : List ParameterField := []
  deriving Repr, DecidableEq

namespace ScriptMetadata

def toJson (metadata : ScriptMetadata) : Json :=
  .ofEntries [("apiVersion", .ofNat metadata.apiVersion), ("id", .string metadata.id),
    ("displayName", .string metadata.displayName),
    ("version", .orNull (metadata.version.map .string)),
    ("async", .bool metadata.isAsync), ("events", .strings metadata.events),
    ("parameters", .ofEntries [("fields", .array (metadata.parameters.map (·.toJson)))])]

/-- A version: a text stays, anything else but `null` is written out. -/
def decodeVersion (node : Node) : Except Complaint (Option String) := do
  match ← node.toJson with
  | .null => pure none
  | .string text => pure (some text)
  | other => pure (some other.compact)

def decodeParameters : Decoder (List ParameterField) :=
  record (title "ParameterSchema")
    [withDefault "fields" [] (list ParameterField.decode) fun v _ => v] []

/-- A description, read without checks. -/
def decode : Decoder ScriptMetadata :=
  record (title "ScriptMetadata")
    [withDefault "apiVersion" [] (unsigned "u32" 32) fun v r => { r with apiVersion := v },
      required "id" string fun v r => { r with id := v },
      required "displayName" string fun v r => { r with displayName := v },
      withDefault "version" [] decodeVersion fun v r => { r with version := v },
      withDefault "async" [] bool fun v r => { r with isAsync := v },
      required "events" (list string) fun v r => { r with events := v },
      withDefault "parameters" [] decodeParameters fun v r => { r with parameters := v }] {}

/-- Why a description is refused. -/
inductive Problem
  | notAnObject (found : String)
  | malformed (complaint : Complaint)
  | unsupportedVersion (version : Nat)
  | noId
  | noDisplayName
  | noEvents
  | unknownEvent (name : String)
  | unnamedParameter
  | repeatedParameter (name : String)

def Problem.message : Problem → String
  | notAnObject found => "getScriptMetadata() must return an object, got " ++ found
  | malformed complaint => "invalid script metadata: " ++ complaint.message
  | unsupportedVersion version =>
    "unsupported metadata apiVersion " ++ toString version ++ " (supported: "
      ++ toString supportedApiVersion ++ ")"
  | noId => "metadata 'id' must not be empty"
  | noDisplayName => "metadata 'displayName' must not be empty"
  | noEvents => "metadata 'events' must list at least one event"
  | unknownEvent name => "unknown event '" ++ name ++ "' in metadata"
  | unnamedParameter => "parameter field without a name"
  | repeatedParameter name => "duplicate parameter field '" ++ name ++ "'"

/-- Whether nothing but blanks stands in the text. -/
def isVoid (text : String) : Bool := text.toList.all Text.isBlank

/-- The first problem with the parameters, after those whose names are `seen`. -/
def parameterProblem (seen : List String) : List ParameterField → Option Problem
  | [] => none
  | field :: fields =>
    if isVoid field.name then some .unnamedParameter
    else if seen.contains field.name then some (.repeatedParameter field.name)
    else parameterProblem (field.name :: seen) fields

def problem (metadata : ScriptMetadata) : Option Problem :=
  if metadata.apiVersion ≠ supportedApiVersion then some (.unsupportedVersion metadata.apiVersion)
  else if isVoid metadata.id then some .noId
  else if isVoid metadata.displayName then some .noDisplayName
  else if metadata.events.isEmpty then some .noEvents
  else
    match metadata.events.find? fun event => (HookEvent.ofName? event).isNone with
    | some event => some (.unknownEvent event)
    | none => parameterProblem [] metadata.parameters

/-- What kind of value stands where a description was expected. -/
def kindName : Json → String
  | .null => "null"
  | .bool _ => "boolean"
  | .number _ => "number"
  | .string _ => "string"
  | .array _ => "array"
  | .object _ => "object"

def ofJson (value : Json) : Except Problem ScriptMetadata :=
  match value with
  | .object _ =>
    match decode (Node.ofJson value) with
    | .error complaint => .error (.malformed complaint)
    | .ok metadata =>
      match metadata.problem with
      | some problem => .error problem
      | none => .ok metadata
  | other => .error (.notAnObject (kindName other))

/-- The events without repetition, in the order of their names. -/
def subscribedEvents (metadata : ScriptMetadata) : List String :=
  (orderFields (metadata.events.map fun event => (event, ()))).map (·.1)

def neededParameters (metadata : ScriptMetadata) : List ParameterField :=
  metadata.parameters.filter (·.required)

end ScriptMetadata

end ScriptHooks

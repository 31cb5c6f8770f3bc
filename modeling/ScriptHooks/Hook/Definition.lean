/-
ScriptHooks.Hook.Definition — scripts as authors submit them and as they are kept.

A draft is what an author hands in: where, under which name, the source, and whether it
is switched on. A definition has besides what the checks found out about it: the digest
of its source, and what the script says about itself. The events and the kind of the
script are repeated beside the description, as they are what it is looked up by.

Definitions are kept as JSON, field by field.
-/
import ScriptHooks.Digest.Sha256
import ScriptHooks.Hook.Metadata
import ScriptHooks.Hook.ScopePath

namespace ScriptHooks

open Json Json.Node

/-- Named values: the globals of one run, or the values of parameters. In the order
of the names. -/
abbrev Payload := List (String × Json)

def contentHash (source : String) : String := Digest.sha256Hex source

/-- A script as its author submits it. -/
structure ScriptDraft where
  scope : ScopePath
  name : String
  source : String
  enabled : Bool := true

/-- A script as it is kept. -/
structure ScriptDefinition where
  scope : ScopePath
  name : String
  source : String
  contentHash : String
  enabled : Bool
  asyncCapable : Bool
  /-- The names of events, without repetition and in order. -/
  subscribedEvents : List String
  metadata : ScriptMetadata
  deriving DecidableEq

def ScopePath.invalidMessage (raw : String) : String := "Invalid scope path: " ++ Text.quoted raw

def ScopePath.decode : Decoder ScopePath :=
  refine string fun raw =>
    match ScopePath.parse? raw with
    | some scope => .ok scope
    | none => .error (invalidMessage raw)

namespace ScriptId

def toJson (id : ScriptId) : Json :=
  .ofEntries [("scope", .string id.scope.text), ("name", .string id.name)]

def decode : Decoder ScriptId :=
  record (title "ScriptId")
    [required "scope" ScopePath.decode fun v r => { r with scope := v },
      required "name" string fun v r => { r with name := v }] ⟨.root, ""⟩

end ScriptId

namespace ScriptDefinition

def id (definition : ScriptDefinition) : ScriptId := ⟨definition.scope, definition.name⟩

def listensTo (definition : ScriptDefinition) (event : String) : Bool :=
  definition.subscribedEvents.contains event

/-- Texts as a set: without repetition, in order. -/
def textSet (texts : List String) : List String :=
  (orderFields (texts.map fun text => (text, ()))).map (·.1)

def toJson (definition : ScriptDefinition) : Json :=
  .ofEntries [("scope", .string definition.scope.text), ("name", .string definition.name),
    ("source", .string definition.source), ("contentHash", .string definition.contentHash),
    ("enabled", .bool definition.enabled), ("asyncCapable", .bool definition.asyncCapable),
    ("subscribedEvents", .strings definition.subscribedEvents),
    ("metadata", definition.metadata.toJson)]

/-- A definition; every field must be there. -/
def decode : Decoder ScriptDefinition :=
  record (title "ScriptDefinition")
    [required "scope" ScopePath.decode fun v r => { r with scope := v },
      required "name" string fun v r => { r with name := v },
      required "source" string fun v r => { r with source := v },
      required "contentHash" string fun v r => { r with contentHash := v },
      required "enabled" bool fun v r => { r with enabled := v },
      required "asyncCapable" bool fun v r => { r with asyncCapable := v },
      required "subscribedEvents" (list string) fun v r =>
        { r with subscribedEvents := textSet v },
      required "metadata" ScriptMetadata.decode fun v r => { r with metadata := v }]
    ⟨.root, "", "", "", false, false, [], {}⟩

end ScriptDefinition

end ScriptHooks

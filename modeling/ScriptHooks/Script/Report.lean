/-
ScriptHooks.Script.Report — issues and symbols in JSON.

What a front end shows: the issues of a rejected script with their positions, and the
symbols of an accepted one as a tree. Lists without members are left out.
-/
import ScriptHooks.Json.Value
import ScriptHooks.Script.Issue
import ScriptHooks.Script.Symbols

namespace ScriptHooks.Script

def Issue.toJson (issue : Issue) : Json :=
  .ofEntries [("kind", .string issue.kind.name), ("message", .string issue.message),
    ("line", .ofNat issue.position.line), ("column", .ofNat issue.position.column)]

def ValidationError.toJson (error : ValidationError) : Json :=
  .array (error.issues.map Issue.toJson)

/-- An entry with a list of texts; none if the list is empty. -/
def textsEntry (key : String) (texts : List String) : List (String × Json) :=
  if texts.isEmpty then [] else [(key, .strings texts)]

namespace SymbolNode

mutual

/-- A node and all below it in JSON; what it does not have is left out. -/
def toJson : SymbolNode → Json
  | mk kind name line declarations references children =>
    .ofEntries ([("kind", .string kind.name), ("line", .ofNat line)]
      ++ (name.map fun name => ("name", Json.string name)).toList
      ++ textsEntry "declarations" declarations
      ++ textsEntry "references" references
      ++ childrenEntry children)

/-- The entry of the nodes below; none if there are none. -/
def childrenEntry : List SymbolNode → List (String × Json)
  | [] => []
  | child :: children => [("children", .array (toJson child :: allToJson children))]

def allToJson : List SymbolNode → List Json
  | [] => []
  | node :: nodes => toJson node :: allToJson nodes

end

end SymbolNode

end ScriptHooks.Script

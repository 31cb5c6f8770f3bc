/-
ScriptHooks.Json.Document — JSON values together with where they stand.

A `Node` is a JSON value whose parts know the places that a complaint about them
names. Reading text gives a node even if the text is faulty: reading stops at
the fault, which then stands in the tree as `broken` (or as the ending of its
container), so that whoever walks the tree in order meets a wrong type before it
meets a fault further on.

This splits one pass in two without changing which complaint comes out. Reading
does not know what the text should say, and decoding does not know how text is read;
both go through the text in the same order, and the first complaint is the one that a
single pass would have made.

`Node.ofJson` makes a node of a value that has no text; its complaints name no place.
`Node.toJson` gives back the value, with equal keys resolved in favour of the last.
-/
import ScriptHooks.Json.Complaint

namespace ScriptHooks.Json

/-- A value that has no parts. -/
inductive Scalar
  | null
  | bool (value : Bool)
  | number (value : JsonNumber)
  | string (value : String)

/-- How a container ends: at its bracket, with the place after it, or at a fault. -/
inductive Ending
  | closed (after : Option Place)
  | broken (complaint : Complaint)

/-- A JSON value with its places. -/
inductive Node
  /-- A value without parts, and the place after it. -/
  | scalar (value : Scalar) (after : Option Place)
  /-- A list: the place before it, the items, each after the place of its first
  byte, and the ending. -/
  | array (before : Option Place) (items : List (Option Place × Node)) (ending : Ending)
  /-- An object: the place before it, the entries, each with its key and the place
  where reading stands after the key, and the ending. -/
  | object (before : Option Place) (entries : List (String × Option Place × Node))
      (ending : Ending)
  /-- The value whose reading met a fault. -/
  | broken (complaint : Complaint)

mutual

/-- The node of a value that does not come from text. -/
def Node.ofJson : Json → Node
  | .null => .scalar .null none
  | .bool b => .scalar (.bool b) none
  | .number n => .scalar (.number n) none
  | .string s => .scalar (.string s) none
  | .array items => .array none (Node.ofItems items) (.closed none)
  | .object fields => .object none (Node.ofFields fields) (.closed none)

def Node.ofItems : List Json → List (Option Place × Node)
  | [] => []
  | item :: items => (none, Node.ofJson item) :: Node.ofItems items

def Node.ofFields : List (String × Json) → List (String × Option Place × Node)
  | [] => []
  | (key, value) :: fields => (key, none, Node.ofJson value) :: Node.ofFields fields

end

def Ending.check : Ending → Except Complaint Unit
  | .closed _ => .ok ()
  | .broken complaint => .error complaint

/-- The place after the container, if it is closed. -/
def Ending.after : Ending → Option Place
  | .closed after => after
  | .broken complaint => complaint.place

def Scalar.toJson : Scalar → Json
  | .null => .null
  | .bool b => .bool b
  | .number n => .number n
  | .string s => .string s

mutual

/-- The value of a node, or the first fault in it. Of equal keys the last counts. -/
def Node.toJson : Node → Except Complaint Json
  | .scalar value _ => .ok value.toJson
  | .array _ items ending => do
    let values ← Node.itemValues items
    ending.check
    pure (.array values)
  | .object _ entries ending => do
    let values ← Node.entryValues entries
    ending.check
    pure (Json.ofEntries values)
  | .broken complaint => .error complaint

def Node.itemValues : List (Option Place × Node) → Except Complaint (List Json)
  | [] => .ok []
  | (_, item) :: items => do
    let value ← item.toJson
    let values ← Node.itemValues items
    pure (value :: values)

def Node.entryValues : List (String × Option Place × Node) →
    Except Complaint (List (String × Json))
  | [] => .ok []
  | (key, _, entry) :: entries => do
    let value ← entry.toJson
    let values ← Node.entryValues entries
    pure ((key, value) :: values)

end

end ScriptHooks.Json

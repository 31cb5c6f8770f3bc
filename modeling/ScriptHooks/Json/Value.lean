/-
ScriptHooks.Json.Value — JSON values.

Numbers keep the difference between an integer that fits 64 bits (with or
without a sign) and everything else, which is a double. An integer carries the proof
that it fits, so none of any other size can be written down.

Objects are kept in the increasing order of their keys; `insertField` is the only way
an entry gets in, and a second entry for a key replaces the first. Two objects with
the same entries are therefore equal, in whatever order they were built. Lists of
entries that are not in this order are values too; `Json.InOrder` of
`ScriptHooks.Proofs.Json.OrderedValues` says of a value that it has none of them.
-/
import ScriptHooks.Numeric.Shortest

namespace ScriptHooks

/-- The integers that a JSON number keeps exactly: 64 bits, signed or not. -/
def FitsWord (n : Int) : Prop := -0x8000000000000000 ≤ n ∧ n < 0x10000000000000000

instance (n : Int) : Decidable (FitsWord n) := by unfold FitsWord; infer_instance

/-- A JSON number. -/
inductive JsonNumber
  | int (value : Int) (fits : FitsWord value)
  | float (value : Float)

/-- A JSON value. -/
inductive Json
  | null
  | bool (value : Bool)
  | number (value : JsonNumber)
  | string (value : String)
  | array (items : List Json)
  | object (fields : List (String × Json))

instance : Inhabited Json := ⟨.null⟩

namespace Json

/-- The number for an integer: exact where it fits, else the nearest double. -/
def ofInt (n : Int) : Json :=
  if h : FitsWord n then .number (.int n h) else .number (.float (Float.ofInt n))

/-- The number for a count; counts beyond 64 bits do not arise. -/
def ofNat (n : Nat) : Json := ofInt n

/-- The number for a double; JSON has none for the infinities and NaN. -/
def ofFloat (x : Float) : Json :=
  if Numeric.isFinite x then .number (.float x) else .null

/-- Put an entry at its place in the order of keys, replacing an equal key. -/
def insertField (key : String) (value : α) : List (String × α) → List (String × α)
  | [] => [(key, value)]
  | (k, v) :: rest =>
    if key = k then (key, value) :: rest
    else if key < k then (key, value) :: (k, v) :: rest
    else (k, v) :: insertField key value rest

/-- Entries put in one after the other: in key order, the last of equal keys. -/
def orderFields (entries : List (String × α)) : List (String × α) :=
  entries.foldl (fun fields entry => insertField entry.1 entry.2 fields) []

def lookup (key : String) (fields : List (String × α)) : Option α :=
  (fields.find? fun entry => entry.1 == key).map (·.2)

def ofEntries (entries : List (String × Json)) : Json := .object (orderFields entries)

/-- The entry of an object; nothing for other values. -/
def get? (key : String) : Json → Option Json
  | .object fields => lookup key fields
  | _ => none

def strings (items : List String) : Json := .array (items.map .string)

/-- The value, or `null` where there is none. -/
def orNull : Option Json → Json
  | some value => value
  | none => .null

end Json

end ScriptHooks

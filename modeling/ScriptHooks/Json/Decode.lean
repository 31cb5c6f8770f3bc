/-
ScriptHooks.Json.Decode — typed readings of a node.

A decoder walks a node in the order of its text and complains of the first thing
wrong. All complaints are worded alike for every type: what was found, and what was
expected.

Records are read by one function, `record`, from the rules of their fields. The type of
a record says only which fields it has, under which names, which may be absent, and how
each is read and stored; every decoder of the project for a record is such a list.
Unknown entries are skipped, though they must be well formed. A field may have several
names, and to give it twice is a fault even under different ones. A field without a
default must be there. A record may also be written as the list of its fields in order.

That what is written for a record is read back as that record is proved once for all
lists of rules, in `ScriptHooks.Proofs.Json.WrittenRecords`.
-/
import ScriptHooks.Json.Reader

namespace ScriptHooks.Json

abbrev Decoder (α : Type) := Node → Except Complaint α

def JsonNumber.found : JsonNumber → Found
  | .int n _ => .int n
  | .float x => .float x

def Scalar.found : Scalar → Found
  | .null => .null
  | .bool b => .bool b
  | .number (.int n _) => .int n
  | .number (.float x) => .float x
  | .string s => .string s

namespace Node

def mistyped (expected : String) : Node → Complaint
  | .scalar value after => ⟨.invalidType value.found expected, after⟩
  | .array before _ _ => ⟨.invalidType .sequence expected, before⟩
  | .object before _ _ => ⟨.invalidType .map expected, before⟩
  | .broken complaint => complaint

def bool : Decoder Bool
  | .scalar (.bool b) _ => .ok b
  | node => .error (node.mistyped "a boolean")

def string : Decoder String
  | .scalar (.string s) _ => .ok s
  | node => .error (node.mistyped "a string")

/-- An integer between two bounds, under the name of its type. -/
def integer (name : String) (low high : Int) : Decoder Int
  | .scalar (.number (.int n _)) after =>
    if low ≤ n ∧ n ≤ high then .ok n else .error ⟨.invalidValue (.int n) name, after⟩
  | node => .error (node.mistyped name)

def unsigned (name : String) (bits : Nat) (node : Node) : Except Complaint Nat :=
  (integer name 0 (Nat.pow 2 bits - 1) node).map Int.toNat

/-- Nothing where `null` stands, else a value. -/
def optional (decode : Decoder α) : Decoder (Option α)
  | .scalar .null _ => .ok none
  | node => (decode node).map some

def items (decode : Decoder α) : List (Option Place × Node) → Except Complaint (List α)
  | [] => .ok []
  | (_, item) :: rest => do
    let value ← decode item
    let values ← items decode rest
    pure (value :: values)

def list (decode : Decoder α) : Decoder (List α)
  | .array _ nodes ending => do
    let values ← items decode nodes
    ending.check
    pure values
  | node => .error (node.mistyped "a sequence")

def entries (decode : Decoder α) :
    List (String × Option Place × Node) → Except Complaint (List (String × α))
  | [] => .ok []
  | (key, _, entry) :: rest => do
    let value ← decode entry
    let values ← entries decode rest
    pure ((key, value) :: values)

/-- A map from texts, in key order; of equal keys the last counts. -/
def map (decode : Decoder α) : Decoder (List (String × α))
  | .object _ nodes ending => do
    let values ← entries decode nodes
    ending.check
    pure (orderFields values)
  | node => .error (node.mistyped "a map")

/-- A decoded value that must pass a further check; the complaint about it names
no place of its own. -/
def refine (decode : Decoder α) (check : α → Except String β) (node : Node) :
    Except Complaint β := do
  let value ← decode node
  match check value with
  | .ok result => .ok result
  | .error text => .error ⟨.custom text, none⟩

/-! ## Records -/

/-- One field of a record of type `ρ`: its names, the first of which complaints
use, whether it may be absent, and how its node is stored. -/
structure FieldRule (ρ : Type) where
  name : String
  aliases : List String
  defaulted : Bool
  store : Node → ρ → Except Complaint ρ

def FieldRule.answersTo (field : FieldRule ρ) (key : String) : Bool :=
  field.name == key || field.aliases.contains key

def locate (place : Option Place) (complaint : Complaint) : Complaint :=
  match complaint.place with
  | some _ => complaint
  | none => { complaint with place := place }

/-- The fields of a record from the entries of an object; `seen` names the fields
already stored. -/
def storeEntries (fields : List (FieldRule ρ)) (seen : List String) (record : ρ) :
    List (String × Option Place × Node) → Except Complaint (ρ × List String)
  | [] => .ok (record, seen)
  | (key, place, entry) :: rest =>
    match fields.find? (·.answersTo key) with
    | none => do
      let _ ← entry.toJson
      storeEntries fields seen record rest
    | some field =>
      if seen.contains field.name then .error ⟨.duplicateField field.name, place⟩
      else do
        let record ← field.store entry record
        storeEntries fields (field.name :: seen) record rest

/-- The fields of a record from a list, in their order, and the items left over. -/
def storeItems (expected : String) (after : Option Place) (index : Nat) (record : ρ) :
    List (FieldRule ρ) → List (Option Place × Node) →
      Except Complaint (ρ × List (Option Place × Node))
  | [], rest => .ok (record, rest)
  | field :: fields, [] =>
    if field.defaulted then storeItems expected after (index + 1) record fields []
    else .error ⟨.invalidLength index expected, after⟩
  | field :: fields, (_, item) :: rest => do
    let record ← field.store item record
    storeItems expected after (index + 1) record fields rest

/-- The complaint about items beyond the last field. -/
def tooMany (length : Nat) (place : Option Place) : Complaint :=
  match place with
  | none => ⟨.invalidLength length "fewer elements in array", none⟩
  | some _ => ⟨.fault .trailingCharacters, place⟩

/-- A record with the given title. `blank` holds the defaults; a field that has
none is overwritten or missed. -/
def record (title : String) (fields : List (FieldRule ρ)) (blank : ρ) : Decoder ρ
  | .object _ nodes ending => do
    let (value, seen) ←
      match storeEntries fields [] blank nodes with
      | .ok result => .ok result
      | .error complaint => .error (locate ending.after complaint)
    ending.check
    match fields.find? fun field => !field.defaulted && !seen.contains field.name with
    | some field => .error ⟨.missingField field.name, ending.after⟩
    | none => .ok value
  | .array _ nodes ending => do
    let expected := title ++ " with " ++ toString fields.length ++ " element"
      ++ (if fields.length = 1 then "" else "s")
    let (value, extra) ← storeItems expected ending.after 0 blank fields nodes
    match extra with
    | [] => do
      ending.check
      pure value
    | (place, _) :: _ => .error (tooMany nodes.length place)
  | node => .error (node.mistyped title)

/-- The title of a record type, as complaints use it. -/
def title (name : String) : String := "struct " ++ name

/-- A field that must be there. -/
def required (name : String) (decode : Decoder α) (set : α → ρ → ρ) : FieldRule ρ :=
  ⟨name, [], false, fun node record => (decode node).map fun value => set value record⟩

/-- A field that may be absent, with further names. -/
def withDefault (name : String) (aliases : List String) (decode : Decoder α)
    (set : α → ρ → ρ) : FieldRule ρ :=
  ⟨name, aliases, true, fun node record => (decode node).map fun value => set value record⟩

/-- One of some names, written as a text or as an object whose only key it is and
whose value is `null`. -/
def variant (variants : List (String × α)) : Decoder α
  | .scalar (.string name) after =>
    match lookup name variants with
    | some value => .ok value
    | none => .error ⟨.unknownVariant name (variants.map (·.1)), after⟩
  | .object before [] _ => .error ⟨.invalidValue .map "map with a single key", before⟩
  | .object before [(name, _, content)] ending =>
    match lookup name variants with
    | some value =>
      match content with
      | .scalar .null _ => do
        ending.check
        pure value
      | other => .error (other.mistyped "unit")
    | none => .error ⟨.unknownVariant name (variants.map (·.1)), before⟩
  | .object before (_ :: _ :: _) _ => .error ⟨.invalidValue .map "map with a single key", before⟩
  | .scalar value none => .error ⟨.invalidType value.found "string or map", none⟩
  | .array none _ _ => .error ⟨.invalidType .sequence "string or map", none⟩
  | .scalar _ (some place) => .error ⟨.fault .expectedValue, some place⟩
  | .array (some place) _ _ => .error ⟨.fault .expectedValue, some place⟩
  | .broken complaint => .error complaint

end Node

end ScriptHooks.Json

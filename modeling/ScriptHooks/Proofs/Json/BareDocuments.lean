/-
ScriptHooks.Proofs.Json.BareDocuments — what a document means does not depend on its layout.

Two texts of the same document differ in the places of their parts. `Node.bare` leaves the places
out, and a decoder finds the same value without them (`Node.IgnoresPlaces`): places are only named
in complaints. There is one lemma for each form of decoder, so that it holds of a record if it holds
of its fields. Whether a decoder succeeds is part of what is the same, which complaint it makes is
not; so both sides are compared by what they give, if anything (`toOption`).

Records can be read from objects and from lists, and what is missing behind a list is complained of
with a place. That is the only case in which places take part in more than a complaint about the
value at hand, and `storeItems_bare` is for any two places.

What a text means to whoever decodes it is then its bare document, if it is a JSON text with nothing
behind it (`bareDocument`, `decodeText_toOption`). A text that breaks off has nodes too, with the
complaint as their ending, and a decoder may be done before it gets there; `Ending.bare` keeps
whether there is one.
-/
import ScriptHooks.Json.Decode

namespace ScriptHooks.Json

def Ending.bare : Ending → Ending
  | .closed _ => .closed none
  | .broken complaint => .broken ⟨complaint.cause, none⟩

mutual

/-- The document without its places. -/
def Node.bare : Node → Node
  | .scalar value _ => .scalar value none
  | .array _ items ending => .array none (bareItems items) ending.bare
  | .object _ entries ending => .object none (bareEntries entries) ending.bare
  | .broken complaint => .broken ⟨complaint.cause, none⟩

def Node.bareItems : List (Option Place × Node) → List (Option Place × Node)
  | [] => []
  | (_, item) :: items => (none, item.bare) :: bareItems items

def Node.bareEntries :
    List (String × Option Place × Node) → List (String × Option Place × Node)
  | [] => []
  | (key, _, entry) :: entries => (key, none, entry.bare) :: bareEntries entries

end

theorem bind_eq_ok_iff {x : Except ε α} {f : α → Except ε β} {b : β} :
    (x >>= f) = .ok b ↔ ∃ a, x = .ok a ∧ f a = .ok b := by
  cases x <;> simp [bind, Except.bind]

/-- What an outcome gives. -/
theorem toOption_eq_some_iff {x : Except ε α} {a : α} : x.toOption = some a ↔ x = .ok a := by
  cases x <;> simp [Except.toOption]

/-- What comes of two steps, if anything. -/
theorem toOption_bind (x : Except ε α) (f : α → Except ε β) :
    (x >>= f).toOption = x.toOption.bind fun a => (f a).toOption := by
  cases x <;> rfl

theorem toOption_map (x : Except ε α) (f : α → β) :
    (x.map f).toOption = x.toOption.map f := by
  cases x <;> rfl

/-- Whether a document ends well does not depend on places. -/
theorem Ending.check_bare (ending : Ending) :
    ending.bare.check.toOption = ending.check.toOption := by
  cases ending <;> rfl

namespace Node

/-- The decoder finds the same value in a document whatever the places in it. -/
def IgnoresPlaces (decode : Decoder α) : Prop :=
  ∀ node : Node, (decode node.bare).toOption = (decode node).toOption

mutual

/-- Whether a document has a value, and which, does not depend on its places. -/
theorem toJson_ignoresPlaces (node : Node) : node.bare.toJson.toOption = node.toJson.toOption := by
  cases node with
  | scalar value after => rfl
  | broken complaint => rfl
  | array before items ending =>
    simp only [bare, toJson, toOption_bind, itemValues_ignoresPlaces items, ending.check_bare]
  | object before entries ending =>
    simp only [bare, toJson, toOption_bind, entryValues_ignoresPlaces entries, ending.check_bare]

/-- The values of items. -/
theorem itemValues_ignoresPlaces (items : List (Option Place × Node)) :
    (itemValues (bareItems items)).toOption = (itemValues items).toOption := by
  cases items with
  | nil => rfl
  | cons item items =>
    simp only [bareItems, itemValues, toOption_bind, toJson_ignoresPlaces item.2,
      itemValues_ignoresPlaces items]

/-- The values of entries. -/
theorem entryValues_ignoresPlaces (entries : List (String × Option Place × Node)) :
    (entryValues (bareEntries entries)).toOption = (entryValues entries).toOption := by
  cases entries with
  | nil => rfl
  | cons entry entries =>
    simp only [bareEntries, entryValues, toOption_bind, toJson_ignoresPlaces entry.2.2,
      entryValues_ignoresPlaces entries]

end

namespace IgnoresPlaces

theorem string : IgnoresPlaces string := by
  intro node
  rcases node with ⟨_ | _ | _ | _, _⟩ | _ | _ | _ <;> rfl

theorem integer (name : String) (low high : Int) : IgnoresPlaces (integer name low high) := by
  intro node
  rcases node with ⟨_ | _ | ⟨n, fits⟩ | _ | _, _⟩ | _ | _ | _
  case scalar.number.int =>
    unfold bare Node.integer
    dsimp only
    split <;> rfl
  all_goals rfl

theorem unsigned (name : String) (bits : Nat) : IgnoresPlaces (unsigned name bits) := by
  intro node
  unfold Node.unsigned
  rw [toOption_map, toOption_map, integer name 0 _ node]

/-- What may be absent. -/
theorem optional {decode : Decoder α} (h : IgnoresPlaces decode) :
    IgnoresPlaces (optional decode) := by
  intro node
  have hsome : ((decode node.bare).map some).toOption = ((decode node).map some).toOption := by
    rw [toOption_map, toOption_map, h node]
  rcases node with ⟨_ | _ | _ | _, _⟩ | _ | _ | _
  case scalar.null => rfl
  all_goals exact hsome

theorem items {decode : Decoder α} (h : IgnoresPlaces decode)
    (nodes : List (Option Place × Node)) :
    (items decode (bareItems nodes)).toOption = (items decode nodes).toOption := by
  induction nodes with
  | nil => rfl
  | cons item nodes ih =>
    simp only [bareItems, Node.items, toOption_bind, h item.2, ih]

/-- A list, if its items are decoded so. -/
theorem list {decode : Decoder α} (h : IgnoresPlaces decode) : IgnoresPlaces (list decode) := by
  intro node
  cases node with
  | array before nodes ending =>
    simp only [bare, Node.list, toOption_bind, h.items nodes, ending.check_bare]
  | scalar | object | broken => rfl

end IgnoresPlaces

/-! ## Records -/

/-- The field is stored the same whatever the places. -/
def FieldRule.IgnoresPlaces (field : FieldRule ρ) : Prop :=
  ∀ (node : Node) (record : ρ),
    (field.store node.bare record).toOption = (field.store node record).toOption

/-- A field with a default, if its value is decoded so. -/
theorem FieldRule.IgnoresPlaces.withDefault {decode : Decoder α} (h : Node.IgnoresPlaces decode)
    (name : String) (aliases : List String) (set : α → ρ → ρ) :
    (withDefault name aliases decode set).IgnoresPlaces := by
  intro node record
  unfold Node.withDefault
  rw [toOption_map, toOption_map, h node]

/-- A record from an object, without the complaint if there is none. -/
theorem record_object_toOption (title : String) (fields : List (FieldRule ρ)) (blank : ρ)
    (before : Option Place) (entries : List (String × Option Place × Node)) (ending : Ending) :
    (record title fields blank (.object before entries ending)).toOption =
      (storeEntries fields [] blank entries).toOption.bind fun found =>
        ending.check.toOption.bind fun _ =>
          if ∀ field ∈ fields, field.defaulted = true ∨ field.name ∈ found.2 then some found.1
          else none := by
  rw [record]
  cases storeEntries fields [] blank entries with
  | error complaint => rfl
  | ok found =>
    cases ending.check with
    | error complaint => rfl
    | ok =>
      simp only [bind, Except.bind]
      cases hmissed :
          fields.find? fun field => !field.defaulted && !found.2.contains field.name with
      | some field =>
        have hfield := List.find?_some hmissed
        simp only [Bool.and_eq_true, Bool.not_eq_true', List.contains_eq_mem,
          decide_eq_false_iff_not] at hfield
        have hnot : ¬∀ field ∈ fields, field.defaulted = true ∨ field.name ∈ found.2 := fun hall =>
          (hall field (List.mem_of_find?_eq_some hmissed)).elim (Bool.eq_false_iff.mp hfield.1)
            hfield.2
        exact (if_neg hnot).symm
      | none =>
        have hall : ∀ field ∈ fields, field.defaulted = true ∨ field.name ∈ found.2 := by
          intro field hfield
          have hfield := List.find?_eq_none.mp hmissed field hfield
          cases hdefault : field.defaulted with
          | true => exact .inl rfl
          | false => simpa [hdefault] using hfield
        exact (if_pos hall).symm

section Records

variable {fields : List (FieldRule ρ)} (h : ∀ field ∈ fields, field.IgnoresPlaces)

include h

/-- The entries of an object, stored one after the other. -/
theorem storeEntries_bare (seen : List String) (record : ρ)
    (entries : List (String × Option Place × Node)) :
    (storeEntries fields seen record (bareEntries entries)).toOption =
      (storeEntries fields seen record entries).toOption := by
  induction entries generalizing seen record with
  | nil => rfl
  | cons entry entries ih =>
    obtain ⟨key, place, entry⟩ := entry
    rw [bareEntries, storeEntries, storeEntries]
    split
    case h_1 => simp only [toOption_bind, toJson_ignoresPlaces entry, ih]
    case h_2 field hfield =>
      split
      · rfl
      · simp only [toOption_bind, h field (List.mem_of_find?_eq_some hfield) entry record, ih]

/-- The items of a list, for the fields in their order. -/
theorem storeItems_bare (expected : String) (after after' : Option Place) (index : Nat)
    (record : ρ) (nodes : List (Option Place × Node)) :
    (storeItems expected after index record fields (bareItems nodes)).toOption =
      (storeItems expected after' index record fields nodes).toOption.map fun found =>
        (found.1, bareItems found.2) := by
  induction fields generalizing index record nodes with
  | nil => rfl
  | cons field fields ih =>
    obtain ⟨hfield, hfields⟩ := List.forall_mem_cons.mp h
    cases nodes with
    | nil =>
      rw [bareItems, storeItems, storeItems]
      split
      · exact ih hfields (index + 1) record []
      · rfl
    | cons item nodes =>
      simp only [bareItems, storeItems, toOption_bind, hfield item.2 record, ih hfields,
        Option.map_bind, Function.comp_def]

/-- A record is the same whatever the places, if its fields are. -/
theorem IgnoresPlaces.record (title : String) (blank : ρ) :
    IgnoresPlaces (record title fields blank) := by
  intro node
  cases node with
  | scalar value after => rfl
  | broken complaint => rfl
  | object before entries ending =>
    rw [bare, record_object_toOption, record_object_toOption, storeEntries_bare h,
      ending.check_bare]
  | array before nodes ending =>
    simp only [bare, Node.record, toOption_bind, storeItems_bare h _ _ ending.after,
      Option.bind_map]
    refine congrArg _ (funext fun found => ?_)
    rcases found with ⟨value, _ | ⟨item, extra⟩⟩
    · simp only [Function.comp_def, bareItems, toOption_bind, ending.check_bare]
    · simp only [Function.comp_def, bareItems, tooMany]
      split <;> rfl

end Records

end Node

/-! ## Texts -/

/-- The document that a text holds, without its places; nothing if it is no JSON text. -/
def bareDocument (text : String) : Option Node :=
  let (node, after) := Node.readPrefix (some nestingLimit) text
  (checkEnd after).toOption.map fun _ => node.bare

/-- What is decoded from a text is what is decoded from its document. -/
theorem decodeText_toOption {decode : Decoder α} (h : Node.IgnoresPlaces decode) (text : String) :
    (decodeText (some nestingLimit) decode text).toOption =
      (bareDocument text).bind fun node => (decode node).toOption := by
  unfold decodeText bareDocument
  generalize Node.readPrefix (some nestingLimit) text = read
  obtain ⟨node, after⟩ := read
  simp only [toOption_bind, ← h node]
  cases (checkEnd after).toOption with
  | none => exact Option.bind_fun_none _
  | some => exact Option.bind_fun_some _

end ScriptHooks.Json

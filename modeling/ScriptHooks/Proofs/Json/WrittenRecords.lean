/-
ScriptHooks.Proofs.Json.WrittenRecords — what is read from the JSON that is written for a value.

`Reads decode json value` says that the decoder takes the JSON for the value. The decoders of
texts, lists and maps read what is written for their values if those of the parts do, and there is
a lemma for each. A part that may be absent is written as `null`, and must not be written so if it is
there (`orNull`).

A record is written as the entries of its fields. `Filled fields entries updates` goes through the
fields in their order: each is written and puts something into the record, or is left out and has a
default. The lemmas `required`, `withDefault` and `whenPresent` are its steps, so that the proof for
a record lists its fields as its decoder does.

The entries are read in the order of their names and not in that of the fields, but storing one
field leaves the others alone, so the order makes no difference: `Filled.reads_of_perm`. What it
asks for is that the updates commute in pairs, which for a record type holds by `rfl` for each pair,
and that names are plain: no field answers to the name of another (`PlainNames`).
-/
import Mathlib
import ScriptHooks.Json.Decode
import ScriptHooks.Proofs.Json.OrderedValues

namespace ScriptHooks.Json

variable {α ρ : Type}

def Reads (decode : Decoder α) (json : Json) (value : α) : Prop :=
  decode (Node.ofJson json) = .ok value

namespace Reads

open Node

/-! ## Scalars -/

theorem string (text : String) : Reads Node.string (.string text) text := rfl

theorem bool (value : Bool) : Reads Node.bool (.bool value) value := rfl

/-- A number that fits. -/
theorem unsigned {name : String} {bits n : Nat} (hbits : bits ≤ 64) (h : n < 2 ^ bits) :
    Reads (Node.unsigned name bits) (.ofNat n) n := by
  have hbound : 2 ^ bits ≤ 2 ^ 64 := Nat.pow_le_pow_right (by decide) hbits
  have hfits : FitsWord n := by unfold FitsWord; omega
  have hlow : (0 : Int) ≤ n ∧ (n : Int) ≤ Nat.pow 2 bits - 1 := by
    have : Nat.pow 2 bits = 2 ^ bits := rfl
    omega
  rw [Reads, ofNat, ofInt, dif_pos hfits, Node.unsigned, Node.ofJson, integer, if_pos hlow]
  rfl

/-- Any value is read as itself. -/
theorem json {numbers : JsonNumber → Prop} {value : Json} (h : InOrder numbers value) :
    Reads Node.toJson value value := Node.toJson_ofJson h

/-- A name that stands for a value. -/
theorem variant {variants : List (String × α)} {name : String} {value : α}
    (h : lookup name variants = some value) :
    Reads (Node.variant variants) (.string name) value := by
  rw [Reads, Node.ofJson, Node.variant, h]

/-! ## Values that may be absent -/

/-- `null` is read as nothing. -/
theorem absent {decode : Decoder α} : Reads (optional decode) .null none := rfl

/-- What is not `null` is read as something. -/
theorem present {decode : Decoder α} {json : Json} {value : α} (hnull : json ≠ .null)
    (h : Reads decode json value) : Reads (optional decode) json (some value) := by
  have hmap : (decode (Node.ofJson json)).map some = .ok (some value) := by rw [h]; rfl
  cases json with
  | null => exact absurd rfl hnull
  | _ => exact hmap

/-- A value that may be absent, if `null` is written for no value. -/
theorem orNull {decode : Decoder α} {write : α → Json} {value : Option α}
    (hnull : ∀ v, write v ≠ .null) (h : ∀ v ∈ value, Reads decode (write v) v) :
    Reads (optional decode) (.orNull (value.map write)) value := by
  cases value with
  | none => exact absent
  | some v => exact present (hnull v) (h v rfl)

theorem optionalString (value : Option String) :
    Reads (optional Node.string) (.orNull (value.map .string)) value :=
  orNull (fun _ => nofun) fun v _ => string v

/-! ## Lists and maps -/

theorem items {decode : Decoder α} {write : α → Json} {values : List α}
    (h : ∀ value ∈ values, Reads decode (write value) value) :
    Node.items decode (Node.ofItems (values.map write)) = .ok values := by
  induction values with
  | nil => rfl
  | cons value values ih =>
    have hfirst : decode (Node.ofJson (write value)) = .ok value := h value List.mem_cons_self
    rw [List.map_cons, Node.ofItems, Node.items, hfirst,
      ih fun other hother => h other (List.mem_cons_of_mem _ hother)]
    rfl

/-- A list, from what holds of its items. -/
theorem list {decode : Decoder α} {write : α → Json} {values : List α}
    (h : ∀ value ∈ values, Reads decode (write value) value) :
    Reads (Node.list decode) (.array (values.map write)) values := by
  rw [Reads, Node.ofJson, Node.list, items h]
  rfl

theorem strings (texts : List String) : Reads (Node.list Node.string) (.strings texts) texts :=
  list fun text _ => string text

/-- Entries, from what holds of their values. -/
theorem entries {decode : Decoder α} {write : α → Json} {fields : List (String × α)}
    (h : ∀ entry ∈ fields, Reads decode (write entry.2) entry.2) :
    Node.entries decode (Node.ofFields (fields.map fun entry => (entry.1, write entry.2))) =
      .ok fields := by
  induction fields with
  | nil => rfl
  | cons entry fields ih =>
    have hfirst : decode (Node.ofJson (write entry.2)) = .ok entry.2 := h entry List.mem_cons_self
    rw [List.map_cons, Node.ofFields, Node.entries, hfirst,
      ih fun other hother => h other (List.mem_cons_of_mem _ hother)]
    rfl

/-- A map is written in the order of its keys and gets its entries in that order again. -/
theorem map {decode : Decoder α} {write : α → Json} {fields : List (String × α)}
    (hsorted : Ordered.Sorted compareText fields)
    (h : ∀ entry ∈ fields, Reads decode (write entry.2) entry.2) :
    Reads (Node.map decode) (.object (fields.map fun entry => (entry.1, write entry.2))) fields := by
  rw [Reads, Node.ofJson, Node.map, entries h]
  exact congrArg Except.ok (orderFields_eq_self hsorted)

/-- An object of any values, as a map. -/
theorem jsonMap {numbers : JsonNumber → Prop} {fields : List (String × Json)}
    (hsorted : Ordered.Sorted compareText fields)
    (h : ∀ entry ∈ fields, InOrder numbers entry.2) :
    Reads (Node.map Node.toJson) (.object fields) fields := by
  have hread : Reads (Node.map Node.toJson)
      (.object (fields.map fun entry => (entry.1, id entry.2))) fields :=
    map hsorted fun entry hentry => json (h entry hentry)
  rwa [List.map_id''] at hread
  exact fun _ => rfl

end Reads

/-! ## Entries of different keys -/

/-- Entries of different keys, put in order, are the same entries. -/
theorem orderFields_perm {entries : List (String × α)} (h : (entries.map (·.1)).Nodup) :
    (orderFields entries).Perm entries := by
  have hordered : (orderFields entries).Nodup :=
    (sorted_orderFields entries).imp fun {a b} hlt (heq : a = b) =>
      String.lt_irrefl b.1 (compareText_eq_lt_iff.mp (heq ▸ hlt))
  exact (List.perm_ext_iff_of_nodup hordered (List.Nodup.of_map _ h)).mpr fun entry =>
    mem_orderFields_iff h

/-! ## Records -/

open Node (FieldRule)

/-- The entry is that of a field, which makes the update of any record. -/
def Stored (fields : List (FieldRule ρ)) (entry : String × Json) (update : ρ → ρ) : Prop :=
  ∃ field ∈ fields, field.name = entry.1 ∧
    ∀ record, field.store (Node.ofJson entry.2) record = .ok (update record)

/-- The entries that are written for the fields of a record, and what storing each makes of the
record. A field that has a default may be left out. -/
inductive Filled : List (FieldRule ρ) → List (String × Json) → List (ρ → ρ) → Prop
  | nil : Filled [] [] []
  | given {field : FieldRule ρ} {fields : List (FieldRule ρ)} {json : Json}
      {entries : List (String × Json)} {update : ρ → ρ} {updates : List (ρ → ρ)}
      (hstore : ∀ record, field.store (Node.ofJson json) record = .ok (update record))
      (rest : Filled fields entries updates) :
      Filled (field :: fields) ((field.name, json) :: entries) (update :: updates)
  | leftOut {field : FieldRule ρ} {fields : List (FieldRule ρ)} {entries : List (String × Json)}
      {updates : List (ρ → ρ)} (hdefault : field.defaulted = true)
      (rest : Filled fields entries updates) : Filled (field :: fields) entries updates

/-- The fields go by one name each, and by different ones. -/
structure PlainNames (fields : List (FieldRule ρ)) : Prop where
  nodup : (fields.map (·.name)).Nodup
  aliases : ∀ field ∈ fields, field.aliases = []

variable {fields : List (FieldRule ρ)} {entries : List (String × Json)} {updates : List (ρ → ρ)}

/-- A field is found by its own name. -/
theorem PlainNames.find? (h : PlainNames fields) {field : FieldRule ρ} (hfield : field ∈ fields) :
    fields.find? (·.answersTo field.name) = some field := by
  obtain ⟨hnodup, haliases⟩ := h
  induction fields with
  | nil => cases hfield
  | cons first rest ih =>
    obtain ⟨hfirst, hrest⟩ := List.nodup_cons.mp hnodup
    rw [List.find?_cons]
    rcases List.mem_cons.mp hfield with rfl | hmem
    · simp [FieldRule.answersTo]
    · have hne : first.name ≠ field.name := fun heq =>
        hfirst (List.mem_map.mpr ⟨field, hmem, heq.symm⟩)
      have hanswers : first.answersTo field.name = false := by
        simp [FieldRule.answersTo, hne, haliases first List.mem_cons_self]
      rw [hanswers]
      exact ih hmem hrest fun other hother => haliases other (List.mem_cons_of_mem _ hother)

/-- Entries of different fields are stored one after the other. -/
theorem storeEntries_ofFields (h : PlainNames fields)
    (hstored : List.Forall₂ (Stored fields) entries updates) (hnodup : (entries.map (·.1)).Nodup)
    (seen : List String) (hseen : ∀ entry ∈ entries, entry.1 ∉ seen) (start : ρ) :
    Node.storeEntries fields seen start (Node.ofFields entries) =
      .ok (updates.foldl (fun record update => update record) start,
        (entries.map (·.1)).reverse ++ seen) := by
  induction hstored generalizing seen start with
  | nil => rfl
  | @cons entry update entries updates hentry _ ih =>
    obtain ⟨key, json⟩ := entry
    obtain ⟨field, hfield, rfl, hstore⟩ := hentry
    have hnew : seen.contains field.name = false := by
      simpa using hseen (field.name, json) List.mem_cons_self
    obtain ⟨hother, hnodup⟩ := List.nodup_cons.mp hnodup
    have hseen' : ∀ entry ∈ entries, entry.1 ∉ field.name :: seen := fun entry hentry =>
      List.not_mem_cons_of_ne_of_not_mem
        (fun heq => hother (List.mem_map.mpr ⟨entry, hentry, heq⟩))
        (hseen entry (List.mem_cons_of_mem _ hentry))
    rw [Node.ofFields, Node.storeEntries, h.find? hfield]
    simp only [hnew, Bool.false_eq_true, if_false, hstore, bind, Except.bind]
    rw [ih hnodup _ hseen' (update start)]
    simp

namespace Filled

/-- Each entry is stored by its field. -/
theorem stored (h : Filled fields entries updates) :
    List.Forall₂ (Stored fields) entries updates := by
  induction h with
  | nil => exact .nil
  | given hstore _ ih =>
    exact .cons ⟨_, List.mem_cons_self, rfl, hstore⟩
      (ih.imp fun _ _ ⟨field, hfield, hrest⟩ => ⟨field, List.mem_cons_of_mem _ hfield, hrest⟩)
  | leftOut _ _ ih =>
    exact ih.imp fun _ _ ⟨field, hfield, hrest⟩ => ⟨field, List.mem_cons_of_mem _ hfield, hrest⟩

/-- The names of the entries are some of those of the fields, in their order. -/
theorem sublist (h : Filled fields entries updates) :
    (entries.map (·.1)).Sublist (fields.map (·.name)) := by
  induction h with
  | nil => exact .slnil
  | given _ _ ih => exact ih.cons_cons _
  | leftOut _ _ ih => exact ih.cons _

/-- A field without an entry has a default. -/
theorem defaulted_or_mem (h : Filled fields entries updates) :
    ∀ field ∈ fields, field.defaulted = true ∨ field.name ∈ entries.map (·.1) := by
  induction h with
  | nil => nofun
  | given _ _ ih =>
    rw [List.forall_mem_cons]
    exact ⟨.inr List.mem_cons_self, fun other hother =>
      (ih other hother).imp_right (List.mem_cons_of_mem _)⟩
  | leftOut hdefault _ ih =>
    rw [List.forall_mem_cons]
    exact ⟨.inl hdefault, ih⟩

/-- A field that is always written. -/
theorem required {name : String} {decode : Decoder α} {set : α → ρ → ρ} {json : Json} {value : α}
    (h : Reads decode json value) (rest : Filled fields entries updates) :
    Filled (Node.required name decode set :: fields) ((name, json) :: entries)
      (set value :: updates) :=
  given (fun _ => congrArg (Except.map _) h) rest

/-- A field that is always written, though it has a default. -/
theorem withDefault {name : String} {decode : Decoder α} {set : α → ρ → ρ} {json : Json}
    {value : α} (h : Reads decode json value) (rest : Filled fields entries updates) :
    Filled (Node.withDefault name [] decode set :: fields) ((name, json) :: entries)
      (set value :: updates) :=
  given (fun _ => congrArg (Except.map _) h) rest

/-- A field of a text that may be absent is left out if it is. -/
theorem whenPresent {name : String} {set : Option String → ρ → ρ} (text : Option String)
    (rest : Filled fields entries updates) :
    Filled (Node.withDefault name [] (Node.optional Node.string) set :: fields)
      ((text.map fun text => (name, Json.string text)).toList ++ entries)
      ((text.map fun text => set (some text)).toList ++ updates) := by
  cases text with
  | none => exact leftOut rfl rest
  | some text => exact withDefault (.present nofun (.string text)) rest

/-- A record is read from the entries that are written for its fields, whatever the order in
which they are written and in which an object has them. -/
theorem reads_of_perm (h : Filled fields entries updates) {title : String} {blank value : ρ}
    {written : List (String × Json)} (hwritten : written.Perm entries) (hnames : PlainNames fields)
    (hcomm : updates.Pairwise Function.Commute)
    (hvalue : updates.foldl (fun record update => update record) blank = value) :
    Reads (Node.record title fields blank) (.ofEntries written) value := by
  have : Std.Symm (Function.Commute (α := ρ)) := ⟨fun _ _ h => h.symm⟩
  have hnodup : (written.map (·.1)).Nodup :=
    (hwritten.map _).nodup_iff.mpr (hnames.nodup.sublist h.sublist)
  have hperm : (orderFields written).Perm entries := (orderFields_perm hnodup).trans hwritten
  obtain ⟨ordered, hstored, hupdates⟩ := List.perm_comp_forall₂ hperm h.stored
  have hfold : ordered.foldl (fun record update => update record) blank = value := by
    rw [← hvalue]
    refine hupdates.foldl_eq' (fun f hf g hg record => ?_) blank
    have hall := hcomm.forall_of_forall fun f _ => Function.Commute.refl f
    exact hall (hupdates.subset hg) (hupdates.subset hf) record
  have hread := storeEntries_ofFields hnames hstored
    (((orderFields_perm hnodup).map _).nodup_iff.mpr hnodup) [] (fun _ _ => nofun) blank
  have hnone : fields.find? (fun field => !field.defaulted &&
      !(((orderFields written).map fun (entry : String × Json) => entry.1).reverse ++ []).contains
        field.name) = none := by
    refine List.find?_eq_none.mpr fun field hfield => ?_
    have := (h.defaulted_or_mem field hfield).imp_right (hperm.map (·.1)).mem_iff.mpr
    simpa [or_iff_not_imp_left] using this
  rw [Reads, ofEntries, Node.ofJson, Node.record, hread]
  simp only [Ending.check, bind, Except.bind, hnone, hfold]

/-- A record is read from the entries of its fields. -/
theorem reads (h : Filled fields entries updates) {title : String} {blank value : ρ}
    (hnames : PlainNames fields) (hcomm : updates.Pairwise Function.Commute)
    (hvalue : updates.foldl (fun record update => update record) blank = value) :
    Reads (Node.record title fields blank) (.ofEntries entries) value :=
  h.reads_of_perm (.refl _) hnames hcomm hvalue

end Filled

end ScriptHooks.Json

/-
ScriptHooks.Proofs.Json.ReplacedEntries — an object with another value for one field of a record.

Say that two objects have the same entries but those of one field, which the second has once, with
a value that puts something into the record (`Overwrites`). Then the record of the second is that of
the first with the new value put in (`record_replaced`), or both are refused.

The entries of an object are stored one after the other, and the reader notes which fields it has
seen. What the other fields do to a record does not depend on what the one field holds
(`storeEntries_put`), so that the entries of the field can be left out of the first object
(`storeEntries_without`) and the new one comes in at any place (`storeEntries_with`).

Fields answer to more than one name, and an object may hold the field under any of them. So the
entries of the field are those whose key stands for it (`standsFor`), and the two lists of names
seen agree but for the one field (`SameBut`).

Entries whose keys no field answers to are skipped, as long as they have a value at all. They are
among those that the two objects share.
-/
import Mathlib.Data.List.Basic
import ScriptHooks.Proofs.Json.BareDocuments

namespace ScriptHooks.Json.Node

variable {fields : List (FieldRule ρ)} {name : String} {put : ρ → ρ} {new : Node}

def standsFor (fields : List (FieldRule ρ)) (name key : String) : Bool :=
  (fields.find? (·.answersTo key)).any (·.name == name)

/-- The document puts something into the record that no other field changes or depends on, and that
takes the place of what the field put there. -/
structure Overwrites (fields : List (FieldRule ρ)) (name : String) (new : Node) (put : ρ → ρ) :
    Prop where
  new : ∀ field ∈ fields, field.name = name → ∀ record, field.store new record = .ok (put record)
  own : ∀ field ∈ fields, field.name = name → ∀ node record result,
    field.store node record = .ok result → put result = put record
  others : ∀ field ∈ fields, field.name ≠ name → ∀ node record,
    field.store node (put record) = (field.store node record).map put

/-! ## Entries one after the other -/

/-- Entries are stored one after the other. -/
theorem storeEntries_append (seen : List String) (record : ρ)
    (entries more : List (String × Option Place × Node)) :
    storeEntries fields seen record (entries ++ more) =
      (storeEntries fields seen record entries >>= fun found =>
        storeEntries fields found.2 found.1 more) := by
  induction entries generalizing seen record with
  | nil => rfl
  | cons entry entries ih =>
    obtain ⟨key, place, entry⟩ := entry
    rw [List.cons_append, storeEntries, storeEntries]
    split
    case h_1 =>
      cases entry.toJson with
      | error complaint => rfl
      | ok value => exact ih seen record
    case h_2 field _ =>
      split
      · rfl
      · cases field.store entry record with
        | error complaint => rfl
        | ok record => exact ih (field.name :: seen) record

/-- An entry that is skipped or stored leaves the rest to be read. -/
theorem storeEntries_cons {key : String} {place : Option Place} {entry : Node}
    {entries : List (String × Option Place × Node)} {seen : List String} {record : ρ}
    {found : ρ × List String}
    (h : storeEntries fields seen record ((key, place, entry) :: entries) = .ok found) :
    (fields.find? (·.answersTo key) = none ∧ (∃ value, entry.toJson = .ok value) ∧
        storeEntries fields seen record entries = .ok found) ∨
      ∃ field record', fields.find? (·.answersTo key) = some field ∧ field.name ∉ seen ∧
        field.store entry record = .ok record' ∧
        storeEntries fields (field.name :: seen) record' entries = .ok found := by
  rw [storeEntries] at h
  split at h
  case h_1 hnone =>
    obtain ⟨value, hvalue, h⟩ := bind_eq_ok_iff.mp h
    exact .inl ⟨hnone, ⟨value, hvalue⟩, h⟩
  case h_2 field hfield =>
    split at h
    case isTrue => cases h
    case isFalse hnew =>
      obtain ⟨record', hstore, h⟩ := bind_eq_ok_iff.mp h
      exact .inr ⟨field, record', hfield, by simpa using hnew, hstore, h⟩

/-- An entry that no field answers to. -/
theorem storeEntries_skip {key : String} {place : Option Place} {entry : Node} {value : Json}
    (entries : List (String × Option Place × Node)) (seen : List String) (record : ρ)
    (hnone : fields.find? (·.answersTo key) = none) (hvalue : entry.toJson = .ok value) :
    storeEntries fields seen record ((key, place, entry) :: entries) =
      storeEntries fields seen record entries := by
  rw [storeEntries, hnone]
  simp only [hvalue, bind, Except.bind]

/-- An entry that a field stores. -/
theorem storeEntries_store {key : String} {place : Option Place} {entry : Node}
    {field : FieldRule ρ} {seen : List String} {record record' : ρ}
    (entries : List (String × Option Place × Node))
    (hfield : fields.find? (·.answersTo key) = some field) (hnew : field.name ∉ seen)
    (hstore : field.store entry record = .ok record') :
    storeEntries fields seen record ((key, place, entry) :: entries) =
      storeEntries fields (field.name :: seen) record' entries := by
  rw [storeEntries, hfield]
  simp only [List.contains_eq_mem, hnew, decide_false, Bool.false_eq_true, if_false, hstore, bind,
    Except.bind]

/-! ## Entries of other fields -/

/-- The same fields have been seen, but for the one. -/
def SameBut (name : String) (seen seen' : List String) : Prop :=
  ∀ other, other ≠ name → (other ∈ seen' ↔ other ∈ seen)

/-- One more field is seen in both. -/
theorem SameBut.cons {seen seen' : List String} (h : SameBut name seen seen') (other : String) :
    SameBut name (other :: seen) (other :: seen') := by
  intro x hx
  rw [List.mem_cons, List.mem_cons, h x hx]

/-- The one field is seen in the first. -/
theorem SameBut.cons_left {seen seen' : List String} (h : SameBut name seen seen') :
    SameBut name (name :: seen) seen' := by
  intro x hx
  rw [List.mem_cons, h x hx, or_iff_right hx]

theorem name_ne_of_standsFor {key : String} {field : FieldRule ρ}
    (hfield : fields.find? (·.answersTo key) = some field)
    (hnot : standsFor fields name key = false) : field.name ≠ name := by
  simpa [standsFor, hfield] using hnot

/-- A key that stands for the field is answered to by a field of its name. -/
theorem exists_field_of_standsFor {key : String} (hkey : standsFor fields name key = true) :
    ∃ field, fields.find? (·.answersTo key) = some field ∧ field.name = name := by
  simpa [standsFor, Option.any_eq_true] using hkey

/-- Entries of other fields do not let the field be seen. -/
theorem not_mem_seen {entries : List (String × Option Place × Node)} {seen : List String}
    {record : ρ} {found : ρ × List String}
    (hentries : ∀ entry ∈ entries, standsFor fields name entry.1 = false) (hseen : name ∉ seen)
    (h : storeEntries fields seen record entries = .ok found) : name ∉ found.2 := by
  induction entries generalizing seen record with
  | nil =>
    cases h
    exact hseen
  | cons entry entries ih =>
    obtain ⟨hentry, hentries⟩ := List.forall_mem_cons.mp hentries
    obtain ⟨-, -, h⟩ | ⟨field, record', hfield, -, -, h⟩ := storeEntries_cons h
    · exact ih hentries hseen h
    · have hne := name_ne_of_standsFor hfield hentry
      exact ih hentries (List.not_mem_cons_of_ne_of_not_mem hne.symm hseen) h

/-- Entries of other fields do the same to a record into which something was put. -/
theorem storeEntries_put (hput : Overwrites fields name new put)
    {entries : List (String × Option Place × Node)} {seen seen' : List String} {record : ρ}
    {found : ρ × List String}
    (hentries : ∀ entry ∈ entries, standsFor fields name entry.1 = false)
    (hseen : SameBut name seen seen') (h : storeEntries fields seen record entries = .ok found) :
    ∃ seen'', storeEntries fields seen' (put record) entries = .ok (put found.1, seen'') := by
  induction entries generalizing seen seen' record with
  | nil =>
    cases h
    exact ⟨seen', rfl⟩
  | cons entry entries ih =>
    obtain ⟨hentry, hentries⟩ := List.forall_mem_cons.mp hentries
    obtain ⟨hnone, ⟨value, hvalue⟩, h⟩ | ⟨field, record', hfield, hnew, hstore, h⟩ :=
      storeEntries_cons h
    · rw [storeEntries_skip _ _ _ hnone hvalue]
      exact ih hentries hseen h
    · have hne := name_ne_of_standsFor hfield hentry
      have hnew' : field.name ∉ seen' := fun hmem => hnew ((hseen _ hne).mp hmem)
      have hstore' : field.store entry.2.2 (put record) = .ok (put record') := by
        rw [hput.others field (List.mem_of_find?_eq_some hfield) hne, hstore]
        rfl
      rw [storeEntries_store _ hfield hnew' hstore']
      exact ih hentries (hseen.cons _) h

/-! ## The entry of the field -/

/-- The entries of the field may be left out. -/
theorem storeEntries_without (hput : Overwrites fields name new put)
    {entries : List (String × Option Place × Node)} {seen seen' : List String} {record record' : ρ}
    {found : ρ × List String} (hrecord : put record' = put record)
    (hseen : SameBut name seen seen') (h : storeEntries fields seen record entries = .ok found) :
    ∃ found', storeEntries fields seen' record'
        (entries.filter fun entry => !standsFor fields name entry.1) = .ok found' ∧
      put found'.1 = put found.1 := by
  induction entries generalizing seen seen' record record' with
  | nil =>
    cases h
    exact ⟨_, rfl, hrecord⟩
  | cons entry entries ih =>
    obtain ⟨hnone, ⟨value, hvalue⟩, h⟩ | ⟨field, record₁, hfield, hnew, hstore, h⟩ :=
      storeEntries_cons h
    · have hnot : standsFor fields name entry.1 = false := by rw [standsFor, hnone]; rfl
      rw [List.filter_cons_of_pos (by rw [hnot]; rfl), storeEntries_skip _ _ _ hnone hvalue]
      exact ih hrecord hseen h
    have hmem := List.mem_of_find?_eq_some hfield
    cases hkey : standsFor fields name entry.1 with
    | true =>
      have hname : field.name = name := by
        obtain ⟨_, hfound, hname⟩ := exists_field_of_standsFor hkey
        rwa [Option.some.inj (hfield.symm.trans hfound)]
      rw [List.filter_cons_of_neg (by simp [hkey])]
      rw [hname] at h
      have hsame := hput.own field hmem hname _ _ _ hstore
      exact ih (hrecord.trans hsame.symm) hseen.cons_left h
    | false =>
      have hne := name_ne_of_standsFor hfield hkey
      have hnew' : field.name ∉ seen' := fun hmem => hnew ((hseen _ hne).mp hmem)
      -- the field stores the entry alike, since it does when something is put into both records
      have hboth : (field.store entry.2.2 record').map put = .ok (put record₁) := by
        rw [← hput.others field hmem hne, hrecord, hput.others field hmem hne, hstore]
        rfl
      obtain ⟨record₁', hstore', hrecord₁⟩ : ∃ record₁', field.store entry.2.2 record' =
          .ok record₁' ∧ put record₁' = put record₁ := by
        cases hstore' : field.store entry.2.2 record' with
        | error complaint =>
          rw [hstore'] at hboth
          cases hboth
        | ok record₁' =>
          rw [hstore'] at hboth
          exact ⟨record₁', rfl, Except.ok.inj hboth⟩
      rw [List.filter_cons_of_pos (by rw [hkey]; rfl), storeEntries_store _ hfield hnew' hstore']
      exact ih hrecord₁ (hseen.cons _) h

/-- An entry of the field may come in at any place. -/
theorem storeEntries_with (hput : Overwrites fields name new put)
    {before after : List (String × Option Place × Node)} {key : String} {place : Option Place}
    {seen : List String} {record : ρ} {found : ρ × List String}
    (hbefore : ∀ entry ∈ before, standsFor fields name entry.1 = false)
    (hafter : ∀ entry ∈ after, standsFor fields name entry.1 = false)
    (hkey : standsFor fields name key = true) (hseen : name ∉ seen)
    (h : storeEntries fields seen record (before ++ after) = .ok found) :
    ∃ seen', storeEntries fields seen record (before ++ (key, place, new) :: after) =
      .ok (put found.1, seen') := by
  rw [storeEntries_append] at h ⊢
  obtain ⟨middle, hfirst, h⟩ := bind_eq_ok_iff.mp h
  obtain ⟨field, hfield, hname⟩ := exists_field_of_standsFor hkey
  have hmiddle := not_mem_seen hbefore hseen hfirst
  have hstore := hput.new field (List.mem_of_find?_eq_some hfield) hname middle.1
  have hrest : storeEntries fields middle.2 middle.1 ((key, place, new) :: after) = _ :=
    storeEntries_store after hfield (hname ▸ hmiddle) hstore
  have hsame : SameBut name middle.2 (field.name :: middle.2) := by
    intro other hother
    rw [List.mem_cons, hname, or_iff_right hother]
  obtain ⟨seen', hput⟩ := storeEntries_put hput hafter hsame h
  exact ⟨seen', bind_eq_ok_iff.mpr ⟨middle, hfirst, hrest.trans hput⟩⟩

/-- The second object has the entries of the first, but instead of those of the field there is one
entry of it, with the new document. -/
structure Replaces (isOne : String → Bool) (new : Node)
    (entries entries' : List (String × Option Place × Node)) : Prop where
  others : entries'.filter (fun entry => !isOne entry.1) =
    entries.filter fun entry => !isOne entry.1
  one : ∃ key place, entries'.filter (fun entry => isOne entry.1) = [(key, place, new)]

/-- A record from an object in which one field was replaced is the record from the object with the
new value put in. -/
theorem record_replaced (hput : Overwrites fields name new put)
    (hdefault : ∀ field ∈ fields, field.defaulted = true) {title : String} {blank record : ρ}
    {before before' after' : Option Place} {entries entries' : List (String × Option Place × Node)}
    {ending : Ending} (hreplaces : Replaces (standsFor fields name) new entries entries')
    (h : (Node.record title fields blank (.object before entries ending)).toOption = some record) :
    (Node.record title fields blank (.object before' entries' (.closed after'))).toOption =
      some (put record) := by
  obtain ⟨hothers, key, place, hone⟩ := hreplaces
  obtain ⟨first, last, rfl, hfirst, hkey, hlast⟩ := List.filter_eq_cons_iff.mp hone
  have hfirst : ∀ entry ∈ first, standsFor fields name entry.1 = false := fun entry hentry =>
    Bool.eq_false_iff.mpr (hfirst entry hentry)
  have hlast : ∀ entry ∈ last, standsFor fields name entry.1 = false := fun entry hentry =>
    Bool.eq_false_iff.mpr (List.filter_eq_nil_iff.mp hlast entry hentry)
  have hrest : entries.filter (fun entry => !standsFor fields name entry.1) = first ++ last := by
    rw [← hothers, List.filter_append, List.filter_cons_of_neg (by simp [hkey])]
    congr 1
    · exact List.filter_eq_self.mpr fun entry hentry => by rw [hfirst entry hentry]; rfl
    · exact List.filter_eq_self.mpr fun entry hentry => by rw [hlast entry hentry]; rfl
  rw [record_object_toOption] at h ⊢
  obtain ⟨found, hfound, h⟩ := Option.bind_eq_some_iff.mp h
  have hstored := toOption_eq_some_iff.mp hfound
  obtain ⟨-, -, hvalue⟩ := Option.bind_eq_some_iff.mp h
  have hall : ∀ seen : List String, ∀ field ∈ fields,
      field.defaulted = true ∨ field.name ∈ seen := fun _ field hfield =>
    .inl (hdefault field hfield)
  obtain rfl : found.1 = record := Option.some.inj ((if_pos (hall found.2)).symm.trans hvalue)
  obtain ⟨found', hwithout, hsame⟩ := storeEntries_without hput rfl (fun _ _ => Iff.rfl) hstored
  rw [hrest] at hwithout
  obtain ⟨seen, hwith⟩ := storeEntries_with hput hfirst hlast hkey List.not_mem_nil hwithout
  rw [hwith, ← hsame]
  exact if_pos (hall seen)

end ScriptHooks.Json.Node

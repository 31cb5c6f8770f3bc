/-
ScriptHooks.Proofs.Settings.FileSettings — a settings file with another number for one setting.

Settings are an object with the fields under either of two names, or a list of the fields in their
order, which may break off. `NumberSetting.Replaces` says of two documents that the second is the
first with the number of one setting replaced; where a list breaks off, the settings behind are as
they are by default (`completed`). The settings that the second document holds are those of the
first with the number put in (`decode_replaced`), whatever else is in them, and so it is with the
texts (`NumberSetting.ReplacesIn`), whose layout does not matter.

`NumberSetting` lists the settings that are numbers, with the name of each in the environment, its
two names in a file, its place in a list, and what a number for it does to the settings (`put`). So
each statement is about every such setting, and the proofs have a case for each only where the
fields of the record are gone through.

Objects are dealt with by `ReplacedEntries`: a field other than the one replaced does to a record
what it did before (`withDefault_others`), and the one replaced puts its number in whatever was there
(`withDefault_own`). Lists are computed field by field (`decode_array`): a field takes its item, or
stays as it is by default. So a number can be put into a list at its place once the list is
completed by the defaults (`decode_set`).

A limit of the time may be `null` in a file, which is no limit. It is the one setting whose number
is not read as a plain number (`reads_maxExecutionMs`).
-/
import ScriptHooks.Proofs.Json.ReplacedEntries
import ScriptHooks.Proofs.Json.WrittenRecords
import ScriptHooks.Settings.Load

namespace ScriptHooks

open Json Json.Node

/-- The settings that are a number of seconds or milliseconds. -/
inductive NumberSetting
  | artifactIdleSecs
  | queueIdleSecs
  | maxExecutionMs
  deriving DecidableEq

namespace NumberSetting

def environmentName : NumberSetting → String
  | artifactIdleSecs => "EXTSCRIPT_ARTIFACT_IDLE_SECS"
  | queueIdleSecs => "EXTSCRIPT_ASYNC_QUEUE_IDLE_SECS"
  | maxExecutionMs => "EXTSCRIPT_MAX_EXECUTION_MS"

def name : NumberSetting → String
  | artifactIdleSecs => "artifact_idle_secs"
  | queueIdleSecs => "async_queue_idle_secs"
  | maxExecutionMs => "max_execution_ms"

/-- The name in its other spelling. -/
def otherName : NumberSetting → String
  | artifactIdleSecs => "artifactIdleSecs"
  | queueIdleSecs => "asyncQueueIdleSecs"
  | maxExecutionMs => "maxExecutionMs"

def index : NumberSetting → Nat
  | artifactIdleSecs => 0
  | queueIdleSecs => 1
  | maxExecutionMs => 2

/-- The settings with this number. No milliseconds are no limit. -/
def put : NumberSetting → Nat → EngineSettings → EngineSettings
  | artifactIdleSecs, n, settings => { settings with artifactIdleSecs := n }
  | queueIdleSecs, n, settings => { settings with queueIdleSecs := n }
  | maxExecutionMs, n, settings =>
    { settings with maxExecutionMs := if n = 0 then none else some n }

/-- What a file has for the number: no limit is `null`. -/
def written (setting : NumberSetting) (n : Nat) : Json :=
  if setting = maxExecutionMs ∧ n = 0 then .null else .ofNat n

variable {setting : NumberSetting} {n : Nat}

/-! ## Fields -/

theorem ofNat_ne_null (hn : n < 2 ^ 64) : Json.ofNat n ≠ .null := by
  have hfits : FitsWord n := by unfold FitsWord; omega
  rw [Json.ofNat, Json.ofInt, dif_pos hfits]
  intro hnull
  cases hnull

/-- What a file has for another number is read as the number. -/
theorem reads_number (h : setting ≠ maxExecutionMs) (hn : n < 2 ^ 64) :
    Reads (unsigned "u64" 64) (setting.written n) n := by
  rw [written, if_neg fun hzero => h hzero.1]
  exact .unsigned (Nat.le_refl 64) hn

/-- What a file has for a limit of the time is read as the limit. -/
theorem reads_maxExecutionMs (hn : n < 2 ^ 64) :
    Reads (optional (unsigned "u64" 64)) (maxExecutionMs.written n)
      (if n = 0 then none else some n) := by
  by_cases hzero : n = 0
  · rw [written, if_pos ⟨rfl, hzero⟩, if_pos hzero]
    exact .absent
  · rw [written, if_neg fun h => hzero h.2, if_neg hzero]
    exact .present (ofNat_ne_null hn) (.unsigned (Nat.le_refl 64) hn)

/-- A field with two names answers to both and to no other. -/
theorem answersTo_two {name other key : String} {decode : Decoder α} {set : α → ρ → ρ}
    (h : (withDefault name [other] decode set).answersTo key = true) :
    key = name ∨ key = other := by
  simp only [withDefault, FieldRule.answersTo, Bool.or_eq_true, beq_iff_eq, List.contains_eq_mem,
    List.mem_singleton, decide_eq_true_eq] at h
  exact h.imp_left Eq.symm

/-- The keys under which an object has the setting. -/
theorem standsFor_eq (setting : NumberSetting) (key : String) :
    standsFor EngineSettings.fields setting.name key =
      (key == setting.name || key == setting.otherName) := by
  by_cases hkey : key = setting.name ∨ key = setting.otherName
  · have hfound : standsFor EngineSettings.fields setting.name key = true := by
      cases setting <;> rcases hkey with rfl | rfl <;> decide
    rw [hfound]
    simpa using hkey
  · have hnot : standsFor EngineSettings.fields setting.name key = false := by
      refine Bool.eq_false_iff.mpr fun hstands => hkey ?_
      obtain ⟨field, hfind, hname⟩ := (Option.any_eq_true _ _).mp hstands
      have hanswers := List.find?_some hfind
      have hmem := List.mem_of_find?_eq_some hfind
      simp only [EngineSettings.fields, List.mem_cons, List.not_mem_nil, or_false] at hmem
      rcases hmem with rfl | rfl | rfl | rfl | rfl <;> cases setting <;>
        first
        | exact absurd hname (by decide)
        | exact answersTo_two hanswers
    rw [hnot]
    simpa using hkey

section Fields

variable {fieldName : String} {aliases : List String} {decode : Decoder α} {set : α → ρ → ρ}
  {put : ρ → ρ}

/-- A field stores what its value is read as. -/
theorem withDefault_reads {json : Json} {value : α} (h : Reads decode json value) (record : ρ) :
    (withDefault fieldName aliases decode set).store (Node.ofJson json) record =
      .ok (set value record) := congrArg (Except.map _) h

/-- What is put in makes no difference to what was stored there. -/
theorem withDefault_own (h : ∀ v r, put (set v r) = put r) (node : Node) (record result : ρ)
    (hstore : (withDefault fieldName aliases decode set).store node record = .ok result) :
    put result = put record := by
  unfold withDefault at hstore
  dsimp only at hstore
  cases hread : decode node with
  | error complaint =>
    rw [hread] at hstore
    cases hstore
  | ok value =>
    rw [hread] at hstore
    cases hstore
    exact h value record

/-- Other fields store the same. -/
theorem withDefault_others (h : ∀ v r, set v (put r) = put (set v r)) (node : Node)
    (record : ρ) : (withDefault fieldName aliases decode set).store node (put record) =
      ((withDefault fieldName aliases decode set).store node record).map put := by
  unfold withDefault
  dsimp only
  cases decode node with
  | error complaint => rfl
  | ok value => exact congrArg Except.ok (h value record)

end Fields

/-- What the file has for the number puts it into the settings. -/
theorem overwrites (setting : NumberSetting) (hn : n < 2 ^ 64) :
    Overwrites EngineSettings.fields setting.name (Node.ofJson (setting.written n))
      (setting.put n) := by
  constructor
  case new =>
    intro field hfield hname
    simp only [EngineSettings.fields, List.mem_cons, List.not_mem_nil, or_false] at hfield
    rcases hfield with rfl | rfl | rfl | rfl | rfl <;> cases setting <;>
      try exact absurd hname (by decide)
    · exact withDefault_reads (reads_number nofun hn)
    · exact withDefault_reads (reads_number nofun hn)
    · exact withDefault_reads (reads_maxExecutionMs hn)
  case own =>
    intro field hfield hname
    simp only [EngineSettings.fields, List.mem_cons, List.not_mem_nil, or_false] at hfield
    rcases hfield with rfl | rfl | rfl | rfl | rfl <;> cases setting <;>
      try exact absurd hname (by decide)
    all_goals exact withDefault_own fun _ _ => rfl
  case others =>
    intro field hfield hname
    simp only [EngineSettings.fields, List.mem_cons, List.not_mem_nil, or_false] at hfield
    rcases hfield with rfl | rfl | rfl | rfl | rfl <;> cases setting <;>
      try exact absurd (by decide) hname
    all_goals exact withDefault_others fun _ _ => rfl

/-! ## Lists -/

end NumberSetting

namespace EngineSettings

/-- The item at a place of a list, if the list goes that far, and else the default. -/
def readAt (decode : Decoder α) (default : α) (items : List (Option Place × Node))
    (index : Nat) : Option α :=
  match items[index]? with
  | some item => (decode item.2).toOption
  | none => some default

/-- A list without its first item. -/
theorem readAt_tail (decode : Decoder α) (default : α) (items : List (Option Place × Node))
    (index : Nat) :
    readAt decode default items.tail index = readAt decode default items (index + 1) := by
  rw [readAt, readAt, List.getElem?_tail]

/-- A field takes the first item; without items it stays as it is. -/
theorem storeItems_withDefault {decode : Decoder α} {set : α → ρ → ρ} {default : α} {record : ρ}
    (hblank : set default record = record) (expected : String) (after : Option Place) (index : Nat)
    (name : String) (aliases : List String) (fields : List (FieldRule ρ))
    (items : List (Option Place × Node)) :
    (storeItems expected after index record (withDefault name aliases decode set :: fields)
        items).toOption =
      (readAt decode default items 0).bind fun value =>
        (storeItems expected after (index + 1) (set value record) fields items.tail).toOption := by
  cases items with
  | nil =>
    rw [storeItems, if_pos (show (withDefault name aliases decode set).defaulted = true from rfl)]
    exact congrArg (fun r => (storeItems expected after (index + 1) r fields []).toOption)
      hblank.symm
  | cons item items =>
    rw [storeItems, toOption_bind, withDefault, toOption_map, Option.bind_map]
    rfl

/-- A list is read field by field. -/
theorem decode_array (before : Option Place) (items : List (Option Place × Node)) :
    (decode (.array before items (.closed none))).toOption =
      (readAt (unsigned "u64" 64) (12 * 60 * 60) items 0).bind fun artifactIdleSecs =>
      (readAt (unsigned "u64" 64) (60 * 60) items 1).bind fun queueIdleSecs =>
      (readAt (optional (unsigned "u64" 64)) none items 2).bind fun maxExecutionMs =>
      (readAt (optional (unsigned "usize" 64)) none items 3).bind fun memoryLimitBytes =>
      (readAt HttpSettings.decode {} items 4).bind fun http =>
      if items.length ≤ 5 then
        some ⟨artifactIdleSecs, queueIdleSecs, maxExecutionMs, memoryLimitBytes, http⟩
      else none := by
  simp only [decode, record, toOption_bind, fields]
  rw [storeItems_withDefault rfl, Option.bind_assoc]
  refine congrArg _ (funext fun artifactIdleSecs => ?_)
  rw [storeItems_withDefault rfl, Option.bind_assoc, readAt_tail]
  refine congrArg _ (funext fun queueIdleSecs => ?_)
  rw [storeItems_withDefault rfl, Option.bind_assoc, readAt_tail, readAt_tail]
  refine congrArg _ (funext fun maxExecutionMs => ?_)
  rw [storeItems_withDefault rfl, Option.bind_assoc, readAt_tail, readAt_tail, readAt_tail]
  refine congrArg _ (funext fun memoryLimitBytes => ?_)
  rw [storeItems_withDefault rfl, Option.bind_assoc, readAt_tail, readAt_tail, readAt_tail,
    readAt_tail]
  refine congrArg _ (funext fun http => ?_)
  -- what is left of the items is too much
  rcases items with _ | ⟨a, _ | ⟨b, _ | ⟨c, _ | ⟨d, _ | ⟨e, _ | ⟨f, rest⟩⟩⟩⟩⟩⟩
  case cons.cons.cons.cons.cons.cons =>
    rw [if_neg (by simp only [List.length_cons]; omega)]
    simp only [List.tail_cons, storeItems, Except.toOption, Option.bind, tooMany]
  all_goals rfl

/-- The settings that a list holds. -/
theorem decode_array_iff {items : List (Option Place × Node)} {settings : EngineSettings} :
    (decode (.array none items (.closed none))).toOption = some settings ↔
      items.length ≤ 5 ∧
      readAt (unsigned "u64" 64) (12 * 60 * 60) items 0 = some settings.artifactIdleSecs ∧
      readAt (unsigned "u64" 64) (60 * 60) items 1 = some settings.queueIdleSecs ∧
      readAt (optional (unsigned "u64" 64)) none items 2 = some settings.maxExecutionMs ∧
      readAt (optional (unsigned "usize" 64)) none items 3 = some settings.memoryLimitBytes ∧
      readAt HttpSettings.decode {} items 4 = some settings.http := by
  simp only [decode_array, Option.bind_eq_some_iff, Option.ite_none_right_eq_some]
  constructor
  · rintro ⟨_, h₀, _, h₁, _, h₂, _, h₃, _, h₄, hlength, hsettings⟩
    obtain rfl := Option.some.inj hsettings
    exact ⟨hlength, h₀, h₁, h₂, h₃, h₄⟩
  · rintro ⟨hlength, h₀, h₁, h₂, h₃, h₄⟩
    exact ⟨_, h₀, _, h₁, _, h₂, _, h₃, _, h₄, hlength, rfl⟩

/-- The items of a list for the settings by default. -/
def defaultItems : List (Option Place × Node) :=
  Node.ofItems [.ofNat (12 * 60 * 60), .ofNat (60 * 60), .null, .null, .object []]

/-- The list of all settings that the items are the beginning of. -/
def completed (items : List (Option Place × Node)) : List (Option Place × Node) :=
  items ++ defaultItems.drop items.length

/-- A completed list has all the fields. -/
theorem length_completed (items : List (Option Place × Node)) :
    (completed items).length = max items.length 5 := by
  have hdefault : defaultItems.length = 5 := rfl
  rw [completed, List.length_append, List.length_drop, hdefault]
  omega

/-- What is behind the items is as it is by default. -/
theorem readAt_completed {decode : Decoder α} {default : α} {index : Nat} {node : Node}
    (hnode : defaultItems[index]? = some (none, node))
    (hread : (decode node).toOption = some default) (items : List (Option Place × Node)) :
    readAt decode default (completed items) index = readAt decode default items index := by
  unfold readAt completed
  obtain hlt | hle := Nat.lt_or_ge index items.length
  · rw [List.getElem?_append_left hlt]
  · rw [List.getElem?_append_right hle, List.getElem?_drop, Nat.add_sub_cancel' hle, hnode,
      List.getElem?_eq_none hle]
    exact hread

/-- A list and its completion hold the same settings. -/
theorem decode_completed (before : Option Place) (items : List (Option Place × Node)) :
    (decode (.array before (completed items) (.closed none))).toOption =
      (decode (.array before items (.closed none))).toOption := by
  have hlength : (completed items).length ≤ 5 ↔ items.length ≤ 5 := by
    rw [length_completed]
    omega
  rw [decode_array, decode_array, readAt_completed rfl rfl, readAt_completed rfl rfl,
    readAt_completed rfl rfl, readAt_completed rfl rfl, readAt_completed rfl rfl]
  simp only [hlength]

theorem ignoresPlaces_path : IgnoresPlaces HttpSettings.path := by
  intro node
  rcases node with ⟨_ | _ | _ | _, _⟩ | _ | _ | _ <;> rfl

/-- What the settings of a document are does not depend on its places. -/
theorem ignoresPlaces_decode : IgnoresPlaces decode := by
  have hhttp : IgnoresPlaces HttpSettings.decode := by
    refine .record (fun field hfield => ?_) _ _
    simp only [List.mem_cons, List.not_mem_nil, or_false] at hfield
    rcases hfield with rfl | rfl | rfl | rfl | rfl
    · exact .withDefault (.list .string) _ _ _
    · exact .withDefault (.list .string) _ _ _
    · exact .withDefault (.unsigned _ _) _ _ _
    · exact .withDefault (.unsigned _ _) _ _ _
    · exact .withDefault (.optional ignoresPlaces_path) _ _ _
  refine .record (fun field hfield => ?_) _ _
  simp only [fields, List.mem_cons, List.not_mem_nil, or_false] at hfield
  rcases hfield with rfl | rfl | rfl | rfl | rfl
  · exact .withDefault (.unsigned _ _) _ _ _
  · exact .withDefault (.unsigned _ _) _ _ _
  · exact .withDefault (.optional (.unsigned _ _)) _ _ _
  · exact .withDefault (.optional (.unsigned _ _)) _ _ _
  · exact .withDefault hhttp _ _ _

end EngineSettings

/-! ## Documents and texts -/

namespace NumberSetting

/-- The second document has the number for the setting, and is the first one but for that: an object
with the same other entries, where the setting may be anywhere and under either name, or a list with
the same other items. -/
inductive Replaces (setting : NumberSetting) (n : Nat) : Node → Node → Prop
  | object {entries entries' : List (String × Option Place × Node)}
    (h : Node.Replaces (fun key => key == setting.name || key == setting.otherName)
      (Node.ofJson (setting.written n)) entries entries') :
    Replaces setting n (.object none entries (.closed none)) (.object none entries' (.closed none))
  | list {items items' : List (Option Place × Node)}
    (h : EngineSettings.completed items' = (EngineSettings.completed items).set setting.index
      (none, Node.ofJson (setting.written n))) :
    Replaces setting n (.array none items (.closed none)) (.array none items' (.closed none))

variable {setting : NumberSetting} {n : Nat}

section Items

variable {decode : Decoder α} {default value : α} {index other : Nat} {json : Json}
  {items : List (Option Place × Node)} {item : Option Place × Node}

/-- The item at the place is read. -/
theorem readAt_set_self (hread : Reads decode json value) (hlt : index < items.length) :
    EngineSettings.readAt decode default (items.set index (none, Node.ofJson json)) index =
      some value := by
  rw [EngineSettings.readAt, List.getElem?_set_self hlt]
  exact congrArg Except.toOption hread

/-- Items at other places are as before. -/
theorem readAt_set_ne (hne : index ≠ other) :
    EngineSettings.readAt decode default (items.set index item) other =
      EngineSettings.readAt decode default items other := by
  rw [EngineSettings.readAt, EngineSettings.readAt, List.getElem?_set_ne hne]

end Items

/-- In a list of all settings the number is put in at its place. -/
theorem decode_set (hn : n < 2 ^ 64) {items : List (Option Place × Node)}
    {settings : EngineSettings} (hall : 5 ≤ items.length)
    (h : (EngineSettings.decode (.array none items (.closed none))).toOption = some settings) :
    (EngineSettings.decode (.array none
        (items.set setting.index (none, Node.ofJson (setting.written n)))
        (.closed none))).toOption = some (setting.put n settings) := by
  rw [EngineSettings.decode_array_iff] at h ⊢
  obtain ⟨hlength, h₀, h₁, h₂, h₃, h₄⟩ := h
  rw [List.length_set]
  have hplace : setting.index < items.length := by cases setting <;> simp only [index] <;> omega
  cases setting with
  | artifactIdleSecs =>
    have hread : Reads _ (artifactIdleSecs.written n) n := reads_number nofun hn
    exact ⟨hlength, readAt_set_self hread hplace, (readAt_set_ne (by decide)).trans h₁,
      (readAt_set_ne (by decide)).trans h₂, (readAt_set_ne (by decide)).trans h₃,
      (readAt_set_ne (by decide)).trans h₄⟩
  | queueIdleSecs =>
    have hread : Reads _ (queueIdleSecs.written n) n := reads_number nofun hn
    exact ⟨hlength, (readAt_set_ne (by decide)).trans h₀, readAt_set_self hread hplace,
      (readAt_set_ne (by decide)).trans h₂, (readAt_set_ne (by decide)).trans h₃,
      (readAt_set_ne (by decide)).trans h₄⟩
  | maxExecutionMs =>
    exact ⟨hlength, (readAt_set_ne (by decide)).trans h₀, (readAt_set_ne (by decide)).trans h₁,
      readAt_set_self (reads_maxExecutionMs hn) hplace, (readAt_set_ne (by decide)).trans h₃,
      (readAt_set_ne (by decide)).trans h₄⟩

/-- The settings of the second document are those of the first with the number put in. -/
theorem decode_replaced (hn : n < 2 ^ 64) {document document' : Node} {settings : EngineSettings}
    (hreplaces : setting.Replaces n document document')
    (h : (EngineSettings.decode document).toOption = some settings) :
    (EngineSettings.decode document').toOption = some (setting.put n settings) := by
  cases hreplaces with
  | object hentries =>
    have hkeys : (fun key => key == setting.name || key == setting.otherName) =
        standsFor EngineSettings.fields setting.name := funext fun key => (standsFor_eq _ key).symm
    rw [hkeys] at hentries
    exact record_replaced (setting.overwrites hn) (by decide) hentries h
  | list hitems =>
    rw [← EngineSettings.decode_completed] at h ⊢
    rw [hitems]
    refine decode_set hn ?_ h
    rw [EngineSettings.length_completed]
    exact Nat.le_max_right _ _

end NumberSetting

namespace EngineSettings

/-- The document of the settings that a text holds. A blank text counts as an object without
entries. -/
def documentOf (text : String) : Option Node :=
  if (Text.trimBlanks text).isEmpty then some (.object none [] (.closed none))
  else bareDocument text

/-- The settings in a file are those of the document that its text holds. -/
theorem loadFile_toOption {surroundings : Surroundings} {path text : String}
    (htext : surroundings.readText path = .ok text) :
    (loadFile surroundings path).toOption =
      (documentOf text).bind fun document => (decode document).toOption := by
  have hthere : surroundings.isThere path = true := by
    unfold Surroundings.readText at htext
    unfold Surroundings.isThere
    cases hcontent : surroundings.contentAt path with
    | missing =>
      rw [hcontent] at htext
      cases htext
    | directory | file => rfl
  rw [loadFile, documentOf, hthere, htext]
  simp only [Bool.not_true, Bool.false_eq_true, if_false]
  split
  · rfl
  · rw [← decodeText_toOption ignoresPlaces_decode]
    cases decodeText (some nestingLimit) decode text <;> rfl

/-- A file is loaded if its text holds settings. -/
theorem loadFile_eq_ok {surroundings : Surroundings} {path text : String}
    {settings : EngineSettings} (htext : surroundings.readText path = .ok text)
    (h : ((documentOf text).bind fun document => (decode document).toOption) = some settings) :
    loadFile surroundings path = .ok settings :=
  toOption_eq_some_iff.mp ((loadFile_toOption htext).trans h)

end EngineSettings

/-- Both texts hold settings, and the second has the number for the setting but is the first one
otherwise. -/
def NumberSetting.ReplacesIn (setting : NumberSetting) (n : Nat) (text text' : String) : Prop :=
  ∃ document document', EngineSettings.documentOf text = some document ∧
    EngineSettings.documentOf text' = some document' ∧ setting.Replaces n document document'

/-- A file with the number for a setting holds the settings of the other file with the number put
in. -/
theorem EngineSettings.loadFile_replaced {setting : NumberSetting} {n : Nat} (hn : n < 2 ^ 64)
    {surroundings surroundings' : Surroundings} {path text text' : String}
    {settings : EngineSettings} (htext : surroundings.readText path = .ok text)
    (htext' : surroundings'.readText path = .ok text')
    (hloads : loadFile surroundings path = .ok settings)
    (hreplaces : setting.ReplacesIn n text text') :
    loadFile surroundings' path = .ok (setting.put n settings) := by
  obtain ⟨document, document', hdocument, hdocument', hreplaces⟩ := hreplaces
  have hdecode := (loadFile_toOption htext).symm.trans (congrArg Except.toOption hloads)
  rw [hdocument] at hdecode
  refine loadFile_eq_ok htext' ?_
  rw [hdocument']
  exact NumberSetting.decode_replaced hn hreplaces hdecode

end ScriptHooks

/-
ScriptHooks.Proofs.Settings.EnvironmentSettings — a setting in the environment and in the file.

The environment gives a number by its decimal text, maybe between blanks (`numberIn_numeral`). What
else it says is put over the settings alike (`override_eq`). So loading settings with such a
variable comes to the same as loading them without it from a file in which the setting has that
number (`NumberSetting.ReplacesIn`), whatever else the file and the environment say.

The statement compares two surroundings: the ones at hand, where the variable holds the number, and
those without the variable in which the file holds another text (`unset`, `holding`). They are the
same in all else, so other variables may prevail over the file in both.

For the limit of the time, though, zero in the environment is no limit, which a file says by `null`;
zero in a file is a limit of no milliseconds. A variable has no `null`, so that zero stands for it.
`zero_limit_differs` has two surroundings that differ so.

Numerals are read digit by digit with a bound of sixty-four bits, and a number below the bound is
read from its own digits (`readDigits_eq`). No sign stands before them, and they begin with zero
only for zero.
-/
import ScriptHooks.Proofs.Json.WrittenText
import ScriptHooks.Proofs.Settings.FileSettings

namespace ScriptHooks

/-! ## Numerals -/

/-- Digits are read as the number that they write, if it fits sixty-four bits. -/
theorem readDigits_eq {digits : List Char} (hdigits : ∀ c ∈ digits, c.isDigit = true) (value : Nat)
    (hfits : (digits.map fun c => c.toNat - 48).foldl (fun n d => n * 10 + d) value < 2 ^ 64) :
    readDigits value digits =
      .ok ((digits.map fun c => c.toNat - 48).foldl (fun n d => n * 10 + d) value) := by
  induction digits generalizing value with
  | nil => rfl
  | cons c digits ih =>
    obtain ⟨hc, hdigits⟩ := List.forall_mem_cons.mp hdigits
    have hfirst : value * 10 + (c.toNat - 48) < 2 ^ 64 :=
      Nat.lt_of_le_of_lt (Json.le_foldl_digits _ _) hfits
    rw [readDigits, if_pos hc]
    exact (if_pos hfirst).trans (ih hdigits _ hfits)

/-- The decimal text of a number is read as the number. -/
theorem readNumeral_toString {n : Nat} (hn : n < 2 ^ 64) : readNumeral (toString n) = .ok n := by
  have hdigits : ∀ c ∈ Nat.toDigits 10 n, c.isDigit = true := fun c hc =>
    Nat.isDigit_of_mem_toDigits (by decide) (by decide) hc
  have hread := readDigits_eq hdigits 0 (by rwa [Json.foldl_toDigits])
  rw [Json.foldl_toDigits] at hread
  have htext : (toString n).toList = Nat.toDigits 10 n := by simp
  rw [readNumeral, htext]
  split
  case h_1 hnil => exact absurd hnil Nat.toDigits_ne_nil
  case h_2 hplus | h_3 hplus =>
    have hsign := hdigits '+' (by rw [hplus]; exact List.mem_cons_self)
    exact absurd hsign (by decide)
  case h_4 => exact hread

namespace Text

/-- Blanks around a text without blanks are cut off. -/
theorem trimBlanks_around {before text after : String}
    (hbefore : ∀ c ∈ before.toList, isBlank c = true)
    (hafter : ∀ c ∈ after.toList, isBlank c = true)
    (htext : ∀ c ∈ text.toList, isBlank c = false) (hne : text.toList ≠ []) :
    trimBlanks (before ++ text ++ after) = text := by
  have hstop : ∀ cs more : List Char, (∀ c ∈ cs, isBlank c = false) → cs ≠ [] →
      (cs ++ more).dropWhile isBlank = cs ++ more := by
    intro cs more hcs hne
    obtain ⟨c, cs, rfl⟩ := List.exists_cons_of_ne_nil hne
    rw [List.cons_append, List.dropWhile_cons_of_neg]
    rw [hcs c List.mem_cons_self]
    exact Bool.false_ne_true
  have htext' : ∀ c ∈ text.toList.reverse, isBlank c = false := fun c hc =>
    htext c (List.mem_reverse.mp hc)
  have hafter' : ∀ c ∈ after.toList.reverse, isBlank c = true := fun c hc =>
    hafter c (List.mem_reverse.mp hc)
  rw [trimBlanks, String.toList_append, String.toList_append, List.append_assoc,
    List.dropWhile_append_of_pos hbefore, hstop _ _ htext hne, List.reverse_append,
    List.dropWhile_append_of_pos hafter', ← List.append_nil text.toList.reverse,
    hstop _ _ htext' (by simpa using hne), List.append_nil, List.reverse_reverse,
    String.ofList_toList]

end Text

namespace EngineSettings

/-- A variable that holds the decimal text of a number, maybe between blanks, gives the number. -/
theorem numberIn_numeral {surroundings : Surroundings} {name before after : String} {n : Nat}
    (hn : n < 2 ^ 64) (hbefore : ∀ c ∈ before.toList, Text.isBlank c = true)
    (hafter : ∀ c ∈ after.toList, Text.isBlank c = true)
    (hset : surroundings.envValue name = some (before ++ toString n ++ after)) :
    numberIn surroundings name = .ok (some n) := by
  have htext : (toString n).toList = Nat.toDigits 10 n := by simp
  have hne : (toString n).toList ≠ [] := by
    rw [htext]
    exact Nat.toDigits_ne_nil
  have hblank : ∀ c ∈ (toString n).toList, Text.isBlank c = false := by
    intro c hc
    rw [htext] at hc
    have hdigit : 48 ≤ c.toNat ∧ c.toNat ≤ 57 := Char.isDigit_iff_toNat.mp
      (Nat.isDigit_of_mem_toDigits (by decide) (by decide) hc)
    simp only [Text.isBlank, Bool.or_eq_false_iff, Bool.and_eq_false_iff, beq_eq_false_iff_ne,
      decide_eq_false_iff_not]
    omega
  rw [numberIn, hset]
  dsimp only
  rw [Text.trimBlanks_around hbefore hafter hblank hne, readNumeral_toString hn, if_neg]
  simp

end EngineSettings

/-! ## Loading -/

/-- The same surroundings without the variable. -/
def Surroundings.unset (surroundings : Surroundings) (name : String) : Surroundings where
  contentAt := surroundings.contentAt
  envValue other := if other = name then none else surroundings.envValue other

/-- The same surroundings with this text in the file. -/
def Surroundings.holding (surroundings : Surroundings) (path text : String) : Surroundings where
  contentAt other := if other = path then .file text.toUTF8 else surroundings.contentAt other
  envValue := surroundings.envValue

/-- The file holds the text. -/
theorem Surroundings.readText_holding (surroundings : Surroundings) (path text : String) :
    (surroundings.holding path text).readText path = .ok text :=
  readText_file (if_pos rfl)

namespace EngineSettings

/-- A variable is all that its number depends on. -/
theorem numberIn_congr {surroundings surroundings' : Surroundings} {name : String}
    (h : surroundings'.envValue name = surroundings.envValue name) :
    numberIn surroundings' name = numberIn surroundings name := by
  rw [numberIn, numberIn, h]

/-- Without the variable, what else the environment says is put over the settings alike. -/
theorem override_eq (setting : NumberSetting) {surroundings surroundings' : Surroundings} {n : Nat}
    (hset : numberIn surroundings setting.environmentName = .ok (some n))
    (hunset : surroundings'.envValue setting.environmentName = none)
    (hothers : ∀ name ≠ setting.environmentName,
      surroundings'.envValue name = surroundings.envValue name) (settings : EngineSettings) :
    override surroundings settings = override surroundings' (setting.put n settings) ∧
      override surroundings settings = (override surroundings' settings).map (setting.put n) := by
  have hnone : numberIn surroundings' setting.environmentName = .ok none := by
    rw [numberIn, hunset]
  have hother : ∀ other : NumberSetting, other ≠ setting →
      numberIn surroundings' other.environmentName =
        numberIn surroundings other.environmentName := by
    intro other hne
    refine numberIn_congr (hothers _ ?_)
    cases other <;> cases setting <;> first | exact absurd rfl hne | decide
  unfold override
  cases setting with
  | artifactIdleSecs =>
    have hqueue := hother .queueIdleSecs nofun
    have hlimit := hother .maxExecutionMs nofun
    simp only [NumberSetting.environmentName] at hset hnone hqueue hlimit
    rw [hset, hnone, hqueue, hlimit]
    cases numberIn surroundings "EXTSCRIPT_ASYNC_QUEUE_IDLE_SECS" <;>
      cases numberIn surroundings "EXTSCRIPT_MAX_EXECUTION_MS" <;> exact ⟨rfl, rfl⟩
  | queueIdleSecs =>
    have hartifact := hother .artifactIdleSecs nofun
    have hlimit := hother .maxExecutionMs nofun
    simp only [NumberSetting.environmentName] at hset hnone hartifact hlimit
    rw [hset, hnone, hartifact, hlimit]
    cases numberIn surroundings "EXTSCRIPT_ARTIFACT_IDLE_SECS" <;>
      cases numberIn surroundings "EXTSCRIPT_MAX_EXECUTION_MS" <;> exact ⟨rfl, rfl⟩
  | maxExecutionMs =>
    have hartifact := hother .artifactIdleSecs nofun
    have hqueue := hother .queueIdleSecs nofun
    simp only [NumberSetting.environmentName] at hset hnone hartifact hqueue
    rw [hset, hnone, hartifact, hqueue]
    cases numberIn surroundings "EXTSCRIPT_ARTIFACT_IDLE_SECS" <;>
      cases numberIn surroundings "EXTSCRIPT_ASYNC_QUEUE_IDLE_SECS" <;> exact ⟨rfl, rfl⟩

/-- Settings are loaded from the file that is named, and the environment is put over them. -/
theorem load_of_path {surroundings : Surroundings} {path : Option String} {file : String}
    (hpath : (path.orElse fun _ => surroundings.envValue pathVariable) = some file) :
    load surroundings path = loadFile surroundings file >>= override surroundings := by
  rw [load, hpath]

/-- A setting means the same in the environment and in the file: the settings that are loaded are
the same, and so are the limits of scripts, and besides they are what they are without the
variable. -/
theorem load_environment_eq_file (setting : NumberSetting) {n : Nat} (hn : n < 2 ^ 64)
    {surroundings : Surroundings} {path : Option String} {file text text' before after : String}
    {settings : EngineSettings}
    (hpath : (path.orElse fun _ => surroundings.envValue pathVariable) = some file)
    (htext : surroundings.readText file = .ok text)
    (hloads : loadFile surroundings file = .ok settings)
    (hset : surroundings.envValue setting.environmentName = some (before ++ toString n ++ after))
    (hbefore : ∀ c ∈ before.toList, Text.isBlank c = true)
    (hafter : ∀ c ∈ after.toList, Text.isBlank c = true)
    (hreplaces : setting.ReplacesIn n text text') :
    let without := surroundings.unset setting.environmentName
    load surroundings path = load (without.holding file text') path ∧
      (load surroundings path).map limits = (load (without.holding file text') path).map limits ∧
      load surroundings path = (load without path).map (setting.put n) := by
  intro without
  have hnumber := numberIn_numeral hn hbefore hafter hset
  have hvariable : pathVariable ≠ setting.environmentName := by cases setting <;> decide
  have hpath' : (path.orElse fun _ => without.envValue pathVariable) = some file := by
    rw [show without.envValue pathVariable = surroundings.envValue pathVariable from
      if_neg hvariable]
    exact hpath
  have hfile' := loadFile_replaced hn htext (without.readText_holding file text') hloads hreplaces
  have hunset : without.envValue setting.environmentName = none := if_pos rfl
  obtain ⟨hsame, hput⟩ :=
    override_eq setting hnumber hunset (fun name hname => if_neg hname) settings
  have hfile : loadFile without file = .ok settings := hloads
  have hload : load surroundings path = override surroundings settings := by
    rw [load_of_path hpath, hloads]
    rfl
  have hload' : load without path = override without settings := by
    rw [load_of_path hpath', hfile]
    rfl
  have hheld : load (without.holding file text') path =
      override without (setting.put n settings) := by
    have hload : load (without.holding file text') path =
        loadFile (without.holding file text') file >>= override without := load_of_path hpath'
    rw [hload, hfile']
    rfl
  rw [hload, hload', hheld]
  exact ⟨hsame, congrArg _ hsame, hput⟩

/-- The document in a text that is not blank, from its characters. -/
theorem documentOf_chars {text : String} {chars : List Char} {document : Json.Node}
    (hchars : text.toList = chars) (hblank : (Text.trimBlanks text).isEmpty = false)
    (hread : (Json.checkEnd (Json.readNode (2 * chars.length + 2) (some Json.nestingLimit)
        ⟨chars, .start⟩).2).toOption.map (fun _ =>
      (Json.readNode (2 * chars.length + 2) (some Json.nestingLimit) ⟨chars, .start⟩).1.bare) =
        some document) : documentOf text = some document := by
  rw [documentOf, hblank, ← hread, ← hchars]
  rfl

/-- Surroundings with two settings in `s.json`, where a variable sets the limit of the time. -/
def limitedBy (value : String) : Surroundings :=
  Surroundings.holding ⟨fun _ => .missing, fun name =>
    if name = "EXTSCRIPT_MAX_EXECUTION_MS" then some value else none⟩ "s.json"
    "\x7b\"asyncQueueIdleSecs\":9,\"max_execution_ms\":50\x7d"

/-- The variable prevails over the limit in the file, which moves to another place and another
spelling in the second file; and zero is the limit that a file says by `null`. -/
theorem load_environment_eq_file_limits :
    let withLimit := fun value text' =>
      load (((limitedBy value).unset "EXTSCRIPT_MAX_EXECUTION_MS").holding "s.json" text')
        (some "s.json")
    (load (limitedBy " 250\n") (some "s.json") =
        .ok { queueIdleSecs := 9, maxExecutionMs := some 250 } ∧
      load (limitedBy " 250\n") (some "s.json") =
        withLimit " 250\n" "\x7b\"maxExecutionMs\":250,\"asyncQueueIdleSecs\":9\x7d") ∧
    load (limitedBy "0") (some "s.json") = .ok { queueIdleSecs := 9 } ∧
      load (limitedBy "0") (some "s.json") =
        withLimit "0" "\x7b\"max_execution_ms\":null,\"asyncQueueIdleSecs\":9\x7d" := by
  intro withLimit
  have htext : documentOf "\x7b\"asyncQueueIdleSecs\":9,\"max_execution_ms\":50\x7d" =
      some (.object none
        [("asyncQueueIdleSecs", none, .scalar (.number (.int 9 (by decide))) none),
          ("max_execution_ms", none, .scalar (.number (.int 50 (by decide))) none)]
        (.closed none)) :=
    documentOf_chars (show _ = ['\x7b', '"', 'a', 's', 'y', 'n', 'c', 'Q', 'u', 'e', 'u', 'e', 'I',
      'd', 'l', 'e', 'S', 'e', 'c', 's', '"', ':', '9', ',', '"', 'm', 'a', 'x', '_', 'e', 'x',
      'e', 'c', 'u', 't', 'i', 'o', 'n', '_', 'm', 's', '"', ':', '5', '0',
      '\x7d'] by decide +kernel)
      (by decide +kernel) rfl
  have hlimit : documentOf "\x7b\"maxExecutionMs\":250,\"asyncQueueIdleSecs\":9\x7d" =
      some (.object none
        [("maxExecutionMs", none, .scalar (.number (.int 250 (by decide))) none),
          ("asyncQueueIdleSecs", none, .scalar (.number (.int 9 (by decide))) none)]
        (.closed none)) :=
    documentOf_chars (show _ = ['\x7b', '"', 'm', 'a', 'x', 'E', 'x', 'e', 'c', 'u', 't', 'i', 'o',
      'n', 'M', 's', '"', ':', '2', '5', '0', ',', '"', 'a', 's', 'y', 'n', 'c', 'Q', 'u', 'e',
      'u', 'e', 'I', 'd', 'l', 'e', 'S', 'e', 'c', 's', '"', ':', '9', '\x7d'] by decide +kernel)
      (by decide +kernel) rfl
  have hnull : documentOf "\x7b\"max_execution_ms\":null,\"asyncQueueIdleSecs\":9\x7d" =
      some (.object none
        [("max_execution_ms", none, .scalar .null none),
          ("asyncQueueIdleSecs", none, .scalar (.number (.int 9 (by decide))) none)]
        (.closed none)) :=
    documentOf_chars (show _ = ['\x7b', '"', 'm', 'a', 'x', '_', 'e', 'x', 'e', 'c', 'u', 't', 'i',
      'o', 'n', '_', 'm', 's', '"', ':', 'n', 'u', 'l', 'l', ',', '"', 'a', 's', 'y', 'n', 'c',
      'Q', 'u', 'e', 'u', 'e', 'I', 'd', 'l', 'e', 'S', 'e', 'c', 's', '"', ':', '9',
      '\x7d'] by decide +kernel)
      (by decide +kernel) rfl
  have hloads : ∀ value, loadFile (limitedBy value) "s.json" =
      .ok { queueIdleSecs := 9, maxExecutionMs := some 50 } := fun value =>
    loadFile_eq_ok (Surroundings.readText_holding _ _ _) (by rw [htext]; decide +kernel)
  have hwithout : ∀ value,
      load ((limitedBy value).unset "EXTSCRIPT_MAX_EXECUTION_MS") (some "s.json") =
        .ok { queueIdleSecs := 9, maxExecutionMs := some 50 } := fun value => by
    rw [load_of_path (show _ = some "s.json" from rfl),
      show loadFile ((limitedBy value).unset "EXTSCRIPT_MAX_EXECUTION_MS") "s.json" = _ from
        hloads value]
    rfl
  have hset : (limitedBy " 250\n").envValue NumberSetting.maxExecutionMs.environmentName =
      some (" " ++ toString 250 ++ "\n") := by decide +kernel
  have hset' : (limitedBy "0").envValue NumberSetting.maxExecutionMs.environmentName =
      some ("" ++ toString 0 ++ "") := by decide +kernel
  obtain ⟨hsame, -, hput⟩ := load_environment_eq_file .maxExecutionMs (by decide)
    (show (some "s.json").orElse _ = _ from rfl) (Surroundings.readText_holding _ _ _)
    (hloads _) hset (by simp [Text.isBlank]) (by simp [Text.isBlank])
    ⟨_, _, htext, hlimit, .object ⟨rfl, ⟨_, _, rfl⟩⟩⟩
  obtain ⟨hsame', -, hput'⟩ := load_environment_eq_file .maxExecutionMs (by decide)
    (show (some "s.json").orElse _ = _ from rfl) (Surroundings.readText_holding _ _ _)
    (hloads _) hset' (by simp) (by simp) ⟨_, _, htext, hnull, .object ⟨rfl, ⟨_, _, rfl⟩⟩⟩
  refine ⟨⟨hput.trans ?_, hsame⟩, hput'.trans ?_, hsame'⟩
  · exact congrArg (Except.map _) (hwithout _)
  · exact congrArg (Except.map _) (hwithout _)

/-- Surroundings with an empty object in `s.json`, where a variable sets the limit of the time to
zero. -/
def zeroLimit : Surroundings :=
  Surroundings.holding ⟨fun _ => .missing, fun name =>
    if name = "EXTSCRIPT_MAX_EXECUTION_MS" then some " 0\n" else none⟩ "s.json" "\x7b\x7d"

/-- A file with an empty object. -/
theorem documentOf_empty :
    documentOf "\x7b\x7d" = some (.object none [] (.closed none)) :=
  documentOf_chars (show _ = ['\x7b', '\x7d'] by decide +kernel) (by decide +kernel) rfl

/-- Zero for the limit of the time is no limit in the environment, but a limit in a file. -/
theorem zero_limit_differs :
    let without := zeroLimit.unset "EXTSCRIPT_MAX_EXECUTION_MS"
    load zeroLimit (some "s.json") = .ok {} ∧
      load (without.holding "s.json" "\x7b\"maxExecutionMs\":0\x7d") (some "s.json") =
        .ok { maxExecutionMs := some 0 } ∧
      limits {} ≠ limits { maxExecutionMs := some 0 } := by
  intro without
  have hempty : loadFile zeroLimit "s.json" = .ok {} :=
    loadFile_eq_ok (Surroundings.readText_holding _ _ _) (by rw [documentOf_empty]; rfl)
  have htext : documentOf "\x7b\"maxExecutionMs\":0\x7d" = some (.object none [("maxExecutionMs",
      none, .scalar (.number (.int 0 (by decide))) none)] (.closed none)) :=
    documentOf_chars (show _ = ['\x7b', '"', 'm', 'a', 'x', 'E', 'x', 'e', 'c', 'u', 't', 'i', 'o',
      'n', 'M', 's', '"', ':', '0', '\x7d'] by decide +kernel) (by decide +kernel) rfl
  have hzero : loadFile (without.holding "s.json" "\x7b\"maxExecutionMs\":0\x7d") "s.json" =
      .ok { maxExecutionMs := some 0 } :=
    loadFile_eq_ok (Surroundings.readText_holding _ _ _) (by rw [htext]; decide +kernel)
  have hnumber : numberIn zeroLimit "EXTSCRIPT_MAX_EXECUTION_MS" = .ok (some 0) := by
    rw [numberIn, show zeroLimit.envValue "EXTSCRIPT_MAX_EXECUTION_MS" = some " 0\n" from rfl]
    rfl
  refine ⟨?_, ?_, by decide⟩
  · rw [load_of_path (show _ = some "s.json" from rfl), hempty]
    show override zeroLimit {} = _
    rw [override, hnumber]
    rfl
  · rw [load_of_path (show _ = some "s.json" from rfl), hzero]
    rfl

end EngineSettings

end ScriptHooks

/-
ScriptHooks.Proofs.Command.ValidatedFiles — what the verdict on a file depends on.

The command that validates a file reports whether the script in it may be kept, and fails if not
(`Judges`). The script would be kept under the stem of the file, so two things count: the script
itself (`Sound`), and whether its name could be the stem. It could unless blanks or control
characters stand there (`checkName_stem`), for a stem has no slash and is not empty. All else that
the name of the file may have an effect on is what the script answers when it is asked about itself.

  §1 Names   — stems of files as names of scripts;
  §2 Drafts  — a draft that is not accepted is refused as invalid, whatever step fails;
  §3 Reports — the verdicts in the two kinds of reports;
  §4 Runs    — the verdict of one run, and those of two runs on the same script.

A run can go wrong without a verdict, when a file cannot be read or an engine cannot be made. §2
shows that nothing of the kind comes from the check of a draft: each step that fails does so with a
refusal (`IsVerdict`), so that a run on a file that is there reports one verdict or the other.

`Sound` is about the script and what it says about itself, and has no name in it but the label under
which the script is asked. Two runs therefore agree on it if the script answers both alike, and the
verdicts differ only where one stem is a name that a script may have and the other is not
(`verdicts_of_stems`).

A report is a JSON object that a reader of the output may parse. What is shown of it is its first
entry, which says whether the script is valid (`Json.get?_ofEntries_first`), and how the command
ends.
-/
import ScriptHooks.Command.Execution
import ScriptHooks.Proofs.Hook.AuthoringFrames
import ScriptHooks.Proofs.Hook.ParameterValues
import ScriptHooks.Proofs.Json.BareDocuments

namespace ScriptHooks

/-! ## Names -/

/-- Neither blanks nor control characters stand in a text. -/
def isPlain (text : String) : Bool :=
  text.toList.all fun c => !(Text.isBlank c || Text.isControl c)

/-- What stands between slashes has none. -/
theorem slash_not_mem_splitSlashes (path : List Char) :
    ∀ part ∈ lastPart.splitSlashes path, '/' ∉ part := by
  induction path with
  | nil => simp [lastPart.splitSlashes]
  | cons c path ih =>
    rw [lastPart.splitSlashes]
    split
    case h_1 => simp
    case h_2 part parts heq =>
      rw [heq] at ih
      obtain ⟨hpart, hparts⟩ := List.forall_mem_cons.mp ih
      split
      case isTrue => exact List.forall_mem_cons.mpr ⟨List.not_mem_nil, ih⟩
      case isFalse hc =>
        refine List.forall_mem_cons.mpr ⟨?_, hparts⟩
        rw [List.mem_cons, not_or]
        exact ⟨Ne.symm hc, hpart⟩

/-- The last part of a path is not empty and has no slash. -/
theorem lastPart_spec {path : String} {name : List Char} (h : lastPart path = some name) :
    name ≠ [] ∧ '/' ∉ name := by
  rw [lastPart] at h
  have hparts : ∀ part ∈ (lastPart.splitSlashes path.toList).filter fun part =>
      !part.isEmpty && part != ['.'], part ≠ [] ∧ '/' ∉ part := by
    intro part hpart
    obtain ⟨hmem, hkept⟩ := List.mem_filter.mp hpart
    refine ⟨?_, slash_not_mem_splitSlashes _ part hmem⟩
    rintro rfl
    cases hkept
  generalize List.filter _ _ = parts at h hparts
  split at h
  case h_1 => cases h
  case h_2 =>
    split at h
    case isTrue => cases h
    case isFalse => exact hparts name (List.mem_of_getLast? h)

/-- A stem is never empty, and no slash stands in it. -/
theorem fileStem_spec {path stem : String} (h : fileStem path = some stem) :
    stem.toList ≠ [] ∧ '/' ∉ stem.toList := by
  obtain ⟨name, hname, rfl⟩ := Option.map_eq_some_iff.mp h
  obtain ⟨hne, hslash⟩ := lastPart_spec hname
  dsimp only
  rw [String.toList_ofList]
  split
  case isTrue => exact ⟨hne, hslash⟩
  case isFalse hstem =>
    exact ⟨fun hnil => hstem (List.isEmpty_iff.mpr hnil),
      fun hmem => hslash (List.mem_of_mem_take hmem)⟩

/-- A stem is a name that a script may have exactly if it is plain. -/
theorem checkName_stem {path stem : String} (h : fileStem path = some stem) :
    checkName stem = .ok () ↔ isPlain stem = true := by
  obtain ⟨hne, hslash⟩ := fileStem_spec h
  have hunreadable : (stem.toList.any fun c => c == '/' || Text.isBlank c || Text.isControl c) =
      !isPlain stem := by
    rw [isPlain, List.not_all_eq_any_not, Bool.eq_iff_iff]
    simp only [List.any_eq_true, Bool.not_not, Bool.or_eq_true, beq_iff_eq]
    refine exists_congr fun c => and_congr_right fun hc => ?_
    rw [or_assoc]
    exact or_iff_right fun hslash' => hslash (hslash' ▸ hc)
  rw [checkName, scriptNameProblem, hunreadable]
  cases hplain : isPlain stem with
  | true =>
    have hvisible : stem.toList.all Text.isBlank = false := by
      obtain ⟨first, rest, hchars⟩ := List.exists_cons_of_ne_nil hne
      have hfirst := List.all_eq_true.mp hplain first (hchars ▸ List.mem_cons_self)
      rw [Bool.not_eq_true', Bool.or_eq_false_iff] at hfirst
      rw [hchars, List.all_cons, hfirst.1, Bool.false_and]
    simp [hvisible]
  | false => cases stem.toList.all Text.isBlank <;> simp

/-! ## Drafts -/

/-- What a script answers when it is asked about itself under a label. -/
def ScriptRuntime.description (runtime : ScriptRuntime) (label source : String) :
    Except HookError Json :=
  (runtime.call {
    script := label
    program := source
    entry := Script.metadataEntryPoint
    globals := []
    argument := none
    context := { script := label } }).outcome

/-- A result that accepts something or refuses it as invalid: nothing else goes wrong. -/
inductive IsVerdict {α : Type} : Except HookError α → Prop
  | accepts (value : α) : IsVerdict (.ok value)
  | refuses (error : Script.ValidationError) : IsVerdict (.error (.validation error))

/-- What fails in one step or the other fails with a refusal. -/
theorem IsVerdict.bind {α β : Type} {result : Except HookError α} {next : α → Except HookError β}
    (h : IsVerdict result) (hnext : ∀ value, IsVerdict (next value)) :
    IsVerdict (result >>= next) := by
  cases h with
  | accepts value => exact hnext value
  | refuses error => exact .refuses error

theorem IsVerdict.map {α β : Type} {result : Except HookError α} (h : IsVerdict result)
    (f : α → β) : IsVerdict (result.map f) := by
  cases h with
  | accepts value => exact .accepts (f value)
  | refuses error => exact .refuses error

theorem isVerdict_checkName (name : String) : IsVerdict (checkName name) := by
  rw [checkName]
  split
  case h_1 => exact .refuses _
  case h_2 => exact .accepts ()

theorem isVerdict_checkSource (source : String) : IsVerdict (checkSource source) := by
  unfold checkSource
  split
  case h_1 => exact .refuses _
  case h_2 tree _ =>
    cases Script.checkEntryPoints tree with
    | error missing => exact .refuses missing
    | ok _ => exact .accepts ()

namespace Engine

variable {runtime : ScriptRuntime} {label source : String}

/-- A script that does not describe itself is refused. -/
theorem isVerdict_metadataOf (runtime : ScriptRuntime) (label source : String) :
    IsVerdict (metadataOf runtime label source).1 := by
  dsimp only [metadataOf]
  split
  case h_1 => exact .refuses _
  case h_2 value _ =>
    cases ScriptMetadata.ofJson value with
    | error problem => exact .refuses _
    | ok metadata => exact .accepts metadata

/-- A script describes itself if it answers, and the answer is a good description. -/
theorem metadataOf_eq_ok_iff {metadata : ScriptMetadata} :
    (metadataOf runtime label source).1 = .ok metadata ↔
      ∃ value, runtime.description label source = .ok value ∧
        ScriptMetadata.ofJson value = .ok metadata := by
  dsimp only [metadataOf, ScriptRuntime.description]
  split
  case h_1 herror => simp [herror]
  case h_2 value hvalue =>
    rw [hvalue]
    cases hread : ScriptMetadata.ofJson value <;> simp [Except.mapError, hread]

end Engine

/-- Whatever step of the check of a draft fails, the draft is refused as invalid. -/
theorem ScriptDraft.isVerdict_checked (runtime : ScriptRuntime) (draft : ScriptDraft) :
    IsVerdict (draft.checked runtime).1 := by
  have hchecks : IsVerdict (checkName draft.name >>= fun _ => checkSource draft.source) :=
    (isVerdict_checkName draft.name).bind fun _ => isVerdict_checkSource draft.source
  unfold checked
  generalize (checkName draft.name >>= fun _ => checkSource draft.source) = checks at hchecks ⊢
  cases hchecks with
  | refuses error => exact .refuses error
  | accepts _ => exact (Engine.isVerdict_metadataOf runtime _ draft.source).map draft.define

/-! ## Reports -/

/-- A report on a file that says whether the script in it is valid. Such a command fails if the
script is not. -/
structure CommandReport.Judges (report : CommandReport) (file : String) (valid : Bool) : Prop where
  verdict : ∃ value : Json,
    report.printed = value.pretty ++ "\n" ∧ value.get? "valid" = some (.bool valid)
  fault : report.fault = if valid then none else some (.refused file)

/-- The first entry of an object stands unless a later one has its key. -/
theorem Json.get?_ofEntries_first {key : String} {value : Json} (later : List (String × Json))
    (h : key ∉ later.map (·.1)) : (ofEntries ((key, value) :: later)).get? key = some value := by
  show valueOf key ((key, value) :: later) = some value
  induction later using List.reverseRecOn with
  | nil => simp [valueOf, orderFields, insertField, lookup]
  | append_singleton later entry ih =>
    rw [List.map_append, List.mem_append, not_or] at h
    have hne : entry.1 ≠ key := fun heq => h.2 (heq ▸ List.mem_singleton_self _)
    rw [← List.cons_append, valueOf_concat, if_neg hne]
    exact ih h.1

/-- A refusal says that the script is not valid. -/
theorem judges_refusal (error : Script.ValidationError) (file : String) :
    (CommandReport.print (refusal error) (some (.refused file))).Judges file false where
  verdict := ⟨refusal error, rfl, Json.get?_ofEntries_first _ (by simp)⟩
  fault := rfl

/-- An acceptance says that it is. -/
theorem judges_acceptance (definition : ScriptDefinition) (tree : Script.SymbolTree)
    (file : String) : (CommandReport.print (acceptance definition tree)).Judges file true where
  verdict := ⟨acceptance definition tree, rfl, Json.get?_ofEntries_first _ (by simp)⟩
  fault := rfl

/-! ## Runs -/

/-- A run of the command on a file that holds this text, under these settings. -/
structure ValidationRun (settings : EngineSettings) (source : String) where
  surroundings : Surroundings
  settingsPath : Option String
  file : String
  stem : String
  loads : EngineSettings.load surroundings settingsPath = .ok settings
  reads : surroundings.readText file = .ok source
  hasStem : fileStem file = some stem

namespace ValidationRun

variable {settings : EngineSettings} {source : String}

/-- What the run prints, and why it fails if it does. -/
def report (run : ValidationRun settings source) (maker : RuntimeMaker) : CommandReport :=
  CommandLine.execute run.surroundings maker ⟨run.settingsPath, .validate run.file⟩

/-- What the script answers about itself in the run. -/
def description (run : ValidationRun settings source) (maker : RuntimeMaker) :
    Except HookError Json :=
  (maker settings).description (ScriptId.mk .root run.stem).text source

/-- The script may be kept under some name: its source is in order, and so is what it says about
itself. -/
def Sound (run : ValidationRun settings source) (maker : RuntimeMaker) : Prop :=
  Script.Keepable source ∧
    ∃ value metadata, run.description maker = .ok value ∧ ScriptMetadata.ofJson value = .ok metadata

variable {maker : RuntimeMaker} {run : ValidationRun settings source}

def draft (run : ValidationRun settings source) : ScriptDraft := ⟨.root, run.stem, source, true⟩

/-- A draft passes its checks if the stem is plain and the script sound. -/
theorem exists_checked_iff :
    (∃ definition, (run.draft.checked (maker settings)).1 = .ok definition) ↔
      isPlain run.stem = true ∧ run.Sound maker := by
  simp only [ScriptDraft.checked_eq_ok_iff]
  constructor
  · rintro ⟨_, metadata, hdescribes, -⟩
    obtain ⟨value, hvalue, hread⟩ := Engine.metadataOf_eq_ok_iff.mp hdescribes.answer
    exact ⟨(checkName_stem run.hasStem).mp hdescribes.name, hdescribes.source, value, metadata,
      hvalue, hread⟩
  · rintro ⟨hname, hsource, value, metadata, hvalue, hread⟩
    exact ⟨_, metadata, ⟨(checkName_stem run.hasStem).mpr hname, hsource,
      Engine.metadataOf_eq_ok_iff.mpr ⟨value, hvalue, hread⟩⟩, rfl⟩

/-- The report of a run is that of the command. -/
theorem report_eq (run : ValidationRun settings source) (maker : RuntimeMaker) :
    run.report maker = .ofExcept (validateScript maker settings run.file source) := by
  rw [report, CommandLine.execute, run.loads]
  show CommandReport.ofExcept (scriptText run.surroundings run.file >>= _) = _
  rw [scriptText, run.reads]
  rfl

/-- A source that is not valid is refused. -/
theorem report_of_invalid {error : Script.ValidationError}
    (h : Script.validate source = .error error) :
    run.report maker = .print (refusal error) (some (.refused run.file)) := by
  rw [report_eq]
  unfold validateScript
  rw [h]
  rfl

/-- The report on a source that is valid, from what comes of the draft. -/
theorem report_of_valid {tree : Script.SymbolTree} (h : Script.validate source = .ok tree) :
    run.report maker = .ofExcept (match (run.draft.checked (maker settings)).1 with
      | .ok definition => .ok (.print (acceptance definition tree))
      | .error (.validation error) => .ok (.print (refusal error) (some (.refused run.file)))
      | .error error => .error (.hook error)) := by
  have hname : nameOfScript run.file none = .ok run.stem := by
    rw [nameOfScript, Option.orElse_none, run.hasStem]
  have houtcome : ((emptyService maker settings).submitScript run.draft).outcome =
      (run.draft.checked (maker settings)).1 := by
    rw [Service.submitScript_eq]
    rfl
  rw [report_eq, ← houtcome]
  unfold validateScript
  rw [h]
  dsimp only
  rw [hname]
  rfl

/-- A run reports that the script is valid exactly if the script is sound and the stem of the file
is plain. -/
theorem judges_report (run : ValidationRun settings source) (maker : RuntimeMaker) :
    ∃ valid, (run.report maker).Judges run.file valid ∧
      (valid = true ↔ isPlain run.stem = true ∧ run.Sound maker) := by
  rw [← exists_checked_iff]
  cases hvalidate : Script.validate source with
  | error error =>
    rw [report_of_invalid hvalidate]
    refine ⟨false, judges_refusal error run.file, iff_of_false Bool.false_ne_true ?_⟩
    rintro ⟨_, hchecked⟩
    obtain ⟨_, hdescribes, -⟩ := ScriptDraft.checked_eq_ok_iff.mp hchecked
    obtain ⟨tree, htree, -⟩ := hdescribes.source
    cases hvalidate.symm.trans htree
  | ok tree =>
    rw [report_of_valid hvalidate]
    have hverdict := run.draft.isVerdict_checked (maker settings)
    generalize (run.draft.checked (maker settings)).1 = checked at hverdict ⊢
    cases hverdict with
    | accepts definition =>
      exact ⟨true, judges_acceptance definition tree run.file, iff_of_true rfl ⟨_, rfl⟩⟩
    | refuses error =>
      exact ⟨false, judges_refusal error run.file, iff_of_false Bool.false_ne_true nofun⟩

/-- Of two runs in which the same script says the same about itself, each reports whether the script
is sound, unless the stem of its file is not plain: then it reports that the script is not valid. -/
theorem verdicts_of_stems (maker : RuntimeMaker) (first second : ValidationRun settings source)
    (hsame : ∀ value, first.description maker = .ok value ↔ second.description maker = .ok value) :
    ∃ sound : Bool, (sound = true ↔ first.Sound maker) ∧
      (first.report maker).Judges first.file (sound && isPlain first.stem) ∧
      (second.report maker).Judges second.file (sound && isPlain second.stem) := by
  classical
  have hsound : second.Sound maker ↔ first.Sound maker := by
    simp only [Sound, hsame]
  have hjudges : ∀ run : ValidationRun settings source, (run.Sound maker ↔ first.Sound maker) →
      (run.report maker).Judges run.file (decide (first.Sound maker) && isPlain run.stem) := by
    intro run hrun
    obtain ⟨valid, hjudges, hvalid⟩ := run.judges_report maker
    have heq : valid = (decide (first.Sound maker) && isPlain run.stem) := by
      rw [Bool.eq_iff_iff, hvalid, hrun, Bool.and_eq_true, decide_eq_true_iff]
      exact and_comm
    exact heq ▸ hjudges
  exact ⟨decide (first.Sound maker), decide_eq_true_iff, hjudges first Iff.rfl,
    hjudges second hsound⟩

end ValidationRun

/-- A script that greets whoever signs up. -/
def greeter : String :=
  "function getScriptMetadata() \x7b\n"
    ++ "  return \x7bid: 'greet', displayName: 'Greet', events: ['USER_SIGNED_UP']\x7d;\n\x7d\n"
    ++ "function executeScript() \x7b return 'welcome'; \x7d\n"

def greeterMaker : RuntimeMaker := fun _ => {
  call := fun call =>
    let answer : Json :=
      if call.entry = Script.metadataEntryPoint then
        .ofEntries [("id", .string "greet"), ("displayName", .string "Greet"),
          ("events", .strings ["USER_SIGNED_UP"])]
      else .string "welcome"
    ⟨.ok answer, {}⟩
  checkSyntax := fun _ _ => .ok () }

namespace ValidationRun

/-- A run on a file that holds the greeter, with nothing set. -/
def ofGreeter (file stem : String) (hasStem : fileStem file = some stem) :
    ValidationRun {} greeter where
  surroundings := ⟨fun _ => .file greeter.toUTF8, fun _ => none⟩
  settingsPath := none
  file := file
  stem := stem
  loads := rfl
  reads := Surroundings.readText_file rfl
  hasStem := hasStem

/-- The greeter is sound, whatever its file. -/
theorem sound_ofGreeter (file stem : String) (hasStem : fileStem file = some stem) :
    (ofGreeter file stem hasStem).Sound greeterMaker := by
  have hsource : (checkSource greeter).toOption = some () := by decide +kernel
  have hread : (ScriptMetadata.ofJson (.ofEntries [("id", .string "greet"),
      ("displayName", .string "Greet"), ("events", .strings ["USER_SIGNED_UP"])])).toOption =
        some { id := "greet", displayName := "Greet", events := ["USER_SIGNED_UP"] } := by
    decide +kernel
  exact ⟨checkSource_eq_ok_iff.mp (Json.toOption_eq_some_iff.mp hsource), _, _, rfl,
    Json.toOption_eq_some_iff.mp hread⟩

/-- A greeter in two files, in a directory and not, whose stems it may both be kept under. -/
theorem verdicts_of_greeters :
    let first := ofGreeter "hook.js" "hook" (by decide +kernel)
    let second := ofGreeter "hooks/greet.v2.js" "greet.v2" (by decide +kernel)
    (∀ value, first.description greeterMaker = .ok value ↔
        second.description greeterMaker = .ok value) ∧
      (first.report greeterMaker).Judges "hook.js" true ∧
      (second.report greeterMaker).Judges "hooks/greet.v2.js" true := by
  intro first second
  have hsame : ∀ value, first.description greeterMaker = .ok value ↔
      second.description greeterMaker = .ok value := fun _ => Iff.rfl
  obtain ⟨sound, hsound, hfirst, hsecond⟩ := verdicts_of_stems greeterMaker first second hsame
  have hnamed : isPlain first.stem = true ∧ isPlain second.stem = true := by decide +kernel
  rw [hsound.mpr (sound_ofGreeter _ _ _), Bool.true_and] at hfirst hsecond
  rw [hnamed.1] at hfirst
  rw [hnamed.2] at hsecond
  exact ⟨hsame, hfirst, hsecond⟩

/-- A script that is accepted in one file is refused in another one with a blank in its name. -/
theorem greeter_refused_for_blank :
    let plain := ofGreeter "hook.js" "hook" (by decide +kernel)
    let spaced := ofGreeter "my hook.js" "my hook" (by decide +kernel)
    plain.description greeterMaker = spaced.description greeterMaker ∧
      (plain.report greeterMaker).Judges "hook.js" true ∧
      (spaced.report greeterMaker).Judges "my hook.js" false := by
  intro plain spaced
  have hplain : isPlain plain.stem = true := by decide +kernel
  have hspaced : isPlain spaced.stem = false := by decide +kernel
  obtain ⟨accepted, haccepted, hiff⟩ := plain.judges_report greeterMaker
  obtain ⟨refused, hrefused, hiff'⟩ := spaced.judges_report greeterMaker
  obtain rfl : accepted = true := hiff.mpr ⟨hplain, sound_ofGreeter _ _ _⟩
  obtain rfl : refused = false := by
    rw [← Bool.not_eq_true, hiff', hspaced]
    exact fun h => Bool.false_ne_true h.1
  exact ⟨rfl, haccepted, hrefused⟩

end ValidationRun

end ScriptHooks

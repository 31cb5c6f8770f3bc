/-
ScriptHooks.Proofs.Host.HostSpellings — what the policy makes of the spellings of a host.

A host may be written in capitals or in small letters, and with a dot behind its name or without.
The letters never matter. The dot does: a pattern stands for the name with the dot only if it ends
in a dot itself (`stands_dotted_iff`). So the two names fare alike only if the patterns let both
through or neither, which `spellings_agree_iff` says exactly; a host on the list of those that may
not be asked is let through with the dot (`denied_host_dotted`).

Three layers:

* patterns: `Stands pattern host` says what a pattern stands for, a name or all names below one, and
  the test of characters decides it (`patternMatches_iff`). A star in a host could be taken for that
  of a pattern, but no plain name has one;
* settings: a host is let through if no pattern of the one list stands for it and, where there is
  another list, some pattern of that does (`HttpSettings.Admits`). It is stated for any meaning of
  patterns, so that it serves the name and the name with the dot;
* addresses: the check of an address with nothing but a plain name goes by the host that it is read
  as (`checkAddress_http`), and how names are read is the subject of `HostNames`.

Names that turn out to be numbers are read as numbers, with the dot or without, and then the dot
makes no difference.
-/
import ScriptHooks.Host.HostPolicy
import ScriptHooks.Proofs.Web.HostNames

namespace ScriptHooks

open Web

/-! ## Patterns -/

/-- The pattern is the host, or `*.` before the host or before a name above it. -/
def Stands (pattern host : List Char) : Prop :=
  pattern = host ∨
    ∃ name, pattern = '*' :: '.' :: name ∧ (host = name ∨ ('.' :: name) <:+ host)

/-- The test of a pattern decides what it stands for. -/
theorem patternMatches_iff {pattern host : List Char} (h : '*' ∉ host) :
    patternMatches pattern host = true ↔ Stands pattern host := by
  unfold patternMatches
  split
  case h_1 name =>
    have hne : '*' :: '.' :: name ≠ host := fun heq => h (heq ▸ List.mem_cons_self)
    simp [Stands, hne, or_comm]
  case h_2 hplain =>
    have hnone : ¬∃ name, pattern = '*' :: '.' :: name ∧ (host = name ∨ ('.' :: name) <:+ host) :=
      fun ⟨name, heq, _⟩ => hplain name heq
    rw [beq_iff_eq, Stands, or_iff_left hnone, eq_comm]

/-- The pattern is one for names with a dot behind them, and stands for the host but for it. -/
def StandsDotted (pattern host : List Char) : Prop :=
  ∃ rest, pattern = rest ++ ['.'] ∧ (rest = ['*'] ∨ Stands rest host)

/-- Only a pattern that ends in a dot stands for a host that does. -/
theorem stands_dotted_iff {pattern host : List Char} :
    Stands pattern (host ++ ['.']) ↔ StandsDotted pattern host := by
  constructor
  · rintro (rfl | ⟨name, rfl, rfl | hbelow⟩)
    · exact ⟨host, rfl, .inr (.inl rfl)⟩
    · exact ⟨'*' :: '.' :: host, rfl, .inr (.inr ⟨host, rfl, .inl rfl⟩)⟩
    · obtain rfl | ⟨init, last, rfl⟩ := name.eq_nil_or_concat
      · exact ⟨['*'], rfl, .inl rfl⟩
      · obtain ⟨before, hbefore⟩ := hbelow
        rw [List.concat_eq_append, ← List.cons_append, ← List.append_assoc] at hbefore
        obtain ⟨hhost, hlast⟩ := List.append_inj' hbefore rfl
        rw [List.singleton_inj.mp hlast]
        exact ⟨'*' :: '.' :: init, by simp, .inr (.inr ⟨init, rfl, .inr ⟨before, hhost⟩⟩)⟩
  · rintro ⟨rest, rfl, rfl | rfl | ⟨name, rfl, rfl | ⟨before, hbefore⟩⟩⟩
    · exact .inr ⟨[], rfl, .inr ⟨host, rfl⟩⟩
    · exact .inl rfl
    · exact .inr ⟨host ++ ['.'], rfl, .inl rfl⟩
    · exact .inr ⟨name ++ ['.'], rfl, .inr ⟨before, by rw [← hbefore]; simp⟩⟩

theorem Web.HostName.star_not_mem (host : HostName) :
    '*' ∉ host.chars ++ ['.'] := fun h =>
  absurd (host.isNameSign_of_mem_dotted h) (by decide)

/-! ## Settings -/

/-- The settings let a host through that the patterns with this property stand for. -/
def HttpSettings.Admits (settings : HttpSettings) (stands : List Char → Prop) : Prop :=
  (∀ pattern ∈ settings.denylist, ¬stands (pattern.toList.map Char.toLower)) ∧
    (settings.allowlist = [] ∨
      ∃ pattern ∈ settings.allowlist, stands (pattern.toList.map Char.toLower))

/-- Some pattern of a list stands for the host, capitals aside. -/
theorem anyMatches_iff {patterns : List String} {host : String}
    (h : '*' ∉ host.toList.map Char.toLower) :
    anyMatches patterns host = true ↔
      ∃ pattern ∈ patterns, Stands (pattern.toList.map Char.toLower)
        (host.toList.map Char.toLower) := by
  simp only [anyMatches, List.any_eq_true, patternMatches_iff h]

/-- What a check comes to: the code of the refusal, or nothing if the address is let through. -/
def verdict (outcome : Except CallError Url) : Option CallErrorCode :=
  match outcome with
  | .ok _ => none
  | .error error => some error.code

/-- An address with nothing but a host. -/
def httpAddress (host : String) : String := "http://" ++ host ++ "/"

namespace HttpSettings

/-- Whether the settings refuse the host. -/
def refuses (settings : HttpSettings) (host : String) : Bool :=
  anyMatches settings.denylist host ||
    (!settings.allowlist.isEmpty && !anyMatches settings.allowlist host)

/-- A host is let through by the settings. -/
theorem refuses_eq_false_iff (settings : HttpSettings) {host : String}
    (h : '*' ∉ host.toList.map Char.toLower) :
    settings.refuses host = false ↔ settings.Admits (Stands · (host.toList.map Char.toLower)) := by
  have hdeny : anyMatches settings.denylist host = false ↔ ∀ pattern ∈ settings.denylist,
      ¬Stands (pattern.toList.map Char.toLower) (host.toList.map Char.toLower) := by
    rw [← Bool.not_eq_true, anyMatches_iff h]
    simp
  rw [refuses, Bool.or_eq_false_iff, hdeny, Admits, ← anyMatches_iff h]
  cases hallow : settings.allowlist <;> simp

/-- A plain name is. -/
theorem refuses_small_eq_false_iff (settings : HttpSettings) (host : HostName) :
    settings.refuses host.small.text = false ↔
      settings.Admits (Stands · host.small.chars) := by
  have hsmall : host.small.text.toList.map Char.toLower = host.small.chars := by
    rw [HostName.text, String.toList_ofList, HostName.map_toLower_small]
  have hiff := settings.refuses_eq_false_iff (hsmall ▸ host.small.star_not_mem ∘
    List.mem_append_left ['.'])
  rwa [hsmall] at hiff

/-- A plain name with a dot behind it is. -/
theorem refuses_dotted_eq_false_iff (settings : HttpSettings) (host : HostName) :
    settings.refuses (host.small.text ++ ".") = false ↔
      settings.Admits (StandsDotted · host.small.chars) := by
  have hsmall : (host.small.text ++ ".").toList.map Char.toLower = host.small.chars ++ ['.'] := by
    rw [String.toList_append, List.map_append, HostName.text, String.toList_ofList,
      HostName.map_toLower_small]
    rfl
  have hiff := settings.refuses_eq_false_iff (hsmall ▸ host.small.star_not_mem)
  simpa only [hsmall, stands_dotted_iff] using hiff

/-- What comes of the check of a host. -/
theorem verdict_checkHost (settings : HttpSettings) (host : String) (url : Url) :
    verdict ((settings.checkHost host).map fun _ => url) =
      if settings.refuses host then some .denied else none := by
  rw [checkHost, refuses]
  cases anyMatches settings.denylist host with
  | true => rfl
  | false =>
    cases !settings.allowlist.isEmpty && !anyMatches settings.allowlist host <;> rfl

/-- The check of an address with nothing but a plain name goes by the host that it is read as. -/
theorem checkAddress_http (settings : HttpSettings) {text : String}
    (h : ∀ c ∈ text.toList, isNameSign c = true) (hsome : text ≠ "") :
    settings.checkAddress (httpAddress text) =
      match Url.readHost text.toList with
      | .error fault => .error (.invalidRequest ("Invalid URL: " ++ fault.message))
      | .ok host => (settings.checkHost host.text).map fun _ => ⟨"http", some host, none⟩ := by
  rw [checkAddress, httpAddress, Url.parse_http h hsome]
  cases Url.readHost text.toList <;> rfl

end HttpSettings

/-! ## Spellings -/

/-- The text is the other one, but for capitals. -/
def Spells (text other : String) : Prop :=
  text.toList.map Char.toLower = other.toList.map Char.toLower

/-- Spellings of plain names are plain. -/
theorem isNameSign_of_spells {text other : String} (h : Spells text other)
    (hother : ∀ c ∈ other.toList, isNameSign c = true) :
    ∀ c ∈ text.toList, isNameSign c = true := by
  intro c hc
  have hlower : c.toLower ∈ other.toList.map Char.toLower := h ▸ List.mem_map_of_mem hc
  obtain ⟨sign, hsign, heq⟩ := List.mem_map.mp hlower
  exact isNameSign_of_toLower (heq ▸ (plain_of_isNameSign (hother sign hsign)).small)

/-- Capitals make no difference to a check. -/
theorem HttpSettings.checkAddress_of_spells (settings : HttpSettings) {text other : String}
    (h : Spells text other) (hother : ∀ c ∈ other.toList, isNameSign c = true)
    (hsome : other ≠ "") :
    settings.checkAddress (httpAddress text) =
      settings.checkAddress (httpAddress other) := by
  have htext := isNameSign_of_spells h hother
  have hnonempty : text ≠ "" := by
    rintro rfl
    exact hsome (String.toList_eq_nil_iff.mp (List.map_eq_nil_iff.mp h.symm))
  rw [settings.checkAddress_http htext hnonempty, settings.checkAddress_http hother hsome,
    ← Url.readHost_lower htext, h, Url.readHost_lower hother]

/-- What stands behind a spelling is the same. -/
theorem Spells.append {text other : String} (h : Spells text other) (behind : String) :
    Spells (text ++ behind) (other ++ behind) := by
  rw [Spells, String.toList_append, String.toList_append, List.map_append, List.map_append, h]

/-- Capitals never change what the check of an address comes to. The name with a dot behind it
fares like the one without exactly if it is not a name but a number or wrong, or if the patterns
let both through or neither. -/
theorem spellings_agree_iff (settings : HttpSettings) (host : HostName) :
    (∀ spelling, Spells spelling host.text →
      settings.checkAddress (httpAddress spelling) = settings.checkAddress (httpAddress host.text) ∧
      settings.checkAddress (httpAddress (spelling ++ ".")) =
        settings.checkAddress (httpAddress (host.text ++ "."))) ∧
    (verdict (settings.checkAddress (httpAddress (host.text ++ "."))) =
        verdict (settings.checkAddress (httpAddress host.text)) ↔
      ((∃ name, Url.readHost host.chars = .ok (.name name)) →
        (settings.Admits (StandsDotted · host.small.chars) ↔
          settings.Admits (Stands · host.small.chars)))) := by
  have hplain : ∀ c ∈ host.text.toList, isNameSign c = true := by
    simpa [HostName.text] using fun _ => host.isNameSign_of_mem
  have hdotted : ∀ c ∈ (host.text ++ ".").toList, isNameSign c = true := by
    simpa [HostName.text] using fun _ => host.isNameSign_of_mem_dotted
  have hsome : host.text ≠ "" := by simpa [HostName.text] using host.chars_ne_nil
  have hmore : host.text ++ "." ≠ "" := by simp
  refine ⟨fun spelling h => ⟨settings.checkAddress_of_spells h hplain hsome,
    settings.checkAddress_of_spells (h.append ".") hdotted hmore⟩, ?_⟩
  have hread : Url.readHost (host.text ++ ".").toList =
      (Url.readHost host.chars).map UrlHost.dotted := by
    simpa [HostName.text] using Url.readHost_dotted host
  rw [settings.checkAddress_http hplain hsome, settings.checkAddress_http hdotted hmore, hread,
    HostName.text, String.toList_ofList]
  cases hhost : Url.readHost host.chars with
  | error fault => simp [Except.map, verdict]
  | ok result =>
    cases result with
    | name name =>
      obtain rfl := Url.eq_of_readHost_eq_name hhost
      show verdict ((settings.checkHost (host.small.text ++ ".")).map _) =
        verdict ((settings.checkHost host.small.text).map _) ↔ _
      rw [settings.verdict_checkHost, settings.verdict_checkHost,
        ← settings.refuses_small_eq_false_iff, ← settings.refuses_dotted_eq_false_iff]
      cases settings.refuses host.small.text <;>
        cases settings.refuses (host.small.text ++ ".") <;> simp
    | ipv4 address => simp [Except.map, UrlHost.dotted]
    | ipv6 pieces => simp [Except.map, UrlHost.dotted]

/-- A host that is denied, with names below a denied one and in capitals. -/
theorem spellings_agree_iff_capitals :
    let settings : HttpSettings := { denylist := ["*.Example.com"] }
    let host : HostName := ⟨["api".toList, "example".toList, "com".toList],
      by decide, HostName.valid_of_all (by decide)⟩
    Spells "API.example.COM" host.text ∧
      settings.checkAddress (httpAddress "API.example.COM") =
        settings.checkAddress (httpAddress host.text) ∧
      settings.checkAddress (httpAddress ("API.example.COM" ++ ".")) =
        settings.checkAddress (httpAddress (host.text ++ ".")) := by
  intro settings host
  have hspells : Spells "API.example.COM" host.text := by unfold Spells; decide
  exact ⟨hspells, (spellings_agree_iff settings host).1 _ hspells⟩

/-- A host on the list of those that may not be asked is let through with a dot behind it. -/
theorem denied_host_dotted :
    let settings : HttpSettings := { denylist := ["example.com"] }
    let host : HostName := ⟨["example".toList, "com".toList],
      by decide, HostName.valid_of_all (by decide)⟩
    host.text = "example.com" ∧
      verdict (settings.checkAddress (httpAddress host.text)) = some .denied ∧
      verdict (settings.checkAddress (httpAddress (host.text ++ "."))) = none := by
  decide +kernel

end ScriptHooks

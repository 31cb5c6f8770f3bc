/-
ScriptHooks.Proofs.Web.HostNames — how addresses with plain host names are read.

A plain host name (`HostName`) has labels of letters, figures and hyphens. An address that has
nothing else but such a name, in whatever letters and with a dot behind it or without, is read as
the host that the name is read as (`parse_http`). The letters make no difference (`readHost_lower`)
and the dot stays, unless the name turns out to be a number or not to be a name (`readHost_dotted`).

An address is read in stages, and each of them is an identity or nearly so on plain names:

* nothing is cut off or left out of the text (`tidy_http`), no sign in it ends the host, and there
  is no port (`readHostPart_plain`);
* nothing is percent-encoded (`percentDecoded_plain`);
* every label becomes small letters, or the name is refused because of a label in punycode that
  does not stand for what it should (`labelToAscii_plain`, `toAscii_plain`);
* what is left is a number or a name, by its last label.

The facts about characters are checked for the plain ones of ASCII, of which there are sixty-four,
and hold of all plain characters then (`forall_isNameSign`).
-/
import Mathlib
import ScriptHooks.Proofs.Hook.Ancestors
import ScriptHooks.Web.Url

namespace ScriptHooks.Web

/-! ## Plain characters -/

/-- Letters, figures and hyphens. -/
def isLabelSign (c : Char) : Bool := c.isAlphanum || c == '-'

/-- What may be in a plain name: the signs of its labels, and dots. -/
def isNameSign (c : Char) : Bool := isLabelSign c || c == '.'

/-- Plain characters are in ASCII. -/
theorem lt_of_isNameSign {c : Char} (h : isNameSign c = true) : c.toNat < 128 := by
  simp only [isNameSign, isLabelSign, Char.isAlphanum, Char.isAlpha, Char.isUpper, Char.isLower,
    Char.isDigit, Bool.or_eq_true, Bool.and_eq_true, decide_eq_true_eq, beq_iff_eq] at h
  rcases h with (((h | h) | h) | rfl) | rfl
  · exact Nat.lt_of_le_of_lt h.2 (by decide)
  · exact Nat.lt_of_le_of_lt h.2 (by decide)
  · exact Nat.lt_of_le_of_lt h.2 (by decide)
  · decide
  · decide

/-- What holds of the plain characters of ASCII holds of all plain characters. -/
theorem forall_isNameSign {p : Char → Bool}
    (h : ∀ n : Fin 128, isNameSign (Char.ofNat n) = true → p (Char.ofNat n) = true) {c : Char}
    (hc : isNameSign c = true) : p c = true := by
  have := h ⟨c.toNat, lt_of_isNameSign hc⟩
  rw [Char.ofNat_toNat] at this
  exact this hc

/-- A character that means nothing else in an address, and becomes a small letter. -/
structure IsPlain (c : Char) : Prop where
  shown : DomainName.isIgnored c = false
  mapped : DomainName.mapped c = c.toLower
  allowed : DomainName.isForbidden c.toLower = false
  small : isNameSign c.toLower = true
  twice : c.toLower.toLower = c.toLower
  visible : 0x20 < c.toNat ∧ c ≠ '\t' ∧ c ≠ '\n' ∧ c ≠ '\r'

/-- Plain characters are none of those that have a meaning in addresses. -/
theorem plain_of_isNameSign {c : Char} (h : isNameSign c = true) : IsPlain c := by
  have hall := forall_isNameSign (p := fun c => decide (
    DomainName.isIgnored c = false ∧ DomainName.mapped c = c.toLower ∧
      DomainName.isForbidden c.toLower = false ∧ isNameSign c.toLower = true ∧
      c.toLower.toLower = c.toLower ∧ (0x20 < c.toNat ∧ c ≠ '\t' ∧ c ≠ '\n' ∧ c ≠ '\r')))
    (by decide +kernel) h
  obtain ⟨hshown, hmapped, hallowed, hsmall, htwice, hvisible⟩ := of_decide_eq_true hall
  exact ⟨hshown, hmapped, hallowed, hsmall, htwice, hvisible⟩

/-- What is plain in small letters is plain. -/
theorem isNameSign_of_toLower {c : Char} (h : isNameSign c.toLower = true) :
    isNameSign c = true := by
  unfold Char.toLower at h
  split at h
  case isTrue hupper =>
    have : c.isUpper = true := by simpa [Char.isUpper] using hupper
    simp [isNameSign, isLabelSign, Char.isAlphanum, Char.isAlpha, this]
  case isFalse => exact h

/-! ## Names in ASCII -/

namespace DomainName

theorem pieces_eq_splitOn (separator : Char) (text : List Char) :
    pieces separator text = text.splitOn separator := by
  induction text with
  | nil => rfl
  | cons c rest ih =>
    obtain ⟨piece, more, hpieces⟩ := List.exists_cons_of_ne_nil (List.splitOn_ne_nil separator rest)
    rw [pieces, ih, List.splitOn_cons_eq_if_modifyHead, hpieces]
    by_cases hc : c = separator <;> simp [hc]

theorem mem_of_mem_splitOn {separator c : Char} {text label : List Char}
    (hlabel : label ∈ text.splitOn separator) (hc : c ∈ label) : c ∈ text := by
  induction text generalizing label with
  | nil => simp_all
  | cons first rest ih =>
    obtain ⟨piece, more, hpieces⟩ := List.exists_cons_of_ne_nil (List.splitOn_ne_nil separator rest)
    rw [List.splitOn_cons_eq_if_modifyHead, hpieces] at hlabel
    rw [hpieces] at ih
    by_cases heq : first = separator
    · simp only [heq, beq_self_eq_true, if_true, List.mem_cons] at hlabel ih
      rcases hlabel with rfl | hlabel
      · cases hc
      · exact List.mem_cons_of_mem _ (ih hlabel hc)
    · simp only [beq_iff_eq, heq, if_false, List.modifyHead_cons, List.mem_cons] at hlabel
      rcases hlabel with rfl | hlabel
      · exact (List.mem_cons.mp hc).elim (fun h => h ▸ List.mem_cons_self) fun hc =>
          List.mem_cons_of_mem _ (ih List.mem_cons_self hc)
      · exact List.mem_cons_of_mem _ (ih (List.mem_cons_of_mem _ hlabel) hc)

/-- There is nothing to decode in a plain text. -/
theorem percentDecoded_plain {text : List Char} (h : ∀ c ∈ text, isNameSign c = true) :
    percentDecoded text = some text := by
  refine if_pos (List.all_eq_true.mpr fun c hc => ?_)
  have hne : c ≠ '%' := by
    rintro rfl
    exact absurd (h _ hc) (by decide)
  simpa using hne

/-- Whether a label in ASCII stays; one in punycode must stand for another. -/
def staysLabel (label : List Char) : Bool := !punycodeMark.isPrefixOf label || isPunycode label

/-- A label in ASCII is small letters, unless it is refused. -/
theorem labelToAscii_plain {label : List Char} (h : ∀ c ∈ label, c.toNat < 128) :
    labelToAscii label = if staysLabel label then some label else none := by
  have hascii : ¬(label.any fun c => decide (128 ≤ c.toNat)) = true := by
    simpa [List.any_eq_true] using h
  rw [labelToAscii, if_neg hascii]
  cases hmark : punycodeMark.isPrefixOf label <;> simp [staysLabel, hmark]

/-- Labels in ASCII are refused one and all. -/
theorem mapM_labelToAscii {labels : List (List Char)}
    (h : ∀ label ∈ labels, ∀ c ∈ label, c.toNat < 128) :
    labels.mapM labelToAscii = if labels.all staysLabel then some labels else none := by
  induction labels with
  | nil => rfl
  | cons label labels ih =>
    rw [List.mapM_cons, ih fun other hother => h other (List.mem_cons_of_mem _ hother),
      labelToAscii_plain (h label List.mem_cons_self), List.all_cons]
    cases staysLabel label <;> cases labels.all staysLabel <;> rfl

/-- A plain name becomes small letters, or is no name because of a label in punycode. -/
theorem toAscii_plain {text : List Char} (h : ∀ c ∈ text, isNameSign c = true) :
    toAscii text =
      if ((text.map Char.toLower).splitOn '.').all staysLabel then some (text.map Char.toLower)
      else none := by
  have hshown : text.filter (fun c => !isIgnored c) = text :=
    List.filter_eq_self.mpr fun c hc => by simp [(plain_of_isNameSign (h c hc)).shown]
  have hmapped : text.map mapped = text.map Char.toLower :=
    List.map_congr_left fun c hc => (plain_of_isNameSign (h c hc)).mapped
  have hallowed : ¬(text.map Char.toLower).any isForbidden = true := by
    simp only [List.any_map, List.any_eq_true, Function.comp_apply, not_exists, not_and,
      Bool.not_eq_true]
    exact fun c hc => (plain_of_isNameSign (h c hc)).allowed
  have hascii : ∀ label ∈ (text.map Char.toLower).splitOn '.', ∀ c ∈ label, c.toNat < 128 := by
    intro label hlabel c hc
    obtain ⟨other, hother, rfl⟩ := List.mem_map.mp (mem_of_mem_splitOn hlabel hc)
    exact lt_of_isNameSign (plain_of_isNameSign (h other hother)).small
  simp only [toAscii, percentDecoded_plain h, bind, Option.bind, hshown, hmapped, if_neg hallowed,
    pieces_eq_splitOn, mapM_labelToAscii hascii]
  cases ((text.map Char.toLower).splitOn '.').all staysLabel with
  | false => rfl
  | true => exact congrArg some (List.intercalate_splitOn _)

end DomainName

/-! ## Hosts -/

/-- A change of characters that leaves the separator. -/
theorem map_intercalate {f : Char → Char} {c : Char} (hc : f c = c) (labels : List (List Char)) :
    [c].intercalate (labels.map (List.map f)) = ([c].intercalate labels).map f := by
  induction labels with
  | nil => rfl
  | cons label rest ih =>
    cases rest with
    | nil => simp [List.intercalate_singleton]
    | cons next more =>
      rw [List.map_cons, List.map_cons, List.intercalate_cons_cons, List.intercalate_cons_cons,
        ← List.map_cons, ih]
      simp [hc]

/-- A plain host name: labels of letters, figures and hyphens. -/
structure HostName where
  labels : List (List Char)
  named : labels ≠ []
  valid : ∀ label ∈ labels, label ≠ [] ∧ ∀ c ∈ label, isLabelSign c = true

namespace HostName

theorem valid_of_all {labels : List (List Char)}
    (h : (labels.all fun label => !label.isEmpty && label.all isLabelSign) = true) :
    ∀ label ∈ labels, label ≠ [] ∧ ∀ c ∈ label, isLabelSign c = true := by
  simpa using h

/-- The labels with dots between them. -/
def chars (host : HostName) : List Char := ['.'].intercalate host.labels

def text (host : HostName) : String := String.ofList host.chars

def small (host : HostName) : HostName where
  labels := host.labels.map (List.map Char.toLower)
  named := by simpa using host.named
  valid := by
    simp only [List.forall_mem_map]
    refine fun label hlabel => ⟨by simpa using (host.valid label hlabel).1, fun c hc => ?_⟩
    have hsign := (host.valid label hlabel).2 c hc
    have hname : isNameSign c = true := by simp [isNameSign, hsign]
    have hsmall := forall_isNameSign (p := fun c => !isLabelSign c || isLabelSign c.toLower)
      (by decide +kernel) hname
    simpa [hsign] using hsmall

theorem chars_small (host : HostName) : host.small.chars = host.chars.map Char.toLower :=
  map_intercalate rfl host.labels

theorem dot_not_mem {host : HostName} {label : List Char} (h : label ∈ host.labels) :
    '.' ∉ label := fun hdot => absurd ((host.valid label h).2 '.' hdot) (by decide)

/-- The labels of a name are what stands between its dots. -/
theorem splitOn_chars (host : HostName) : host.chars.splitOn '.' = host.labels :=
  List.splitOn_intercalate '.' (fun _ => dot_not_mem) host.named

/-- A name has plain characters. -/
theorem isNameSign_of_mem {host : HostName} {c : Char} (h : c ∈ host.chars) :
    isNameSign c = true := by
  rcases ScopePath.mem_of_mem_intercalate h with hdot | ⟨label, hlabel, hc⟩
  · rw [List.mem_singleton.mp hdot]
    decide
  · simp [isNameSign, (host.valid label hlabel).2 c hc]

theorem isNameSign_of_mem_dotted {host : HostName} {c : Char} (h : c ∈ host.chars ++ ['.']) :
    isNameSign c = true := by
  rcases List.mem_append.mp h with hmem | hdot
  · exact isNameSign_of_mem hmem
  · rw [List.mem_singleton.mp hdot]
    decide

/-- A name in small letters has no others. -/
theorem map_toLower_small (host : HostName) :
    host.small.chars.map Char.toLower = host.small.chars := by
  rw [chars_small, List.map_map]
  exact List.map_congr_left fun c hc =>
    (plain_of_isNameSign (host.isNameSign_of_mem hc)).twice

theorem chars_ne_nil (host : HostName) : host.chars ≠ [] := by
  intro hnil
  have hlabels := host.splitOn_chars
  rw [hnil, List.splitOn_nil] at hlabels
  exact (host.valid [] (hlabels ▸ List.mem_cons_self)).1 rfl

/-- As a number, the name has its labels. -/
theorem ipv4_labels (host : HostName) : Ipv4.labels host.chars = host.labels := by
  have hlast : host.labels.getLast? ≠ some [] := fun h =>
    (host.valid [] (List.mem_of_getLast? h)).1 rfl
  simp only [Ipv4.labels, DomainName.pieces_eq_splitOn, splitOn_chars, if_neg hlast]

/-- The dot behind it does not count for that. -/
theorem ipv4_labels_dotted (host : HostName) :
    Ipv4.labels (host.chars ++ ['.']) = host.labels := by
  simp only [Ipv4.labels, DomainName.pieces_eq_splitOn, List.splitOn_append_cons_self,
    splitOn_chars, List.splitOn_nil]
  simp

end HostName

/-- The host with a dot behind it, if it is a name. -/
def UrlHost.dotted : UrlHost → UrlHost
  | .name text => .name (text ++ ".")
  | other => other

namespace Url

theorem head?_ne_bracket {text : List Char} (h : ∀ c ∈ text, isNameSign c = true) :
    ¬text.head? = some '[' := fun hhead =>
  absurd (h '[' (List.mem_of_mem_head? hhead)) (by decide)

/-- The letters of a plain name make no difference. -/
theorem readHost_lower {text : List Char} (h : ∀ c ∈ text, isNameSign c = true) :
    readHost (text.map Char.toLower) = readHost text := by
  have hlower : ∀ c ∈ text.map Char.toLower, isNameSign c = true := by
    simpa using fun c hc => (plain_of_isNameSign (h c hc)).small
  have hagain : (text.map Char.toLower).map Char.toLower = text.map Char.toLower := by
    simp
  rw [readHost, if_neg (head?_ne_bracket hlower), DomainName.toAscii_plain hlower, hagain, readHost,
    if_neg (head?_ne_bracket h), DomainName.toAscii_plain h]

/-- A name in small letters, or none. -/
theorem toAscii_chars (host : HostName) :
    DomainName.toAscii host.chars =
      if host.small.labels.all DomainName.staysLabel then some host.small.chars else none := by
  have hascii := DomainName.toAscii_plain fun _ => host.isNameSign_of_mem
  rwa [← host.chars_small, host.small.splitOn_chars] at hascii

/-- The same with the dot behind it. -/
theorem toAscii_dotted (host : HostName) :
    DomainName.toAscii (host.chars ++ ['.']) =
      if host.small.labels.all DomainName.staysLabel then some (host.small.chars ++ ['.'])
      else none := by
  have hascii := DomainName.toAscii_plain fun _ => host.isNameSign_of_mem_dotted
  rwa [List.map_append, ← host.chars_small, show ['.'].map Char.toLower = ['.'] from rfl,
    List.splitOn_append_cons_self, host.small.splitOn_chars, List.splitOn_nil, List.all_append,
    show [[]].all DomainName.staysLabel = true from rfl, Bool.and_true] at hascii

/-- A dot behind a name stays; behind a number it does not count. -/
theorem readHost_dotted (host : HostName) :
    readHost (host.chars ++ ['.']) = (readHost host.chars).map UrlHost.dotted := by
  have hnumber : Ipv4.endsInNumber (host.small.chars ++ ['.']) =
      Ipv4.endsInNumber host.small.chars := by
    simp only [Ipv4.endsInNumber, host.small.ipv4_labels, host.small.ipv4_labels_dotted]
  have hparse : Ipv4.parse? (host.small.chars ++ ['.']) = Ipv4.parse? host.small.chars := by
    simp only [Ipv4.parse?, host.small.ipv4_labels, host.small.ipv4_labels_dotted]
  rw [readHost, if_neg (head?_ne_bracket fun _ => host.isNameSign_of_mem_dotted), toAscii_dotted,
    readHost, if_neg (head?_ne_bracket fun _ => host.isNameSign_of_mem), toAscii_chars]
  cases host.small.labels.all DomainName.staysLabel with
  | false => rfl
  | true =>
    have hsome : host.small.chars.isEmpty = false := by
      simpa using host.small.chars_ne_nil
    have hmore : (host.small.chars ++ ['.']).isEmpty = false := by simp
    simp only [if_true, hsome, hmore, Bool.false_eq_true, if_false, hnumber, hparse]
    cases Ipv4.endsInNumber host.small.chars with
    | false => simp [Except.map, UrlHost.dotted, String.ofList_append]
    | true => cases Ipv4.parse? host.small.chars <;> rfl

/-- A plain name that is read as a name is that name in small letters. -/
theorem eq_of_readHost_eq_name {host : HostName} {name : String}
    (h : readHost host.chars = .ok (.name name)) : name = host.small.text := by
  rw [readHost, if_neg (head?_ne_bracket fun _ => host.isNameSign_of_mem), toAscii_chars] at h
  split at h
  case h_1 => cases h
  case h_2 text hascii =>
    have htext : host.small.chars = text := by
      split_ifs at hascii
      exact Option.some.inj hascii
    split_ifs at h
    · split at h <;> cases h
    · rw [HostName.text, htext]
      exact (UrlHost.name.inj (Except.ok.inj h)).symm

/-- Nothing is cut off or left out of an address with a plain name. -/
theorem tidy_http {text : List Char} (h : ∀ c ∈ text, isNameSign c = true) :
    tidy ("http://".toList ++ text ++ ['/']) = "http://".toList ++ text ++ ['/'] := by
  have hkept : ∀ c ∈ "http://".toList ++ text ++ ['/'],
      (!(c == '\t' || c == '\n' || c == '\r')) = true := by
    simp only [List.forall_mem_append]
    refine ⟨⟨List.all_eq_true.mp (by decide), fun c hc => ?_⟩, List.all_eq_true.mp (by decide)⟩
    obtain ⟨-, htab, hline, hreturn⟩ := (plain_of_isNameSign (h c hc)).visible
    simp [htab, hline, hreturn]
  have hfront : ("http://".toList ++ text ++ ['/']).dropWhile (fun c => decide (c.toNat ≤ 0x20)) =
      "http://".toList ++ text ++ ['/'] := rfl
  have hback : ("http://".toList ++ text ++ ['/']).reverse.dropWhile
      (fun c => decide (c.toNat ≤ 0x20)) = ("http://".toList ++ text ++ ['/']).reverse := by
    rw [List.reverse_append]
    rfl
  simp only [tidy, hfront, hback, List.reverse_reverse]
  exact List.filter_eq_self.mpr hkept

/-- No sign of a plain name ends the host. -/
theorem hostLength_plain {text : List Char} (h : ∀ c ∈ text, isNameSign c = true) :
    hostLength false text = text.length := by
  induction text with
  | nil => rfl
  | cons c rest ih =>
    obtain ⟨hc, hrest⟩ := List.forall_mem_cons.mp h
    have hmarks : c ≠ ':' ∧ c ≠ '[' := by
      constructor <;> rintro rfl <;> exact absurd hc (by decide)
    simp [hostLength, hmarks.1, hmarks.2, ih hrest]

/-- The part of an address that is a plain name is the host, without a port. -/
theorem readHostPart_plain {text : List Char} (h : ∀ c ∈ text, isNameSign c = true)
    (hsome : text ≠ []) :
    readHostPart .special (text ++ ['/']) = (readHost text).map fun host => (some host, none) := by
  have hends : ∀ c ∈ text, (!endsHostPart .special c) = true := fun c hc =>
    forall_isNameSign (p := fun c => !endsHostPart .special c) (by decide +kernel) (h c hc)
  have hpart : (text ++ ['/']).takeWhile (fun c => !endsHostPart .special c) = text := by
    rw [List.takeWhile_append_of_pos hends]
    exact List.append_nil text
  have hrest : (text ++ ['/']).dropWhile (fun c => !endsHostPart .special c) = ['/'] := by
    rw [List.dropWhile_append_of_pos hends]
    rfl
  have huser : splitUser text = (none, text) := by
    refine if_neg fun hcontains => ?_
    exact absurd (h '@' (by simpa using hcontains)) (by decide)
  have hlength : hostLength false text = text.length := hostLength_plain h
  have hname : text.isEmpty = false := by simpa using hsome
  simp only [readHostPart, hpart, hrest, huser, hlength, List.take_length, List.drop_length, hname]
  cases readHost text <;> rfl

/-- An address with nothing but a plain name is the host that the name is read as. -/
theorem parse_http {text : String} (h : ∀ c ∈ text.toList, isNameSign c = true)
    (hsome : text ≠ "") :
    parse ("http://" ++ text ++ "/") =
      (readHost text.toList).map fun host => ⟨"http", some host, none⟩ := by
  have hsome : text.toList ≠ [] := by simpa using hsome
  have hscheme : splitScheme ("http://".toList ++ text.toList ++ ['/']) =
      some ("http".toList, "//".toList ++ (text.toList ++ ['/'])) := rfl
  have hslashes : ("//".toList ++ (text.toList ++ ['/'])).dropWhile isSlash =
      text.toList ++ ['/'] := by
    obtain ⟨c, rest, htext⟩ := List.exists_cons_of_ne_nil hsome
    have hc : isSlash c = false := by
      have hsign := h c (htext ▸ List.mem_cons_self)
      have hall := forall_isNameSign (p := fun c => !isSlash c) (by decide +kernel) hsign
      simpa using hall
    rw [htext]
    show (c :: (rest ++ ['/'])).dropWhile isSlash = _
    rw [List.dropWhile_cons, hc]
    rfl
  have hkind : kindOf (String.ofList "http".toList) = .special := by decide
  have htext : ("http://" ++ text ++ "/").toList = "http://".toList ++ text.toList ++ ['/'] := by
    simp
  rw [parse, htext, tidy_http h, hscheme]
  simp only [readAfterScheme, hkind, hslashes, readHostPart_plain h hsome]
  cases readHost text.toList <;> rfl

end Url

end ScriptHooks.Web

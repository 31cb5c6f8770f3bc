/-
ScriptHooks.Proofs.Json.WrittenText — what is written without blanks is read again.

The text of a value is cut into the same parts by the reader as the writer made it of: a literal
into its characters (`readString_literal`), the digits of an integer into the integer
(`readNumber_digits`), a container into its items or entries with their commas. `Readable` says
what a part is read as, whatever comes behind it, and `readable_chars` says it of every value
without doubles. A part must not go on in what comes behind it, so that is always nothing, a
comma or a closing bracket (`Parted`); only numbers need it.

The reader carries a place along and has fuel. Places do not matter, and are bound by an existential
where a part ends. Fuel is as much as there are characters, which every part leaves more of than it
needs.

The proof follows the value: scalars, then lists and objects from what holds of their parts, and
`readable_chars` by induction on the value. An object may have been written with its entries in any
order (`readable_fields`); it is read as the object with them in order.

The characters of a literal are of three kinds: those with an escape of their own, other control
characters, which are written by their number in hexadecimal, and all others, which stand for
themselves. `readString_escapeChar` has them all. For numbers what has to be shown is that a
negative number keeps its sign and that no digits begin with zero but those of zero.

`Readable.parseUnbounded` is the conclusion for whole texts. No limit on nesting is assumed: the
reader that is meant is the one without a limit.
-/
import Mathlib.Tactic.IntervalCases
import ScriptHooks.Json.Reader
import ScriptHooks.Proofs.Json.OrderedValues

namespace ScriptHooks.Json

/-! ## Characters of a literal -/

/-- The number of a control character is read from its four digits. -/
theorem readHex_low (rest : List Char) (place : Place) {n : Nat} (h : n < 0x20) :
    readHex ⟨'0' :: '0' :: ((if n < 0x10 then ['0'] else []) ++ Text.hexDigits n ++ rest), place⟩ =
      .ok (n, ⟨rest, ⟨place.line, place.column + 4⟩⟩) := by
  interval_cases n <;> rfl

/-- A control character is read from its escape. -/
theorem readEscape_low (rest : List Char) (place : Place) {c : Char} (h : c.toNat < 0x20) :
    ∃ after, readEscape ⟨['u', '0', '0'] ++ (if c.toNat < 0x10 then ['0'] else []) ++
        Text.hexDigits c.toNat ++ rest, place⟩ = .ok (c, ⟨rest, after⟩) := by
  have hread := readHex_low rest (place.after 'u') h
  refine ⟨⟨(place.after 'u').line, (place.after 'u').column + 4⟩, ?_⟩
  simp only [List.cons_append, List.nil_append, List.append_assoc] at hread ⊢
  simp only [readEscape, Cursor.next, hread, bind, Except.bind]
  rw [if_neg (by omega), if_pos (by omega), Char.ofNat_toNat]

/-- All other characters stand for themselves. -/
theorem escapeChar_plain {c : Char} (hquote : c ≠ '"') (hslash : c ≠ '\\')
    (hhigh : ¬ c.toNat < 0x20) : escapeChar c = [c] := by
  have hne : ∀ low : Char, low.toNat < 0x20 → c ≠ low := fun low hlow heq => hhigh (heq ▸ hlow)
  simp [escapeChar, hquote, hslash, hhigh, hne '\n' (by decide), hne '\r' (by decide),
    hne '\t' (by decide), hne '\x08' (by decide), hne '\x0c' (by decide)]

/-- Each character of a literal is read as it was written. -/
theorem readString_escapeChar (c : Char) (rest taken : List Char) (fuel : Nat) (place : Place) :
    ∃ after, readString (fuel + 1) taken ⟨escapeChar c ++ rest, place⟩ =
      readString fuel (c :: taken) ⟨rest, after⟩ := by
  by_cases hlow : c.toNat < 0x20
  · have hread := readEscape_low rest (place.after '\\') hlow
    unfold escapeChar
    generalize (if c.toNat < 0x10 then ['0'] else []) = zeros at hread ⊢
    obtain ⟨after, hread⟩ := hread
    split_ifs with hquote hslash hline hreturn htab hback hfeed
    case pos => subst hquote; exact ⟨_, rfl⟩
    case pos => subst hslash; exact ⟨_, rfl⟩
    case pos => subst hline; exact ⟨_, rfl⟩
    case pos => subst hreturn; exact ⟨_, rfl⟩
    case pos => subst htab; exact ⟨_, rfl⟩
    case pos => subst hback; exact ⟨_, rfl⟩
    case pos => subst hfeed; exact ⟨_, rfl⟩
    case neg =>
      refine ⟨after, ?_⟩
      simp only [List.cons_append, List.nil_append, List.append_assoc] at hread ⊢
      simp only [readString, Cursor.next, hread, bind, Except.bind]
  · by_cases hquote : c = '"'
    · subst hquote
      exact ⟨_, rfl⟩
    by_cases hslash : c = '\\'
    · subst hslash
      exact ⟨_, rfl⟩
    refine ⟨place.after c, ?_⟩
    rw [escapeChar_plain hquote hslash hlow, List.singleton_append, readString.eq_def]
    simp [hlow, Cursor.next]

/-- A literal is read as its text. -/
theorem readString_literal (text rest taken : List Char) (fuel : Nat) (place : Place)
    (h : text.length < fuel) :
    ∃ after, readString fuel taken ⟨text.flatMap escapeChar ++ '"' :: rest, place⟩ =
      .ok (String.ofList (taken.reverse ++ text), ⟨rest, after⟩) := by
  induction text generalizing fuel taken place with
  | nil =>
    obtain ⟨fuel, rfl⟩ : ∃ n, fuel = n + 1 := ⟨fuel - 1, by simp at h; omega⟩
    exact ⟨place.after '"', by simp [readString, Cursor.next]⟩
  | cons c text ih =>
    obtain ⟨fuel, rfl⟩ : ∃ n, fuel = n + 1 := ⟨fuel - 1, by simp at h; omega⟩
    obtain ⟨behind, hchar⟩ :=
      readString_escapeChar c (text.flatMap escapeChar ++ '"' :: rest) taken fuel place
    obtain ⟨after, hrest⟩ := ih (c :: taken) fuel behind (by simp at h; omega)
    refine ⟨after, ?_⟩
    rw [List.flatMap_cons, List.append_assoc, hchar, hrest]
    simp

/-- No character is written as nothing. -/
theorem length_le_flatMap_escapeChar (text : List Char) :
    text.length ≤ (text.flatMap escapeChar).length := by
  induction text with
  | nil => exact Nat.le_refl 0
  | cons c text ih =>
    have hchar : 1 ≤ (escapeChar c).length := by
      unfold escapeChar
      split_ifs <;> simp
    simp only [List.flatMap_cons, List.length_append, List.length_cons]
    omega

/-! ## Integers -/

/-- Nothing that a number could go on with. -/
def Parted (rest : List Char) : Prop := ∀ c ∈ rest.head?, c = ',' ∨ c = ']' ∨ c = '\x7d'

theorem parted_nil : Parted [] := nofun

/-- Digits are taken as far as they go. -/
theorem takeDigits_digits (digits : List Char) {rest : List Char}
    (hdigits : ∀ c ∈ digits, c.isDigit = true)
    (hrest : Parted rest) (place : Place) :
    ∃ after, takeDigits (digits ++ rest) place =
      (digits.map fun c => c.toNat - 48, ⟨rest, after⟩) := by
  induction digits generalizing place with
  | nil =>
    refine ⟨place, ?_⟩
    cases rest with
    | nil => rfl
    | cons c rest =>
      have hc : c.isDigit = false := by
        obtain rfl | rfl | rfl := hrest c rfl <;> rfl
      simp [takeDigits, hc]
  | cons c digits ih =>
    obtain ⟨after, hread⟩ :=
      ih (fun other hother => hdigits other (List.mem_cons_of_mem _ hother)) (place.after c)
    refine ⟨after, ?_⟩
    rw [List.cons_append, takeDigits, if_pos (hdigits c List.mem_cons_self), hread]
    rfl

/-- Further digits do not make a number smaller. -/
theorem le_foldl_digits (digits : List Nat) (n : Nat) :
    n ≤ digits.foldl (fun n d => n * 10 + d) n := by
  induction digits generalizing n with
  | nil => exact Nat.le_refl n
  | cons d digits ih => exact Nat.le_trans (by omega) (ih (n * 10 + d))

/-- The number that digits write, in one word. -/
theorem leadingDigits_eq (digits : List Nat) (significand : Nat)
    (h : digits.foldl (fun n d => n * 10 + d) significand < 0x10000000000000000) :
    leadingDigits significand digits =
      (digits.foldl (fun n d => n * 10 + d) significand, 0) := by
  induction digits generalizing significand with
  | nil => rfl
  | cons d digits ih =>
    have hfirst := le_foldl_digits digits (significand * 10 + d)
    rw [leadingDigits, if_pos (Nat.lt_of_le_of_lt hfirst h)]
    exact ih _ h

/-- The digits of a number write the number. -/
theorem foldl_toDigits (n : Nat) :
    ((Nat.toDigits 10 n).map fun c => c.toNat - 48).foldl (fun n d => n * 10 + d) 0 = n := by
  have hvalue := Nat.ofDigitChars_ten_toDigits (n := n)
  rw [Nat.ofDigitChars_eq_foldl] at hvalue
  rw [List.foldl_map]
  simpa [Nat.mul_comm] using hvalue

theorem eq_zeroDigit {c : Char} (hdigit : c.isDigit = true) (hvalue : c.toNat - 48 = 0) :
    c = '0' := by
  obtain ⟨hlow, -⟩ := Char.isDigit_iff_toNat.mp hdigit
  exact Char.toNat_inj.mp (Nat.le_antisymm (Nat.sub_eq_zero_iff_le.mp hvalue) hlow)

/-- Only the digits of zero begin with zero. -/
theorem eq_zero_of_toDigits {n : Nat} {digits : List Char} (h : Nat.toDigits 10 n = '0' :: digits) :
    n = 0 ∧ digits = [] := by
  induction n using Nat.strong_induction_on generalizing digits with
  | _ n ih =>
    rw [Nat.toDigits_eq_if (by decide)] at h
    split at h
    case isTrue hlt =>
      obtain ⟨hchar, rfl⟩ := List.cons.inj h
      exact ⟨Nat.digitChar_eq_zero.mp hchar, rfl⟩
    case isFalse hge =>
      cases hdigits : Nat.toDigits 10 (n / 10) with
      | nil => exact absurd hdigits Nat.toDigits_ne_nil
      | cons c more =>
        rw [hdigits, List.cons_append] at h
        obtain rfl := (List.cons.inj h).1
        have hzero := (ih (n / 10) (by omega) hdigits).1
        omega

/-- The digits of a number are read as the number, with the sign that stands before them. -/
theorem readNumber_digits (negative : Bool) {n : Nat} {value : Int} (hfits : FitsWord value)
    (hvalue : value = if negative then -(n : Int) else n) (hzero : ¬ (negative = true ∧ n = 0))
    {rest : List Char} (hrest : Parted rest) (place : Place) :
    ∃ after, readNumber negative ⟨Nat.toDigits 10 n ++ rest, place⟩ =
      .ok (.int value hfits, ⟨rest, after⟩) := by
  obtain ⟨after, htake⟩ := takeDigits_digits (Nat.toDigits 10 n)
    (fun c hc => Nat.isDigit_of_mem_toDigits (by decide) (by decide) hc) hrest place
  have hword : n < 0x10000000000000000 := by
    obtain ⟨hlow, hhigh⟩ := hfits
    cases negative <;> simp at hvalue <;> omega
  have hleading := leadingDigits_eq ((Nat.toDigits 10 n).map fun c => c.toNat - 48) 0
    (by rw [foldl_toDigits]; exact hword)
  rw [foldl_toDigits] at hleading
  refine ⟨after, ?_⟩
  cases hdigits : Nat.toDigits 10 n with
  | nil => exact absurd hdigits Nat.toDigits_ne_nil
  | cons c digits =>
    rw [hdigits] at htake hleading
    rw [List.map_cons] at htake hleading
    have hfirst : ¬ (c.toNat - 48 = 0 ∧ (digits.map fun c => c.toNat - 48) ≠ []) := by
      rintro ⟨hc, hmore⟩
      have hdigit : c.isDigit = true :=
        Nat.isDigit_of_mem_toDigits (b := 10) (n := n) (by decide) (by decide) (by simp [hdigits])
      obtain rfl := eq_zeroDigit hdigit hc
      exact hmore (by simp [(eq_zero_of_toDigits hdigits).2])
    subst hvalue
    rw [readNumber]
    simp only [htake, if_neg hfirst, hleading]
    cases rest with
    | nil => exact dif_pos ⟨hfits, trivial, hzero⟩
    | cons c rest =>
      obtain rfl | rfl | rfl := hrest c rfl <;> exact dif_pos ⟨hfits, trivial, hzero⟩

/-! ## Parts of a text -/

/-- Nothing is skipped before a part. -/
theorem skipSpace_cons {c : Char} (h : Cursor.isSpace c = false) (rest : List Char)
    (place : Place) : Cursor.skipSpace ⟨c :: rest, place⟩ = ⟨c :: rest, place⟩ := by
  simp [Cursor.skipSpace, Cursor.skipWhile, h]

/-- A text begins like a value does: not with a blank, a comma or the end of a list. -/
def Opens (text : List Char) : Prop :=
  ∃ c rest, text = c :: rest ∧ Cursor.isSpace c = false ∧ c ≠ ']' ∧ c ≠ ','

/-- A text is read as a value, whatever comes behind it. -/
structure Readable (text : List Char) (value : Json) : Prop where
  opens : Opens text
  reads : ∀ fuel rest place, 2 * text.length ≤ fuel → Parted rest →
    ∃ node after, readNode fuel none ⟨text ++ rest, place⟩ = (node, some ⟨rest, after⟩) ∧
      node.toJson = .ok value

/-- A text is read as the further items of a list. -/
structure ItemsReadable (text : List Char) (items : List Json) : Prop where
  parted : ∀ rest, Parted (text ++ ']' :: rest)
  reads : ∀ fuel taken rest place, 2 * (text.length + 1) ≤ fuel →
    ∃ nodes after, readItems fuel none false taken ⟨text ++ ']' :: rest, place⟩ =
        (taken.reverse ++ nodes, .closed (some after), some ⟨rest, after⟩) ∧
      Node.itemValues nodes = .ok items

/-- A text is read as the further entries of an object. -/
structure EntriesReadable (text : List Char) (fields : List (String × Json)) : Prop where
  parted : ∀ rest, Parted (text ++ '\x7d' :: rest)
  reads : ∀ fuel taken rest place, 2 * (text.length + 1) ≤ fuel →
    ∃ nodes after, readEntries fuel none false taken ⟨text ++ '\x7d' :: rest, place⟩ =
        (taken.reverse ++ nodes, .closed (some after), some ⟨rest, after⟩) ∧
      Node.entryValues nodes = .ok fields

/-! ## Scalars -/

/-- A word is read as its value. -/
theorem readable_word {text : List Char} (value : Scalar) (hopens : Opens text)
    (h : ∀ fuel rest place, ∃ after, readNode (fuel + 1) none ⟨text ++ rest, place⟩ =
      (.scalar value (some after), some ⟨rest, after⟩)) : Readable text value.toJson where
  opens := hopens
  reads fuel rest place hfuel _ := by
    obtain ⟨c, more, rfl, -⟩ := hopens
    obtain ⟨fuel, rfl⟩ : ∃ n, fuel = n + 1 := ⟨fuel - 1, by simp at hfuel; omega⟩
    obtain ⟨after, hread⟩ := h fuel rest place
    exact ⟨_, after, hread, rfl⟩

theorem readable_null : Readable "null".toList .null :=
  readable_word .null ⟨'n', _, rfl, rfl, by decide, by decide⟩
    fun _ _ _ => ⟨_, rfl⟩

theorem readable_bool (b : Bool) :
    Readable (if b then "true".toList else "false".toList) (.bool b) := by
  cases b with
  | true =>
    exact readable_word (.bool true) ⟨'t', _, rfl, rfl, by decide, by decide⟩
      fun _ _ _ => ⟨_, rfl⟩
  | false =>
    exact readable_word (.bool false) ⟨'f', _, rfl, rfl, by decide, by decide⟩
      fun _ _ _ => ⟨_, rfl⟩

theorem readable_string (text : String) : Readable (literalChars text.toList) (.string text) :=
  readable_word (.string text) ⟨'"', _, rfl, rfl, by decide, by decide⟩
    fun fuel rest place => by
      obtain ⟨after, hread⟩ := readString_literal text.toList rest []
        ((text.toList.flatMap escapeChar ++ '"' :: rest).length + 1) (place.after '"')
        (by have := length_le_flatMap_escapeChar text.toList; rw [List.length_append]; omega)
      refine ⟨after, ?_⟩
      simp only [literalChars, List.cons_append, List.append_assoc, List.nil_append, readNode]
      rw [skipSpace_cons rfl]
      simp only [Cursor.next, hread, scalarNode, List.reverse_nil, List.nil_append,
        String.ofList_toList]

theorem ne_of_isDigit {c : Char} (h : c.isDigit = true) (other : Char)
    (hother : other.isDigit = false) : c ≠ other := by
  rintro rfl
  rw [hother] at h
  cases h

theorem isSpace_of_isDigit {c : Char} (h : c.isDigit = true) : Cursor.isSpace c = false := by
  simp [Cursor.isSpace, ne_of_isDigit h ' ' rfl, ne_of_isDigit h '\n' rfl,
    ne_of_isDigit h '\t' rfl, ne_of_isDigit h '\r' rfl]

/-- A digit starts a number. -/
theorem readNode_digit {c : Char} (h : c.isDigit = true) (fuel : Nat) (rest : List Char)
    (place : Place) : readNode (fuel + 1) none ⟨c :: rest, place⟩ =
      scalarNode .number (readNumber false ⟨c :: rest, place⟩) := by
  rw [readNode]
  simp only [skipSpace_cons (isSpace_of_isDigit h)]
  split
  case h_1 heq => cases heq
  case h_9 heq =>
    obtain ⟨rfl, rfl⟩ := List.cons.inj heq
    exact if_pos h
  all_goals
    rename_i heq
    exact absurd (List.cons.inj heq).1 (ne_of_isDigit h _ rfl)

theorem readable_nat (n : Nat) (hfits : FitsWord n) :
    Readable (Nat.toDigits 10 n) (.number (.int n hfits)) := by
  cases hdigits : Nat.toDigits 10 n with
  | nil => exact absurd hdigits Nat.toDigits_ne_nil
  | cons c digits =>
    have hdigit : c.isDigit = true :=
      Nat.isDigit_of_mem_toDigits (b := 10) (n := n) (by decide) (by decide) (by simp [hdigits])
    refine ⟨⟨c, digits, rfl, isSpace_of_isDigit hdigit, ne_of_isDigit hdigit _ rfl,
      ne_of_isDigit hdigit _ rfl⟩, fun fuel rest place hfuel hrest => ?_⟩
    obtain ⟨fuel, rfl⟩ : ∃ n, fuel = n + 1 := ⟨fuel - 1, by simp at hfuel; omega⟩
    obtain ⟨after, hread⟩ := readNumber_digits false hfits rfl nofun hrest place
    rw [hdigits, List.cons_append] at hread
    refine ⟨.scalar (.number (.int n hfits)) (some after), after, ?_, rfl⟩
    rw [List.cons_append, readNode_digit hdigit, hread]
    rfl

/-- A negative number with its sign. -/
theorem readable_negative (n : Nat) (hfits : FitsWord (-(n + 1 : Nat))) :
    Readable ('-' :: Nat.toDigits 10 (n + 1)) (.number (.int _ hfits)) := by
  refine ⟨⟨'-', _, rfl, rfl, by decide, by decide⟩, fun fuel rest place hfuel hrest => ?_⟩
  obtain ⟨fuel, rfl⟩ : ∃ n, fuel = n + 1 := ⟨fuel - 1, by simp at hfuel; omega⟩
  obtain ⟨after, hread⟩ := readNumber_digits true hfits rfl (by simp) hrest
    (place.after '-')
  refine ⟨.scalar (.number (.int _ hfits)) (some after), after, ?_, rfl⟩
  rw [List.cons_append, readNode]
  simp only [skipSpace_cons (show Cursor.isSpace '-' = false from rfl), Cursor.next]
  rw [hread]
  rfl

/-- Integers of one word. -/
theorem readable_int (value : Int) (hfits : FitsWord value) :
    Readable (numberChars (.int value hfits)) (.number (.int value hfits)) := by
  cases value with
  | ofNat n =>
    have htext : numberChars (.int (.ofNat n) hfits) = Nat.toDigits 10 n := Nat.toList_repr
    rw [htext]
    exact readable_nat n hfits
  | negSucc n =>
    have htext : numberChars (.int (.negSucc n) hfits) = '-' :: Nat.toDigits 10 (n + 1) := by
      have hrepr : toString (Int.negSucc n) = "-" ++ (n + 1).repr := rfl
      rw [numberChars, hrepr, String.toList_append, Nat.toList_repr]
      rfl
    rw [htext]
    exact readable_negative n hfits

/-! ## Lists -/

theorem Opens.skipSpace {text : List Char} (h : Opens text) (rest : List Char) (place : Place) :
    Cursor.skipSpace ⟨text ++ rest, place⟩ = ⟨text ++ rest, place⟩ := by
  obtain ⟨c, more, rfl, hspace, -⟩ := h
  exact skipSpace_cons hspace _ _

theorem itemsReadable_nil : ItemsReadable [] [] where
  parted rest c hc := by
    obtain rfl := Option.mem_some.mp hc
    exact .inr (.inl rfl)
  reads fuel taken rest place hfuel := by
    obtain ⟨fuel, rfl⟩ : ∃ n, fuel = n + 1 := ⟨fuel - 1, by simp at hfuel; omega⟩
    exact ⟨[], place.after ']',
      by simp [readItems, skipSpace_cons, Cursor.isSpace, Cursor.next], rfl⟩

/-- The first item of a list. -/
theorem readItems_first {text : List Char} (h : Opens text) {fuel : Nat} {rest : List Char}
    {place : Place} {node : Node} {after : Cursor}
    (hread : readNode fuel none ⟨text ++ rest, place⟩ = (node, some after))
    (taken : List (Option Place × Node)) : ∃ before,
    readItems (fuel + 1) none true taken ⟨text ++ rest, place⟩ =
      readItems fuel none false ((before, node) :: taken) after := by
  have hskip := h.skipSpace rest place
  obtain ⟨c, more, rfl, hspace, hend, hcomma⟩ := h
  rw [List.cons_append] at hread hskip ⊢
  refine ⟨some (Cursor.peekPlace ⟨c :: (more ++ rest), place⟩), ?_⟩
  rw [readItems]
  simp only [hskip]
  split
  case h_1 heq => cases heq
  case h_2 heq => exact absurd (List.cons.inj heq).1 hend
  case h_3 heq => exact absurd (List.cons.inj heq).1 hcomma
  case h_4 => rw [if_pos trivial, hread]

/-- A further item of a list, behind its comma. -/
theorem readItems_next {text : List Char} (h : Opens text) {fuel : Nat} {rest : List Char}
    {place : Place} {node : Node} {after : Cursor}
    (hread : readNode fuel none ⟨text ++ rest, place.after ','⟩ = (node, some after))
    (taken : List (Option Place × Node)) : ∃ before,
    readItems (fuel + 1) none false taken ⟨',' :: (text ++ rest), place⟩ =
      readItems fuel none false ((before, node) :: taken) after := by
  have hskip := h.skipSpace rest (place.after ',')
  obtain ⟨c, more, rfl, hspace, hend, hcomma⟩ := h
  rw [List.cons_append] at hread hskip ⊢
  refine ⟨some (Cursor.peekPlace ⟨c :: (more ++ rest), place.after ','⟩), ?_⟩
  rw [readItems]
  simp only [skipSpace_cons (show Cursor.isSpace ',' = false from rfl), Cursor.next, hskip]
  rw [if_neg (by decide)]
  split
  case h_1 heq => cases heq
  case h_2 heq => exact absurd (List.cons.inj heq).1 hend
  case h_3 => rw [hread]

/-- One more item in front of others. -/
theorem itemsReadable_cons {text more : List Char} {item : Json} {items : List Json}
    (hitem : Readable text item) (hitems : ItemsReadable more items) :
    ItemsReadable (',' :: text ++ more) (item :: items) where
  parted rest c hc := by
    obtain rfl := Option.mem_some.mp hc
    exact .inl rfl
  reads fuel taken rest place hfuel := by
    simp only [List.length_append, List.length_cons] at hfuel
    obtain ⟨fuel, rfl⟩ : ∃ n, fuel = n + 1 := ⟨fuel - 1, by omega⟩
    obtain ⟨node, behind, hnode, hvalue⟩ := hitem.reads fuel (more ++ ']' :: rest) (place.after ',')
      (by omega) (hitems.parted rest)
    obtain ⟨before, hnext⟩ := readItems_next hitem.opens hnode taken
    obtain ⟨nodes, after, hrest, hvalues⟩ := hitems.reads fuel ((before, node) :: taken) rest behind
      (by omega)
    refine ⟨(before, node) :: nodes, after, ?_, ?_⟩
    · rw [List.cons_append, List.cons_append, List.append_assoc, hnext, hrest]
      simp
    · rw [Node.itemValues, hvalue, hvalues]
      rfl

theorem readable_emptyArray : Readable ['[', ']'] (.array []) where
  opens := ⟨'[', _, rfl, rfl, by decide, by decide⟩
  reads fuel rest place hfuel _ := by
    obtain ⟨fuel, rfl⟩ : ∃ n, fuel = n + 2 := ⟨fuel - 2, by simp at hfuel; omega⟩
    exact ⟨_, _, rfl, rfl⟩

/-- A list, from its first item and the others. -/
theorem readable_array {text more : List Char} {item : Json} {items : List Json}
    (hitem : Readable text item) (hitems : ItemsReadable more items) :
    Readable ('[' :: text ++ more ++ [']']) (.array (item :: items)) where
  opens := ⟨'[', _, rfl, rfl, by decide, by decide⟩
  reads fuel rest place hfuel _ := by
    simp only [List.length_append, List.length_cons, List.length_nil] at hfuel
    obtain ⟨fuel, rfl⟩ : ∃ n, fuel = n + 2 := ⟨fuel - 2, by omega⟩
    obtain ⟨node, behind, hnode, hvalue⟩ := hitem.reads fuel (more ++ ']' :: rest) (place.after '[')
      (by omega) (hitems.parted rest)
    obtain ⟨before, hfirst⟩ := readItems_first hitem.opens hnode []
    obtain ⟨nodes, after, hrest, hvalues⟩ := hitems.reads fuel [(before, node)] rest behind
      (by omega)
    refine ⟨.array (some place) ((before, node) :: nodes) (.closed (some after)), after, ?_, ?_⟩
    · simp only [List.cons_append, List.append_assoc, List.nil_append]
      rw [readNode]
      simp only [skipSpace_cons (show Cursor.isSpace '[' = false from rfl), Cursor.next,
        Option.map_none, hfirst, hrest]
      rfl
    · rw [Node.toJson, Node.itemValues, hvalue, hvalues]
      rfl

/-! ## Objects -/

def keyChars (key : String) : List Char := literalChars key.toList ++ [':']

/-- A key is read up to its colon. -/
theorem readString_key (key : String) (rest : List Char) (place : Place) :
    ∃ after, readString (((key.toList.flatMap escapeChar) ++ '"' :: ':' :: rest).length + 1) []
        ⟨(key.toList.flatMap escapeChar) ++ '"' :: ':' :: rest, place⟩ =
      .ok (key, ⟨':' :: rest, after⟩) := by
  obtain ⟨after, hread⟩ := readString_literal key.toList (':' :: rest) []
    (((key.toList.flatMap escapeChar) ++ '"' :: ':' :: rest).length + 1) place
    (by have := length_le_flatMap_escapeChar key.toList; rw [List.length_append]; omega)
  exact ⟨after, by rw [hread, List.reverse_nil, List.nil_append, String.ofList_toList]⟩

/-- The first entry of an object. -/
theorem readEntries_first (key : String) {text : List Char} {value : Json}
    (h : Readable text value) (fuel : Nat) (hfuel : 2 * text.length ≤ fuel) {rest : List Char}
    (hrest : Parted rest) (place : Place) (taken : List (String × Option Place × Node)) :
    ∃ stand node after, readEntries (fuel + 1) none true taken
        ⟨keyChars key ++ (text ++ rest), place⟩ =
      readEntries fuel none false ((key, stand, node) :: taken) ⟨rest, after⟩ ∧
      node.toJson = .ok value := by
  obtain ⟨behind, hkey⟩ := readString_key key (text ++ rest) (place.after '"')
  obtain ⟨node, after, hnode, hvalue⟩ := h.reads fuel rest (behind.after ':') hfuel hrest
  refine ⟨some (afterKey ⟨':' :: (text ++ rest), behind⟩), node, after, ?_, hvalue⟩
  simp only [keyChars, literalChars, List.cons_append, List.append_assoc, List.nil_append]
  rw [readEntries]
  simp only [skipSpace_cons (show Cursor.isSpace '"' = false from rfl), Cursor.next, hkey,
    skipSpace_cons (show Cursor.isSpace ':' = false from rfl), hnode, if_true]

/-- A further entry of an object, behind its comma. -/
theorem readEntries_next (key : String) {text : List Char} {value : Json}
    (h : Readable text value) (fuel : Nat) (hfuel : 2 * text.length ≤ fuel) {rest : List Char}
    (hrest : Parted rest) (place : Place) (taken : List (String × Option Place × Node)) :
    ∃ stand node after, readEntries (fuel + 1) none false taken
        ⟨',' :: (keyChars key ++ (text ++ rest)), place⟩ =
      readEntries fuel none false ((key, stand, node) :: taken) ⟨rest, after⟩ ∧
      node.toJson = .ok value := by
  obtain ⟨behind, hkey⟩ := readString_key key (text ++ rest) ((place.after ',').after '"')
  obtain ⟨node, after, hnode, hvalue⟩ := h.reads fuel rest (behind.after ':') hfuel hrest
  refine ⟨some (afterKey ⟨':' :: (text ++ rest), behind⟩), node, after, ?_, hvalue⟩
  simp only [keyChars, literalChars, List.cons_append, List.append_assoc, List.nil_append]
  rw [readEntries]
  simp only [skipSpace_cons (show Cursor.isSpace '"' = false from rfl), Cursor.next, hkey,
    skipSpace_cons (show Cursor.isSpace ',' = false from rfl),
    skipSpace_cons (show Cursor.isSpace ':' = false from rfl), hnode]
  rfl

theorem entriesReadable_nil : EntriesReadable [] [] where
  parted rest c hc := by
    obtain rfl := Option.mem_some.mp hc
    exact .inr (.inr rfl)
  reads fuel taken rest place hfuel := by
    obtain ⟨fuel, rfl⟩ : ∃ n, fuel = n + 1 := ⟨fuel - 1, by simp at hfuel; omega⟩
    exact ⟨[], place.after '\x7d',
      by simp [readEntries, skipSpace_cons, Cursor.isSpace, Cursor.next], rfl⟩

/-- One more entry in front of others. -/
theorem entriesReadable_cons {text more : List Char} (key : String) {value : Json}
    {fields : List (String × Json)} (hvalue : Readable text value)
    (hfields : EntriesReadable more fields) :
    EntriesReadable (',' :: keyChars key ++ text ++ more) ((key, value) :: fields) where
  parted rest c hc := by
    obtain rfl := Option.mem_some.mp hc
    exact .inl rfl
  reads fuel taken rest place hfuel := by
    simp only [List.length_append, List.length_cons] at hfuel
    obtain ⟨fuel, rfl⟩ : ∃ n, fuel = n + 1 := ⟨fuel - 1, by omega⟩
    obtain ⟨stand, node, behind, hnext, hnode⟩ := readEntries_next key hvalue fuel
      (by omega) (hfields.parted rest) place taken
    obtain ⟨nodes, after, hrest, hvalues⟩ := hfields.reads fuel ((key, stand, node) :: taken) rest
      behind (by omega)
    refine ⟨(key, stand, node) :: nodes, after, ?_, ?_⟩
    · simp only [List.cons_append, List.append_assoc]
      rw [hnext, hrest]
      simp
    · rw [Node.entryValues, hnode, hvalues]
      rfl

theorem readable_emptyObject : Readable ['\x7b', '\x7d'] (.object []) where
  opens := ⟨'\x7b', _, rfl, rfl, by decide, by decide⟩
  reads fuel rest place hfuel _ := by
    obtain ⟨fuel, rfl⟩ : ∃ n, fuel = n + 2 := ⟨fuel - 2, by simp at hfuel; omega⟩
    exact ⟨_, _, rfl, rfl⟩

/-- An object, from its first entry and the others. -/
theorem readable_object {text more : List Char} (key : String) {value : Json}
    {fields : List (String × Json)} (hvalue : Readable text value)
    (hfields : EntriesReadable more fields)  :
    Readable ('\x7b' :: keyChars key ++ text ++ more ++ ['\x7d'])
      (.ofEntries ((key, value) :: fields)) where
  opens := ⟨'\x7b', _, rfl, rfl, by decide, by decide⟩
  reads fuel rest place hfuel _ := by
    simp only [List.length_append, List.length_cons, List.length_nil] at hfuel
    obtain ⟨fuel, rfl⟩ : ∃ n, fuel = n + 2 := ⟨fuel - 2, by omega⟩
    obtain ⟨stand, node, behind, hfirst, hnode⟩ := readEntries_first key hvalue fuel
      (by omega) (hfields.parted rest) (place.after '\x7b') []
    obtain ⟨nodes, after, hrest, hvalues⟩ := hfields.reads fuel [(key, stand, node)] rest behind
      (by omega)
    refine ⟨.object (some place) ((key, stand, node) :: nodes) (.closed (some after)), after,
      ?_, ?_⟩
    · simp only [List.cons_append, List.append_assoc, List.nil_append]
      rw [readNode]
      simp only [skipSpace_cons (show Cursor.isSpace '\x7b' = false from rfl), Cursor.next,
        Option.map_none, hfirst, hrest]
      rfl
    · rw [Node.toJson, Node.entryValues, hnode, hvalues]
      rfl

/-! ## Values -/

/-- The items of a list are read one by one. -/
theorem itemsReadable_itemsChars {items : List Json}
    (h : ∀ item ∈ items, ∀ depth, Readable (chars false depth item) item) (depth : Nat) :
    ItemsReadable (itemsChars false depth items) items := by
  induction items with
  | nil => exact itemsReadable_nil
  | cons item items ih =>
    have hrest := ih fun other hother => h other (List.mem_cons_of_mem _ hother)
    exact itemsReadable_cons (h item List.mem_cons_self depth) hrest

theorem entriesReadable_fieldsChars {fields : List (String × Json)}
    (h : ∀ entry ∈ fields, ∀ depth, Readable (chars false depth entry.2) entry.2) (depth : Nat) :
    EntriesReadable (fieldsChars false depth fields) fields := by
  induction fields with
  | nil => exact entriesReadable_nil
  | cons entry fields ih =>
    have hrest := ih fun other hother => h other (List.mem_cons_of_mem _ hother)
    have hall := entriesReadable_cons entry.1 (h entry List.mem_cons_self depth) hrest
    simpa [fieldsChars, breakLine, keyChars] using hall

/-- The text of entries in any order is read as their object. -/
theorem readable_fields (fields : List (String × Json))
    (h : ∀ entry ∈ fields, ∀ depth, Readable (chars false depth entry.2) entry.2) (depth : Nat) :
    Readable (chars false depth (.object fields)) (.ofEntries fields) := by
  cases fields with
  | nil => exact readable_emptyObject
  | cons entry fields =>
    have hfields := entriesReadable_fieldsChars
      (fun other hother => h other (List.mem_cons_of_mem _ hother)) (depth + 1)
    have hall := readable_object entry.1 (h entry List.mem_cons_self (depth + 1)) hfields
    simpa [chars, breakLine, keyChars] using hall

/-- The text of a value without doubles is read as the value. -/
theorem readable_chars {value : Json} (h : InOrder IsInteger value) (depth : Nat) :
    Readable (chars false depth value) value := by
  induction h generalizing depth with
  | null => exact readable_null
  | bool b => exact readable_bool b
  | @number n h =>
    cases n with
    | int value hfits => exact readable_int value hfits
    | float x => exact h.elim
  | string s => exact readable_string s
  | @array items h ih =>
    cases items with
    | nil => exact readable_emptyArray
    | cons item items =>
      have hitems := itemsReadable_itemsChars
        (fun other hother => ih other (List.mem_cons_of_mem _ hother)) (depth + 1)
      simpa [chars, breakLine] using
        readable_array (ih item List.mem_cons_self (depth + 1)) hitems
  | @object fields hsorted h ih =>
    have hall := readable_fields _ ih depth
    rwa [ofEntries, orderFields_eq_self hsorted] at hall

/-- A text that is read as a value is the text of the value, however deep it nests. -/
theorem Readable.parseUnbounded {text : List Char} {value : Json} (h : Readable text value) :
    parseUnbounded (String.ofList text) = .ok value := by
  obtain ⟨node, after, hread, hvalue⟩ := h.reads (2 * text.length + 2) [] .start (by omega)
    parted_nil
  rw [List.append_nil] at hread
  rw [Json.parseUnbounded, decodeText, Node.readPrefix, String.toList_ofList, hread]
  simp only [hvalue, checkEnd, Cursor.skipSpace, Cursor.skipWhile]
  rfl

end ScriptHooks.Json

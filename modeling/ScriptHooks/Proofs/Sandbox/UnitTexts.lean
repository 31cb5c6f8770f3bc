/-
ScriptHooks.Proofs.Sandbox.UnitTexts — texts in sixteen-bit units.

A text of a script is a list of sixteen-bit units, and a text of the host a list of characters. A
character beyond the first plane is written as a pair of surrogates.

A text that is written in units is read back from them: no character stands for a surrogate, and
a pair of surrogates is put together again (`decode_ofString`). So no two texts have the same
units (`ofString_injective`), and keys of objects stay different.

The second part is about indices. Scripts list the keys of an object that are indices before all
others, so it matters which keys those are: they are the decimal texts of the counts below
`2^32 - 1` (`index?_eq_some_iff`). Units are read as an index if they are digits, of which only a
single one may be zero in front, and the number is small enough. Such a text is the decimal text of
its number, since the digits of a number are determined by it (`toDigits_of_foldl`).
-/
import Mathlib
import ScriptHooks.Proofs.Json.WrittenText
import ScriptHooks.Sandbox.Units

namespace ScriptHooks.Sandbox

/-! ## Characters -/

/-- Surrogates that come first. -/
theorem isLeading_iff {unit : UInt16} :
    isLeading unit = true ↔ 0xd800 ≤ unit.toNat ∧ unit.toNat < 0xdc00 := by
  simp [isLeading, UInt16.le_iff_toNat_le, UInt16.lt_iff_toNat_lt]

/-- Surrogates that come second. -/
theorem isTrailing_iff {unit : UInt16} :
    isTrailing unit = true ↔ 0xdc00 ≤ unit.toNat ∧ unit.toNat < 0xe000 := by
  simp [isTrailing, UInt16.le_iff_toNat_le, UInt16.lt_iff_toNat_lt]

/-- A character of the first plane is one unit. -/
theorem unitsOfChar_small {c : Char} (h : c.toNat < 0x10000) :
    unitsOfChar c = [UInt16.ofNat c.toNat] := if_pos h

/-- No character is a surrogate. -/
theorem not_surrogate (c : Char) : ¬ (0xd800 ≤ c.toNat ∧ c.toNat < 0xe000) := by
  rcases c.valid with hlow | ⟨hhigh, -⟩
  · exact fun h => Nat.lt_irrefl _ (Nat.lt_of_lt_of_le hlow h.1)
  · exact fun h => by
      have : c.toNat = c.val.toNat := rfl
      omega

/-- A character of one unit is read back, whatever comes after it. -/
theorem piecesOf_small {c : Char} (h : c.toNat < 0x10000) (rest : List UInt16) :
    piecesOf (UInt16.ofNat c.toNat :: rest) = .char c :: piecesOf rest := by
  have hunit : (UInt16.ofNat c.toNat).toNat = c.toNat := UInt16.toNat_ofNat_of_lt' h
  have hsurrogate := not_surrogate c
  have hleading : isLeading (UInt16.ofNat c.toNat) = false := by
    rw [Bool.eq_false_iff, Ne, isLeading_iff, hunit]
    omega
  have htrailing : isTrailing (UInt16.ofNat c.toNat) = false := by
    rw [Bool.eq_false_iff, Ne, isTrailing_iff, hunit]
    omega
  cases rest with
  | nil => simp [piecesOf, hleading, htrailing, hunit]
  | cons next rest => simp [piecesOf, hleading, htrailing, Nat.mod_eq_of_lt h]

/-- A pair of surrogates is read as the character that was written as the pair. -/
theorem piecesOf_pair {c : Char} (h : ¬ c.toNat < 0x10000) (rest : List UInt16) :
    piecesOf (unitsOfChar c ++ rest) = .char c :: piecesOf rest := by
  have hmost : c.toNat < 0x110000 := by
    rcases c.valid with hlow | ⟨-, hhigh⟩
    · exact Nat.lt_trans hlow (by decide)
    · exact hhigh
  have hfirst : (UInt16.ofNat (0xd800 + (c.toNat - 0x10000) / 0x400)).toNat =
      0xd800 + (c.toNat - 0x10000) / 0x400 :=
    UInt16.toNat_ofNat_of_lt' (by rw [UInt16.size]; omega)
  have hsecond : (UInt16.ofNat (0xdc00 + (c.toNat - 0x10000) % 0x400)).toNat =
      0xdc00 + (c.toNat - 0x10000) % 0x400 :=
    UInt16.toNat_ofNat_of_lt' (by rw [UInt16.size]; omega)
  have hleading : isLeading (UInt16.ofNat (0xd800 + (c.toNat - 0x10000) / 0x400)) = true := by
    rw [isLeading_iff, hfirst]
    omega
  have htrailing : isTrailing (UInt16.ofNat (0xdc00 + (c.toNat - 0x10000) % 0x400)) = true := by
    rw [isTrailing_iff, hsecond]
    omega
  have hpair : charOfPair (UInt16.ofNat (0xd800 + (c.toNat - 0x10000) / 0x400))
      (UInt16.ofNat (0xdc00 + (c.toNat - 0x10000) % 0x400)) = c := by
    rw [charOfPair, hfirst, hsecond, Nat.add_sub_cancel_left, Nat.add_sub_cancel_left]
    have hback : 0x10000 + (c.toNat - 0x10000) / 0x400 * 0x400 + (c.toNat - 0x10000) % 0x400 =
        c.toNat := by omega
    rw [hback, Char.ofNat_toNat]
  rw [unitsOfChar, if_neg h]
  simp only [List.cons_append, List.nil_append, piecesOf, hleading, htrailing, Bool.and_self,
    if_true, hpair]

/-- Characters that are written in units are read back from them. -/
theorem piecesOf_flatMap (chars : List Char) :
    piecesOf (chars.flatMap unitsOfChar) = chars.map .char := by
  induction chars with
  | nil => rfl
  | cons c chars ih =>
    rw [List.flatMap_cons, List.map_cons, ← ih]
    by_cases h : c.toNat < 0x10000
    · rw [unitsOfChar_small h, List.singleton_append, piecesOf_small h]
    · exact piecesOf_pair h _

namespace Units

/-! ## Texts -/

/-- What is written in units is read in pieces of one character each. -/
theorem pieces_ofString (text : String) : (ofString text).pieces = text.toList.map .char := by
  simpa [pieces, ofString, ofChars] using piecesOf_flatMap text.toList

theorem bytesBeforeLone_chars (chars : List Char) :
    bytesBeforeLone (chars.map .char) = none := by
  induction chars with
  | nil => rfl
  | cons c chars ih => rw [List.map_cons, bytesBeforeLone, ih]; rfl

/-- As a text of the host it is the same. -/
theorem toText_ofString (text : String) : (ofString text).toText = text := by
  rw [toText, pieces_ofString, List.map_map]
  exact (congrArg String.ofList (List.map_id _)).trans String.ofList_toList

/-- A text that is written in units is read back from them. -/
theorem decode_ofString (text : String) : (ofString text).decode = .ok text := by
  rw [decode, pieces_ofString, bytesBeforeLone_chars, toText_ofString]

/-- Different texts have different units. -/
theorem ofString_injective : Function.Injective ofString := fun a b h => by
  rw [← toText_ofString a, h, toText_ofString]

/-! ## Indices -/

/-- The digits of a number that is read from its digits. -/
theorem toDigits_foldl (digits : List Nat) (hdigit : ∀ d ∈ digits, d < 10) {n : Nat} (hn : 0 < n) :
    Nat.toDigits 10 (digits.foldl (fun n d => n * 10 + d) n) =
      Nat.toDigits 10 n ++ digits.map Nat.digitChar := by
  induction digits generalizing n with
  | nil => simp
  | cons d digits ih =>
    obtain ⟨hd, hdigits⟩ := List.forall_mem_cons.mp hdigit
    have happend := Nat.toDigits_append_toDigits (b := 10) (by decide) hn hd
    rw [List.foldl_cons, ih hdigits (by omega), Nat.mul_comm n 10, ← happend,
      Nat.toDigits_of_lt_base hd, List.map_cons, List.append_assoc, List.singleton_append]

/-- Digits without a zero in front are those of the number they write. -/
theorem toDigits_of_foldl {first : Nat} {digits : List Nat}
    (hdigit : ∀ d ∈ first :: digits, d < 10) (hlead : first = 0 → digits = []) :
    Nat.toDigits 10 ((first :: digits).foldl (fun n d => n * 10 + d) 0) =
      (first :: digits).map Nat.digitChar := by
  obtain ⟨hfirst, hrest⟩ := List.forall_mem_cons.mp hdigit
  rw [List.foldl_cons, Nat.zero_mul, Nat.zero_add]
  cases first with
  | zero => simp [hlead rfl]
  | succ first =>
    rw [toDigits_foldl digits hrest (Nat.succ_pos first), Nat.toDigits_of_lt_base hfirst,
      List.singleton_append, List.map_cons]

theorem flatMap_digitChar {digits : List Nat} (h : ∀ d ∈ digits, d < 10) :
    (digits.map Nat.digitChar).flatMap unitsOfChar =
      digits.map fun d => UInt16.ofNat (48 + d) := by
  induction digits with
  | nil => rfl
  | cons d digits ih =>
    obtain ⟨hd, hdigits⟩ := List.forall_mem_cons.mp h
    have hvalue := Nat.toNat_digitChar_of_lt_ten hd
    rw [List.map_cons, List.flatMap_cons, unitsOfChar_small (by omega), hvalue, ih hdigits,
      List.singleton_append, List.map_cons]

/-- The text of a count are its digits. -/
theorem ofNat_eq (n : Nat) : ofNat n = ofChars (Nat.toDigits 10 n) := by
  rw [ofNat, ofString, Nat.toString_eq_ofList_toDigits, String.toList_ofList]

/-- The codes of the digits of a count. -/
theorem codes_ofNat (n : Nat) :
    (ofNat n).units.toList.map UInt16.toNat = (Nat.toDigits 10 n).map Char.toNat := by
  have hunits : (ofNat n).units.toList = (Nat.toDigits 10 n).map fun c => UInt16.ofNat c.toNat := by
    rw [ofNat_eq, ofChars, List.map_eq_flatMap]
    refine List.flatMap_congr fun c hc => unitsOfChar_small ?_
    obtain ⟨-, hhigh⟩ := Char.isDigit_iff_toNat.mp
      (Nat.isDigit_of_mem_toDigits (by decide) (by decide) hc)
    exact Nat.lt_of_le_of_lt hhigh (by decide)
  rw [hunits, List.map_map]
  refine List.map_congr_left fun c hc => UInt16.toNat_ofNat_of_lt' ?_
  obtain ⟨-, hhigh⟩ := Char.isDigit_iff_toNat.mp
    (Nat.isDigit_of_mem_toDigits (by decide) (by decide) hc)
  exact Nat.lt_of_le_of_lt hhigh (by decide)

/-- A text of digits, of which only a single one may be zero in front, is that of a count. -/
theorem eq_ofNat_of_codes {text : Units} {first : Nat} {more : List Nat}
    (hcodes : text.units.toList.map UInt16.toNat = first :: more)
    (hdigit : ∀ c ∈ first :: more, 48 ≤ c ∧ c ≤ 57) (hlead : first = 48 → more = []) :
    text = ofNat ((first :: more).foldl (fun n c => n * 10 + (c - 48)) 0) := by
  have hfirst := hdigit first List.mem_cons_self
  have hvalue : ∀ d ∈ (first :: more).map (· - 48), d < 10 := by
    simp only [List.forall_mem_map]
    exact fun c hc => by have := hdigit c hc; omega
  have hdigits : Nat.toDigits 10 ((first :: more).foldl (fun n c => n * 10 + (c - 48)) 0) =
      ((first :: more).map (· - 48)).map Nat.digitChar := by
    have hmap : first - 48 = 0 → more.map (· - 48) = [] := fun h => by
      rw [hlead (by omega)]
      rfl
    rw [List.map_cons] at hvalue
    rw [List.map_cons, ← toDigits_of_foldl hvalue hmap]
    simp only [List.foldl_cons, List.foldl_map]
  have hunits : text.units.toList = (first :: more).map UInt16.ofNat := by
    rw [← hcodes, List.map_map]
    exact (List.map_id _).symm.trans
      (List.map_congr_left fun unit _ => (UInt16.ofNat_toNat).symm)
  have hback : ((first :: more).map (· - 48)).map (fun d => UInt16.ofNat (48 + d)) =
      (first :: more).map UInt16.ofNat := by
    rw [List.map_map]
    refine List.map_congr_left fun c hc => ?_
    have hc := hdigit c hc
    exact congrArg UInt16.ofNat (Nat.add_sub_cancel' hc.1)
  rw [ofNat_eq, hdigits, ofChars, flatMap_digitChar hvalue, hback, ← hunits]

/-- What is read as an index is the text of a count below `2^32 - 1`. -/
theorem eq_ofNat_of_index? {text : Units} {i : Nat} (h : text.index? = some i) :
    i < 0xffffffff ∧ text = ofNat i := by
  simp only [index?] at h
  generalize hcodes : text.units.toList.map UInt16.toNat = codes at h
  split at h
  case isTrue => cases h
  case isFalse hsize =>
    split at h
    case isFalse => cases h
    case isTrue hall =>
      have hdigit : ∀ c ∈ codes, 48 ≤ c ∧ c ≤ 57 := by simpa using hall
      split at h
      case h_1 => cases h
      case h_2 hlead =>
        split at h
        case isFalse => cases h
        case isTrue hlt =>
          cases codes with
          | nil => simp [size, List.map_eq_nil_iff.mp hcodes, ← Array.length_toList] at hsize
          | cons first more =>
            cases h
            refine ⟨hlt, eq_ofNat_of_codes hcodes hdigit ?_⟩
            rintro rfl
            cases more with
            | nil => rfl
            | cons second more => exact (hlead second more rfl).elim

/-- The text of a count is an index. -/
theorem index?_ofNat {i : Nat} (hi : i < 0xffffffff) : (ofNat i).index? = some i := by
  have hcodes := codes_ofNat i
  have hlength : (ofNat i).size = (Nat.toDigits 10 i).length := by
    simpa [size] using congrArg List.length hcodes
  have hpos := Nat.length_toDigits_pos (b := 10) (n := i)
  have hmost : (Nat.toDigits 10 i).length ≤ 10 :=
    (Nat.length_toDigits_le_iff (by decide) (by decide)).mpr (Nat.lt_trans hi (by decide))
  have hfold : ((Nat.toDigits 10 i).map Char.toNat).foldl (fun n c => n * 10 + (c - 48)) 0 = i := by
    simpa [List.foldl_map] using Json.foldl_toDigits i
  have hall : (((Nat.toDigits 10 i).map Char.toNat).all fun d => 48 ≤ d && d ≤ 57) = true := by
    simp only [List.all_map, List.all_eq_true]
    intro c hc
    simpa using Char.isDigit_iff_toNat.mp
      (Nat.isDigit_of_mem_toDigits (by decide) (by decide) hc)
  simp only [index?, hcodes, hall, hfold, if_true]
  rw [if_neg (by simp; omega)]
  split
  case h_1 second more hzero =>
    obtain ⟨c, rest, hdigits, hc, hrest⟩ := List.map_eq_cons_iff.mp hzero
    obtain rfl : c = '0' := Char.toNat_inj.mp hc
    rw [(Json.eq_zero_of_toDigits hdigits).2] at hrest
    cases hrest
  case h_2 => exact if_pos hi

/-- The indices are the texts of the counts below `2^32 - 1`. -/
theorem index?_eq_some_iff {text : Units} {i : Nat} :
    text.index? = some i ↔ i < 0xffffffff ∧ text = ofNat i := by
  refine ⟨eq_ofNat_of_index?, ?_⟩
  rintro ⟨hi, rfl⟩
  exact index?_ofNat hi

end Units

end ScriptHooks.Sandbox

/-
ScriptHooks.Proofs.Hook.Ancestors — which scopes are above another.

A scope is above another if its segments begin those of the other. The library tells so
twice: `lineage` lists the scopes above one, and `isAtOrAbove` compares their texts.
`mem_lineage_iff` and `isAtOrAbove_iff` say that both are right.

Texts may be compared since no segment holds a point, so that a text is cut at its points into the
segments (`splitOn_text`). It is not enough that one text begins the other: `ab` begins `abc` and is
not above it, which is why the comparison asks for a point behind. `segments_prefix_of_text` and
`text_prefix_of_segments` are the two directions. They hold no blanks either, so that every scope is
read from its own text (`parse?_text`), and what is read has that text but for blanks around it
(`text_of_parse?`).

`ancestors_agree` puts this together for scopes that are read from texts: listing, comparing texts
and comparing segments agree, the list is in the order of depth with one scope for each depth, it
ends with the scope itself, and being above is a partial order.

The last part is the order of identities, by the text of the scope and then by the name, which the
store keeps its definitions in.
-/
import Mathlib.Data.List.Basic
import Mathlib.Order.Defs.Unbundled
import ScriptHooks.Hook.ScopePath

namespace ScriptHooks

namespace ScopePath

/-! ## Texts -/

/-- A segment is a text of segment characters that is not empty. -/
theorem isSegment_iff {cs : List Char} :
    isSegment cs = true ↔ cs ≠ [] ∧ ∀ c ∈ cs, isSegmentChar c = true := by
  simp [isSegment]

/-- No segment holds a point. -/
theorem point_not_mem (scope : ScopePath) {cs : List Char}
    (h : cs ∈ scope.segments.map String.toList) : '.' ∉ cs := by
  obtain ⟨segment, hmem, rfl⟩ := List.mem_map.mp h
  intro hpoint
  have hchar := (isSegment_iff.mp (scope.valid segment hmem)).2 '.' hpoint
  simp [isSegmentChar] at hchar

/-- The text of a scope, cut at its points. -/
theorem splitOn_text {scope : ScopePath} (h : scope.segments ≠ []) :
    scope.text.toList.splitOn '.' = scope.segments.map String.toList := by
  rw [text, String.toList_intercalate]
  exact List.splitOn_intercalate '.' (fun _ => scope.point_not_mem) (by simpa using h)

/-- The top has the empty text. -/
theorem text_root {scope : ScopePath} (h : scope.segments = []) : scope.text = "" := by
  rw [text, h, String.intercalate_nil]

/-- The text of a scope is not empty, unless it is the top. -/
theorem text_ne_empty {scope : ScopePath} (h : scope.segments ≠ []) : scope.text ≠ "" := by
  intro hempty
  have hsplit := splitOn_text h
  rw [hempty, String.toList_empty, List.splitOn_nil] at hsplit
  have hmem : [] ∈ scope.segments.map String.toList := hsplit ▸ List.mem_singleton_self _
  obtain ⟨segment, hsegment, hnil⟩ := List.mem_map.mp hmem
  exact (isSegment_iff.mp (scope.valid segment hsegment)).1 hnil

/-- Scopes are told apart by their segments. -/
theorem ext_segments {a b : ScopePath} (h : a.segments = b.segments) : a = b := by
  cases a
  cases b
  cases h
  rfl

theorem map_toList_injective : Function.Injective (List.map String.toList) :=
  List.map_injective_iff.mpr fun _ _ => String.toList_inj.mp

/-- Scopes are told apart by their texts. -/
theorem text_injective {a b : ScopePath} (h : a.text = b.text) : a = b := by
  apply ext_segments
  by_cases ha : a.segments = [] <;> by_cases hb : b.segments = []
  · rw [ha, hb]
  · exact absurd (h.symm.trans (text_root ha)) (text_ne_empty hb)
  · exact absurd (h.trans (text_root hb)) (text_ne_empty ha)
  · exact map_toList_injective (by rw [← splitOn_text ha, ← splitOn_text hb, h])

/-! ## Ancestors -/

/-- What continues the text of a scope with a point is the text of a scope below it. -/
theorem segments_prefix_of_text {a b : ScopePath} (ha : a.segments ≠ [])
    (h : a.text.toList ++ ['.'] <+: b.text.toList) : a.segments <+: b.segments := by
  obtain ⟨rest, hrest⟩ := h
  have hb : b.segments ≠ [] := by
    intro hroot
    rw [text_root hroot] at hrest
    simp at hrest
  have hsplit : b.segments.map String.toList =
      a.segments.map String.toList ++ rest.splitOn '.' := by
    rw [← splitOn_text ha, ← splitOn_text hb, ← hrest, List.append_assoc]
    exact List.splitOn_append_cons_self _ _
  have hmap : a.segments.map String.toList <+: b.segments.map String.toList :=
    ⟨_, hsplit.symm⟩
  exact (List.prefix_map_iff_of_injective fun _ _ => String.toList_inj.mp).mp hmap

/-- The text of a scope below another continues the text of that one with a point. -/
theorem text_prefix_of_segments {a b : ScopePath} {more : List String}
    (ha : a.segments ≠ []) (hmore : more ≠ []) (h : b.segments = a.segments ++ more) :
    a.text.toList ++ ['.'] <+: b.text.toList := by
  refine ⟨(".".intercalate more).toList, ?_⟩
  rw [text, text, h, String.intercalate_append_of_ne_nil ha hmore]
  simp

/-- Comparing texts tells whether the segments of one begin those of the other. -/
theorem isAtOrAbove_iff {a b : ScopePath} :
    a.isAtOrAbove b = true ↔ a.segments <+: b.segments := by
  rw [isAtOrAbove, isRoot, Bool.or_eq_true, Bool.or_eq_true, List.isEmpty_iff, beq_iff_eq,
    List.isPrefixOf_iff_prefix]
  constructor
  · rintro ((hroot | htext) | hprefix)
    · rw [hroot]
      exact List.nil_prefix
    · obtain rfl := text_injective htext
      exact List.prefix_rfl
    · by_cases ha : a.segments = []
      · rw [ha]
        exact List.nil_prefix
      · exact segments_prefix_of_text ha hprefix
  · rintro ⟨more, hmore⟩
    by_cases ha : a.segments = []
    · exact .inl (.inl ha)
    · by_cases hnil : more = []
      · rw [hnil, List.append_nil] at hmore
        exact .inl (.inr (by rw [ext_segments hmore]))
      · exact .inr (text_prefix_of_segments ha hnil hmore.symm)

/-- The lineage lists the scopes whose segments begin those of the scope. -/
theorem mem_lineage_iff {a b : ScopePath} : a ∈ b.lineage ↔ a.segments <+: b.segments := by
  rw [lineage, List.mem_map]
  constructor
  · rintro ⟨count, -, rfl⟩
    exact List.take_prefix count _
  · intro h
    have hlen : a.segments.length < b.depth + 1 := Nat.lt_succ_of_le h.length_le
    exact ⟨a.segments.length, List.mem_range.mpr hlen,
      ext_segments (List.prefix_iff_eq_take.mp h).symm⟩

/-- Of the scopes above another, no two are of the same depth. -/
theorem eq_of_above {a b scope : ScopePath} (ha : a.segments <+: scope.segments)
    (hb : b.segments <+: scope.segments) (h : a.depth = b.depth) : a = b := by
  apply ext_segments
  rw [List.prefix_iff_eq_take.mp ha, List.prefix_iff_eq_take.mp hb]
  exact congrArg (scope.segments.take ·) h

/-! ## Reading texts -/

/-- Cutting at points, as the library does it. -/
theorem splitPoints_eq_splitOn (cs : List Char) : splitPoints cs = cs.splitOn '.' := by
  induction cs with
  | nil => rfl
  | cons c rest ih =>
    obtain ⟨piece, pieces, hpieces⟩ := List.exists_cons_of_ne_nil (List.splitOn_ne_nil '.' rest)
    rw [splitPoints, ih, List.splitOn_cons_eq_if_modifyHead, hpieces]
    simp only [beq_iff_eq]
    rfl

/-- The segments are the pieces of the text between its points; the empty text has none. -/
theorem segments_eq_splitPoints (scope : ScopePath) :
    scope.segments =
      ((splitPoints scope.text.toList).filter fun piece => piece ≠ []).map String.ofList := by
  rw [splitPoints_eq_splitOn]
  by_cases h : scope.segments = []
  · rw [text_root h, h]
    rfl
  · have hpieces : ∀ piece ∈ scope.segments.map String.toList, decide (piece ≠ []) = true := by
      intro piece hmem
      obtain ⟨segment, hsegment, rfl⟩ := List.mem_map.mp hmem
      exact decide_eq_true (isSegment_iff.mp (scope.valid segment hsegment)).1
    rw [splitOn_text h, List.filter_eq_self.mpr hpieces]
    simp

theorem mem_of_mem_intercalate {c : Char} {separator : List Char} {pieces : List (List Char)}
    (h : c ∈ separator.intercalate pieces) : c ∈ separator ∨ ∃ piece ∈ pieces, c ∈ piece := by
  induction pieces with
  | nil => cases h
  | cons piece rest ih =>
    cases rest with
    | nil =>
      rw [List.intercalate_singleton] at h
      exact .inr ⟨piece, List.mem_singleton_self _, h⟩
    | cons next more =>
      rw [List.intercalate_cons_cons, List.append_assoc] at h
      obtain hpiece | hmore := List.mem_append.mp h
      · exact .inr ⟨piece, List.mem_cons_self, hpiece⟩
      · obtain hseparator | hmore := List.mem_append.mp hmore
        · exact .inl hseparator
        · exact (ih hmore).imp_right fun ⟨other, hother, hc⟩ =>
            ⟨other, List.mem_cons_of_mem _ hother, hc⟩

/-- No text of a scope has blanks in it. -/
theorem isBlank_of_mem_text {scope : ScopePath} {c : Char} (h : c ∈ scope.text.toList) :
    Text.isBlank c = false := by
  rw [text, String.toList_intercalate] at h
  obtain hpoint | ⟨piece, hpiece, hc⟩ := mem_of_mem_intercalate h
  · obtain rfl : c = '.' := List.mem_singleton.mp hpoint
    decide
  · obtain ⟨segment, hsegment, rfl⟩ := List.mem_map.mp hpiece
    have hchar := (isSegment_iff.mp (scope.valid segment hsegment)).2 c hc
    simp only [isSegmentChar, Bool.and_eq_true, Bool.not_eq_true'] at hchar
    exact hchar.1.1.1

/-- Nothing is cut off a text without blanks. -/
theorem trimBlanks_eq_self {text : String} (h : ∀ c ∈ text.toList, Text.isBlank c = false) :
    Text.trimBlanks text = text := by
  have hdrop : ∀ cs : List Char, (∀ c ∈ cs, Text.isBlank c = false) →
      cs.dropWhile Text.isBlank = cs := by
    intro cs hcs
    cases cs with
    | nil => rfl
    | cons c rest => rw [List.dropWhile_cons, hcs c List.mem_cons_self]; rfl
  rw [Text.trimBlanks, hdrop _ h, hdrop _ fun c hc => h c (List.mem_reverse.mp hc),
    List.reverse_reverse, String.ofList_toList]

/-- A scope is made of its segments. -/
theorem ofSegments?_segments (scope : ScopePath) :
    ofSegments? scope.segments = some scope := by
  rw [ofSegments?, dif_pos scope.valid]

/-- Every scope is read from its own text. -/
theorem parse?_text (scope : ScopePath) : parse? scope.text = some scope := by
  rw [parse?, trimBlanks_eq_self fun _ => isBlank_of_mem_text]
  by_cases h : scope.segments = []
  · rw [text_root h]
    exact congrArg some (ext_segments h.symm)
  · have hempty : ¬scope.text.isEmpty = true := fun he =>
      text_ne_empty h (String.isEmpty_iff.mp he)
    have hsegments : (splitPoints scope.text.toList).map String.ofList = scope.segments := by
      rw [splitPoints_eq_splitOn, splitOn_text h]
      simp
    simp only [if_neg hempty, hsegments, ofSegments?_segments]

/-- The text of the scope that is read is the text that was there, but for blanks around it. -/
theorem text_of_parse? {raw : String} {scope : ScopePath} (h : parse? raw = some scope) :
    scope.text = Text.trimBlanks raw := by
  simp only [parse?] at h
  split at h
  case isTrue hempty =>
    cases h
    rw [text_root rfl, String.isEmpty_iff.mp hempty]
  case isFalse =>
    rw [ofSegments?] at h
    split at h
    · obtain rfl := Option.some.inj h
      have hpieces : String.toList ∘ String.ofList = id := funext fun _ => String.toList_ofList
      rw [text, ← String.toList_inj, String.toList_intercalate, List.map_map, hpieces,
        List.map_id, splitPoints_eq_splitOn]
      exact List.intercalate_splitOn '.'
    · cases h

/-! ## The order of ancestors -/

/-- The lineage has one scope for each depth, from the top down. -/
theorem map_depth_lineage (scope : ScopePath) :
    scope.lineage.map depth = List.range (scope.depth + 1) := by
  rw [lineage, List.map_map]
  refine (List.map_congr_left fun count hcount => ?_).trans (List.map_id _)
  have hle : count ≤ scope.depth := Nat.lt_succ_iff.mp (List.mem_range.mp hcount)
  exact (List.length_take ..).trans (Nat.min_eq_left hle)

/-- The lineage ends with the scope. -/
theorem getLast?_lineage (scope : ScopePath) : scope.lineage.getLast? = some scope := by
  have htake : scope.take scope.depth = scope := ext_segments (List.take_length ..)
  rw [lineage, List.range_succ, List.map_append, List.map_singleton, List.getLast?_concat, htake]

/-- Being above is a partial order. -/
theorem isPartialOrder_isAtOrAbove :
    IsPartialOrder ScopePath fun a b => a.isAtOrAbove b = true where
  refl a := isAtOrAbove_iff.mpr List.prefix_rfl
  trans a b c hab hbc :=
    isAtOrAbove_iff.mpr ((isAtOrAbove_iff.mp hab).trans (isAtOrAbove_iff.mp hbc))
  antisymm a b hab hba := by
    have hab := isAtOrAbove_iff.mp hab
    exact ext_segments (hab.eq_of_length_le (isAtOrAbove_iff.mp hba).length_le)

/-- What is said of the scopes above another by listing them, by comparing texts and by comparing
segments is the same, for all texts that are read and all scopes. So the scopes are ordered, the
top is least, and of the scopes above one there is one for each depth. -/
theorem ancestors_agree :
    (∀ raw scope, parse? raw = some scope →
      scope.text = Text.trimBlanks raw ∧ parse? scope.text = some scope ∧
        scope.lineage.map depth = List.range (scope.depth + 1) ∧
        scope.lineage.getLast? = some scope ∧
        ∀ above ∈ scope.lineage, parse? above.text = some above) ∧
    (∀ scope : ScopePath, scope.segments =
      ((splitPoints scope.text.toList).filter fun piece => piece ≠ []).map String.ofList) ∧
    (∀ scope above : ScopePath, (above ∈ scope.lineage ↔ above.isAtOrAbove scope = true) ∧
      (above.isAtOrAbove scope = true ↔ above.segments <+: scope.segments)) ∧
    (IsPartialOrder ScopePath fun a b => a.isAtOrAbove b = true) ∧
    (∀ scope : ScopePath, root.isAtOrAbove scope = true) ∧
    ∀ a b scope : ScopePath, a.isAtOrAbove scope = true → b.isAtOrAbove scope = true →
      a.depth = b.depth → a = b := by
  refine ⟨fun raw scope h => ?_, segments_eq_splitPoints, fun scope above => ?_,
    isPartialOrder_isAtOrAbove, fun scope => isAtOrAbove_iff.mpr List.nil_prefix,
    fun a b scope ha hb => eq_of_above (isAtOrAbove_iff.mp ha) (isAtOrAbove_iff.mp hb)⟩
  · exact ⟨text_of_parse? h, parse?_text scope, map_depth_lineage scope, getLast?_lineage scope,
      fun above _ => parse?_text above⟩
  · exact ⟨mem_lineage_iff.trans isAtOrAbove_iff.symm, isAtOrAbove_iff⟩

/-- A text with blanks around it is read, and the scope has the text without them. -/
theorem ancestors_agree_padded :
    let scope : ScopePath := ⟨["acme", "summer-conf"], by decide⟩
    parse? " acme.summer-conf\n" = some scope ∧
      scope.text = Text.trimBlanks " acme.summer-conf\n" ∧ parse? scope.text = some scope ∧
      scope.lineage.map depth = [0, 1, 2] ∧ scope.lineage.getLast? = some scope ∧
      ∀ above ∈ scope.lineage, parse? above.text = some above := by
  intro scope
  have hread : parse? " acme.summer-conf\n" = some scope := by decide +kernel
  exact ⟨hread, ancestors_agree.1 _ _ hread⟩

end ScopePath

/-! ## The order of identities -/

namespace ScriptId

/-- Identities are in the order of their scopes, and at one scope of their names. -/
theorem compare_eq_compareLex :
    ScriptId.compare =
      compareLex (compareOn fun id => id.scope.text) (compareOn fun id => id.name) := rfl

instance : Std.TransCmp ScriptId.compare := by
  rw [compare_eq_compareLex]
  infer_instance

instance : Std.LawfulEqCmp ScriptId.compare where
  eq_of_compare := by
    rintro ⟨scope, name⟩ ⟨scope', name'⟩ h
    rw [compare_eq_compareLex] at h
    obtain ⟨hscope, hname⟩ := compareLex_eq_eq.mp h
    obtain rfl : scope = scope' := ScopePath.text_injective (Std.LawfulEqOrd.eq_of_compare hscope)
    obtain rfl : name = name' := Std.LawfulEqOrd.eq_of_compare hname
    rfl

end ScriptId

end ScriptHooks

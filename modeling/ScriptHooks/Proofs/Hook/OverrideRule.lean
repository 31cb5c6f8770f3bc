/-
ScriptHooks.Proofs.Hook.OverrideRule — which of the stored scripts run for an event.

A stored script runs if it answers the event at the scope (`Answers`) and no other of its
name that answers is stored at a longer scope (`Prevails`). `resolve_prevailing` says that
resolution finds these scripts, in the order of their names.

  §1 Candidates — the query for the scopes above leaves out no candidate
                  (`filter_findActive`), so resolution looks at all that is stored;
  §2 Winners    — the winners among the candidates seen so far (`Winners`), one candidate
                  at a time, and so those of any list of definitions (`mem_mostSpecific_iff`);
  §3 Resolution — scripts of one name at equally long scopes above one are the same;
  §4 Any order  — the winners of a list are in the order of their names, whatever its order
                  and whatever else it holds that does not answer (`mostSpecific_arranged`).

`Winners seen winners` is the invariant of the loop over candidates: the winners are sorted by
name, each is one of those seen and as deep as any of its name. A candidate either is no deeper than
the winner of its name and changes nothing (`shallow`), or takes its place (`deep`).

Ties are where an order could matter. The loop keeps the first of two equally deep candidates of one
name; so the result does not depend on the order if there are no two such
(`DistinctAnswers`). In a store there are none: scopes above one are of different depths, and at a
scope a name is kept once (`eq_of_candidates`). The statement for lists has it as a hypothesis, in
the form that definitions have distinct identities.
-/
import Mathlib.Data.List.Sort
import ScriptHooks.Hook.Resolution
import ScriptHooks.Proofs.Hook.StoreHistory

namespace ScriptHooks

variable {event : String} {scope : ScopePath} {asyncMode : Bool}

/-! ## Candidates -/

/-- A script answers an event that fires at a scope. -/
structure ScriptDefinition.Answers (definition : ScriptDefinition) (event : String)
    (scope : ScopePath) (asyncMode : Bool) : Prop where
  enabled : definition.enabled = true
  kind : definition.asyncCapable = asyncMode
  subscribed : event ∈ definition.subscribedEvents
  above : definition.scope.segments <+: scope.segments

/-- The test of a candidate asks for all that answering takes. -/
theorem ScriptDefinition.isCandidate_iff {definition : ScriptDefinition} :
    definition.isCandidate event scope asyncMode = true ↔
      definition.Answers event scope asyncMode := by
  simp only [isCandidate, listensTo, Bool.and_eq_true, beq_iff_eq, List.contains_iff_mem,
    ScopePath.isAtOrAbove_iff]
  constructor
  · rintro ⟨⟨⟨henabled, hkind⟩, hsubscribed⟩, habove⟩
    exact ⟨henabled, hkind, hsubscribed, habove⟩
  · rintro ⟨henabled, hkind, hsubscribed, habove⟩
    exact ⟨⟨⟨henabled, hkind⟩, hsubscribed⟩, habove⟩

/-- The candidates of a store are all at the scopes that are asked for. -/
theorem ScriptStore.filter_findActive (store : ScriptStore) :
    (store.findActive event scope.lineage asyncMode).filter
        (·.isCandidate event scope asyncMode) =
      store.list.filter (·.isCandidate event scope asyncMode) := by
  rw [findActive, List.filter_filter]
  refine List.filter_congr fun definition _ => ?_
  cases hc : definition.isCandidate event scope asyncMode with
  | false => rfl
  | true =>
    have hanswers := ScriptDefinition.isCandidate_iff.mp hc
    simp [hanswers.enabled, hanswers.kind, ScriptDefinition.listensTo, hanswers.subscribed,
      ScopePath.mem_lineage_iff.mpr hanswers.above]

/-- Resolution looks at the candidates of the whole store. -/
theorem ScriptStore.resolve_eq_mostSpecific_list (store : ScriptStore) :
    store.resolve event scope asyncMode = mostSpecific store.list event scope asyncMode := by
  rw [resolve, mostSpecific, filter_findActive, mostSpecific]

/-! ## Winners -/

/-- Texts are compared as they are ordered. -/
theorem compareText_eq_lt_iff {a b : String} : compareText a b = .lt ↔ a < b := by
  unfold compareText
  split
  · simp [*]
  · split <;> simp [*]

instance : Std.TransCmp compareText := inferInstanceAs (Std.TransCmp (compare : String → _))

instance : Std.LawfulEqCmp compareText :=
  inferInstanceAs (Std.LawfulEqCmp (compare : String → _))

/-- Fields are put into an object as entries into a sorted list. -/
theorem insertField_eq_insert (name : String) (value : α) (fields : List (String × α)) :
    Json.insertField name value fields = Ordered.insert compareText name value fields := by
  induction fields with
  | nil => rfl
  | cons first rest ih =>
    obtain ⟨k, v⟩ := first
    rw [Json.insertField, Ordered.insert, ih]
    unfold compareText
    by_cases heq : name = k
    · subst heq
      simp
    · by_cases hlt : name < k <;> simp [heq, hlt]

theorem lookup_eq_get? (name : String) (fields : List (String × α)) :
    Json.lookup name fields = Ordered.get? name fields := by
  rw [Json.lookup, Ordered.get?]
  refine congrArg (Option.map Prod.snd) (congrArg (List.find? · fields) (funext fun entry => ?_))
  exact Bool.beq_eq_decide_eq _ _

/-- The deepest of each name among the definitions seen so far, the first of equally
deep ones. -/
structure Winners (seen : List ScriptDefinition) (winners : List (String × ScriptDefinition)) :
    Prop where
  sorted : Ordered.Sorted compareText winners
  member : ∀ {name winner}, Ordered.get? name winners = some winner →
    winner ∈ seen ∧ winner.name = name
  deepest : ∀ {winner : ScriptDefinition}, ∀ other ∈ seen,
    Ordered.get? other.name winners = some winner → other.scope.depth ≤ winner.scope.depth
  covers : ∀ other ∈ seen, Ordered.get? other.name winners ≠ none

/-- Nobody wins among no candidates. -/
theorem winners_nil : Winners [] [] where
  sorted := List.Pairwise.nil
  member := nofun
  deepest := nofun
  covers := nofun

namespace Winners

variable {seen : List ScriptDefinition} {winners : List (String × ScriptDefinition)}
  {candidate : ScriptDefinition}

/-- A candidate that is no deeper than the winner of its name changes nothing. -/
theorem shallow (h : Winners seen winners) {current : ScriptDefinition}
    (hcurrent : Ordered.get? candidate.name winners = some current)
    (hle : candidate.scope.depth ≤ current.scope.depth) :
    Winners (seen ++ [candidate]) winners where
  sorted := h.sorted
  member hwinner := (h.member hwinner).imp_left (List.mem_append_left _)
  deepest other hother hwinner := by
    obtain hother | hother := List.mem_append.mp hother
    · exact h.deepest other hother hwinner
    · obtain rfl := List.mem_singleton.mp hother
      obtain rfl : current = _ := Option.some.inj (hcurrent.symm.trans hwinner)
      exact hle
  covers other hother := by
    obtain hother | hother := List.mem_append.mp hother
    · exact h.covers other hother
    · obtain rfl := List.mem_singleton.mp hother
      rw [hcurrent]
      exact Option.some_ne_none _

/-- A candidate deeper than all of its name so far wins. -/
theorem deep (h : Winners seen winners)
    (hgt : ∀ other ∈ seen, other.name = candidate.name →
      other.scope.depth ≤ candidate.scope.depth) :
    Winners (seen ++ [candidate]) (Json.insertField candidate.name candidate winners) := by
  rw [insertField_eq_insert]
  constructor
  case sorted => exact Ordered.sorted_insert h.sorted
  case member =>
    intro name winner hwinner
    rw [Ordered.get?_insert] at hwinner
    split at hwinner
    · cases hwinner
      exact ⟨List.mem_concat_self, by assumption⟩
    · exact (h.member hwinner).imp_left (List.mem_append_left _)
  case deepest =>
    intro winner other hother hwinner
    rw [Ordered.get?_insert] at hwinner
    split at hwinner
    case isTrue hname =>
      cases hwinner
      obtain hother | hother := List.mem_append.mp hother
      · exact hgt other hother hname.symm
      · exact (List.mem_singleton.mp hother ▸ Nat.le_refl _)
    case isFalse hname =>
      obtain hother | hother := List.mem_append.mp hother
      · exact h.deepest other hother hwinner
      · exact absurd (congrArg _ (List.mem_singleton.mp hother)).symm hname
  case covers =>
    intro other hother
    rw [Ordered.get?_insert]
    split
    case isTrue => exact Option.some_ne_none _
    case isFalse hname =>
      obtain hother | hother := List.mem_append.mp hother
      · exact h.covers other hother
      · exact absurd (congrArg _ (List.mem_singleton.mp hother)).symm hname

/-- One more candidate. -/
theorem challenge (h : Winners seen winners) (candidate : ScriptDefinition) :
    Winners (seen ++ [candidate]) (challenge winners candidate) := by
  unfold ScriptHooks.challenge
  rw [lookup_eq_get?]
  split
  case h_1 current hcurrent =>
    split
    case isTrue hle => exact h.shallow hcurrent hle
    case isFalse hlt =>
      refine h.deep fun other hother hname => ?_
      have := h.deepest other hother (hname ▸ hcurrent)
      omega
  case h_2 hnone =>
    exact h.deep fun other hother hname => absurd (hname ▸ hnone) (h.covers other hother)

/-- Any candidates, one after the other. -/
theorem foldl (h : Winners seen winners) (candidates : List ScriptDefinition) :
    Winners (seen ++ candidates) (candidates.foldl ScriptHooks.challenge winners) := by
  induction candidates generalizing seen winners with
  | nil => rwa [List.append_nil]
  | cons candidate rest ih =>
    have hrest := ih (h.challenge candidate)
    rwa [List.append_assoc] at hrest

/-- The winners are in the order of their names, each name once. -/
theorem pairwise_name (h : Winners seen winners) :
    (winners.map (·.2)).Pairwise fun a b => a.name < b.name := by
  have hname : ∀ entry ∈ winners, entry.2.name = entry.1 := fun entry hentry =>
    (h.member ((Ordered.mem_iff_get? h.sorted).mp hentry)).2
  rw [List.pairwise_map]
  refine h.sorted.imp_of_mem fun ha hb hlt => ?_
  rw [hname _ ha, hname _ hb]
  exact compareText_eq_lt_iff.mp hlt

/-- The winners are the deepest of their names, if equally deep ones of a name are the same. -/
theorem mem_map_iff (h : Winners seen winners)
    (hsame : ∀ a ∈ seen, ∀ b ∈ seen, a.name = b.name → a.scope.depth = b.scope.depth → a = b)
    {definition : ScriptDefinition} :
    definition ∈ winners.map (·.2) ↔ definition ∈ seen ∧
      ∀ other ∈ seen, other.name = definition.name →
        other.scope.depth ≤ definition.scope.depth := by
  constructor
  · intro hmem
    obtain ⟨⟨name, winner⟩, hentry, rfl⟩ := List.mem_map.mp hmem
    have hget := (Ordered.mem_iff_get? h.sorted).mp hentry
    obtain ⟨hseen, rfl⟩ := h.member hget
    exact ⟨hseen, fun other hother hname => h.deepest other hother (hname ▸ hget)⟩
  · rintro ⟨hseen, hdeepest⟩
    obtain ⟨winner, hget⟩ := Option.ne_none_iff_exists'.mp (h.covers definition hseen)
    obtain ⟨hwinner, hname⟩ := h.member hget
    have hdepth : winner.scope.depth = definition.scope.depth :=
      Nat.le_antisymm (hdeepest winner hwinner hname) (h.deepest definition hseen hget)
    obtain rfl := hsame winner hwinner definition hseen hname hdepth
    exact List.mem_map.mpr ⟨_, (Ordered.mem_iff_get? h.sorted).mpr hget, rfl⟩

end Winners

/-- A list in the order of texts that its members have is determined by its members. -/
theorem eq_of_pairwise_text {α : Type} (text : α → String) {xs ys : List α}
    (hxs : xs.Pairwise fun a b => text a < text b) (hys : ys.Pairwise fun a b => text a < text b)
    (hmem : ∀ x, x ∈ xs ↔ x ∈ ys) : xs = ys := by
  let before (a b : α) : Prop := text a < text b
  have : Std.Irrefl before := ⟨fun a => String.lt_irrefl (text a)⟩
  have : Std.Antisymm before := ⟨fun a b hab hba => absurd hab (String.lt_asymm hba)⟩
  exact List.Pairwise.eq_of_mem_iff (r := before) hxs hys fun x => hmem x

/-- So are those of a list of definitions. -/
theorem pairwise_mostSpecific (definitions : List ScriptDefinition) :
    (mostSpecific definitions event scope asyncMode).Pairwise fun a b => a.name < b.name :=
  (winners_nil.foldl _).pairwise_name

/-- Of definitions that answer, an identity has one at most. -/
def DistinctAnswers (definitions : List ScriptDefinition) (event : String) (scope : ScopePath)
    (asyncMode : Bool) : Prop :=
  ∀ a ∈ definitions, ∀ b ∈ definitions, a.Answers event scope asyncMode →
    b.Answers event scope asyncMode → a.id = b.id → a = b

/-- Of a list of definitions, one answers the event and no other of its name that answers is at a
longer scope. -/
structure PrevailsAmong (definitions : List ScriptDefinition) (event : String) (scope : ScopePath)
    (asyncMode : Bool) (definition : ScriptDefinition) : Prop where
  listed : definition ∈ definitions
  answers : definition.Answers event scope asyncMode
  longest : ∀ other ∈ definitions, other.Answers event scope asyncMode →
    other.name = definition.name →
    ¬ definition.scope.segments.length < other.scope.segments.length

/-- What prevails depends on the definitions that answer. -/
theorem PrevailsAmong.of_listed {definitions definitions' : List ScriptDefinition}
    {definition : ScriptDefinition}
    (h : ∀ other : ScriptDefinition, other.Answers event scope asyncMode →
      (other ∈ definitions ↔ other ∈ definitions'))
    (hprevails : PrevailsAmong definitions event scope asyncMode definition) :
    PrevailsAmong definitions' event scope asyncMode definition where
  listed := (h definition hprevails.answers).mp hprevails.listed
  answers := hprevails.answers
  longest other hother hanswers :=
    hprevails.longest other ((h other hanswers).mpr hother) hanswers

/-- The winners of a list are the definitions that prevail in it. -/
theorem mem_mostSpecific_iff {definitions : List ScriptDefinition} {definition : ScriptDefinition}
    (h : DistinctAnswers definitions event scope asyncMode) :
    definition ∈ mostSpecific definitions event scope asyncMode ↔
      PrevailsAmong definitions event scope asyncMode definition := by
  have hwinners := winners_nil.foldl (definitions.filter (·.isCandidate event scope asyncMode))
  rw [List.nil_append] at hwinners
  have hcandidate : ∀ {other}, other ∈ definitions.filter (·.isCandidate event scope asyncMode) ↔
      other ∈ definitions ∧ other.Answers event scope asyncMode := by
    intro other
    rw [List.mem_filter, ScriptDefinition.isCandidate_iff]
  rw [mostSpecific, hwinners.mem_map_iff, hcandidate]
  case hsame =>
    intro a ha b hb hname hdepth
    obtain ⟨ha, haAnswers⟩ := hcandidate.mp ha
    obtain ⟨hb, hbAnswers⟩ := hcandidate.mp hb
    have hscope : a.scope = b.scope := ScopePath.eq_of_above haAnswers.above hbAnswers.above hdepth
    exact h a ha b hb haAnswers hbAnswers
      (by rw [ScriptDefinition.id, ScriptDefinition.id, hscope, hname])
  constructor
  · rintro ⟨⟨hlisted, hanswers⟩, hdeepest⟩
    exact ⟨hlisted, hanswers, fun other hother hanswers hname =>
      Nat.not_lt.mpr (hdeepest other (hcandidate.mpr ⟨hother, hanswers⟩) hname)⟩
  · rintro ⟨hlisted, hanswers, hlongest⟩
    refine ⟨⟨hlisted, hanswers⟩, fun other hother hname => ?_⟩
    obtain ⟨hother, hanswers⟩ := hcandidate.mp hother
    exact Nat.not_lt.mp (hlongest other hother hanswers hname)

/-! ## Resolution -/

/-- Of the scripts that are kept under their identities, one answers the event and no other
of its name that answers is kept at a longer scope. -/
structure Prevails (kept : ScriptId → Option ScriptDefinition) (event : String)
    (scope : ScopePath) (asyncMode : Bool) (definition : ScriptDefinition) : Prop where
  stored : kept definition.id = some definition
  answers : definition.Answers event scope asyncMode
  longest : ∀ other : ScriptDefinition, kept other.id = some other →
    other.Answers event scope asyncMode → other.name = definition.name →
    ¬ definition.scope.segments.length < other.scope.segments.length

/-- The candidates of a store are what was kept and answers. -/
theorem mem_candidates_iff {steps : List StoreStep} {definition : ScriptDefinition} :
    definition ∈ (ScriptStore.empty.run steps).list.filter
        (·.isCandidate event scope asyncMode) ↔
      keptAfter steps definition.id = some definition ∧
        definition.Answers event scope asyncMode := by
  rw [List.mem_filter, ScriptStore.mem_list_run, ScriptDefinition.isCandidate_iff]

/-- A name is kept once at most at a scope, so candidates of one name differ in depth. -/
theorem eq_of_candidates {kept : ScriptId → Option ScriptDefinition} {a b : ScriptDefinition}
    (ha : kept a.id = some a ∧ a.Answers event scope asyncMode)
    (hb : kept b.id = some b ∧ b.Answers event scope asyncMode) (hname : a.name = b.name)
    (hdepth : a.scope.depth = b.scope.depth) : a = b := by
  have hscope : a.scope = b.scope := ScopePath.eq_of_above ha.2.above hb.2.above hdepth
  have hid : a.id = b.id := by rw [ScriptDefinition.id, ScriptDefinition.id, hscope, hname]
  exact Option.some.inj (ha.1.symm.trans (hid ▸ hb.1))

/-- Resolution finds the scripts that prevail among those stored, each name once and in the
order of the names; to look at the scopes above only makes no difference. -/
theorem ScriptStore.resolve_prevailing (steps : List StoreStep) (event : String)
    (scope : ScopePath) (asyncMode : Bool) :
    let store := ScriptStore.empty.run steps
    let found := store.resolve event scope asyncMode
    found.Pairwise (fun a b => a.name < b.name) ∧
      (∀ definition, definition ∈ found ↔
        Prevails (keptAfter steps) event scope asyncMode definition) ∧
      found = mostSpecific store.list event scope asyncMode := by
  intro store found
  have hfound : found = mostSpecific store.list event scope asyncMode :=
    store.resolve_eq_mostSpecific_list
  have hwinners := winners_nil.foldl (store.list.filter (·.isCandidate event scope asyncMode))
  rw [List.nil_append] at hwinners
  refine ⟨hfound ▸ hwinners.pairwise_name, fun definition => ?_, hfound⟩
  rw [hfound, mostSpecific, hwinners.mem_map_iff fun a ha b hb =>
    eq_of_candidates (mem_candidates_iff.mp ha) (mem_candidates_iff.mp hb), mem_candidates_iff]
  constructor
  · rintro ⟨⟨hkept, hanswers⟩, hdeepest⟩
    exact ⟨hkept, hanswers, fun other hother hanswers hname =>
      Nat.not_lt.mpr (hdeepest other (mem_candidates_iff.mpr ⟨hother, hanswers⟩) hname)⟩
  · rintro ⟨hkept, hanswers, hlongest⟩
    refine ⟨⟨hkept, hanswers⟩, fun other hother hname => ?_⟩
    obtain ⟨hkept', hanswers'⟩ := mem_candidates_iff.mp hother
    exact Nat.not_lt.mp (hlongest other hkept' hanswers' hname)

/-! ## Candidates in any order -/

/-- The order of candidates and what stands among them that does not answer make no difference: the
scripts that run are those that prevail among the candidates, each name once and in the order of
the names. -/
theorem mostSpecific_arranged (candidates more arranged : List ScriptDefinition) (event : String)
    (scope : ScopePath) (asyncMode : Bool) (hdistinct : (candidates.map (·.id)).Nodup)
    (hmore : ∀ other ∈ more, other.enabled = false ∨ other.asyncCapable ≠ asyncMode ∨
      event ∉ other.subscribedEvents ∨ ¬ other.scope.segments <+: scope.segments)
    (harranged : arranged.Perm (candidates ++ more)) :
    let found := mostSpecific arranged event scope asyncMode
    found = mostSpecific candidates event scope asyncMode ∧
      found.Pairwise (fun a b => a.name < b.name) ∧
      ∀ definition, definition ∈ found ↔
        PrevailsAmong candidates event scope asyncMode definition := by
  intro found
  have hlisted : ∀ other : ScriptDefinition, other.Answers event scope asyncMode →
      (other ∈ arranged ↔ other ∈ candidates) := by
    intro other hanswers
    have hsilent : other ∉ more := fun hmem => by
      obtain henabled | hkind | hsubscribed | habove := hmore other hmem
      · cases henabled.symm.trans hanswers.enabled
      · exact hkind hanswers.kind
      · exact hsubscribed hanswers.subscribed
      · exact habove hanswers.above
    rw [harranged.mem_iff, List.mem_append, or_iff_left hsilent]
  have hcandidates : DistinctAnswers candidates event scope asyncMode :=
    fun a ha b hb _ _ => List.inj_on_of_nodup_map hdistinct ha hb
  have hfound : DistinctAnswers arranged event scope asyncMode := by
    intro a ha b hb haAnswers hbAnswers
    have ha : a ∈ candidates := (hlisted a haAnswers).mp ha
    have hb : b ∈ candidates := (hlisted b hbAnswers).mp hb
    exact hcandidates a ha b hb haAnswers hbAnswers
  have hmem : ∀ definition, definition ∈ found ↔
      PrevailsAmong candidates event scope asyncMode definition := fun definition =>
    (mem_mostSpecific_iff hfound).trans ⟨.of_listed hlisted, .of_listed fun other hanswers =>
      (hlisted other hanswers).symm⟩
  refine ⟨?_, pairwise_mostSpecific arranged, hmem⟩
  refine eq_of_pairwise_text (·.name) (pairwise_mostSpecific _) (pairwise_mostSpecific _) ?_
  exact fun definition => (hmem definition).trans (mem_mostSpecific_iff hcandidates).symm

/-- At `acme`, the script there is found and not the one above of its name; a script that is
switched off hides nothing. -/
theorem mostSpecific_arranged_shadowed :
    let acme : ScopePath := ⟨["acme"], by decide⟩
    let define := fun (scope : ScopePath) (name : String) (enabled : Bool) =>
      ScriptDefinition.mk scope name "" "" enabled false ["TICK"] {}
    let candidates := [define .root "notify" true, define acme "notify" true,
      define .root "audit" true]
    let more := [define acme "audit" false]
    let arranged := [define acme "audit" false, define .root "audit" true,
      define acme "notify" true, define .root "notify" true]
    (candidates.map (·.id)).Nodup ∧
      (∀ other ∈ more, other.enabled = false ∨ other.asyncCapable ≠ false ∨
        "TICK" ∉ other.subscribedEvents ∨ ¬ other.scope.segments <+: acme.segments) ∧
      arranged.Perm (candidates ++ more) ∧
      mostSpecific arranged "TICK" acme false = mostSpecific candidates "TICK" acme false ∧
      mostSpecific candidates "TICK" acme false =
        [define .root "audit" true, define acme "notify" true] := by
  intro acme define candidates more arranged
  have hdistinct : (candidates.map (·.id)).Nodup := by decide
  have hmore : ∀ other ∈ more, other.enabled = false ∨ other.asyncCapable ≠ false ∨
      "TICK" ∉ other.subscribedEvents ∨ ¬ other.scope.segments <+: acme.segments := by decide
  have harranged : arranged.Perm (candidates ++ more) := by decide
  exact ⟨hdistinct, hmore, harranged,
    (mostSpecific_arranged _ _ _ _ _ _ hdistinct hmore harranged).1, by decide +kernel⟩

end ScriptHooks

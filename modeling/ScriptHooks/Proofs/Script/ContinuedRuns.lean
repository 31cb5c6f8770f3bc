/-
ScriptHooks.Proofs.Script.ContinuedRuns — a script whose tokens go on behind its last semicolon.

Instead of its end token, a script that ends with a semicolon may be followed by further tokens
(`Continued`). Up to the semicolon a production finds the same in both lists: no word is looked
behind further than by one token, and a bracket that opens in the script is closed in it, so that
the arrow behind its partner is looked for in the script as well (`arrowAfterGroup_continued`). Here
it is used that the brackets of an accepted script are nested. Hence the mirror of such lists, in
which nothing is said of what comes behind the semicolon (`Continued.mirror`).

A statement that takes the last semicolon is done there, with nothing left open but an `if`
without its `else`. So where it gives a value in front of the end token, it gives it in front of
the further tokens (`Carries`), which must not start with `else`. The judgement is one way only:
what fails in front of the end token may go on in front of others.

Three judgements, for the three places where the end of the script can be:

* `CarriesFrom` for two states, in which the next token has been looked at;
* `Carries` for a production that starts in the script. It may take the semicolon last;
* `CarriesOn` for what comes behind something that may have taken it. Either it is in the script
  still, or the script is at its end, and then the production must give the same there.

What cannot take a semicolon last is not affected at all, and is alike by the mirror
(`CarriesFrom.of_alike`). That covers expressions and blocks, and leaves statements.
-/
import ScriptHooks.Proofs.Script.Brackets
import ScriptHooks.Proofs.Script.MovedRuns

namespace ScriptHooks.Script

open Parse

/-! ## Brackets of a script -/

/-- Behind tokens that do not end the list, the brackets are nested as well. -/
theorem Nested.exists_behind {taken ts : List Token} {awaited : List String}
    (h : Nested awaited (taken ++ ts)) (htaken : ∀ t ∈ taken, t.isEof = false) :
    ∃ left, Nested left ts := by
  induction taken generalizing awaited with
  | nil => exact ⟨awaited, h⟩
  | cons t taken ih =>
    obtain ⟨ht, htaken⟩ := List.forall_mem_cons.mp htaken
    cases h with
    | stop heof => cases ht.symm.trans heof
    | mark _ _ h => exact ih h htaken
    | other _ _ _ h => exact ih h htaken

/-- The marks that the parser counts up at are those that open brackets. -/
theorem contains_openingMarks (text : String) :
    ["(", "[", "\x7b"].contains text = (closingMark? text).isSome := by
  rw [closingMark?, Option.isSome_map, Bool.eq_iff_iff, List.find?_isSome]
  simp [bracketPairs, @eq_comm _ text]

/-- The marks it counts down at are those that close them. -/
theorem contains_closingMarks (text : String) :
    [")", "]", "\x7d"].contains text = isClosingMark text := by
  rw [isClosingMark, Bool.eq_iff_iff, List.any_eq_true]
  simp [bracketPairs, @eq_comm _ text]

/-- The partner of a bracket that is closed in front of the last semicolon is looked for there. -/
theorem arrowAfterGroup_continued {left more : List Token} {last stop : Token}
    {awaited : List String} {depth : Nat} (hlast : last.isMark ";" = true)
    (hstop : stop.isEof = true) (h : Nested awaited (left ++ [last, stop])) (hopen : 0 < depth)
    (hle : depth ≤ awaited.length) :
    arrowAfterGroup depth (left ++ last :: more) =
      arrowAfterGroup depth (left ++ [last, stop]) := by
  -- every open bracket is awaited, so that none is open in front of the semicolon
  induction left generalizing awaited depth with
  | nil =>
    have hnil : awaited = [] := by
      cases h with
      | stop => rfl
      | @mark text _ _ _ _ ht ha h =>
        obtain rfl : text = ";" := by
          rw [Token.isMark_iff, Token.isMark_iff.mp hlast] at ht
          cases ht
          rfl
        rw [awaitedAfter_of_plain (by decide)] at ha
        cases ha
        exact h.eq_nil hstop
      | other _ hm => cases (hm ";").symm.trans hlast
    rw [hnil] at hle
    exact absurd hopen (Nat.not_lt.mpr hle)
  | cons t left ih =>
    have hhead : (left ++ last :: more).headD default = (left ++ [last, stop]).headD default := by
      cases left <;> rfl
    rw [List.cons_append, List.cons_append, arrowAfterGroup, arrowAfterGroup]
    cases h with
    | stop heof => exact absurd hopen (Nat.not_lt.mpr hle)
    | @mark text _ _ _ _ ht ha h =>
      rw [Token.isMark_iff.mp ht]
      simp only [contains_openingMarks, contains_closingMarks]
      rcases awaitedAfter_cases ha with
        ⟨close, hopens, rfl⟩ | ⟨hopens, hcloses, rfl⟩ | ⟨hopens, hcloses, rfl⟩
      · simp only [hopens, Option.isSome_some, if_true]
        exact ih h (Nat.succ_pos depth) (Nat.succ_le_succ hle)
      · simp only [hopens, hcloses, Option.isSome_none, Bool.false_eq_true, if_false, if_true]
        by_cases hinner : depth ≤ 1
        · rw [if_pos hinner, if_pos hinner, hhead]
        · rw [if_neg hinner, if_neg hinner]
          rw [List.length_cons] at hle
          exact ih h (by omega) (by omega)
      · simp only [hopens, hcloses, Option.isSome_none, Bool.false_eq_true, if_false]
        exact ih h hopen hle
    | other hn hm _ h =>
      have hinner := ih h hopen hle
      cases hk : t.kind with
      | punct text => cases (hm text).symm.trans (Token.isMark_iff.mpr hk)
      | word | number | string | regex | template => exact hinner
      | eof => rfl

/-! ## Lists that go on -/

/-- The tokens of a script in front of its last semicolon and its end token, and further tokens to
stand instead of the end token. -/
structure Continued (body : List Token) (last stop : Token) (more : List Token) : Prop where
  isMark : last.isMark ";" = true
  isEof : stop.isEof = true
  wellEnded : WellEnded (body ++ [last, stop])
  nested : Nested [] (body ++ [last, stop])
  more_ne_nil : more ≠ []
  noElse : (more.headD default).isWord "else" = false

namespace Continued

variable {body more : List Token} {last stop : Token}

/-- No token of the script ends the list. -/
theorem notEof (x : Continued body last stop more) : ∀ t ∈ body, t.isEof = false := by
  obtain ⟨inner, e, heq, -, hinner⟩ := x.wellEnded.exists_eq_append
  intro t ht
  have hsplit : (body ++ [last]) ++ [stop] = inner ++ [e] := by
    rw [← heq, List.append_assoc]
    rfl
  obtain ⟨rfl, -⟩ := List.append_inj' hsplit rfl
  exact hinner t (List.mem_append_left _ ht)

/-- What is left of both lists, in front of the semicolon or behind it. -/
def Lists (body : List Token) (last stop : Token) (more ts ts' : List Token) : Prop :=
  (∃ left, left <:+ body ∧ ts = left ++ [last, stop] ∧ ts' = left ++ last :: more) ∨
    ts = [stop] ∧ ts' = more

/-- Before the semicolon both lists have the same tokens up to it. -/
theorem Lists.cases_open {ts ts' : List Token} (h : Lists body last stop more ts ts')
    (hl : ¬ts.length ≤ 1) :
    ∃ left, left <:+ body ∧ ts = left ++ [last, stop] ∧ ts' = left ++ last :: more := by
  obtain h | ⟨rfl, -⟩ := h
  · exact h
  · exact absurd (Nat.le_refl 1) hl

/-- Behind it there is the end, and in the other list what goes on. -/
theorem Lists.cases_end {ts ts' : List Token} (h : Lists body last stop more ts ts')
    (hl : ts.length ≤ 1) : ts = [stop] ∧ ts' = more := by
  obtain ⟨left, -, rfl, -⟩ | h := h
  · simp at hl
  · exact h

/-- The list of the script ends well. -/
theorem Lists.wellEnded {ts ts' : List Token} (x : Continued body last stop more)
    (h : Lists body last stop more ts ts') : WellEnded ts := by
  obtain ⟨left, ⟨taken, rfl⟩, rfl, -⟩ | ⟨rfl, -⟩ := h
  · exact x.wellEnded.of_suffix ⟨taken, (List.append_assoc ..).symm⟩ (by simp)
  · exact .stop x.isEof

/-- Nothing is longer than the script. -/
theorem Lists.length_lt {ts ts' : List Token} (h : Lists body last stop more ts ts') :
    ts.length < body.length + 3 := by
  obtain ⟨left, hleft, rfl, -⟩ | ⟨rfl, -⟩ := h
  · have := hleft.length_le
    simp only [List.length_append, List.length_cons, List.length_nil]
    omega
  · simp only [List.length_singleton]
    omega

/-- The mirror of a script that goes on. Behind its last semicolon the lists say nothing about each
other. -/
def mirror (x : Continued body last stop more) : Mirror where
  move := id
  lists := Lists body last stop more
  lost ts := ts.length ≤ 1
  top := body.length + 3
  gap := more.length - 1
  offset := 0
  lost_suffix h := Nat.le_trans h.length_le
  ne_nil := by
    rintro ts ts' (⟨left, -, rfl, -⟩ | ⟨rfl, -⟩) <;> simp
  length := by
    have hmore := List.length_pos_iff.mpr x.more_ne_nil
    rintro ts ts' (⟨left, -, rfl, rfl⟩ | ⟨rfl, rfl⟩) <;>
      simp only [List.length_append, List.length_cons, List.length_nil] <;> omega
  tail := by
    intro t t' ts ts' h _ hl
    obtain ⟨left, hleft, hts, hts'⟩ := h.cases_open (by rw [List.length_cons]; omega)
    cases left with
    | nil =>
      cases hts
      exact absurd (Nat.le_refl 1) hl
    | cons _ left =>
      cases hts
      cases hts'
      exact .inl ⟨left, (List.suffix_cons _ left).trans hleft, rfl, rfl⟩
  head := by
    intro ts ts' h hl
    obtain ⟨left, -, rfl, rfl⟩ := h.cases_open hl
    cases left <;> exact ⟨(TokenKind.move_id _).symm, rfl⟩
  newline := by
    intro ts ts' h hl _
    obtain ⟨left, -, rfl, rfl⟩ := h.cases_open hl
    cases left <;> rfl
  second := by
    intro ts ts' h hl name hname
    obtain ⟨left, -, rfl, rfl⟩ := h.cases_open hl
    match left with
    | [] =>
      have hkind := Token.word?_iff.mp hname
      cases (Token.isMark_iff.mp x.isMark).symm.trans hkind
    | [u] => exact ⟨(TokenKind.move_id _).symm, rfl⟩
    | u :: w :: left => exact ⟨(TokenKind.move_id _).symm, rfl⟩
  arrow := by
    intro ts ts' h hl hm
    obtain ⟨left, ⟨taken, rfl⟩, rfl, rfl⟩ := h.cases_open hl
    cases left with
    | nil =>
      have hkind := (Token.isMark_iff.mp x.isMark).symm.trans (Token.isMark_iff.mp hm)
      exact absurd (TokenKind.punct.inj hkind) (by decide)
    | cons t left =>
      have hm : t.isMark "(" = true := hm
      have hnested := x.nested
      rw [List.append_assoc] at hnested
      obtain ⟨awaited, hnested⟩ := hnested.exists_behind fun u hu =>
        x.notEof u (List.mem_append_left _ hu)
      have hbehind : ∀ ts, arrowAfterGroup 0 (t :: ts) = arrowAfterGroup 1 ts := by
        intro ts
        rw [arrowAfterGroup, Token.isMark_iff.mp hm]
        rfl
      rw [List.cons_append, List.cons_append, hbehind, hbehind]
      cases hnested with
      | stop heof => cases (Token.single_of_isMark hm).notEof.symm.trans heof
      | @mark text _ _ _ _ ht ha hnested =>
        obtain rfl : text = "(" := by
          rw [Token.isMark_iff, Token.isMark_iff.mp hm] at ht
          cases ht
          rfl
        cases ha
        exact arrowAfterGroup_continued x.isMark x.isEof hnested Nat.one_pos
          (Nat.succ_le_succ (Nat.zero_le _))
      | other _ hno => cases (hno "(").symm.trans hm

/-! ## Values that are carried over -/

section Carries

variable {α β : Type} {x : Continued body last stop more} {s s' mid : ParserState} {u : α → α}
  {p : Parse α} {f : α → Parse β} {q r : Parse β}

/-- In the script line ends count. -/
theorem short (h : x.mirror.Rel s s') : s.rest.length < x.mirror.top :=
  Lists.length_lt h.lists

/-- Only the last semicolon leads to the end of the script. -/
theorem not_lost_of_past (h : x.mirror.Rel s s') (hmoves : s.MovesTo mid)
    (hpast : Past NotSemicolon s.rest mid.rest) : ¬x.mirror.lost mid.rest := by
  intro hlost
  obtain ⟨taken, t, hrest, ht⟩ := hpast
  have hended : WellEnded mid.rest := hmoves.wellEnded (Lists.wellEnded x h.lists)
  obtain ⟨e, hmid⟩ := List.length_eq_one_iff.mp
    (Nat.le_antisymm hlost (List.length_pos_iff.mpr hended.ne_nil))
  rw [hmid] at hrest
  obtain ⟨left, -, hs, -⟩ | ⟨hs, -⟩ := h.lists
  · obtain ⟨-, hends⟩ := List.append_inj' (hrest.symm.trans hs) rfl
    cases hends
    cases ht.symm.trans x.isMark
  · have hlength := congrArg List.length (hrest.symm.trans hs)
    simp at hlength

/-- The next token is taken in both lists, be it the last semicolon. -/
theorem rel_pass (h : x.mirror.Rel s s') (hl : ¬x.mirror.lost s.rest) :
    x.mirror.Rel s.pass s'.pass := by
  -- the mirror says nothing of the end of the script, which is left only if the semicolon is taken
  by_cases hpass : x.mirror.lost s.pass.rest
  · obtain ⟨ts, consumed, functions, nesting, noIn, issues⟩ := s
    obtain ⟨ts', consumed', functions', nesting', noIn', issues'⟩ := s'
    obtain ⟨hlists, hconsumed, ⟨hfunctions, hnesting, hnoIn⟩, hissues⟩ := h
    obtain ⟨left, hleft, rfl, rfl⟩ := Lists.cases_open hlists hl
    cases left with
    | nil =>
      have hopen : last.isEof = false := (Token.single_of_isMark x.isMark).notEof
      simp only [ParserState.pass, List.nil_append, hopen, Bool.false_eq_true, if_false]
      exact ⟨.inr ⟨rfl, rfl⟩, congrArg (· + 1) hconsumed, ⟨hfunctions, hnesting, hnoIn⟩, hissues⟩
    | cons t left =>
      have hopen : t.isEof = false := x.notEof t (hleft.subset List.mem_cons_self)
      simp [ParserState.pass, hopen, mirror] at hpass
  · exact h.pass hpass

/-- From these states: a value that the production gives in the first list it gives in the second,
and it leaves states that belong together, be it at the end of the script. -/
def CarriesFrom (x : Continued body last stop more) (p : Parse α) (s s' : ParserState) : Prop :=
  ∀ a mid, p s = .ok a mid → ∃ mid', p s' = .ok a mid' ∧ x.mirror.Rel mid mid'

/-- The same from all states in the script that belong together. -/
def Carries (x : Continued body last stop more) (p : Parse α) : Prop :=
  ∀ s s', x.mirror.Rel s s' → ¬x.mirror.lost s.rest → x.CarriesFrom p s s'

/-- The same from the end of the script too. -/
def CarriesOn (x : Continued body last stop more) (p : Parse α) : Prop :=
  ∀ s s', x.mirror.Rel s s' → x.CarriesFrom p s s'

/-! ### From one state -/

/-- What does not take a semicolon last does not come to the end of the script. -/
theorem carries_open (h : x.mirror.Rel s s') (hl : ¬x.mirror.lost s.rest)
    (hp : x.mirror.AlikeFrom u p p s s') (hu : ∀ a, u a = a) (he : EndsFrom NotSemicolon p s)
    {a : α} (hr : p s = .ok a mid) :
    ∃ mid', p s' = .ok a mid' ∧ x.mirror.Rel mid mid' ∧ ¬x.mirror.lost mid.rest := by
  have hmoves := hp.moves
  have hout := hp.outcome
  unfold StepRelation.KeepsFrom leaves at hmoves
  unfold leaves at hout
  rw [hr] at hmoves hout
  have hmid : ¬x.mirror.lost mid.rest := by
    obtain heq | hpast := he a mid hr
    · rwa [heq]
    · exact not_lost_of_past h hmoves hpast
  have hout := hout hmid
  generalize p s' = result at hout
  cases hout with
  | ok a hrel => exact ⟨_, by rw [hu a], hrel, hmid⟩

namespace CarriesFrom

/-- What does not take a semicolon last is carried over if it is alike. -/
theorem of_alike (h : x.mirror.Rel s s') (hl : ¬x.mirror.lost s.rest)
    (hp : x.mirror.AlikeFrom u p p s s') (hu : ∀ a, u a = a)
    (ht : TakesFrom NotSemicolon (fun _ => True) p s) : x.CarriesFrom p s s' := by
  intro a mid hr
  obtain ⟨mid', hr', hrel, -⟩ := carries_open h hl hp hu (.of_takes ht) hr
  exact ⟨mid', hr', hrel⟩

theorem fail {message : String} : x.CarriesFrom (Parse.fail message : Parse α) s s' := by
  intro a mid hr
  cases hr

/-- Behind a part that is carried over, what goes on. -/
theorem bind (hp : x.CarriesFrom p s s') (hf : ∀ a, x.CarriesOn (f a)) :
    x.CarriesFrom (p >>= f) s s' := by
  intro b fin hr
  obtain ⟨a, mid, hp', hr⟩ := bind_eq_ok hr
  obtain ⟨mid', hmid', hrel⟩ := hp a mid hp'
  obtain ⟨fin', hfin', hrel⟩ := hf a mid mid' hrel b fin hr
  exact ⟨fin', by simp only [Bind.bind, EStateM.bind, hmid', hfin'], hrel⟩

/-- The state may be looked at, if what is done with it is the same. -/
theorem get {f : ParserState → Parse β} (heq : f s' = f s) (hf : x.CarriesFrom (f s) s s') :
    x.CarriesFrom (get >>= f) s s' := by
  intro b fin hr
  obtain ⟨fin', hfin', hrel⟩ := hf b fin hr
  refine ⟨fin', ?_, hrel⟩
  show f s' s' = _
  rw [heq, hfin']

/-- The same token comes next in both lists, and a line ends before it in both or in none. -/
theorem peek {f : Token → Parse β} (h : x.mirror.Rel s s') (hl : ¬x.mirror.lost s.rest)
    (hf : x.CarriesFrom (f s.peek) s s') : x.CarriesFrom (peek >>= f) s s' := by
  have htwin := h.twin hl
  have hline := h.newline hl (short h)
  have heq : s'.peek = s.peek := by
    generalize s.peek = t, s'.peek = t' at htwin hline
    obtain ⟨kind, position, newline⟩ := t
    obtain ⟨kind', position', newline'⟩ := t'
    obtain rfl : kind' = kind := htwin.kind.trans kind.move_id
    obtain rfl : position' = position := htwin.position
    obtain rfl : newline' = newline := hline
    rfl
  intro b fin hr
  obtain ⟨fin', hfin', hrel⟩ := hf b fin hr
  refine ⟨fin', ?_, hrel⟩
  show f s'.peek s' = _
  rw [heq, hfin']

theorem ite {c : Prop} [Decidable c] (hq : c → x.CarriesFrom q s s')
    (hr : ¬c → x.CarriesFrom r s s') : x.CarriesFrom (if c then q else r) s s' := by
  split
  case isTrue h => exact hq h
  case isFalse h => exact hr h

/-- A word that comes next is taken. -/
theorem passWord {f : PUnit → Parse β} {name : String} (h : x.mirror.Rel s s')
    (hl : ¬x.mirror.lost s.rest) (hw : s.peek.kind = .word name) (hf : x.Carries (f ⟨⟩)) :
    x.CarriesFrom (Parse.pass >>= f) s s' := by
  refine hf s.pass s'.pass (rel_pass h hl) (not_lost_of_past h (.pass s) (.pass ?_ ?_))
  · simp [Token.isEof, hw]
  · simp [NotSemicolon, Token.isMark, hw]

end CarriesFrom

/-! ### From all states -/

namespace Carries

/-- What follows a part that does not take a semicolon last. -/
theorem after (hp : x.mirror.Alike x.mirror.top u p p) (hu : ∀ a, u a = a)
    (he : Ends NotSemicolon p) (hf : ∀ a, x.Carries (f a)) : x.Carries (p >>= f) := by
  intro s s' h hl b fin hr
  obtain ⟨a, mid, hp', hr⟩ := bind_eq_ok hr
  obtain ⟨mid', hmid', hrel, hopen⟩ := carries_open h hl (hp.run h (short h)) hu (he s) hp'
  obtain ⟨fin', hfin', hrel⟩ := hf a mid mid' hrel hopen b fin hr
  exact ⟨fin', by simp only [Bind.bind, EStateM.bind, hmid', hfin'], hrel⟩

theorem bind (hp : x.Carries p) (hf : ∀ a, x.CarriesOn (f a)) : x.Carries (p >>= f) :=
  fun s s' h hl => (hp s s' h hl).bind hf

theorem pure {a : α} : x.Carries (Pure.pure a) := fun _ _ h _ _ _ hr => by
  cases hr
  exact ⟨_, rfl, h⟩

theorem fail {message : String} : x.Carries (Parse.fail message : Parse α) :=
  fun _ _ _ _ => .fail

theorem ite {c : Prop} [Decidable c] (hq : x.Carries q) (hr : x.Carries r) :
    x.Carries (if c then q else r) :=
  fun s s' h hl => .ite (fun _ => hq s s' h hl) fun _ => hr s s' h hl

theorem peek {f : Token → Parse β} (hf : ∀ t, x.Carries (f t)) : x.Carries (peek >>= f) :=
  fun s s' h hl => .peek h hl (hf s.peek s s' h hl)

/-- The next token is taken, be it the last semicolon. -/
theorem pass : x.Carries pass := by
  intro s s' h hl a mid hr
  cases hr
  exact ⟨s'.pass, rfl, rel_pass h hl⟩

theorem failExpecting {what : String} :
    x.Carries (Parse.failExpecting what : Parse α) := .peek fun _ => .fail

/-- A choice by a mark, be it the last semicolon. -/
theorem ifMark {text : String} (hq : x.CarriesOn q) (hr : x.Carries r) :
    x.Carries (acceptMark text >>= fun taken => if taken = true then q else r) := by
  intro s s' h hl b fin hb
  obtain ⟨taken, mid, hmark, hb⟩ := bind_eq_ok hb
  have hmark' := acceptMark_eq text s'
  rw [(h.twin hl).isMark] at hmark'
  rw [acceptMark_eq] at hmark
  simp only [Bind.bind, EStateM.bind, hmark']
  split at hmark
  case isTrue hnext =>
    cases hmark
    rw [if_pos hnext]
    exact hq s.pass s'.pass (rel_pass h hl) b fin hb
  case isFalse hnext =>
    cases hmark
    rw [if_neg hnext]
    exact hr s s' h hl b fin hb

theorem nested (hp : x.Carries p) : x.Carries (Parse.nested p) := by
  intro s s' h hl a mid hr
  unfold Parse.nested at hr ⊢
  rw [h.counters.nesting]
  by_cases hdeep : maxNesting < s.nesting + 1
  · rw [if_pos hdeep] at hr
    cases hr
  · rw [if_neg hdeep] at hr ⊢
    have hinner : x.mirror.Rel { s with nesting := s.nesting + 1 }
        { s' with nesting := s.nesting + 1 } :=
      ⟨h.lists, h.consumed, ⟨h.counters.functionDepth, rfl, h.counters.noIn⟩, h.issues⟩
    split at hr
    case h_1 a inner hrun =>
      cases hr
      obtain ⟨inner', hrun', hrel⟩ := hp _ _ hinner hl a inner hrun
      rw [hrun']
      exact ⟨_, rfl, hrel.lists, hrel.consumed, ⟨hrel.counters.functionDepth,
        congrArg (· - 1) hrel.counters.nesting, hrel.counters.noIn⟩, hrel.issues⟩
    case h_2 => cases hr

end Carries

namespace CarriesOn

theorem pure {a : α} : x.CarriesOn (Pure.pure a) := by
  intro s s' h a mid hr
  cases hr
  exact ⟨s', rfl, h⟩

/-- What has to take a token gives no value at the end of the script. -/
theorem of_takes (hp : x.Carries p) (hm : StepRelation.cursor.Keeps p)
    (ht : Takes (fun _ => True) p) : x.CarriesOn p := by
  intro s s' h
  by_cases hl : x.mirror.lost s.rest
  · intro a mid hr
    have hmoves : s.MovesTo mid := hm.of_ok hr
    have hless := (ht s a mid hr trivial).length_lt
    have hended := (hmoves.wellEnded (Lists.wellEnded x h.lists)).ne_nil
    have hone : s.rest.length ≤ 1 := hl
    exact absurd (List.length_eq_zero_iff.mp (by omega)) hended
  · exact hp s s' h hl

/-- A choice by `else`, which the further tokens do not start with. -/
theorem ifElse (hq : x.Carries q) (hr : x.CarriesOn r) :
    x.CarriesOn (eatWord "else" >>= fun taken => if taken = true then q else r) := by
  intro s s' h
  have hskip : s.peek.isWord "else" = false → s'.peek.isWord "else" = false →
      x.CarriesFrom (eatWord "else" >>= fun taken => if taken = true then q else r) s s' := by
    intro hs hs' b fin hb
    simp only [Bind.bind, EStateM.bind, eatWord_eq, hs, hs', Bool.false_eq_true, if_false] at hb ⊢
    exact hr s s' h b fin hb
  by_cases hl : x.mirror.lost s.rest
  · obtain ⟨hs, hs'⟩ := Lists.cases_end h.lists hl
    refine hskip ?_ ?_
    · rw [ParserState.peek, ParserState.tokenAhead, hs]
      simp [Token.isWord, Token.isEof_iff.mp x.isEof]
    · rw [ParserState.peek, ParserState.tokenAhead, hs']
      exact x.noElse
  · have hword := (h.twin hl).isWord "else"
    cases hnext : s.peek.isWord "else" with
    | false => exact hskip hnext (hword.trans hnext)
    | true =>
      intro b fin hb
      rw [hnext] at hword
      simp only [Bind.bind, EStateM.bind, eatWord_eq, hnext, hword, if_true] at hb ⊢
      have hw : s.peek.kind = .word "else" := Token.word?_iff.mp (Token.isWord_iff.mp hnext)
      exact CarriesFrom.passWord h hl hw (f := fun _ => q) hq b fin hb

end CarriesOn

namespace Carries

theorem acceptMark {text : String} : x.Carries (acceptMark text) :=
  .peek fun _ => .ite (.bind .pass fun _ => .pure) .pure

theorem expect {text : String} : x.Carries (expect text) := .ifMark .pure .failExpecting

/-- A semicolon is taken, or is left out where the script has not come to its end. -/
theorem semicolon : x.Carries semicolon :=
  .ifMark .pure (.peek fun _ => .ite .pure .failExpecting)

end Carries

end Carries

end Continued

end ScriptHooks.Script

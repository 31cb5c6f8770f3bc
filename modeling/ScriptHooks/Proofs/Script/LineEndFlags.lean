/-
ScriptHooks.Proofs.Script.LineEndFlags — when a line ends before a token.

A token ends where the scanner of its kind stops (`Token.behind`), so the gap between two tokens
can be said of the text and the tokens alone (`Between`), without a look at how the lexer came
from one to the other. `newlineBefore_iff` says of every text without issues and every two tokens
in a row: there is one such gap, and the flag of the later token is set exactly if the gap marks,
that is, if a line feed stands in it, or one of the other three line ends outside of comments. So
the flag tells whether a line ends in the gap exactly if each gap with a line end marks. The
comment of `return_unnoted` has a carriage return in it and does not.

## How the proof goes

* `SkipStep.marks`, one case for each kind of blank and comment: what the step adds to whether the
  gap marks. A comment up to the end of its line adds nothing, since its line end comes behind it.
  A comment between marks adds its line feeds, since its scanner looks for those only.
* `SkipRun.marks`: what the lexer passes over is a gap, and the flag is whether it marks.
* `round_gap`: in a text without faults every round ends at a token or at the end of its list.
* `scan_linked`, by induction on the fuel: so the tokens of each list follow one another
  (`Linked`), in substitutions as well.

Faults have to be excluded. A round whose lexeme is a fault passes on without a token, and what
stands between the tokens around it is then no gap. The gap is unique because a token's place and
kind say where it ends, and different places of a text have different positions.
-/
import ScriptHooks.Proofs.Script.TokenPlaces

namespace ScriptHooks.Script

namespace Lexer

/-! ## Gaps -/

/-- Where a character between tokens stands. -/
inductive GapPlace
  | plain
  | lineComment
  | blockComment

/-- The characters between tokens that stand outside of comments, from a place on. A line
comment ends before its line end, a block comment behind its closing mark. -/
def outsideComments : GapPlace → List Char → List Char
  | _, [] => []
  | .plain, '/' :: '/' :: rest => outsideComments .lineComment rest
  | .plain, '/' :: '*' :: rest => outsideComments .blockComment rest
  | .plain, c :: rest => c :: outsideComments .plain rest
  | .lineComment, c :: rest =>
    if isCommentPart c then outsideComments .lineComment rest
    else c :: outsideComments .plain rest
  | .blockComment, '*' :: '/' :: rest => outsideComments .plain rest
  | .blockComment, _ :: rest => outsideComments .blockComment rest

/-- The gap marks the token behind it: there is a line feed in it, or a line end outside of
comments. -/
def Marks (gap : List Char) : Prop :=
  '\n' ∈ gap ∨ ∃ c ∈ outsideComments .plain gap, endsLine c = true

/-- What stands outside of comments stands in the gap. -/
theorem mem_of_mem_outsideComments {place : GapPlace} {gap : List Char} {c : Char}
    (h : c ∈ outsideComments place gap) : c ∈ gap := by
  fun_induction outsideComments place gap with
  | case1 => exact h
  | case2 rest ih | case3 rest ih | case7 rest ih => exact .tail _ (.tail _ (ih h))
  | case4 d rest _ _ ih => exact (List.mem_cons.mp h).elim (· ▸ .head _) fun h => .tail _ (ih h)
  | case6 d rest _ ih => exact (List.mem_cons.mp h).elim (· ▸ .head _) fun h => .tail _ (ih h)
  | case5 d rest _ ih | case8 d rest _ ih => exact .tail _ (ih h)

/-- A gap that marks has a line end in it. -/
theorem Marks.endsLine {gap : List Char} (h : Marks gap) : ∃ c ∈ gap, endsLine c = true := by
  rcases h with hfeed | ⟨c, hc, hl⟩
  · exact ⟨'\n', hfeed, rfl⟩
  · exact ⟨c, mem_of_mem_outsideComments hc, hl⟩

/-- An empty gap does not mark. -/
theorem not_marks_nil : ¬Marks [] := by simp [Marks, outsideComments]

/-- A character that is no slash stands outside of comments. -/
theorem outsideComments_plain {c : Char} (hc : c ≠ '/') (rest : List Char) :
    outsideComments .plain (c :: rest) = c :: outsideComments .plain rest := by
  rw [outsideComments] <;> simp [hc]

/-- Outside of comments each of the four line ends marks. -/
theorem marks_cons {c : Char} (hc : c ≠ '/') (gap : List Char) :
    Marks (c :: gap) ↔ endsLine c = true ∨ Marks gap := by
  have hfeed : '\n' = c → endsLine c = true := by
    rintro rfl
    rfl
  simp only [Marks, outsideComments_plain hc, List.mem_cons, exists_eq_or_imp]
  constructor
  · rintro ((h | h) | h | h)
    · exact .inl (hfeed h)
    · exact .inr (.inl h)
    · exact .inl h
    · exact .inr (.inr h)
  · rintro (h | h | h)
    · exact .inr (.inl h)
    · exact .inl (.inr h)
    · exact .inr (.inr h)

/-- A line comment adds nothing to what follows on the next line. -/
theorem marks_lineComment {text gap : List Char} (ht : ∀ c ∈ text, isCommentPart c = true)
    (hg : ∀ c ∈ gap.head?, isCommentPart c = false) :
    Marks ('/' :: '/' :: (text ++ gap)) ↔ Marks gap := by
  have houtside : outsideComments .lineComment (text ++ gap) = outsideComments .plain gap := by
    induction text with
    | nil =>
      cases gap with
      | nil => rfl
      | cons c gap =>
        have hpart : isCommentPart c = false := hg c rfl
        have hc : c ≠ '/' := by
          rintro rfl
          cases hpart
        rw [List.nil_append, outsideComments_plain hc]
        simp [outsideComments, hpart]
    | cons c text ih =>
      obtain ⟨hc, ht⟩ := List.forall_mem_cons.mp ht
      rw [List.cons_append, outsideComments, if_pos hc, ih ht]
  have hfeed : '\n' ∉ text := fun h => by cases ht _ h
  simp [Marks, outsideComments, houtside, hfeed]

/-- A block comment that is closed: it marks what follows if a line feed stands in it. -/
theorem skipBlockComment_gap {saw : Bool} {rest : List Char} {p : Position}
    (h : (skipBlockComment saw rest p).1.1 = true) :
    ∃ text tail, text ≠ [] ∧ rest = text ++ tail ∧
      (skipBlockComment saw rest p).2 = ⟨tail, p.advance text⟩ ∧
      ((skipBlockComment saw rest p).1.2 = true ↔ saw = true ∨ '\n' ∈ text) ∧
      ∀ more, outsideComments .blockComment (text ++ more) = outsideComments .plain more := by
  fun_induction skipBlockComment saw rest p with
  | case1 | case2 => cases h
  | case3 saw rest p =>
    exact ⟨['*', '/'], rest, List.cons_ne_nil _ _, rfl, rfl, by simp, fun more => rfl⟩
  | case4 saw c d rest p hc ih =>
    obtain ⟨text, tail, hne, hrest, hcursor, hsaw, hmore⟩ := ih h
    refine ⟨c :: text, tail, List.cons_ne_nil _ _, by rw [hrest]; rfl, hcursor, ?_, fun more => ?_⟩
    · rw [hsaw, Bool.or_eq_true, beq_iff_eq, List.mem_cons, or_assoc, eq_comm (a := c)]
    · obtain ⟨e, text, rfl⟩ := List.exists_cons_of_ne_nil hne
      have hd : d = e := (List.cons.inj hrest).1
      rw [← hmore more, List.cons_append, outsideComments]
      rintro _ rfl heq
      exact hc rfl (hd.trans (List.cons.inj heq).1)

/-- A comment between marks adds its line feeds to whether the gap marks. -/
theorem marks_blockComment {text : List Char}
    (ht : ∀ more, outsideComments .blockComment (text ++ more) = outsideComments .plain more)
    (gap : List Char) : Marks ('/' :: '*' :: (text ++ gap)) ↔ '\n' ∈ text ∨ Marks gap := by
  simp [Marks, outsideComments, ht, or_assoc]

/-- What a step without a remark adds to the gap behind it. -/
theorem SkipStep.marks (h : SkipStep chunk (gap ++ tail) saw []) :
    Marks (chunk ++ gap) ↔ saw = true ∨ Marks gap := by
  cases h with
  | lineEnd hl => simp [marks_cons (ne_slash (.inl hl)), hl]
  | blank hl hg => simp [marks_cons (ne_slash (.inr hg)), hl]
  | lineComment ht hs =>
    have hhead : ∀ c ∈ gap.head?, isCommentPart c = false := by
      intro c hc
      rw [List.head?_append, Option.mem_def.mp hc] at hs
      exact hs c rfl
    rw [List.cons_append, List.cons_append, marks_lineComment ht hhead]
    simp
  | @blockComment text _ _ h =>
    have hscan := h .start
    obtain ⟨text', tail', -, hsplit, hcursor, hsaw, hmore⟩ :=
      skipBlockComment_gap (congrArg (·.1.1) hscan)
    rw [hscan] at hcursor hsaw
    cases congrArg Cursor.rest hcursor
    cases List.append_cancel_right hsplit
    have hfeed : saw = true ↔ '\n' ∈ text := by simpa using hsaw
    rw [List.cons_append, List.cons_append, marks_blockComment hmore, hfeed]

/-- What is passed over without a remark is a gap, and a line end is seen if the gap marks. -/
theorem SkipRun.marks (h : SkipRun gap tail saw []) : saw = true ↔ Marks gap := by
  generalize hr : ([] : List Remark) = remarks at h
  induction h with
  | stops _ => simp [not_marks_nil]
  | step h _ ih =>
    obtain ⟨rfl, hrest⟩ := List.append_eq_nil_iff.mp hr.symm
    rw [h.marks, Bool.or_eq_true, ih (List.map_eq_nil_iff.mp hrest).symm]

/-! ## Ends of tokens -/

/-- Where the scanner of its kind stops, for a token that begins at the cursor. -/
def Cursor.behind (cursor : Cursor) (kind : TokenKind) : Cursor :=
  match kind, cursor.rest with
  | .word _, _ => (scanWord cursor.rest cursor.position).2
  | .number, _ => skipNumber cursor
  | .punct text, rest => ⟨rest.drop text.toList.length, cursor.position.advance text.toList⟩
  | .string _, quote :: rest => (scanString quote rest (cursor.position.after quote)).2
  | .regex, slash :: rest => (skipRegex false rest (cursor.position.after slash)).2
  | .template _, mark :: rest =>
    (scanTemplate (rest.length + 1) [] [] ⟨rest, cursor.position.after mark⟩).cursor
  | _, _ => cursor

/-- A character starts a token that ends where the scanner of its kind stops, or is a fault. -/
theorem scanLexeme_behind (previous : Option Token) (c : Char) (rest : List Char) (p : Position) :
    (∃ kind, (scanLexeme previous c rest p).kind = some kind ∧
      (scanLexeme previous c rest p).after = Cursor.behind ⟨c :: rest, p⟩ kind) ∨
    ((scanLexeme previous c rest p).kind = none ∧
      ∃ fault, (scanLexeme previous c rest p).fault = some fault) := by
  unfold scanLexeme
  split
  · exact .inl ⟨_, rfl, rfl⟩
  split
  · exact .inl ⟨_, rfl, rfl⟩
  split
  · exact .inl ⟨_, rfl, rfl⟩
  split
  · exact .inl ⟨_, rfl, rfl⟩
  rcases scanPunct_cases punctuators (c :: rest) with hp | ⟨text, -, tail, hrest, hp⟩
  · rw [hp]
    exact .inr ⟨rfl, _, rfl⟩
  · rw [hp]
    refine .inl ⟨_, rfl, ?_⟩
    rw [Cursor.behind, hrest, List.drop_left]

/-- The characters from the end of the one token to the start of the other. -/
def Between (chars : List Char) (t u : Token) (gap : List Char) : Prop :=
  ∃ start tail, Cursor.Before ⟨chars, .start⟩ start ∧ start.position = t.position ∧
    (start.behind t.kind).rest = gap ++ tail ∧
    u.position = (start.behind t.kind).position.advance gap

/-- A position is that of one place of the text only. -/
theorem Cursor.At.unique {chars : List Char} {a b : Cursor} (h : a.At chars k) (h' : b.At chars m)
    (hp : a.position = b.position) : a = b := by
  have hk := h.length_eq
  have hm := h'.length_eq
  rw [h.position_eq, h'.position_eq] at hp
  rcases Nat.lt_trichotomy k m with hlt | rfl | hlt
  · exact absurd hp (Position.atOffset_ne hlt (by omega))
  · obtain ⟨rest, p⟩ := a
    obtain ⟨rest', p'⟩ := b
    obtain ⟨taken, rfl, hlen, rfl⟩ := h
    obtain ⟨taken', heq, hlen', rfl⟩ := h'
    obtain ⟨rfl, rfl⟩ := List.append_inj heq (hlen.trans hlen'.symm)
    rfl
  · exact absurd hp.symm (Position.atOffset_ne hlt (by omega))

/-- There is only one gap between two tokens. -/
theorem Between.unique {chars gap gap' : List Char} (h : Between chars t u gap)
    (h' : Between chars t u gap') : gap = gap' := by
  have sameEnd : ∀ {p : Position} {as bs : List Char}, p.advance (as ++ bs) = p.advance as →
      bs = [] := by
    intro p as bs heq
    rw [Position.advance_append] at heq
    exact by_contra fun hne => Position.advance_ne _ hne heq
  obtain ⟨start, tail, hb, hp, hr, hu⟩ := h
  obtain ⟨start', tail', hb', hp', hr', hu'⟩ := h'
  obtain ⟨k, -, hat⟩ := (Cursor.At.start chars).before hb
  obtain ⟨m, -, hat'⟩ := (Cursor.At.start chars).before hb'
  obtain rfl := hat.unique hat' (hp.trans hp'.symm)
  rw [hu] at hu'
  rcases List.append_eq_append_iff.mp (hr.symm.trans hr') with ⟨more, rfl, -⟩ | ⟨more, rfl, -⟩
  · rw [sameEnd hu'.symm, List.append_nil]
  · rw [sameEnd hu', List.append_nil]

/-! ## Rounds -/

/-- What a round without a fault comes upon at the first cursor, with the second behind it. -/
def Find.Leads (start after : Cursor) : Find → Prop
  | .ending _ => True
  | .token kind => after = start.behind kind
  | .template => ∃ rest, start.rest = '\x60' :: rest ∧ after = ⟨rest, start.position.after '\x60'⟩
  | .nothing => False

/-- Where nothing is skipped a round without a fault comes upon a token or an end. -/
theorem Stops.round_leads (h : Stops rest)
    (hi : (round inside depth newline previous ⟨rest, p⟩).issues = []) :
    let r := round inside depth newline previous ⟨rest, p⟩
    r.position = p ∧ r.newline = newline ∧ r.find.Leads ⟨rest, p⟩ r.after := by
  cases rest with
  | nil =>
    rw [round_nil]
    exact ⟨rfl, rfl, trivial⟩
  | cons c rest =>
    rw [h.round_eq] at hi ⊢
    dsimp only at hi ⊢
    cases hd : if inside then braceDepth depth c else some depth with
    | none => exact ⟨rfl, rfl, trivial⟩
    | some depth' =>
      rw [hd] at hi
      dsimp only at hi ⊢
      by_cases hq : (c == '\x60') = true
      · rw [if_pos hq]
        cases beq_iff_eq.mp hq
        exact ⟨rfl, rfl, rest, rfl, rfl⟩
      · rw [if_neg hq] at hi ⊢
        rcases scanLexeme_behind previous c rest p with
          ⟨kind, hkind, hafter⟩ | ⟨hkind, fault, hfault⟩
        · rw [hkind]
          exact ⟨rfl, rfl, hafter⟩
        · rw [hkind, hfault] at hi
          cases hi

/-- A round without a fault passes over a gap, notes whether it marks, and comes upon a token
or an end. -/
theorem round_gap {inside : Bool} {depth : Nat} {previous : Option Token} {cursor : Cursor}
    (h : (round inside depth false previous cursor).issues = []) :
    let r := round inside depth false previous cursor
    ∃ gap tail, cursor.rest = gap ++ tail ∧ r.position = cursor.position.advance gap ∧
      (r.newline = true ↔ Marks gap) ∧ r.find.Leads ⟨tail, r.position⟩ r.after := by
  obtain ⟨rest, p⟩ := cursor
  obtain ⟨gap, tail, saw, remarks, rfl, hrun⟩ := exists_skipRun rest
  cases hrun.remarks_eq_nil h
  have hbehind : round inside depth false previous ⟨gap ++ tail, p⟩ =
      round inside depth saw previous ⟨tail, p.advance gap⟩ := hrun.round_eq ..
  rw [hbehind] at h ⊢
  obtain ⟨hposition, hnewline, hleads⟩ := hrun.stops_tail.round_leads h
  refine ⟨gap, tail, rfl, hposition, ?_, ?_⟩
  · rw [hnewline]
    exact hrun.marks
  · rw [hposition]
    exact hleads

/-! ## Linked lists of tokens -/

/-- Each token but the end token stands behind a gap from where the one before it ends, and
its flag tells whether the gap marks it. -/
inductive Linked : Cursor → List Token → Prop
  | stop (h : t.isEof = true) : Linked cursor [t]
  | token (hr : cursor.rest = gap ++ tail) (hp : t.position = cursor.position.advance gap)
      (hm : t.newlineBefore = true ↔ Marks gap)
      (hb : cursor.Before (Cursor.behind ⟨tail, t.position⟩ t.kind))
      (h : Linked (Cursor.behind ⟨tail, t.position⟩ t.kind) ts) : Linked cursor (t :: ts)

/-- Of two tokens in a row, the second stands behind such a gap. -/
theorem Linked.consecutive {cursor : Cursor} (h : Linked cursor ts) (htu : [t, u] <:+: ts)
    (hu : u.isEof = false) :
    ∃ start gap tail, cursor.Before start ∧ start.position = t.position ∧
      (start.behind t.kind).rest = gap ++ tail ∧
      u.position = (start.behind t.kind).position.advance gap ∧
      (u.newlineBefore = true ↔ Marks gap) := by
  induction h with
  | stop _ =>
    have := htu.length_le
    simp at this
  | @token gap tail vs cursor v hr hp hm hb h ih =>
    rcases List.infix_cons_iff.mp htu with hprefix | hinfix
    · obtain ⟨rfl, us, rfl⟩ : t = v ∧ ∃ us, vs = u :: us := by
        obtain ⟨us, heq⟩ := hprefix
        cases heq
        exact ⟨rfl, us, rfl⟩
      cases h with
      | stop heof => exact absurd heof (by simp [hu])
      | token hr' hp' hm' _ _ =>
        exact ⟨⟨tail, t.position⟩, _, _, ⟨gap, hr, hp⟩, rfl, hr', hp', hm'⟩
    · obtain ⟨start, gap', tail', hstart, hgap⟩ := ih hinfix
      exact ⟨start, gap', tail', hb.trans hstart, hgap⟩

/-- The lists are linked, from cursors behind this one on. -/
def LinkedBehind (cursor : Cursor) (lists : List (List Token)) : Prop :=
  ∀ ts ∈ lists, ∃ start, cursor.Before start ∧ Linked start ts

namespace LinkedBehind

/-- There is nothing to link. -/
theorem nil (cursor : Cursor) : LinkedBehind cursor [] := List.forall_mem_nil _

/-- Lists that are linked behind a later place are linked behind an earlier one. -/
theorem of_before {a b : Cursor} (h : LinkedBehind b lists) (hb : a.Before b) :
    LinkedBehind a lists := by
  intro ts hts
  obtain ⟨start, hstart, hlinked⟩ := h ts hts
  exact ⟨start, hb.trans hstart, hlinked⟩

/-- Lists one after the other. -/
theorem append {cursor : Cursor} (h : LinkedBehind cursor lists)
    (h' : LinkedBehind cursor lists') : LinkedBehind cursor (lists ++ lists') :=
  List.forall_mem_append.mpr ⟨h, h'⟩

end LinkedBehind

section Scans

variable {fuel : Nat}

/-- With so much fuel, a scan without faults finds linked tokens up to its end token. -/
def TokensLinked (fuel : Nat) : Prop :=
  ∀ inside depth previous cursor, cursor.rest.length < fuel →
    let scan := scanTokens fuel inside depth false previous [] [] cursor
    scan.issues = [] → LinkedBehind cursor (listsWithin scan.value) ∧
      ∀ p newline, Linked cursor (scan.value ++ [.mk .eof p newline])

def TemplatesLinked (fuel : Nat) : Prop :=
  ∀ cursor, cursor.rest.length < fuel →
    let scan := scanTemplate fuel [] [] cursor
    scan.issues = [] → LinkedBehind cursor (scan.value ++ scan.value.flatMap listsWithin)

/-- With one more piece of fuel: one more token, and the gap before it. -/
theorem TokensLinked.succ (htokens : TokensLinked fuel) (htemplates : TemplatesLinked fuel) :
    TokensLinked (fuel + 1) := by
  intro inside depth previous cursor hfuel
  have hgap := @round_gap inside depth previous cursor
  have hbefore := round_before inside depth false previous cursor
  have hfollows := round_follows inside depth false previous cursor
  dsimp only at hgap ⊢
  rw [scanTokens_succ]
  generalize round inside depth false previous cursor = r at hgap hbefore hfollows
  obtain ⟨find, position, depth, newline, faults, after⟩ := r
  dsimp only at hgap hbefore
  intro h
  cases find with
  | ending closed => exact ⟨.nil cursor, fun p newline => .stop rfl⟩
  | token kind =>
    obtain ⟨rfl, h⟩ := List.append_eq_nil_iff.mp h
    obtain ⟨gap, tail, hr, hp, hm, rfl⟩ := hgap rfl
    have hlt := hbefore.2 fun closed hend => by cases hend
    dsimp only at h hlt
    obtain ⟨hlists, hlinked⟩ := htokens inside depth _ _ (by omega) h
    have hparts : (Token.mk kind position newline).parts = [] := Token.parts_eq_nil hfollows.2.2
    simp only [Scan.onto, List.reverse_singleton, List.singleton_append]
    rw [listsWithin_cons, hparts]
    refine ⟨hlists.of_before hbefore.1, fun p newline => ?_⟩
    exact .token hr hp hm hbefore.1 (hlinked p newline)
  | template =>
    obtain ⟨hi, h⟩ := List.append_eq_nil_iff.mp h
    obtain ⟨rfl, hi⟩ := List.append_eq_nil_iff.mp hi
    obtain ⟨-, hi⟩ := Scan.noted_eq_nil hi
    obtain ⟨gap, tail, hr, hp, hm, rest, rfl, rfl⟩ := hgap rfl
    have hlt := hbefore.2 fun closed hend => by cases hend
    dsimp only at h hi hlt hbefore ⊢
    have hend := (scan_before fuel).2 [] [] ⟨rest, position.after '\x60'⟩
    have hle := hend.length_le
    dsimp only at hle
    set scan := scanTemplate fuel [] [] ⟨rest, position.after '\x60'⟩ with hscan
    have hparts := htemplates _ (by dsimp only; omega) hi
    have hbehind : Cursor.behind ⟨'\x60' :: rest, position⟩ (.template scan.value) = scan.cursor :=
      congrArg Scan.cursor ((scan_fuel _ _).2 [] [] _ (Nat.lt_succ_self _) (by dsimp only; omega))
    obtain ⟨hlists, hlinked⟩ := htokens inside depth _ _ (by omega) h
    simp only [Scan.onto, List.reverse_singleton, List.singleton_append]
    rw [listsWithin_cons]
    refine ⟨(hparts.of_before hbefore.1).append (hlists.of_before ?_), fun p newline => ?_⟩
    · exact hbefore.1.trans hend
    · refine .token hr hp hm ?_ ?_
      · rw [Token.position, Token.kind, hbehind]
        exact hbefore.1.trans hend
      · rw [Token.position, Token.kind, hbehind]
        exact hlinked p newline
  | nothing =>
    obtain ⟨rfl, -⟩ := List.append_eq_nil_iff.mp h
    obtain ⟨_, _, -, -, -, hnone⟩ := hgap rfl
    exact hnone.elim

/-- With one more piece of fuel: one more part, and the tokens of its substitution. -/
theorem TemplatesLinked.succ (htokens : TokensLinked fuel) (htemplates : TemplatesLinked fuel) :
    TemplatesLinked (fuel + 1) := by
  intro cursor hfuel
  obtain ⟨rest, p⟩ := cursor
  dsimp only at hfuel ⊢
  rw [scanTemplate_succ]
  dsimp only
  rcases templatePart_cases rest with
    ⟨rfl, hpart⟩ | ⟨tail, rfl, hpart⟩ | ⟨own, tail, hown, rfl, hpart⟩ | ⟨tail, rfl, hpart⟩
  · rw [hpart]
    exact fun _ => .nil _
  · rw [hpart]
    exact fun _ => .nil _
  · have hpos : 0 < own.length := List.length_pos_iff.mpr hown
    rw [List.length_append] at hfuel
    rw [hpart]
    intro h
    exact (htemplates _ (by dsimp only; omega) h).of_before ⟨own, rfl, rfl⟩
  · rw [hpart]
    intro h
    simp only [List.length_cons] at hfuel
    dsimp only at h ⊢
    have hend := (scan_before fuel).1 true 0 false none [] [] ⟨tail, p.advance ['$', '\x7b']⟩
    have hle := hend.length_le
    have hopen : Cursor.Before ⟨'$' :: '\x7b' :: tail, p⟩ ⟨tail, p.advance ['$', '\x7b']⟩ :=
      ⟨['$', '\x7b'], rfl, rfl⟩
    obtain ⟨hi, h⟩ := List.append_eq_nil_iff.mp h
    obtain ⟨-, hi⟩ := Scan.noted_eq_nil hi
    obtain ⟨hlists, hlinked⟩ := htokens true 0 none _ (by dsimp only; omega) hi
    dsimp only at hle
    generalize scanTokens fuel true 0 false none [] [] ⟨tail, p.advance ['$', '\x7b']⟩ = scan at *
    have hmore := (htemplates scan.cursor (by omega) h).of_before hend
    obtain ⟨hvalue, hwithin⟩ := List.forall_mem_append.mp hmore
    simp only [Scan.onto, List.reverse_singleton, List.singleton_append, List.flatMap_cons,
      listsWithin_eof]
    refine LinkedBehind.of_before ?_ hopen
    refine .append (List.forall_mem_cons.mpr ⟨?_, hvalue⟩) (hlists.append hwithin)
    exact ⟨_, .refl _, hlinked _ _⟩

/-- The lists that scans give without faults are linked. -/
theorem scan_linked (fuel : Nat) : TokensLinked fuel ∧ TemplatesLinked fuel := by
  induction fuel with
  | zero =>
    exact ⟨fun _ _ _ _ h => absurd h (Nat.not_lt_zero _), fun _ h => absurd h (Nat.not_lt_zero _)⟩
  | succ fuel ih => exact ⟨ih.1.succ ih.2, ih.2.succ ih.1⟩

end Scans

/-- The lists of a text without faults are linked. -/
theorem tokensOf_linked {source : String} (h : (tokensOf source).2 = []) :
    LinkedBehind ⟨source.toList, .start⟩
      ((tokensOf source).1 :: listsWithin (tokensOf source).1) := by
  obtain ⟨hlists, hlinked⟩ := (scan_linked (source.toList.length + 1)).1 false 0 none
    ⟨source.toList, .start⟩ (Nat.lt_succ_self _) h
  refine List.forall_mem_cons.mpr ⟨⟨_, .refl _, hlinked _ _⟩, ?_⟩
  unfold tokensOf tokenizeChars
  rw [listsWithin_eof]
  exact hlists

/-- In a text without faults the characters between two tokens in a row are a gap, and the
flag of the second tells whether the gap marks it. So it tells whether a line ends there if
and only if no line end is missed: either none stands in the gap, or a line feed or one
outside of comments does. -/
theorem newlineBefore_iff {source : String} (h : (tokensOf source).2 = []) {ts : List Token}
    (hts : ts ∈ (tokensOf source).1 :: listsWithin (tokensOf source).1) {t u : Token}
    (htu : [t, u] <:+: ts) (hu : u.isEof = false) :
    ∃ gap, (∀ other, Between source.toList t u other ↔ other = gap) ∧
      (u.newlineBefore = true ↔ Marks gap) ∧
      ((u.newlineBefore = true ↔ ∃ c ∈ gap, endsLine c = true) ↔
        ((∃ c ∈ gap, endsLine c = true) → Marks gap)) := by
  obtain ⟨cursor, hbefore, hlinked⟩ := tokensOf_linked h ts hts
  obtain ⟨start, gap, tail, hb, hp, hr, hu, hm⟩ := hlinked.consecutive htu hu
  have hbetween : Between source.toList t u gap := ⟨start, tail, hbefore.trans hb, hp, hr, hu⟩
  refine ⟨gap, fun other => ⟨fun hother => hother.unique hbetween, ?_⟩, hm, ?_⟩
  · rintro rfl
    exact hbetween
  · rw [hm]
    exact ⟨fun hiff => hiff.mpr, fun himp => ⟨Marks.endsLine, himp⟩⟩

/-- A gap with both kinds of comment and blanks, and the flag behind it. -/
theorem newlineBefore_of_mixedGap :
    (tokensOf "a //x\n/**/ b").2 = [] ∧
      ∃ t u, [t, u] <:+: (tokensOf "a //x\n/**/ b").1 ∧ u.isEof = false ∧
        ∃ gap, (∀ other, Between "a //x\n/**/ b".toList t u other ↔ other = gap) ∧
          (u.newlineBefore = true ↔ Marks gap) ∧
          ((u.newlineBefore = true ↔ ∃ c ∈ gap, endsLine c = true) ↔
            ((∃ c ∈ gap, endsLine c = true) → Marks gap)) := by
  have htu : [Token.mk (.word "a") ⟨1, 1⟩ false, .mk (.word "b") ⟨2, 6⟩ true] <:+:
      (tokensOf "a //x\n/**/ b").1 := ⟨[], [.mk .eof ⟨2, 7⟩ true], rfl⟩
  exact ⟨rfl, _, _, htu, rfl, newlineBefore_iff rfl (.head _) htu rfl⟩

/-- A carriage return in a comment is a line end, but the flag is not set. -/
theorem return_unnoted :
    (tokensOf "a/*\r*/b").2 = [] ∧
      ∃ t u, [t, u] <:+: (tokensOf "a/*\r*/b").1 ∧ u.isEof = false ∧ u.newlineBefore = false ∧
        ∃ gap, Between "a/*\r*/b".toList t u gap ∧ ∃ c ∈ gap, endsLine c = true := by
  refine ⟨rfl, .mk (.word "a") ⟨1, 1⟩ false, .mk (.word "b") ⟨1, 7⟩ false, ?_, rfl, rfl, ?_⟩
  · exact ⟨[], [.mk .eof ⟨1, 8⟩ true], rfl⟩
  · refine ⟨"/*\r*/".toList, ?_, '\r', by decide, rfl⟩
    exact ⟨⟨"a/*\r*/b".toList, .start⟩, ['b'], .refl _, rfl, rfl, rfl⟩

end Lexer

end ScriptHooks.Script

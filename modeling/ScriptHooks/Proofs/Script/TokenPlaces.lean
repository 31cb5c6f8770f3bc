/-
ScriptHooks.Proofs.Script.TokenPlaces — where tokens and issues of the lexer stand.

The lexer keeps line and column as it goes, so the other side is counted from the text alone
(`Position.atOffset`): the line feeds before an offset, and the characters after the last of them.
`tokens_exactly_placed` says of every text, faulty or not: each token, those in substitutions
included, has the place of an offset at which it begins as its kind says; the offsets grow in the
order in which tokens are nested and follow one another; and each issue has the place of an offset
too, with the character there that it is about.

## How the proof goes

A cursor stands at an offset (`Cursor.At`), a round goes on to a later one (`round_at`), and what
a scan finds is laid out between the offsets where it starts and ends (`Laid`). `scan_laid` proves
this for tokens and templates at once, by induction on the fuel. Places are told apart by
`atOffset_ne`: different offsets of a text have different positions, and so a token has one offset.

In that layout an end token may share its offset only with end tokens: behind a brace that closes
a substitution the template goes on, and the end of the list stands at the brace. Everywhere else
the layout is strict. A template begins before the tokens of its substitutions.

The faults come with a character each. A comment that is not closed is remarked on at its first
character and not where the text ends (`SkipStep.faultAt`); a template that is not closed at its
opening mark.
-/
import Mathlib.Data.List.Induction
import ScriptHooks.Proofs.Script.LinesBelow

namespace ScriptHooks.Script

/-! ## Positions of a text -/

namespace Position

/-- Where the character at an offset stands: one line for each line feed before it, and one
column for each character behind the last of these. -/
def atOffset (chars : List Char) (k : Nat) : Position :=
  ⟨1 + (chars.take k).count '\n', 1 + ((chars.take k).reverse.takeWhile (· != '\n')).length⟩

/-- The place behind some characters, counted from them alone. -/
theorem advance_start (cs : List Char) : start.advance cs =
    ⟨1 + cs.count '\n', 1 + (cs.reverse.takeWhile (· != '\n')).length⟩ := by
  induction cs using List.reverseRecOn with
  | nil => rfl
  | append_singleton cs c ih =>
    rw [advance_append, ih, advance_cons, advance_nil, after]
    by_cases hc : c = '\n'
    · simp [hc, Nat.add_assoc]
    · simp [hc, Nat.add_comm 1]

/-- The place at the offset behind some characters is the place behind them. -/
theorem atOffset_length (taken rest : List Char) :
    atOffset (taken ++ rest) taken.length = start.advance taken := by
  rw [atOffset, List.take_left, advance_start]

/-- A place further on is behind as well. -/
theorem Behind.advance (h : Behind p place) (cs : List Char) : Behind p (place.advance cs) := by
  induction cs generalizing place with
  | nil => exact h
  | cons c cs ih => exact ih (h.after c)

/-- Characters move the position. -/
theorem advance_ne (p : Position) {cs : List Char} (h : cs ≠ []) : p.advance cs ≠ p := by
  obtain ⟨c, cs, rfl⟩ := List.exists_cons_of_ne_nil h
  have hbehind : Behind (p.after c) ((p.after c).advance cs) :=
    Behind.advance (.inr ⟨rfl, Nat.le_refl _⟩) cs
  intro heq
  rw [advance_cons] at heq
  rw [heq] at hbehind
  unfold Behind after at hbehind
  split at hbehind <;> simp only at hbehind <;> omega

/-- Different offsets have different positions. -/
theorem atOffset_ne {chars : List Char} (h : k < m) (hm : m ≤ chars.length) :
    atOffset chars k ≠ atOffset chars m := by
  have hk : chars.take m = chars.take k ++ (chars.take m).drop k := by
    have htake : (chars.take m).take k = chars.take k := by
      rw [List.take_take, Nat.min_eq_left (Nat.le_of_lt h)]
    rw [← htake, List.take_append_drop]
  have hne : (chars.take m).drop k ≠ [] := by
    rw [Ne, List.drop_eq_nil_iff, List.length_take]
    omega
  have hadvance : atOffset chars m = (atOffset chars k).advance ((chars.take m).drop k) := by
    simp only [atOffset, ← advance_start]
    rw [← advance_append, ← hk]
  rw [hadvance]
  exact (advance_ne _ hne).symm

end Position

/-! ## What stands at an offset -/

def TokenKind.beginsWith : TokenKind → Char → Bool
  | .word name, c => Lexer.startsWord c && name.toList.head? == some c
  | .number, c => c.isDigit || c == '.'
  | .string _, c => c == '"' || c == '\''
  | .template _, c => c == '\x60'
  | .regex, c => c == '/'
  | .punct text, c => text.toList.head? == some c
  | .eof, _ => false

/-- The token has the position of this offset, and unless it is an end token the character
there is one that can begin it. -/
structure Token.StandsAt (chars : List Char) (k : Nat) (t : Token) : Prop where
  position : t.position = .atOffset chars k
  le : k ≤ chars.length
  first : t.isEof = false → ∃ c, chars[k]? = some c ∧ t.kind.beginsWith c = true

namespace Lexer

/-- A message of the lexer is about something that begins with the character. -/
inductive FaultAt : String → Char → Prop
  | string (h : c = '"' ∨ c = '\'') : FaultAt "unterminated string literal" c
  | regex : FaultAt "unterminated regular expression literal" '/'
  | comment : FaultAt "unterminated block comment" '/'
  | template : FaultAt "unterminated template literal" '\x60'
  | substitution : FaultAt "unterminated template substitution" '$'
  | unexpected (c : Char) : FaultAt ("unexpected character '" ++ String.singleton c ++ "'") c

end Lexer

/-- The issue is about syntax and has the position of an offset, and the character there
begins what it is about. -/
def Issue.StandsIn (chars : List Char) (issue : Issue) : Prop :=
  ∃ k c, chars[k]? = some c ∧ issue.kind = .badSyntax ∧ issue.position = .atOffset chars k ∧
    Lexer.FaultAt issue.message c

namespace Lexer

/-- The cursor stands at this offset of the text. -/
def Cursor.At (chars : List Char) (k : Nat) (cursor : Cursor) : Prop :=
  ∃ taken, chars = taken ++ cursor.rest ∧ taken.length = k ∧
    cursor.position = Position.start.advance taken

namespace Cursor.At

variable {chars rest own : List Char} {cursor : Cursor} {p : Position} {k : Nat}

/-- The start of a text is at its offset zero. -/
theorem start (chars : List Char) : At chars 0 ⟨chars, .start⟩ := ⟨[], rfl, rfl, rfl⟩

/-- What is left makes up the rest of the text. -/
theorem length_eq (h : At chars k cursor) : k + cursor.rest.length = chars.length := by
  obtain ⟨taken, rfl, rfl, -⟩ := h
  exact List.length_append.symm

/-- The cursor has the place of its offset. -/
theorem position_eq (h : At chars k cursor) : cursor.position = .atOffset chars k := by
  obtain ⟨taken, rfl, rfl, hp⟩ := h
  rw [hp, Position.atOffset_length]

/-- The character at the offset is the next one. -/
theorem getElem? (h : At chars k cursor) : chars[k]? = cursor.rest.head? := by
  obtain ⟨taken, rfl, rfl, -⟩ := h
  rw [List.getElem?_append_right (Nat.le_refl _), Nat.sub_self, List.head?_eq_getElem?]

/-- Behind some characters the cursor is so many offsets further. -/
theorem advance (h : At chars k ⟨own ++ rest, p⟩) :
    At chars (k + own.length) ⟨rest, p.advance own⟩ := by
  obtain ⟨taken, hchars, rfl, hp⟩ := h
  refine ⟨taken ++ own, by rw [hchars, List.append_assoc], List.length_append, ?_⟩
  rw [Position.advance_append, ← hp]

/-- Behind a character the cursor is at the next offset. -/
theorem after (h : At chars k ⟨c :: rest, p⟩) : At chars (k + 1) ⟨rest, p.after c⟩ := by
  have hone : At chars k ⟨[c] ++ rest, p⟩ := h
  exact hone.advance

/-- Cursors further on are at later offsets. -/
theorem before {after : Cursor} (h : At chars k cursor) (hb : cursor.Before after) :
    ∃ m, k ≤ m ∧ At chars m after := by
  obtain ⟨rest, p⟩ := cursor
  obtain ⟨tail, q⟩ := after
  obtain ⟨chunk, hrest, hq⟩ := hb
  dsimp only at hrest hq
  subst hrest hq
  exact ⟨_, Nat.le_add_right _ _, h.advance⟩

/-- An issue about the character at the cursor. -/
theorem standsIn (h : At chars k ⟨c :: rest, p⟩) (hf : FaultAt message c) :
    (Issue.ofSyntax message p).StandsIn chars :=
  ⟨k, c, h.getElem?, rfl, h.position_eq, hf⟩

end Cursor.At

/-! ## Rounds -/

/-- A word begins with its first character. -/
theorem scanWord_eq (h : startsWord c = true) (rest : List Char) (p : Position) :
    (scanWord (c :: rest) p).1 = c :: (scanWord rest (p.after c)).1 := by
  rw [scanWord, continuesWord_of_startsWord h]
  rfl

/-- A token begins as its kind says, and the fault of a lexeme is about its first character. -/
theorem scanLexeme_begins (previous : Option Token) (c : Char) (rest : List Char) (p : Position) :
    (∀ kind, (scanLexeme previous c rest p).kind = some kind → kind.beginsWith c = true) ∧
      ∀ fault, (scanLexeme previous c rest p).fault = some fault → FaultAt fault c := by
  unfold scanLexeme
  split
  · rename_i hw
    have hname := scanWord_eq hw rest p
    refine ⟨fun kind hk => ?_, fun fault hf => by cases hf⟩
    generalize scanWord (c :: rest) p = scan at hname hk
    cases hk
    simp [TokenKind.beginsWith, hw, hname]
  split
  · rename_i hn
    refine ⟨fun kind hk => ?_, fun fault hf => by cases hf⟩
    cases hk
    simp only [startsNumber, Bool.or_eq_true, Bool.and_eq_true] at hn
    simp only [TokenKind.beginsWith, Bool.or_eq_true]
    exact hn.imp_right And.left
  split
  · rename_i hq
    refine ⟨fun kind hk => ?_, fun fault hf => ?_⟩
    · cases hk
      exact hq
    · dsimp only at hf
      split at hf
      · cases hf
      · cases hf
        exact .string (by simpa using hq)
  split
  · rename_i hr
    obtain ⟨hslash, -⟩ := Bool.and_eq_true_iff.mp hr
    cases beq_iff_eq.mp hslash
    refine ⟨fun kind hk => ?_, fun fault hf => ?_⟩
    · cases hk
      rfl
    · dsimp only at hf
      split at hf
      · cases hf
      · cases hf
        exact .regex
  rcases scanPunct_cases punctuators (c :: rest) with hp | ⟨text, ht, tail, hr, hp⟩
  · rw [hp]
    refine ⟨fun kind hk => (by cases hk), fun fault hf => ?_⟩
    cases hf
    exact .unexpected c
  · rw [hp]
    refine ⟨fun kind hk => ?_, fun fault hf => by cases hf⟩
    cases hk
    obtain ⟨d, own, hown⟩ := List.exists_cons_of_ne_nil (punctuators_ne_empty text ht)
    rw [hown] at hr
    cases hr
    simp [TokenKind.beginsWith, hown]

/-- Only a comment that is not closed is remarked on, at its first character. -/
theorem SkipStep.faultAt (h : SkipStep chunk tail saw remarks) :
    ∀ remark ∈ remarks, remark.2 = [] ∧ ∃ c ∈ chunk.head?, FaultAt remark.1 c := by
  cases h with
  | lineEnd | blank | lineComment | blockComment => exact List.forall_mem_nil _
  | openComment => exact List.forall_mem_singleton.mpr ⟨rfl, '/', rfl, .comment⟩

/-- What is wrong with blanks and comments stands in the text. -/
theorem SkipRun.standsIn (h : SkipRun gap tail saw remarks) {chars : List Char}
    (hat : Cursor.At chars k ⟨gap ++ tail, p⟩) :
    ∀ issue ∈ issuesAt remarks p, issue.StandsIn chars := by
  induction h generalizing k p with
  | stops _ => exact List.forall_mem_nil _
  | step h _ ih =>
    rw [List.append_assoc] at hat
    rw [issuesAt_append, issuesAt_behind]
    refine List.forall_mem_append.mpr ⟨List.forall_mem_map.mpr fun remark hr => ?_, ih hat.advance⟩
    obtain ⟨hnil, c, hc, hfault⟩ := h.faultAt remark hr
    obtain ⟨chunk, rfl⟩ := List.head?_eq_some_iff.mp hc
    rw [hnil]
    exact Cursor.At.standsIn hat hfault

/-- What a round comes upon stands at this offset and ends at that one. -/
def Find.Spans (chars : List Char) (m n : Nat) : Find → Prop
  | .ending closed => m + closed.toNat = n
  | .token kind => m < n ∧ ∃ c, chars[m]? = some c ∧ kind.beginsWith c = true
  | .template => m < n ∧ chars[m]? = some '\x60'
  | .nothing => m < n

/-- A round goes on from one offset to another, and what it finds begins in between. -/
theorem round_at {chars : List Char} {cursor : Cursor} (h : cursor.At chars k) (inside : Bool)
    (depth : Nat) (newline : Bool) (previous : Option Token) :
    let r := round inside depth newline previous cursor
    (∃ m n, k ≤ m ∧ r.position = .atOffset chars m ∧ r.after.At chars n ∧ r.find.Spans chars m n) ∧
      ∀ issue ∈ r.issues, issue.StandsIn chars := by
  obtain ⟨rest, p⟩ := cursor
  obtain ⟨gap, tail, saw, remarks, rfl, hrun⟩ := exists_skipRun rest
  have hremarks := hrun.standsIn h
  have hat := h.advance
  have hm : k ≤ k + gap.length := Nat.le_add_right ..
  rw [hrun.round_eq]
  generalize k + gap.length = m, p.advance gap = q at hat hm
  cases tail with
  | nil =>
    rw [round_nil]
    exact ⟨⟨m, m, hm, hat.position_eq, hat, rfl⟩, by simpa using hremarks⟩
  | cons c rest =>
    rw [hrun.stops_tail.round_eq]
    dsimp only
    split
    · exact ⟨⟨m, m + 1, hm, hat.position_eq, hat.after, rfl⟩, by simpa using hremarks⟩
    split
    · rename_i hq
      cases beq_iff_eq.mp hq
      exact ⟨⟨m, m + 1, hm, hat.position_eq, hat.after, Nat.lt_succ_self m, hat.getElem?⟩,
        by simpa using hremarks⟩
    · obtain ⟨hkind, hfault⟩ := scanLexeme_begins previous c rest q
      obtain ⟨kind, fault, skip, ⟨own, tail, rfl, hs⟩, hl⟩ := scanLexeme_takes previous c rest
      rw [hl, hs] at hkind hfault ⊢
      have hafter := hat.after.advance
      have hfaults : ∀ issue ∈ issuesAt remarks p ++
          fault.toList.map fun f => Issue.ofSyntax f q, issue.StandsIn chars := by
        refine List.forall_mem_append.mpr ⟨hremarks, List.forall_mem_map.mpr fun f hf => ?_⟩
        exact hat.standsIn (hfault f (Option.mem_toList.mp hf))
      have hlt : m < m + 1 + own.length := by omega
      cases kind with
      | none => exact ⟨⟨m, _, hm, hat.position_eq, hafter, hlt⟩, hfaults⟩
      | some kind =>
        exact ⟨⟨m, _, hm, hat.position_eq, hafter, hlt, c, hat.getElem?, hkind kind rfl⟩, hfaults⟩

/-! ## Layout -/

/-- Tokens stand one after the other between two offsets. An end token takes no character,
so that another one may stand where it does, at the end of the text. -/
inductive Laid (chars : List Char) : Nat → List Token → Nat → Prop
  | nil (h : k ≤ k') : Laid chars k [] k'
  | cons {t : Token} (hk : k ≤ m) (ht : t.StandsAt chars m)
      (hn : m < n ∨ t.isEof = true ∧ m = n ∧ n = chars.length) (h : Laid chars n ts k') :
      Laid chars k (t :: ts) k'

namespace Laid

variable {chars : List Char} {ts us : List Token}

/-- A layout from a later offset is one from an earlier offset. -/
theorem mono (h : Laid chars m ts n) (hk : k ≤ m) : Laid chars k ts n := by
  cases h with
  | nil h => exact .nil (Nat.le_trans hk h)
  | cons hm ht hn h => exact .cons (Nat.le_trans hk hm) ht hn h

/-- Layouts one after the other. -/
theorem append (h : Laid chars k ts m) (h' : Laid chars m us n) : Laid chars k (ts ++ us) n := by
  induction h with
  | nil hk => exact h'.mono hk
  | cons hk ht hn _ ih => exact .cons hk ht hn (ih h')

/-- The tokens with their offsets. -/
theorem exists_placed (h : Laid chars k ts n) : ∃ placed : List (Token × Nat),
    placed.map Prod.fst = ts ∧ (∀ x ∈ placed, x.1.StandsAt chars x.2 ∧ k ≤ x.2) ∧
      placed.Pairwise fun x y =>
        x.2 < y.2 ∨ x.1.isEof = true ∧ y.1.isEof = true ∧ x.2 ≤ y.2 := by
  induction h with
  | nil _ => exact ⟨[], rfl, List.forall_mem_nil _, .nil⟩
  | @cons k m n ts k' t hk ht hn _ ih =>
    obtain ⟨placed, rfl, hplaced, hpairs⟩ := ih
    have hmn : m ≤ n := by omega
    refine ⟨(t, m) :: placed, rfl, List.forall_mem_cons.mpr ⟨⟨ht, hk⟩, fun x hx => ?_⟩,
      List.pairwise_cons.mpr ⟨fun y hy => ?_, hpairs⟩⟩
    · obtain ⟨hx, hn⟩ := hplaced x hx
      exact ⟨hx, by omega⟩
    · obtain ⟨hy, hny⟩ := hplaced y hy
      rcases hn with hlt | ⟨heof, rfl, rfl⟩
      · exact .inl (Nat.lt_of_lt_of_le hlt hny)
      · -- Behind the last character no token begins but an end token.
        refine .inr ⟨heof, by_contra fun hopen => ?_, hny⟩
        obtain ⟨c, hc, -⟩ := hy.first (Bool.eq_false_iff.mpr hopen)
        rw [List.getElem?_eq_none hny] at hc
        cases hc

end Laid

/-- An end token stands where the list ends. -/
theorem Cursor.At.eof {chars : List Char} {cursor : Cursor} (h : cursor.At chars m)
    (newline : Bool) : (Token.mk .eof cursor.position newline).StandsAt chars m where
  position := h.position_eq
  le := by
    have := h.length_eq
    omega
  first := nofun

/-- What is noted at the end stands in the text. -/
theorem Scan.noted_standsIn {chars : List Char} {scan : Scan α} {message : String} {p : Position}
    (hi : ∀ issue ∈ scan.issues, issue.StandsIn chars)
    (hp : (Issue.ofSyntax message p).StandsIn chars) :
    ∀ issue ∈ scan.noted message p, issue.StandsIn chars := by
  unfold noted
  split
  · exact hi
  · exact List.forall_mem_append.mpr ⟨hi, List.forall_mem_singleton.mpr hp⟩

/-! ## Scans -/

section Scans

variable {chars : List Char} {fuel : Nat}

/-- From an offset on, a scan ends at a later one, with such tokens between them as are laid
out, and with issues that stand in the text. -/
structure Scan.LaysOut (chars : List Char) (scan : Scan α) (k : Nat) (found : List Token) :
    Prop where
  laid : ∃ n, scan.cursor.At chars n ∧ Laid chars k found n
  issues : ∀ issue ∈ scan.issues, issue.StandsIn chars

/-- With so much fuel, scans for tokens lay them out. -/
def TokensLaid (chars : List Char) (fuel : Nat) : Prop :=
  ∀ inside depth newline previous cursor k, cursor.At chars k → cursor.rest.length < fuel →
    (scanTokens fuel inside depth newline previous [] [] cursor).LaysOut chars k
      (tokensWithin (scanTokens fuel inside depth newline previous [] [] cursor).value)

/-- With so much fuel, scans of templates lay out the tokens of the substitutions. A template
goes on with a character, unless the text ends. -/
def TemplatesLaid (chars : List Char) (fuel : Nat) : Prop :=
  ∀ cursor k, cursor.At chars k → cursor.rest.length < fuel →
    (scanTemplate fuel [] [] cursor).LaysOut chars (min (k + 1) chars.length)
      ((scanTemplate fuel [] [] cursor).value.flatMap tokensWithin)

/-- With one more piece of fuel: one more token, and those behind it. -/
theorem TokensLaid.succ (htokens : TokensLaid chars fuel) (htemplates : TemplatesLaid chars fuel) :
    TokensLaid chars (fuel + 1) := by
  intro inside depth newline previous cursor k h hfuel
  have hround := round_at h inside depth newline previous
  have hlength := (round_before inside depth newline previous cursor).2
  have hfollows := round_follows inside depth newline previous cursor
  rw [scanTokens_succ]
  generalize round inside depth newline previous cursor = r at hround hlength hfollows
  obtain ⟨find, position, depth, newline, faults, after⟩ := r
  obtain ⟨⟨m, n, hkm, hposition, hafter, hspans⟩, hfaults⟩ := hround
  dsimp only at hposition hafter hspans hfaults hlength
  have hle : m ≤ chars.length := by
    have := hafter.length_eq
    cases find <;> simp only [Find.Spans] at hspans <;> omega
  have hshort : (∀ closed, find ≠ .ending closed) → after.rest.length < fuel := by
    intro hopen
    have := hlength hopen
    omega
  cases find with
  | ending closed =>
    have : k ≤ n := by
      simp only [Find.Spans] at hspans
      omega
    exact ⟨⟨n, hafter, .nil this⟩, hfaults⟩
  | token kind =>
    obtain ⟨hmn, c, hc, hbegins⟩ := hspans
    have hlt := hshort fun closed hend => by cases hend
    obtain ⟨⟨n', hcursor, hlaid⟩, hissues⟩ :=
      htokens inside depth false (some (.mk kind position newline)) after n hafter hlt
    have htoken : (Token.mk kind position newline).StandsAt chars m :=
      ⟨hposition, hle, fun _ => ⟨c, hc, hbegins⟩⟩
    have hparts : (Token.mk kind position newline).parts = [] := Token.parts_eq_nil hfollows.2.2
    refine ⟨⟨n', hcursor, ?_⟩, List.forall_mem_append.mpr ⟨hfaults, hissues⟩⟩
    simp only [Scan.onto, List.reverse_singleton, List.singleton_append]
    rw [tokensWithin_cons, hparts]
    exact .cons hkm htoken (.inl hmn) hlaid
  | template =>
    obtain ⟨hmn, hc⟩ := hspans
    have hlt := hshort fun closed hend => by cases hend
    have hbefore := ((scan_before fuel).2 [] [] after).length_le
    obtain ⟨⟨n', hcursor, hlaid⟩, hissues⟩ := htemplates after n hafter hlt
    have hopen : (Issue.ofSyntax "unterminated template literal" position).StandsIn chars :=
      ⟨m, _, hc, rfl, hposition, .template⟩
    have hnoted := Scan.noted_standsIn hissues hopen
    dsimp only
    generalize scanTemplate fuel [] [] after = scan at hcursor hlaid hnoted hbefore
    obtain ⟨⟨n'', hcursor', hlaid'⟩, hissues'⟩ :=
      htokens inside depth false (some (.mk (.template scan.value) position newline)) scan.cursor
        n' hcursor (by omega)
    have htoken : (Token.mk (.template scan.value) position newline).StandsAt chars m :=
      ⟨hposition, hle, fun _ => ⟨_, hc, rfl⟩⟩
    have hissues'' := List.forall_mem_append.mpr
      ⟨List.forall_mem_append.mpr ⟨hfaults, hnoted⟩, hissues'⟩
    refine ⟨⟨n'', hcursor', ?_⟩, hissues''⟩
    simp only [Scan.onto, List.reverse_singleton, List.singleton_append]
    rw [tokensWithin_cons]
    refine .cons hkm htoken (.inl hmn) (.append (hlaid.mono ?_) hlaid')
    have := hafter.length_eq
    omega
  | nothing =>
    have hlt := hshort fun closed hend => by cases hend
    obtain ⟨⟨n', hcursor, hlaid⟩, hissues⟩ :=
      htokens inside depth newline previous after n hafter hlt
    refine ⟨⟨n', hcursor, ?_⟩, List.forall_mem_append.mpr ⟨hfaults, hissues⟩⟩
    exact hlaid.mono (Nat.le_trans hkm (Nat.le_of_lt hspans))

/-- With one more piece of fuel: one more part, and the tokens of its substitution. -/
theorem TemplatesLaid.succ (htokens : TokensLaid chars fuel)
    (htemplates : TemplatesLaid chars fuel) : TemplatesLaid chars (fuel + 1) := by
  intro cursor k h hfuel
  obtain ⟨rest, p⟩ := cursor
  have hlength := h.length_eq
  rw [scanTemplate_succ]
  dsimp only at hfuel hlength ⊢
  rcases templatePart_cases rest with
    ⟨rfl, hpart⟩ | ⟨tail, rfl, hpart⟩ | ⟨own, tail, hown, rfl, hpart⟩ | ⟨tail, rfl, hpart⟩
  · rw [hpart]
    exact ⟨⟨k, h, .nil (Nat.le_trans (Nat.min_le_right _ _) (Nat.le_of_eq hlength.symm))⟩,
      List.forall_mem_nil _⟩
  · rw [hpart]
    exact ⟨⟨k + 1, h.after, .nil (Nat.min_le_left _ _)⟩, List.forall_mem_nil _⟩
  · have hpos : 0 < own.length := List.length_pos_iff.mpr hown
    rw [List.length_append] at hfuel
    rw [hpart]
    obtain ⟨⟨n, hcursor, hlaid⟩, hissues⟩ := htemplates _ _ h.advance (by dsimp only; omega)
    exact ⟨⟨n, hcursor, hlaid.mono (by omega)⟩, hissues⟩
  · rw [hpart]
    simp only [List.length_cons] at hfuel hlength
    have hmark : Cursor.At chars k ⟨['$', '\x7b'] ++ tail, p⟩ := h
    have hnext : Cursor.At chars (k + 2) ⟨tail, p.advance ['$', '\x7b']⟩ := hmark.advance
    have hopen : (Issue.ofSyntax "unterminated template substitution" p).StandsIn chars :=
      Cursor.At.standsIn h .substitution
    have hbefore := ((scan_before fuel).1 true 0 false none [] []
      ⟨tail, p.advance ['$', '\x7b']⟩).length_le
    obtain ⟨⟨m, hcursor, hlaid⟩, hissues⟩ :=
      htokens true 0 false none _ _ hnext (by dsimp only; omega)
    have hnoted := Scan.noted_standsIn hissues hopen
    dsimp only at hbefore ⊢
    generalize scanTokens fuel true 0 false none [] [] ⟨tail, p.advance ['$', '\x7b']⟩ = scan
      at hcursor hlaid hnoted hbefore
    obtain ⟨⟨n, hcursor', hlaid'⟩, hissues'⟩ := htemplates scan.cursor m hcursor (by omega)
    refine ⟨⟨n, hcursor', ?_⟩, List.forall_mem_append.mpr ⟨hnoted, hissues'⟩⟩
    have heof := hcursor.eof false
    have hlast : m < min (m + 1) chars.length ∨
        m = min (m + 1) chars.length ∧ min (m + 1) chars.length = chars.length := by
      have := heof.le
      omega
    have hinner := hlaid.append (.cons (Nat.le_refl m) heof (hlast.imp_right fun h => ⟨rfl, h⟩)
      (.nil (Nat.le_refl _)))
    simp only [Scan.onto, List.reverse_singleton, List.singleton_append, List.flatMap_cons,
      tokensWithin_eof]
    exact (hinner.mono (by omega)).append hlaid'

/-- Scans lay out what they find. -/
theorem scan_laid (chars : List Char) (fuel : Nat) :
    TokensLaid chars fuel ∧ TemplatesLaid chars fuel := by
  induction fuel with
  | zero =>
    exact ⟨fun _ _ _ _ _ _ _ h => absurd h (Nat.not_lt_zero _),
      fun _ _ _ h => absurd h (Nat.not_lt_zero _)⟩
  | succ fuel ih => exact ⟨ih.1.succ ih.2, ih.2.succ ih.1⟩

end Scans

/-- Every token of a text, also in substitutions, has the line and column of an offset, and
unless it is an end token it begins with the character there. In the order of a token, the
tokens of its substitutions and the next token the offsets increase, but that one end token may
stand where another does; so no other token has the position of a second one. Every issue has
the line and column of what it is about. -/
theorem tokens_exactly_placed (source : String) :
    (∃ placed : List (Token × Nat), placed.map Prod.fst = tokensWithin (tokensOf source).1 ∧
      (∀ x ∈ placed, x.1.StandsAt source.toList x.2) ∧
      placed.Pairwise fun x y =>
        x.2 < y.2 ∨ x.1.isEof = true ∧ y.1.isEof = true ∧ x.2 ≤ y.2) ∧
    ((tokensWithin (tokensOf source).1).Pairwise fun t u =>
      t.position = u.position → t.isEof = true ∧ u.isEof = true) ∧
    ∀ issue ∈ (tokensOf source).2, issue.StandsIn source.toList := by
  obtain ⟨⟨n, hcursor, hlaid⟩, hissues⟩ := (scan_laid source.toList (source.toList.length + 1)).1
    false 0 false none ⟨source.toList, .start⟩ 0 (.start _) (Nat.lt_succ_self _)
  have heof := hcursor.eof true
  have hwhole := hlaid.append
    (.cons (Nat.le_refl n) heof (.inl (Nat.lt_succ_self n)) (.nil (Nat.le_refl (n + 1))))
  obtain ⟨placed, htokens, hplaced, hpairs⟩ := hwhole.exists_placed
  rw [← tokensWithin_eof] at htokens
  have hstands : ∀ x ∈ placed, x.1.StandsAt source.toList x.2 := fun x hx => (hplaced x hx).1
  refine ⟨⟨placed, htokens, hstands, hpairs⟩, ?_, hissues⟩
  unfold tokensOf tokenizeChars
  rw [← htokens, List.pairwise_map]
  refine hpairs.imp_of_mem fun {x y} hx hy hpair hsame => ?_
  rcases hpair with hlt | ⟨hx', hy', -⟩
  · rw [(hstands x hx).position, (hstands y hy).position] at hsame
    exact absurd hsame (Position.atOffset_ne hlt (hstands y hy).le)
  · exact ⟨hx', hy'⟩

end Lexer

end ScriptHooks.Script

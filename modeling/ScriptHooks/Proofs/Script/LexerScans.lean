/-
ScriptHooks.Proofs.Script.LexerScans — what holds of whole scans.

The lexer and the templates in it are one recursion, so each law is proved for both by induction
on the fuel, a round at a time:

  §1 Advance  — a scan takes characters from the front, and fuel beyond the characters
                left makes no difference;
  §2 Results  — what was found before stays in front;
  §3 Moves    — a text that starts elsewhere has the same tokens elsewhere;
  §4 Lines    — a line end before a text only marks its first token;
  §5 Lists    — lists end with their end token and nowhere else, and a regular
                expression stands only where a slash may start one.

`scanTokens_succ` and `scanTemplate_succ` of §2 are the equations that later modules use: one round
or one part of a template, and on its own what is found behind it. They hold because of
`scan_onto`: a scan that has found something already finds the same as one that has not, with the
other in front.

The laws of §3 name their two halves (`TokensMove`, `TemplatesMove`), each for one amount of fuel.
A step from one amount to the next needs both halves, since tokens hold templates and templates
hold tokens; `scan_move` puts the steps together. Places are moved by any function that goes along
with the characters of the text, so the law serves lines put before a text and substitutions read
on their own.

Fuel is the number of characters plus one. `scan_fuel` is what makes it harmless: all that is
proved for enough fuel holds for the fuel that the lexer has.
-/
import ScriptHooks.Proofs.Script.LexerRounds
import ScriptHooks.Proofs.Script.TokenLists

namespace ScriptHooks.Script

/-- The tokens, the first of them with a line end before it. -/
def Token.afterLine : List Token → List Token
  | [] => []
  | .mk kind position _ :: ts => .mk kind position true :: ts

namespace Lexer

/-- A part of a template is a prefix of what is left. -/
theorem templatePart_eq (rest : List Char) :
    rest = (templatePart rest).2.1 ++ (templatePart rest).2.2 := by
  unfold templatePart
  split <;> rfl

/-- A part of a template, with the characters that it takes. -/
theorem templatePart_cases (rest : List Char) :
    (rest = [] ∧ templatePart rest = (.ending false, [], [])) ∨
    (∃ tail, rest = '\x60' :: tail ∧ templatePart rest = (.ending true, ['\x60'], tail)) ∨
    (∃ own tail, own ≠ [] ∧ rest = own ++ tail ∧ templatePart rest = (.text, own, tail)) ∨
    ∃ tail, rest = '$' :: '\x7b' :: tail ∧
      templatePart rest = (.substitution, ['$', '\x7b'], tail) := by
  have hsplit := templatePart_eq rest
  unfold templatePart at hsplit ⊢
  split
  case h_1 => exact .inl ⟨rfl, rfl⟩
  case h_4 => exact .inr (.inl ⟨_, rfl, rfl⟩)
  case h_5 => exact .inr (.inr (.inr ⟨_, rfl, rfl⟩))
  all_goals exact .inr (.inr (.inl ⟨_, _, List.cons_ne_nil _ _, rfl, rfl⟩))

/-- A part takes a character unless the text ends. -/
theorem templatePart_length (rest : List Char)
    (h : ∀ closed, (templatePart rest).1 ≠ .ending closed) :
    (templatePart rest).2.2.length < rest.length := by
  unfold templatePart at h ⊢
  split
  case h_1 => exact absurd rfl (h false)
  case h_4 => exact absurd rfl (h true)
  all_goals
    simp only [List.length_cons, List.length_nil]
    omega

/-! ## §1 Advance -/

/-- One cursor comes after another, some characters later. -/
def Cursor.Before (cursor after : Cursor) : Prop :=
  ∃ chunk, cursor.rest = chunk ++ after.rest ∧ after.position = cursor.position.advance chunk

namespace Cursor.Before

theorem refl (cursor : Cursor) : cursor.Before cursor := ⟨[], rfl, rfl⟩

theorem trans {a b c : Cursor} (h : a.Before b) (h' : b.Before c) : a.Before c := by
  obtain ⟨chunk, hr, hp⟩ := h
  obtain ⟨chunk', hr', hp'⟩ := h'
  exact ⟨chunk ++ chunk', by rw [hr, hr', List.append_assoc],
    by rw [hp', hp, Position.advance_append]⟩

/-- What comes later has fewer characters left. -/
theorem length_le {a b : Cursor} (h : a.Before b) : b.rest.length ≤ a.rest.length := by
  obtain ⟨chunk, hr, -⟩ := h
  rw [hr, List.length_append]
  omega

end Cursor.Before

/-- A round goes on behind where it starts, and strictly so unless the text ends. -/
theorem round_before (inside : Bool) (depth : Nat) (newline : Bool) (previous : Option Token)
    (cursor : Cursor) :
    cursor.Before (round inside depth newline previous cursor).after ∧
      ((∀ closed, (round inside depth newline previous cursor).find ≠ .ending closed) →
        (round inside depth newline previous cursor).after.rest.length < cursor.rest.length) := by
  obtain ⟨rest, p⟩ := cursor
  obtain ⟨o, tail, rfl, hown, -, h⟩ := round_outline inside depth previous rest
  rw [h]
  refine ⟨⟨o.before ++ o.own, rfl, rfl⟩, fun hf => ?_⟩
  have : o.own ≠ [] := fun ho => hf false (hown ho)
  have := List.length_pos_iff.mpr this
  simp only [Outline.at, List.length_append]
  omega

/-- What a round finds may stand behind the token before. -/
theorem round_follows (inside : Bool) (depth : Nat) (newline : Bool) (previous : Option Token)
    (cursor : Cursor) : (round inside depth newline previous cursor).find.Follows previous := by
  obtain ⟨rest, p⟩ := cursor
  obtain ⟨o, tail, rfl, -, hf, h⟩ := round_outline inside depth previous rest
  rw [h]
  exact hf

/-- Scans go on from where they start. -/
theorem scan_before (fuel : Nat) :
    (∀ inside depth newline previous taken issues (cursor : Cursor), cursor.Before
      (scanTokens fuel inside depth newline previous taken issues cursor).cursor) ∧
    ∀ taken issues (cursor : Cursor),
      cursor.Before (scanTemplate fuel taken issues cursor).cursor := by
  induction fuel with
  | zero => exact ⟨fun _ _ _ _ _ _ cursor => .refl cursor, fun _ _ cursor => .refl cursor⟩
  | succ fuel ih =>
    obtain ⟨ihTokens, ihTemplate⟩ := ih
    constructor
    · intro inside depth newline previous taken issues cursor
      have hr := (round_before inside depth newline previous cursor).1
      rw [scanTokens]
      dsimp only
      split
      · exact hr
      · exact hr.trans (ihTokens _ _ _ _ _ _ _)
      · exact (hr.trans (ihTemplate _ _ _)).trans (ihTokens _ _ _ _ _ _ _)
      · exact hr.trans (ihTokens _ _ _ _ _ _ _)
    · intro taken issues cursor
      have hr : cursor.Before ⟨(templatePart cursor.rest).2.2,
          cursor.position.advance (templatePart cursor.rest).2.1⟩ :=
        ⟨_, templatePart_eq cursor.rest, rfl⟩
      rw [scanTemplate]
      dsimp only
      split
      · exact hr
      · exact hr.trans (ihTemplate _ _ _)
      · exact (hr.trans (ihTokens _ _ _ _ _ _ _)).trans (ihTemplate _ _ _)

/-- Fuel beyond the characters left makes no difference. -/
theorem scan_fuel (fuel fuel' : Nat) :
    (∀ inside depth newline previous taken issues (cursor : Cursor),
      cursor.rest.length < fuel → cursor.rest.length < fuel' →
      scanTokens fuel inside depth newline previous taken issues cursor =
        scanTokens fuel' inside depth newline previous taken issues cursor) ∧
    ∀ taken issues (cursor : Cursor), cursor.rest.length < fuel → cursor.rest.length < fuel' →
      scanTemplate fuel taken issues cursor = scanTemplate fuel' taken issues cursor := by
  induction fuel generalizing fuel' with
  | zero => exact ⟨fun _ _ _ _ _ _ _ h => absurd h (Nat.not_lt_zero _),
      fun _ _ _ h => absurd h (Nat.not_lt_zero _)⟩
  | succ fuel ih =>
    cases fuel' with
    | zero => exact ⟨fun _ _ _ _ _ _ _ _ h => absurd h (Nat.not_lt_zero _),
        fun _ _ _ _ h => absurd h (Nat.not_lt_zero _)⟩
    | succ fuel' =>
      obtain ⟨ihTokens, ihTemplate⟩ := ih fuel'
      constructor
      · intro inside depth newline previous taken issues cursor h h'
        have hr := (round_before inside depth newline previous cursor).2
        rw [scanTokens, scanTokens]
        generalize round inside depth newline previous cursor = r at hr
        obtain ⟨find, position, depth, newline, faults, after⟩ := r
        cases find with
        | ending closed => rfl
        | token kind =>
          have hlt := hr nofun
          exact ihTokens _ _ _ _ _ _ _ (by omega) (by omega)
        | template =>
          have hlt := hr nofun
          dsimp only at hlt ⊢
          have hle := ((scan_before fuel').2 [] (issues ++ faults) after).length_le
          rw [ihTemplate _ _ _ (by omega) (by omega)]
          exact ihTokens _ _ _ _ _ _ _ (by omega) (by omega)
        | nothing =>
          have hlt := hr nofun
          exact ihTokens _ _ _ _ _ _ _ (by omega) (by omega)
      · intro taken issues cursor h h'
        have hr := templatePart_length cursor.rest
        rw [scanTemplate, scanTemplate]
        generalize templatePart cursor.rest = t at hr
        obtain ⟨part, own, rest⟩ := t
        cases part with
        | ending closed => rfl
        | text =>
          have hlt := hr nofun
          dsimp only at hlt ⊢
          exact ihTemplate _ _ _ (by simp only; omega) (by simp only; omega)
        | substitution =>
          have hlt := hr nofun
          dsimp only at hlt ⊢
          have hle := ((scan_before fuel').1 true 0 false none [] issues
            ⟨rest, cursor.position.advance own⟩).length_le
          dsimp only at hle
          rw [ihTokens _ _ _ _ _ _ _ (by simp only; omega) (by simp only; omega)]
          exact ihTemplate _ _ _ (by omega) (by omega)

/-! ## §2 Results -/

namespace Scan

/-- A scan that goes on behind what was found before. -/
def onto (taken : List α) (issues : List Issue) (scan : Scan (List α)) : Scan (List α) :=
  ⟨taken.reverse ++ scan.value, scan.closed, issues ++ scan.issues, scan.cursor⟩

/-- What was found before that is in front of it. -/
theorem onto_onto (scan : Scan (List α)) (as bs : List α) (is js : List Issue) :
    (scan.onto bs js).onto as is = scan.onto (bs ++ as) (is ++ js) := by
  simp [onto]

/-- What was found before has no part in what is noted at the end. -/
theorem noted_onto (scan : Scan (List α)) (as : List α) (is : List Issue) (message : String)
    (p : Position) : (scan.onto as is).noted message p = is ++ scan.noted message p := by
  unfold noted onto
  split <;> simp

end Scan

/-- A scan that has found something already gives that, and behind it what it gives on its own. -/
theorem scan_onto (fuel : Nat) :
    (∀ inside depth newline previous taken issues cursor,
      scanTokens fuel inside depth newline previous taken issues cursor =
        (scanTokens fuel inside depth newline previous [] [] cursor).onto taken issues) ∧
    ∀ taken issues cursor, scanTemplate fuel taken issues cursor =
      (scanTemplate fuel [] [] cursor).onto taken issues := by
  induction fuel with
  | zero =>
    refine ⟨fun _ _ _ _ taken issues _ => ?_, fun taken issues _ => ?_⟩
    · simp [scanTokens, Scan.onto]
    · simp [scanTemplate, Scan.onto]
  | succ fuel ih =>
    obtain ⟨ihTokens, ihTemplate⟩ := ih
    constructor
    · intro inside depth newline previous taken issues cursor
      rw [scanTokens, scanTokens]
      generalize round inside depth newline previous cursor = r
      obtain ⟨find, position, depth, newline, faults, after⟩ := r
      cases find with
      | ending closed => simp [Scan.onto]
      | token kind =>
        dsimp only
        rw [ihTokens _ _ _ _ (_ :: taken), ihTokens _ _ _ _ [_], Scan.onto_onto]
        simp
      | template =>
        dsimp only
        rw [ihTemplate [] (issues ++ faults), ihTemplate [] ([] ++ faults),
          ihTokens _ _ _ _ (_ :: taken), ihTokens _ _ _ _ [_], Scan.onto_onto, Scan.noted_onto,
          Scan.noted_onto]
        simp [Scan.onto]
      | nothing =>
        dsimp only
        rw [ihTokens _ _ _ _ taken, ihTokens _ _ _ _ [] ([] ++ faults), Scan.onto_onto]
        simp
    · intro taken issues cursor
      rw [scanTemplate, scanTemplate]
      generalize templatePart cursor.rest = t
      obtain ⟨part, own, rest⟩ := t
      cases part with
      | ending closed => simp [Scan.onto]
      | text => exact ihTemplate taken issues _
      | substitution =>
        dsimp only
        rw [ihTokens _ _ _ _ [] issues, ihTemplate (_ :: taken), ihTemplate [_], Scan.onto_onto,
          Scan.noted_onto]
        simp [Scan.onto]

/-- A scan after which nothing is noted was closed, without issues. -/
theorem Scan.noted_eq_nil {scan : Scan α} {message : String} {p : Position}
    (h : scan.noted message p = []) : scan.closed = true ∧ scan.issues = [] := by
  unfold noted at h
  split at h
  · exact ⟨‹_›, h⟩
  · simp at h

/-- A round, and on its own what is found behind it. -/
theorem scanTokens_succ (fuel : Nat) (inside : Bool) (depth : Nat) (newline : Bool)
    (previous : Option Token) (cursor : Cursor) :
    scanTokens (fuel + 1) inside depth newline previous [] [] cursor =
      let r := round inside depth newline previous cursor
      match r.find with
      | .ending closed => ⟨[], closed, r.issues, r.after⟩
      | .token kind =>
        let token := .mk kind r.position r.newline
        (scanTokens fuel inside r.depth false (some token) [] [] r.after).onto [token] r.issues
      | .template =>
        let scan := scanTemplate fuel [] [] r.after
        let token := .mk (.template scan.value) r.position r.newline
        (scanTokens fuel inside r.depth false (some token) [] [] scan.cursor).onto [token]
          (r.issues ++ scan.noted "unterminated template literal" r.position)
      | .nothing =>
        (scanTokens fuel inside r.depth r.newline previous [] [] r.after).onto [] r.issues := by
  rw [scanTokens]
  generalize round inside depth newline previous cursor = r
  obtain ⟨find, position, depth', newline', faults, after⟩ := r
  cases find with
  | ending closed => rfl
  | token kind => exact (scan_onto fuel).1 _ _ _ _ [_] _ _
  | template =>
    dsimp only
    rw [(scan_onto fuel).1, (scan_onto fuel).2, Scan.noted_onto]
    simp [Scan.onto]
  | nothing => exact (scan_onto fuel).1 _ _ _ _ [] _ _

/-- A part of a template, and on its own what is found behind it. -/
theorem scanTemplate_succ (fuel : Nat) (cursor : Cursor) :
    scanTemplate (fuel + 1) [] [] cursor =
      let (part, own, rest) := templatePart cursor.rest
      let next := ⟨rest, cursor.position.advance own⟩
      match part with
      | .ending closed => ⟨[], closed, [], next⟩
      | .text => scanTemplate fuel [] [] next
      | .substitution =>
        let scan := scanTokens fuel true 0 false none [] [] next
        (scanTemplate fuel [] [] scan.cursor).onto
          [scan.value ++ [.mk .eof scan.cursor.position false]]
          (scan.noted "unterminated template substitution" cursor.position) := by
  rw [scanTemplate]
  generalize templatePart cursor.rest = t
  obtain ⟨part, own, rest⟩ := t
  cases part with
  | ending closed => rfl
  | text => rfl
  | substitution => exact (scan_onto fuel).2 [_] _ _

/-! ## §3 Moves -/

def Cursor.move (f : Position → Position) (cursor : Cursor) : Cursor :=
  ⟨cursor.rest, f cursor.position⟩

def Round.move (f : Position → Position) (r : Round) : Round :=
  ⟨r.find, f r.position, r.depth, r.newline, r.issues.map (Issue.move f), r.after.move f⟩

/-- The scan at another place; `g` moves what it found. -/
def Scan.move (g : α → α) (f : Position → Position) (scan : Scan (List α)) : Scan (List α) :=
  ⟨scan.value.map g, scan.closed, scan.issues.map (Issue.move f), scan.cursor.move f⟩

/-- Moving goes past what was found before. -/
theorem Scan.onto_move (g : α → α) (f : Position → Position) (scan : Scan (List α))
    (as : List α) (is : List Issue) :
    (scan.onto as is).move g f =
      (scan.move g f).onto (as.map g) (is.map (Issue.move f)) := by
  simp [onto, move]

/-- What is noted is noted elsewhere. -/
theorem Scan.noted_move (g : α → α) (f : Position → Position) (scan : Scan (List α))
    (message : String) (p : Position) :
    (scan.move g f).noted message (f p) = (scan.noted message p).map (Issue.move f) := by
  unfold noted move
  split <;> simp [Issue.move, Issue.ofSyntax]

/-- The cursor stands some characters after the position. -/
def Cursor.From (p : Position) (cursor : Cursor) : Prop := ∃ done, cursor.position = p.advance done

/-- Behind a cursor of a text are cursors of the same text. -/
theorem Cursor.From.before {a b : Cursor} (h : a.From p) (hb : a.Before b) : b.From p := by
  obtain ⟨done, hp⟩ := h
  obtain ⟨chunk, -, hq⟩ := hb
  exact ⟨done ++ chunk, by rw [hq, hp, Position.advance_append]⟩

/-- Of the token before, a round only asks whether a slash after it starts a regular
expression. -/
theorem round_congr (h : regexMayFollow previous = regexMayFollow previous') (inside : Bool)
    (depth : Nat) (newline : Bool) (cursor : Cursor) :
    round inside depth newline previous cursor = round inside depth newline previous' cursor := by
  unfold round scanLexeme
  rw [h]

/-- Of the token before, a scan only asks whether a slash after it starts a regular expression. -/
theorem scan_congr (h : regexMayFollow previous = regexMayFollow previous') (fuel : Nat)
    (inside : Bool) (depth : Nat) (newline : Bool) (taken : List Token) (issues : List Issue)
    (cursor : Cursor) :
    scanTokens fuel inside depth newline previous taken issues cursor =
      scanTokens fuel inside depth newline previous' taken issues cursor := by
  induction fuel generalizing depth newline issues cursor with
  | zero => rfl
  | succ fuel ih =>
    rw [scanTokens, scanTokens, round_congr h]
    generalize round inside depth newline previous' cursor = r
    obtain ⟨find, position, depth, newline, faults, after⟩ := r
    cases find with
    | nothing => exact ih _ _ _ _
    | ending | token | template => rfl

/-- A moved token lets the same follow. -/
theorem regexMayFollow_move (f : Position → Position) (t : Token) :
    regexMayFollow (some (t.move f)) = regexMayFollow (some t) := by
  obtain ⟨kind, p, newline⟩ := t
  cases kind <;> rfl

/-- With so much fuel, a scan for tokens that starts elsewhere finds them elsewhere. -/
def TokensMove (f : Position → Position) (p : Position) (fuel : Nat) : Prop :=
  ∀ inside depth newline previous (cursor : Cursor), cursor.From p →
    scanTokens fuel inside depth newline previous [] [] (cursor.move f) =
      (scanTokens fuel inside depth newline previous [] [] cursor).move (Token.move f) f

def TemplatesMove (f : Position → Position) (p : Position) (fuel : Nat) : Prop :=
  ∀ cursor : Cursor, cursor.From p → scanTemplate fuel [] [] (cursor.move f) =
    (scanTemplate fuel [] [] cursor).move (List.map (Token.move f)) f

section Moves

variable {f : Position → Position} {p q : Position} {fuel : Nat} (hf : ∀ cs, f (p.advance cs) = q.advance cs)
include hf

/-- A round elsewhere finds the same elsewhere. -/
theorem round_move (inside : Bool) (depth : Nat) (newline : Bool) (previous : Option Token)
    {cursor : Cursor} (h : cursor.From p) :
    round inside depth newline previous (cursor.move f) =
      (round inside depth newline previous cursor).move f := by
  obtain ⟨rest, p'⟩ := cursor
  obtain ⟨done, rfl⟩ := h
  obtain ⟨o, tail, rfl, -, -, ho⟩ := round_outline inside depth previous rest
  have hat : ∀ cs, (f (p.advance done)).advance cs = f ((p.advance done).advance cs) := by
    intro cs
    rw [hf, ← Position.advance_append, ← Position.advance_append, hf]
  rw [Cursor.move, ho, ho]
  simp [Outline.at, Round.move, Cursor.move, issuesAt, Issue.move, Issue.ofSyntax, hat]

/-- With one more piece of fuel: one more round, moved, and what is behind it. -/
theorem TokensMove.succ (htokens : TokensMove f p fuel) (htemplates : TemplatesMove f p fuel) :
    TokensMove f p (fuel + 1) := by
  intro inside depth newline previous cursor h
  have hb := h.before (round_before inside depth newline previous cursor).1
  have hk := round_follows inside depth newline previous cursor
  rw [scanTokens_succ, scanTokens_succ, round_move hf _ _ _ _ h]
  generalize round inside depth newline previous cursor = r at hb hk
  obtain ⟨find, position, depth, newline, faults, after⟩ := r
  dsimp only [Round.move]
  cases find with
  | ending closed => rfl
  | token kind =>
    have htoken : (Token.mk kind position newline).move f = .mk kind (f position) newline := by
      rw [Token.move, TokenKind.move_eq hk.2.2]
    dsimp only
    rw [Scan.onto_move, ← htoken, scan_congr (regexMayFollow_move f _), htokens _ _ _ _ _ hb]
    rfl
  | template =>
    have hc := hb.before ((scan_before fuel).2 [] [] after)
    dsimp only
    rw [htemplates _ hb, Scan.noted_move, Scan.onto_move]
    generalize scanTemplate fuel [] [] after = scan at hc
    have htoken : (Token.mk (.template scan.value) position newline).move f =
        .mk (.template (scan.value.map (List.map (Token.move f)))) (f position) newline := by
      rw [Token.move, TokenKind.move, moveParts_eq]
    dsimp only [Scan.move]
    rw [← htoken, scan_congr (regexMayFollow_move f _), htokens _ _ _ _ _ hc, List.map_append]
    rfl
  | nothing =>
    dsimp only
    rw [Scan.onto_move, htokens _ _ _ _ _ hb]
    rfl

/-- With one more piece of fuel: one more part of a template, moved, and what is behind it. -/
theorem TemplatesMove.succ (htokens : TokensMove f p fuel)
    (htemplates : TemplatesMove f p fuel) : TemplatesMove f p (fuel + 1) := by
  intro cursor h
  have hb : cursor.Before ⟨(templatePart cursor.rest).2.2,
      cursor.position.advance (templatePart cursor.rest).2.1⟩ :=
    ⟨_, templatePart_eq cursor.rest, rfl⟩
  have hp : (f cursor.position).advance (templatePart cursor.rest).2.1 =
      f (cursor.position.advance (templatePart cursor.rest).2.1) := by
    obtain ⟨done, hd⟩ := h
    rw [hd, hf, ← Position.advance_append, ← Position.advance_append, hf]
  replace hb := h.before hb
  rw [scanTemplate_succ, scanTemplate_succ]
  dsimp only [Cursor.move]
  rw [hp]
  generalize cursor.position.advance (templatePart cursor.rest).2.1 = q at hb
  generalize templatePart cursor.rest = part at hb
  obtain ⟨part, own, rest⟩ := part
  cases part with
  | ending closed => rfl
  | text => exact htemplates _ hb
  | substitution =>
    have hs := htokens true 0 false none _ hb
    have hc := hb.before ((scan_before fuel).1 true 0 false none [] [] ⟨rest, q⟩)
    dsimp only [Cursor.move] at hs ⊢
    rw [hs, Scan.noted_move, Scan.onto_move]
    generalize scanTokens fuel true 0 false none [] [] ⟨rest, q⟩ = scan at hc
    dsimp only [Scan.move]
    rw [htemplates _ hc]
    simp [Scan.move, Cursor.move, Token.move, TokenKind.move]

/-- A text that starts elsewhere is scanned alike. -/
theorem scan_move (fuel : Nat) : TokensMove f p fuel ∧ TemplatesMove f p fuel := by
  induction fuel with
  | zero => exact ⟨fun _ _ _ _ _ _ => rfl, fun _ _ => rfl⟩
  | succ fuel ih => exact ⟨ih.1.succ hf ih.2, ih.2.succ hf ih.1⟩

end Moves

/-! ## §4 Lines -/

/-- Whether a line ends before a token does not matter to what may follow it. -/
theorem regexMayFollow_newline (kind : TokenKind) (p : Position) (newline newline' : Bool) :
    regexMayFollow (some (.mk kind p newline)) = regexMayFollow (some (.mk kind p newline')) :=
  rfl

/-- The scan with a line end before its first token. -/
def Scan.afterLine (scan : Scan (List Token)) : Scan (List Token) :=
  ⟨Token.afterLine scan.value, scan.closed, scan.issues, scan.cursor⟩

/-- A line end before the text only marks its first token: rounds that find none pass
the mark on. -/
theorem scan_newline (fuel : Nat) (inside : Bool) (depth : Nat) (newline : Bool)
    (previous : Option Token) (cursor : Cursor) :
    scanTokens fuel inside depth true previous [] [] cursor =
      (scanTokens fuel inside depth newline previous [] [] cursor).afterLine := by
  induction fuel generalizing depth newline cursor with
  | zero => simp [scanTokens, Scan.afterLine, Token.afterLine]
  | succ fuel ih =>
    obtain ⟨rest, p⟩ := cursor
    obtain ⟨o, tail, rfl, -, -, ho⟩ := round_outline inside depth previous rest
    rw [scanTokens_succ, scanTokens_succ, ho, ho]
    dsimp only [Outline.at]
    rw [Bool.true_or]
    cases o.find with
    | ending closed => rfl
    | token kind =>
      dsimp only
      rw [scan_congr (regexMayFollow_newline kind _ true (newline || o.sawLineEnd))]
      rfl
    | template =>
      dsimp only
      rw [scan_congr (regexMayFollow_newline _ _ true (newline || o.sawLineEnd))]
      rfl
    | nothing =>
      dsimp only
      rw [ih]
      rfl

/-! ## §5 Lists -/

/-- A list as the lexer leaves it: its last token and no other is an end token, a regular
expression stands only where a slash may start one, and the same holds of the lists of
substitutions. -/
inductive Lexed : Option Token → List Token → Prop
  | stop (h : t.isEof = true) : Lexed previous [t]
  | token (h : t.isEof = false) (hr : t.isRegex = true → regexMayFollow previous = true)
      (hp : ∀ part ∈ t.parts, Lexed none part) (ht : Lexed (some t) ts) :
      Lexed previous (t :: ts)

/-- Lists in which regular expressions stand right end with their end token. -/
theorem Lexed.wellEnded (h : Lexed previous ts) : WellEnded ts := by
  induction h with
  | stop h => exact .stop h
  | token h _ _ _ ihp ih => exact .token h ihp ih

/-- Scans give such lists. -/
theorem scan_lexed (fuel : Nat) :
    (∀ inside depth newline previous cursor (last : Token), last.isEof = true →
      Lexed previous
        ((scanTokens fuel inside depth newline previous [] [] cursor).value ++ [last])) ∧
    ∀ cursor, ∀ part ∈ (scanTemplate fuel [] [] cursor).value, Lexed none part := by
  induction fuel with
  | zero =>
    refine ⟨fun _ _ _ _ _ _ h => ?_, fun _ _ h => ?_⟩
    · exact .stop h
    · simp [scanTemplate] at h
  | succ fuel ih =>
    obtain ⟨ihTokens, ihTemplate⟩ := ih
    constructor
    · intro inside depth newline previous cursor last hl
      have hk := round_follows inside depth newline previous cursor
      rw [scanTokens_succ]
      generalize round inside depth newline previous cursor = r at hk
      obtain ⟨find, position, depth, newline, faults, after⟩ := r
      cases find with
      | ending closed => exact .stop hl
      | token kind =>
        obtain ⟨hregex, heof, hparts⟩ := hk
        have hnil : (Token.mk kind position newline).parts = [] := Token.parts_eq_nil hparts
        refine .token ?_ ?_ ?_ (ihTokens _ _ _ _ _ last hl)
        · exact Bool.eq_false_iff.mpr fun h => heof (Token.isEof_iff.mp h)
        · exact fun h => hregex (Token.isRegex_iff.mp h)
        · rw [hnil]
          exact List.forall_mem_nil _
      | template => exact .token rfl nofun (ihTemplate after) (ihTokens _ _ _ _ _ last hl)
      | nothing => exact ihTokens _ _ _ _ _ last hl
    · intro cursor part hp
      rw [scanTemplate_succ] at hp
      generalize templatePart cursor.rest = next at hp
      obtain ⟨next, own, rest⟩ := next
      cases next with
      | ending closed => cases hp
      | text => exact ihTemplate _ part hp
      | substitution =>
        rcases List.mem_cons.mp hp with rfl | hp
        · exact ihTokens _ _ _ _ _ _ rfl
        · exact ihTemplate _ part hp

/-- The tokens of every text are such a list. -/
theorem tokenizeChars_lexed (chars : List Char) : Lexed none (tokenizeChars chars).1 :=
  (scan_lexed (chars.length + 1)).1 false 0 false none _ _ rfl

end Lexer

end ScriptHooks.Script

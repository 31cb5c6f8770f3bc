/-
ScriptHooks.Proofs.Script.TemplateNesting — how deep templates are inside each other.

The lexer has no budget of nesting, so what bounds the depth of templates is the length of the
text: a template in a substitution of another costs three characters to open, and two to close,
unless an issue reports that they are missing (`Scan.Pays`). Both are the least that it takes, as
`nestedTemplate` and `openTemplate` show. So for each length the greatest depth is known, for all
texts and for those without issues (`templateDepth_bounded_iff`), and no depth bounds all texts,
not even those without issues (`templateDepth_unbounded`).

## How the proof goes

From above, `scan_pays`: by induction on the fuel, the characters that a scan takes, and the
issues that it gives, pay for the depth of what it finds. A template and its substitutions are one
recursion, so the law has two halves again (`TokensPay`, `TemplatesPay`). Characters are counted
against issues because a template that is left open has paid for its opening only.

From below, texts that pay no more: a template with nothing in it but a substitution with the next
template in it. `scan_templateBody_closed` and `scan_templateBody_open` find them, by induction on
how many there are.

The depth of a list of tokens is the greatest of its tokens, and a template is one deeper than the
deepest of its substitutions. That is the recursion of the lexer, and the depth to which it calls
itself.
-/
import ScriptHooks.Proofs.Script.LinesBelow

namespace ScriptHooks.Script

/-! ## Depth -/

mutual

/-- How many templates stand inside each other at a token, itself included. -/
def Token.templateDepth : Token → Nat
  | .mk kind _ _ => kind.templateDepth

/-- One more for a template than for its substitutions, nothing for other tokens. -/
def TokenKind.templateDepth : TokenKind → Nat
  | .template parts => partsTemplateDepth parts + 1
  | _ => 0

def partsTemplateDepth : List (List Token) → Nat
  | [] => 0
  | part :: parts => max (tokensTemplateDepth part) (partsTemplateDepth parts)

def tokensTemplateDepth : List Token → Nat
  | [] => 0
  | t :: ts => max t.templateDepth (tokensTemplateDepth ts)

end

/-- A list is no deeper than each of its tokens. -/
theorem tokensTemplateDepth_le_iff {ts : List Token} {n : Nat} :
    tokensTemplateDepth ts ≤ n ↔ ∀ t ∈ ts, t.templateDepth ≤ n := by
  induction ts with
  | nil => simp [tokensTemplateDepth]
  | cons t ts ih => rw [tokensTemplateDepth, Nat.max_le, ih, List.forall_mem_cons]

/-- Lists one after the other are as deep as the deeper one. -/
theorem tokensTemplateDepth_append (ts us : List Token) :
    tokensTemplateDepth (ts ++ us) = max (tokensTemplateDepth ts) (tokensTemplateDepth us) := by
  induction ts with
  | nil => simp [tokensTemplateDepth]
  | cons t ts ih =>
    rw [List.cons_append, tokensTemplateDepth, tokensTemplateDepth, ih, Nat.max_assoc]

/-- An end token adds no depth. -/
theorem tokensTemplateDepth_eof (ts : List Token) (p : Position) (newline : Bool) :
    tokensTemplateDepth (ts ++ [.mk .eof p newline]) = tokensTemplateDepth ts := by
  rw [tokensTemplateDepth_append]
  exact Nat.max_eq_left (Nat.zero_le _)

/-- Only templates have a depth. -/
theorem TokenKind.templateDepth_eq_zero {kind : TokenKind} (h : ∀ parts, kind ≠ .template parts) :
    kind.templateDepth = 0 := by
  cases kind with
  | template parts => exact absurd rfl (h parts)
  | word | number | string | regex | punct | eof => rfl

namespace Lexer

/-! ## What depth costs -/

/-- The characters that were taken pay for the depth that was found, up to these discounts: three
for each template, and five if an issue or an end that was found counts as a character. -/
structure Scan.Pays (scan : Scan α) (cursor : Cursor) (depth three five : Nat) : Prop where
  taken : scan.cursor.rest.length + scan.closed.toNat ≤ cursor.rest.length
  opening : 3 * depth + scan.cursor.rest.length ≤ cursor.rest.length + three
  closing : 5 * depth + scan.cursor.rest.length + scan.closed.toNat ≤
    cursor.rest.length + five + scan.issues.length

/-- What is missing at the end is one issue more. -/
theorem Scan.noted_length (scan : Scan α) (message : String) (p : Position) :
    (scan.noted message p).length + scan.closed.toNat = scan.issues.length + 1 := by
  unfold noted
  cases scan.closed <;> simp

/-- A round that comes upon the brace that closes the substitution takes it. -/
theorem round_ending {inside : Bool} {depth : Nat} {newline : Bool} {previous : Option Token}
    {cursor : Cursor} {closed : Bool}
    (h : (round inside depth newline previous cursor).find = .ending closed) :
    (round inside depth newline previous cursor).after.rest.length + closed.toNat ≤
      cursor.rest.length := by
  obtain ⟨rest, p⟩ := cursor
  obtain ⟨o, tail, rfl, hown, -, hround⟩ := round_outline inside depth previous rest
  rw [hround] at h ⊢
  have hlength : closed.toNat ≤ o.own.length := by
    cases ho : o.own with
    | nil =>
      cases (hown ho).symm.trans h
      exact Nat.le_refl 0
    | cons c own => exact Nat.le_trans (Bool.toNat_le closed) (Nat.succ_le_succ (Nat.zero_le _))
  simp only [Outline.at, List.length_append]
  omega

/-- The characters that a part of a template takes at least. -/
theorem templatePart_takes (rest : List Char) :
    (templatePart rest).2.2.length +
      (match (templatePart rest).1 with
        | .ending closed => closed.toNat
        | .text => 1
        | .substitution => 2) ≤ rest.length := by
  unfold templatePart
  split <;> simp

/-- With so much fuel, scans for tokens pay. -/
def TokensPay (fuel : Nat) : Prop :=
  ∀ inside depth newline previous cursor,
    (scanTokens fuel inside depth newline previous [] [] cursor).Pays cursor
      (tokensTemplateDepth (scanTokens fuel inside depth newline previous [] [] cursor).value) 2 3

/-- With so much fuel, scans of templates pay without a discount. -/
def TemplatesPay (fuel : Nat) : Prop :=
  ∀ cursor, (scanTemplate fuel [] [] cursor).Pays cursor
    (partsTemplateDepth (scanTemplate fuel [] [] cursor).value) 0 0

variable {fuel : Nat}

/-- With one more piece of fuel: one more token pays for itself. -/
theorem TokensPay.succ (htokens : TokensPay fuel) (htemplates : TemplatesPay fuel) :
    TokensPay (fuel + 1) := by
  intro inside depth newline previous cursor
  have hending := fun closed => @round_ending inside depth newline previous cursor closed
  have hlt := (round_before inside depth newline previous cursor).2
  have hfollows := round_follows inside depth newline previous cursor
  rw [scanTokens_succ]
  generalize round inside depth newline previous cursor = r at hending hlt hfollows
  obtain ⟨find, position, depth, newline, faults, after⟩ := r
  cases find with
  | ending closed =>
    have := hending closed rfl
    constructor <;> simp only [tokensTemplateDepth] at this ⊢ <;> omega
  | token kind =>
    have hdepth : kind.templateDepth = 0 := TokenKind.templateDepth_eq_zero hfollows.2.2
    have := hlt fun _ => by simp
    obtain ⟨htaken, hopening, hclosing⟩ :=
      htokens inside depth false (some (.mk kind position newline)) after
    constructor <;>
      simp only [Scan.onto, List.reverse_singleton, List.singleton_append, tokensTemplateDepth,
        Token.templateDepth, hdepth, List.length_append] at this ⊢ <;> omega
  | template =>
    have := hlt fun _ => by simp
    have hnoted := (scanTemplate fuel [] [] after).noted_length
      "unterminated template literal" position
    obtain ⟨htaken, hopening, hclosing⟩ := htemplates after
    dsimp only at this ⊢
    generalize scanTemplate fuel [] [] after = scan at hnoted htaken hopening hclosing
    obtain ⟨htaken', hopening', hclosing'⟩ := htokens inside depth false
      (some (.mk (.template scan.value) position newline)) scan.cursor
    constructor <;>
      simp only [Scan.onto, List.reverse_singleton, List.singleton_append, tokensTemplateDepth,
        Token.templateDepth, TokenKind.templateDepth, List.length_append] <;> omega
  | nothing =>
    have := hlt fun _ => by simp
    obtain ⟨htaken, hopening, hclosing⟩ := htokens inside depth newline previous after
    constructor <;>
      simp only [Scan.onto, List.reverse_nil, List.nil_append, List.length_append] at this ⊢ <;>
      omega

/-- With one more piece of fuel: one more part pays for itself and its substitution. -/
theorem TemplatesPay.succ (htokens : TokensPay fuel) (htemplates : TemplatesPay fuel) :
    TemplatesPay (fuel + 1) := by
  intro cursor
  have htakes := templatePart_takes cursor.rest
  rw [scanTemplate_succ]
  generalize templatePart cursor.rest = next at htakes
  obtain ⟨part, own, rest⟩ := next
  cases part with
  | ending closed =>
    constructor <;> simp only [partsTemplateDepth] at htakes ⊢ <;> omega
  | text =>
    obtain ⟨htaken, hopening, hclosing⟩ := htemplates ⟨rest, cursor.position.advance own⟩
    constructor <;> dsimp only at * <;> omega
  | substitution =>
    obtain ⟨htaken, hopening, hclosing⟩ :=
      htokens true 0 false none ⟨rest, cursor.position.advance own⟩
    dsimp only at htakes htaken hopening hclosing ⊢
    have hnoted := (scanTokens fuel true 0 false none [] []
      ⟨rest, cursor.position.advance own⟩).noted_length "unterminated template substitution"
      cursor.position
    generalize scanTokens fuel true 0 false none [] []
      ⟨rest, cursor.position.advance own⟩ = scan at hnoted htaken hopening hclosing
    obtain ⟨htaken', hopening', hclosing'⟩ := htemplates scan.cursor
    constructor <;>
      simp only [Scan.onto, List.reverse_singleton, List.singleton_append, partsTemplateDepth,
        tokensTemplateDepth_eof, List.length_append] <;> omega

/-- Scans pay for the depth of what they find. -/
theorem scan_pays (fuel : Nat) : TokensPay fuel ∧ TemplatesPay fuel := by
  induction fuel with
  | zero =>
    constructor
    · intro inside depth newline previous cursor
      constructor <;> simp [scanTokens, tokensTemplateDepth]
    · intro cursor
      constructor <;> simp [scanTemplate, partsTemplateDepth]
  | succ fuel ih => exact ⟨ih.1.succ ih.2, ih.2.succ ih.1⟩

/-- What a depth costs in a text, and in one without issues. -/
theorem templateDepth_costs (source : String) :
    3 * tokensTemplateDepth (tokensOf source).1 ≤ source.length + 2 ∧
      5 * tokensTemplateDepth (tokensOf source).1 ≤
        source.length + 3 + (tokensOf source).2.length := by
  have hpays := (scan_pays (source.toList.length + 1)).1 false 0 false none ⟨source.toList, .start⟩
  unfold tokensOf tokenizeChars
  rw [← String.length_toList]
  generalize scanTokens (source.toList.length + 1) false 0 false none [] []
    ⟨source.toList, .start⟩ = scan at hpays
  obtain ⟨-, hopening, hclosing⟩ := hpays
  rw [tokensTemplateDepth_eof]
  dsimp only at hopening hclosing ⊢
  omega

/-! ## Texts that pay no more -/

/-- What stands behind the opening mark of a template with a substitution that is such a template,
so many times over: all of it, or only what opens. -/
def templateBody (closed : Bool) : Nat → List Char
  | 0 => if closed then ['\x60'] else []
  | n + 1 =>
    '$' :: '\x7b' :: '\x60' :: (templateBody closed n ++ if closed then ['\x7d', '\x60'] else [])

/-- Templates inside each other, one more than so many. -/
def nestedTemplate (closed : Bool) (n : Nat) : String :=
  String.ofList ('\x60' :: templateBody closed n)

/-- The lengths of the texts that pay no more. -/
theorem nestedTemplate_length (n : Nat) :
    (nestedTemplate true n).length = 5 * n + 2 ∧ (nestedTemplate false n).length = 3 * n + 1 := by
  have hbody : (templateBody true n).length = 5 * n + 1 ∧
      (templateBody false n).length = 3 * n := by
    induction n with
    | zero => exact ⟨rfl, rfl⟩
    | succ n ih =>
      simp only [templateBody, List.length_cons, List.length_append, ih, if_true, if_false,
        Bool.false_eq_true, List.length_nil]
      omega
  simp only [nestedTemplate, String.length_ofList, List.length_cons, hbody, and_self]

/-- A template is found as one token, with the substitutions behind its opening mark. -/
theorem scan_template (fuel : Nat) (inside newline : Bool) (previous : Option Token)
    (rest : List Char) (p : Position) :
    scanTokens (fuel + 1) inside 0 newline previous [] [] ⟨'\x60' :: rest, p⟩ =
      let scan := scanTemplate fuel [] [] ⟨rest, p.after '\x60'⟩
      let token := .mk (.template scan.value) p newline
      (scanTokens fuel inside 0 false (some token) [] [] scan.cursor).onto [token]
        (scan.noted "unterminated template literal" p) := by
  have hround : round inside 0 newline previous ⟨'\x60' :: rest, p⟩ =
      ⟨.template, p, 0, newline || false, [], ⟨rest, p.after '\x60'⟩⟩ := by
    cases inside <;> rfl
  rw [scanTokens_succ, hround, Bool.or_false]
  rfl

/-- A substitution is found behind its opening, up to what closes it. -/
theorem scan_substitution (fuel : Nat) (rest : List Char) (p : Position) :
    scanTemplate (fuel + 1) [] [] ⟨'$' :: '\x7b' :: rest, p⟩ =
      let scan := scanTokens fuel true 0 false none [] [] ⟨rest, (p.after '$').after '\x7b'⟩
      (scanTemplate fuel [] [] scan.cursor).onto
        [scan.value ++ [.mk .eof scan.cursor.position false]]
        (scan.noted "unterminated template substitution" p) :=
  scanTemplate_succ fuel ⟨'$' :: '\x7b' :: rest, p⟩

/-- A template around others is one deeper. -/
theorem nestedParts_depth (parts : List (List Token)) (p q : Position)
    (h : partsTemplateDepth parts = n) :
    partsTemplateDepth [[.mk (.template parts) p false, .mk .eof q false]] = n + 1 := by
  simp [partsTemplateDepth, tokensTemplateDepth, Token.templateDepth, TokenKind.templateDepth, h]

/-- Templates that are closed are found without an issue. -/
theorem scan_templateBody_closed (n : Nat) : ∀ fuel rest p,
    (templateBody true n).length < fuel → ∃ parts q, partsTemplateDepth parts = n ∧
      scanTemplate fuel [] [] ⟨templateBody true n ++ rest, p⟩ = ⟨parts, true, [], ⟨rest, q⟩⟩ := by
  induction n with
  | zero =>
    intro fuel rest p hfuel
    obtain ⟨fuel, rfl⟩ : ∃ k, fuel = k + 1 := Nat.exists_eq_add_one.mpr (Nat.zero_lt_of_lt hfuel)
    exact ⟨[], _, rfl, scanTemplate_succ fuel _⟩
  | succ n ih =>
    intro fuel rest p hfuel
    simp only [templateBody, if_true, List.length_cons, List.length_append] at hfuel
    obtain ⟨fuel, rfl⟩ : ∃ k, fuel = k + 3 := ⟨fuel - 3, by omega⟩
    obtain ⟨parts, q, hdepth, hscan⟩ := ih (fuel + 1) ('\x7d' :: '\x60' :: rest)
      (((p.after '$').after '\x7b').after '\x60') (by omega)
    have hinner : scanTokens (fuel + 2) true 0 false none [] []
        ⟨'\x60' :: (templateBody true n ++ '\x7d' :: '\x60' :: rest), (p.after '$').after '\x7b'⟩ =
        ⟨[.mk (.template parts) ((p.after '$').after '\x7b') false], true, [],
          ⟨'\x60' :: rest, q.after '\x7d'⟩⟩ := by
      rw [scan_template, hscan]
      rfl
    have hwhole := scan_substitution (fuel + 2)
      ('\x60' :: (templateBody true n ++ '\x7d' :: '\x60' :: rest)) p
    rw [hinner] at hwhole
    simp only [templateBody, if_true, List.cons_append, List.append_assoc, List.nil_append]
    exact ⟨_, _, nestedParts_depth parts _ _ hdepth, hwhole⟩

/-- Templates that are left open are found as well. -/
theorem scan_templateBody_open (n : Nat) : ∀ fuel p, (templateBody false n).length < fuel →
    ∃ parts issues q, partsTemplateDepth parts = n ∧
      scanTemplate fuel [] [] ⟨templateBody false n, p⟩ = ⟨parts, false, issues, ⟨[], q⟩⟩ := by
  induction n with
  | zero =>
    intro fuel p hfuel
    obtain ⟨fuel, rfl⟩ : ∃ k, fuel = k + 1 := Nat.exists_eq_add_one.mpr (Nat.zero_lt_of_lt hfuel)
    exact ⟨[], [], _, rfl, scanTemplate_succ fuel _⟩
  | succ n ih =>
    intro fuel p hfuel
    simp only [templateBody, Bool.false_eq_true, if_false, List.append_nil,
      List.length_cons] at hfuel ⊢
    obtain ⟨fuel, rfl⟩ : ∃ k, fuel = k + 3 := ⟨fuel - 3, by omega⟩
    obtain ⟨parts, issues, q, hdepth, hscan⟩ := ih (fuel + 1)
      (((p.after '$').after '\x7b').after '\x60') (by omega)
    have hinner : ∃ issues', scanTokens (fuel + 2) true 0 false none [] []
        ⟨'\x60' :: templateBody false n, (p.after '$').after '\x7b'⟩ =
        ⟨[.mk (.template parts) ((p.after '$').after '\x7b') false], false, issues', ⟨[], q⟩⟩ := by
      rw [scan_template, hscan]
      exact ⟨_, rfl⟩
    obtain ⟨issues', hinner⟩ := hinner
    have hwhole := scan_substitution (fuel + 2) ('\x60' :: templateBody false n) p
    rw [hinner] at hwhole
    exact ⟨_, _, _, nestedParts_depth parts _ _ hdepth, hwhole⟩

/-- The depth of these texts, and that the closed ones are without issues. -/
theorem tokensOf_nestedTemplate (n : Nat) :
    tokensTemplateDepth (tokensOf (nestedTemplate true n)).1 = n + 1 ∧
      (tokensOf (nestedTemplate true n)).2 = [] ∧
      tokensTemplateDepth (tokensOf (nestedTemplate false n)).1 = n + 1 := by
  have hdepth : ∀ (parts : List (List Token)) p q, partsTemplateDepth parts = n →
      tokensTemplateDepth [.mk (.template parts) p false, .mk .eof q true] = n + 1 := by
    intro parts p q h
    simp [tokensTemplateDepth, Token.templateDepth, TokenKind.templateDepth, h]
  obtain ⟨parts, q, hclosed, hscan⟩ := scan_templateBody_closed n
    ((templateBody true n).length + 1) [] (Position.start.after '\x60') (Nat.lt_succ_self _)
  obtain ⟨parts', issues, q', hopen, hscan'⟩ := scan_templateBody_open n
    ((templateBody false n).length + 1) (Position.start.after '\x60') (Nat.lt_succ_self _)
  rw [List.append_nil] at hscan
  have htokens : tokensOf (nestedTemplate true n) =
      ([.mk (.template parts) .start false, .mk .eof q true], []) := by
    rw [tokensOf, nestedTemplate, String.toList_ofList, tokenizeChars, List.length_cons,
      scan_template, hscan]
    rfl
  have htokens' : (tokensOf (nestedTemplate false n)).1 =
      [.mk (.template parts') .start false, .mk .eof q' true] := by
    rw [tokensOf, nestedTemplate, String.toList_ofList, tokenizeChars, List.length_cons,
      scan_template, hscan']
    rfl
  rw [htokens, htokens']
  exact ⟨hdepth _ _ _ hclosed, rfl, hdepth _ _ _ hopen⟩

/-- In all texts of a length templates are at most so deep inside each other if and only if the text
is no longer than three characters for each level. In those without issues they are if and only if
it is no longer than five for each level and one more. -/
theorem templateDepth_bounded_iff (length bound : Nat) :
    ((∀ source : String, source.length ≤ length →
        ∀ t ∈ (tokensOf source).1, t.templateDepth ≤ bound) ↔ length ≤ 3 * bound) ∧
      ((∀ source : String, source.length ≤ length → (tokensOf source).2 = [] →
        ∀ t ∈ (tokensOf source).1, t.templateDepth ≤ bound) ↔ length ≤ 5 * bound + 1) := by
  simp only [← tokensTemplateDepth_le_iff]
  obtain ⟨hclosed, hissues, hopen⟩ := tokensOf_nestedTemplate bound
  obtain ⟨hlength, hlength'⟩ := nestedTemplate_length bound
  refine ⟨⟨fun h => ?_, fun h source hs => ?_⟩, fun h => ?_, fun h source hs hi => ?_⟩
  · by_contra hlong
    have := h (nestedTemplate false bound) (by omega)
    omega
  · have := (templateDepth_costs source).1
    omega
  · by_contra hlong
    have := h (nestedTemplate true bound) (by omega) hissues
    omega
  · have := (templateDepth_costs source).2
    rw [hi, List.length_nil] at this
    omega

/-- No depth bounds the templates of all texts, not even of those without issues. -/
theorem templateDepth_unbounded :
    ¬∃ bound, ∀ source, (tokensOf source).2 = [] →
      ∀ t ∈ (tokensOf source).1, t.templateDepth ≤ bound := by
  simp only [← tokensTemplateDepth_le_iff]
  rintro ⟨bound, h⟩
  obtain ⟨hdepth, hissues, -⟩ := tokensOf_nestedTemplate bound
  have := h (nestedTemplate true bound) hissues
  omega

end Lexer

end ScriptHooks.Script

/-
ScriptHooks.Proofs.Script.TokenLists — token lists with those of their templates.

A template token carries a token list for each of its substitutions, and those may hold templates
again. Three ways to look at such a list are set up here, each by recursion on the token:

* `WellEnded`: the end token is the last token of the list and no other, and the same holds of the
  lists of its substitutions. Every list that the lexer gives is of this kind, and every statement
  about the parser assumes no more.
* `tokensWithin`: the list with each template followed by the tokens of its substitutions, and
  `listsWithin`: the lists of these substitutions. They are what is counted where a statement is
  about all tokens of a text.
* `Token.move`: the list where the text starts elsewhere.

`Spells.tokensWithin_eq` ties them to the grammar: the readings of a spelling are the tokens that
were taken, those of the substitutions among them. A list may run on behind what is spelled, so the
lemma is about the tokens up to those that are left.

The definitions recur through lists of lists and are therefore mutual; the lemmas that end in `_eq`
say them by `flatMap` and `map`, and nothing else opens them.
-/
import Mathlib.Data.List.Basic
import ScriptHooks.Proofs.Script.Spelling

namespace ScriptHooks.Script

/-- The end token stands at the end and nowhere else, also in substitutions. -/
inductive WellEnded : List Token → Prop
  | stop (h : t.isEof = true) : WellEnded [t]
  | token (h : t.isEof = false) (hp : ∀ part ∈ t.parts, WellEnded part) (hr : WellEnded ts) :
      WellEnded (t :: ts)

mutual

/-- A token, and after it the tokens of its substitutions. -/
def Token.within : Token → List Token
  | .mk kind position newline => .mk kind position newline :: kind.within

def TokenKind.within : TokenKind → List Token
  | .template parts => partsWithin parts
  | _ => []

/-- The tokens of several lists, with those of their substitutions. -/
def partsWithin : List (List Token) → List Token
  | [] => []
  | part :: parts => tokensWithin part ++ partsWithin parts

/-- The tokens of a list, with those of their substitutions. -/
def tokensWithin : List Token → List Token
  | [] => []
  | t :: ts => t.within ++ tokensWithin ts

end

/-- The tokens of several substitutions are those of each, one after the other. -/
theorem partsWithin_eq (parts : List (List Token)) :
    partsWithin parts = parts.flatMap tokensWithin := by
  induction parts with
  | nil => rfl
  | cons part parts ih => rw [partsWithin, ih, List.flatMap_cons]

namespace Token

/-- A token comes before the tokens of its substitutions. -/
theorem within_eq (t : Token) : t.within = t :: t.parts.flatMap tokensWithin := by
  obtain ⟨kind, position, newline⟩ := t
  rw [within]
  cases kind with
  | template parts => rw [TokenKind.within, partsWithin_eq]; rfl
  | word | number | string | regex | punct | eof => rfl

/-- An end token has no substitutions. -/
theorem parts_of_isEof {t : Token} (h : t.isEof = true) : t.parts = [] := by
  cases t with
  | mk kind p newline => cases kind <;> simp_all [isEof, parts, kind]

end Token

theorem tokensWithin_cons (t : Token) (ts : List Token) :
    tokensWithin (t :: ts) = t :: t.parts.flatMap tokensWithin ++ tokensWithin ts := by
  rw [tokensWithin, Token.within_eq]

/-- An end token at the end adds itself and nothing more. -/
theorem tokensWithin_eof (ts : List Token) (p : Position) (newline : Bool) :
    tokensWithin (ts ++ [.mk .eof p newline]) = tokensWithin ts ++ [.mk .eof p newline] := by
  induction ts with
  | nil => rfl
  | cons t ts ih => rw [List.cons_append, tokensWithin, ih, tokensWithin, List.append_assoc]

/-- The token lists of the substitutions of a list, those within them included. -/
def listsWithin (ts : List Token) : List (List Token) := (tokensWithin ts).flatMap Token.parts

/-- The lists of a token are those of its substitutions and the lists in these. -/
theorem listsWithin_cons (t : Token) (ts : List Token) :
    listsWithin (t :: ts) = t.parts ++ t.parts.flatMap listsWithin ++ listsWithin ts := by
  unfold listsWithin
  rw [tokensWithin_cons, List.flatMap_append, List.flatMap_cons, List.flatMap_assoc]

theorem listsWithin_eof (ts : List Token) (p : Position) (newline : Bool) :
    listsWithin (ts ++ [.mk .eof p newline]) = listsWithin ts := by
  unfold listsWithin
  rw [tokensWithin_eof, List.flatMap_append]
  exact List.append_nil _

namespace WellEnded

/-- The lists of the substitutions end well too. -/
theorem parts (h : WellEnded (t :: ts)) : ∀ part ∈ t.parts, WellEnded part := by
  cases h with
  | stop he => simp [Token.parts_of_isEof he]
  | token _ hp _ => exact hp

/-- Behind a token that is not the end, the rest of the list ends well. -/
theorem tail (h : WellEnded (t :: ts)) (ht : t.isEof = false) : WellEnded ts := by
  cases h with
  | stop he => simp [he] at ht
  | token _ _ hr => exact hr

/-- From its end token on, nothing is left of a list but that token. -/
theorem eq_of_isEof (h : WellEnded ts) (ht : (ts.headD default).isEof = true) :
    ts = [ts.headD default] := by
  cases h with
  | stop _ => rfl
  | token he _ _ => simp [he] at ht

/-- The tokens before the end token, and that token. -/
theorem exists_eq_append (h : WellEnded ts) :
    ∃ body last, ts = body ++ [last] ∧ last.isEof = true ∧ ∀ t ∈ body, t.isEof = false := by
  induction h with
  | stop h => exact ⟨[], _, rfl, h, List.forall_mem_nil _⟩
  | token h _ _ _ ih =>
    obtain ⟨body, last, rfl, hl, hb⟩ := ih
    exact ⟨_ :: body, last, rfl, hl, List.forall_mem_cons.mpr ⟨h, hb⟩⟩

/-- Behind a token without substitutions the list goes on, and the token is one of its tokens. -/
theorem single (h : WellEnded (t :: ts)) (ht : t.Single) :
    WellEnded ts ∧ tokensWithin (t :: ts) = t :: tokensWithin ts :=
  ⟨h.tail ht.notEof, by rw [tokensWithin_cons, ht.noParts]; rfl⟩

end WellEnded

/-- The readings of a spelling are the tokens that were taken. -/
theorem Spells.tokensWithin_eq (h : Spells σ ts rs rest) (hw : WellEnded ts) :
    WellEnded rest ∧ tokensWithin ts = rs.map Reading.token ++ tokensWithin rest := by
  induction h with
  | nil => exact ⟨hw, rfl⟩
  | mark ht _ _ ih =>
    obtain ⟨hw, he⟩ := hw.single (Token.single_of_isMark ht)
    exact ⟨(ih hw).1, by rw [he, (ih hw).2]; rfl⟩
  | word ht _ _ ih =>
    obtain ⟨hw, he⟩ := hw.single (Token.single_of_word ht)
    exact ⟨(ih hw).1, by rw [he, (ih hw).2]; rfl⟩
  | access ht _ hu _ ih =>
    obtain ⟨hw, he⟩ := hw.single (Token.single_of_isMark ht)
    obtain ⟨hw, he'⟩ := hw.single (Token.single_of_word hu)
    exact ⟨(ih hw).1, by rw [he, he', (ih hw).2]; rfl⟩
  | optional ht hu _ _ ih =>
    obtain ⟨hw, he⟩ := hw.single (Token.single_of_isMark ht)
    obtain ⟨hw, he'⟩ := hw.single (Token.single_of_isMark hu)
    exact ⟨(ih hw).1, by rw [he, he', (ih hw).2]; rfl⟩
  | constant ht _ ih =>
    obtain ⟨hw, he⟩ := hw.single (Token.single_of_isConstant ht)
    exact ⟨(ih hw).1, by rw [he, (ih hw).2]; rfl⟩
  | regex ht _ ih =>
    obtain ⟨hw, he⟩ := hw.single (Token.single_of_isRegex ht)
    exact ⟨(ih hw).1, by rw [he, (ih hw).2]; rfl⟩
  | @template σ ts rs rest t pieces ht hs he h ihs ih =>
    have hparts : t.parts = pieces.map Piece.tokens := by rw [Token.parts, ht]
    have hpieces : ∀ q ∈ pieces, tokensWithin q.tokens = q.all.map Reading.token := by
      intro q hq
      have hwq : WellEnded q.tokens := hw.parts _ (hparts ▸ List.mem_map_of_mem hq)
      obtain ⟨hr, htq⟩ := ihs q hq hwq
      rw [htq, Piece.all, List.map_append, hr.eq_of_isEof (he q hq)]
      rw [tokensWithin_cons, Token.parts_of_isEof (he q hq)]
      rfl
    obtain ⟨hr, htail⟩ := ih (hw.tail (by rw [Token.isEof, ht]))
    refine ⟨hr, ?_⟩
    rw [tokensWithin_cons, hparts, htail, List.flatMap_map, List.flatMap_congr hpieces]
    simp [List.map_flatMap]
  | omitted _ _ ih => exact ih hw
  | expand _ _ _ ihb ih =>
    obtain ⟨hm, hb⟩ := ihb hw
    obtain ⟨hr, he⟩ := ih hm
    exact ⟨hr, by rw [hb, he, List.map_append, List.append_assoc]⟩

/-! ## Moved tokens -/

mutual

/-- The token at another place, with those of its substitutions. -/
def Token.move (f : Position → Position) : Token → Token
  | .mk kind position newline => .mk (kind.move f) (f position) newline

def TokenKind.move (f : Position → Position) : TokenKind → TokenKind
  | .template parts => .template (moveParts f parts)
  | kind => kind

def moveParts (f : Position → Position) : List (List Token) → List (List Token)
  | [] => []
  | part :: parts => moveTokens f part :: moveParts f parts

/-- The tokens at other places. -/
def moveTokens (f : Position → Position) : List Token → List Token
  | [] => []
  | t :: ts => t.move f :: moveTokens f ts

end

/-- Tokens are moved one by one. -/
theorem moveTokens_eq (f : Position → Position) (ts : List Token) :
    moveTokens f ts = ts.map (Token.move f) := by
  induction ts with
  | nil => rfl
  | cons t ts ih => rw [moveTokens, ih, List.map_cons]

/-- The tokens of substitutions are moved one by one. -/
theorem moveParts_eq (f : Position → Position) (parts : List (List Token)) :
    moveParts f parts = parts.map (List.map (Token.move f)) := by
  induction parts with
  | nil => rfl
  | cons part parts ih => rw [moveParts, ih, moveTokens_eq, List.map_cons]

/-- Only templates hold places of their own. -/
theorem TokenKind.move_eq {kind : TokenKind} {f : Position → Position}
    (h : ∀ parts, kind ≠ .template parts) : kind.move f = kind := by
  cases kind with
  | template parts => exact absurd rfl (h parts)
  | word | number | string | regex | punct | eof => rfl

def Issue.move (f : Position → Position) (issue : Issue) : Issue :=
  ⟨issue.kind, issue.message, f issue.position⟩

end ScriptHooks.Script

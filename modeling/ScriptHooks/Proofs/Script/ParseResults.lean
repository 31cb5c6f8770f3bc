/-
ScriptHooks.Proofs.Script.ParseResults — what a production gives.

`Yields p P` says that every value that `p` gives has the property, whatever the tokens are and
whatever issues are recorded. It is the weakest of the three ways to speak of a production: `Gives`
speaks of tokens too, and only of runs without issues; a `StepRelation` speaks of states, and of
failures too. What bounds a tree that the parser builds holds for faulty texts as well, so it is
said by `Yields`.

There is one rule for each step of `ParserState`, so that a proof about a production follows its
text. Most steps give values of no account, such as whether a mark was taken, and are passed over
(`Yields.after`). Faults give no value, and there is nothing to show.

For loops, `Keeps P Q` says of a round that it keeps `P` of what is gathered and that `Q` holds
when it is done. Almost every loop of the parser gathers a list and turns it round at the end,
which `gather` does once.
-/
import ScriptHooks.Script.Parser

namespace ScriptHooks.Script

open Parse

theorem forall_mem_reverse {P : α → Prop} {xs : List α} (h : ∀ x ∈ xs, P x) :
    ∀ x ∈ xs.reverse, P x :=
  fun x hx => h x (List.mem_reverse.mp hx)

/-- Whenever the production gives a value, the value has the property. -/
def Yields (p : Parse α) (P : α → Prop) : Prop := ∀ s a s', p s = .ok a s' → P a

namespace Yields

variable {α β σ : Type} {p q : Parse α} {f : α → Parse β} {P Q : α → Prop} {T : β → Prop}

theorem pure {a : α} (h : P a) : Yields (Pure.pure a) P := by
  intro s b s' hr
  cases hr
  exact h

/-- A weaker property. -/
theorem mono (hp : Yields p Q) (h : ∀ a, Q a → P a) : Yields p P :=
  fun s a s' hr => h a (hp s a s' hr)

/-- A sequence, with what is known of the first value. -/
theorem bind (hp : Yields p P) (hf : ∀ a, P a → Yields (f a) T) : Yields (p >>= f) T := by
  intro s b s' hr
  simp only [Bind.bind, EStateM.bind] at hr
  split at hr
  case h_1 a mid hmid => exact hf a (hp s a mid hmid) mid b s' hr
  case h_2 => cases hr

/-- A sequence whose first step gives whatever one likes. -/
theorem after (hf : ∀ a, Yields (f a) T) : Yields (p >>= f) T :=
  bind (P := fun _ => True) (fun _ _ _ _ => trivial) fun a _ => hf a

theorem map {g : α → β} (hp : Yields p fun a => T (g a)) : Yields (g <$> p) T := by
  intro s b s' hr
  simp only [Functor.map, EStateM.map] at hr
  split at hr
  case h_1 a mid hmid =>
    cases hr
    exact hp s a _ hmid
  case h_2 => cases hr

theorem ite {c : Prop} [Decidable c] (hy : c → Yields p P) (hn : ¬c → Yields q P) :
    Yields (if c then p else q) P := by
  split
  case isTrue h => exact hy h
  case isFalse h => exact hn h

/-- What fails gives nothing. -/
theorem error {fault : ParserState → Fault} (h : ∀ s, p s = .error (fault s) s) : Yields p P := by
  intro s a s' hr
  rw [h s] at hr
  cases hr

theorem fail {message : String} : Yields (fail message) P := error fun _ => rfl

theorem unexpected : Yields Parse.unexpected P := error fun _ => rfl

theorem unsupported {what : String} : Yields (unsupported what) P := fail

theorem failExpecting {what : String} : Yields (failExpecting what) P := error fun _ => rfl

theorem nested (hp : Yields p P) : Yields (nested p) P := by
  intro s a s' hr
  unfold Parse.nested at hr
  split at hr
  · cases hr
  · split at hr
    case h_1 b mid hmid =>
      cases hr
      exact hp _ _ _ hmid
    case h_2 => cases hr

theorem withoutIn {noIn : Bool} (hp : Yields p P) : Yields (withoutIn noIn p) P := by
  intro s a s' hr
  unfold Parse.withoutIn at hr
  split at hr
  case h_1 b mid hmid =>
    cases hr
    exact hp _ _ _ hmid
  case h_2 => cases hr

theorem insideFunction (hp : Yields p P) : Yields (insideFunction p) P := by
  intro s a s' hr
  unfold Parse.insideFunction at hr
  split at hr
  case h_1 b mid hmid =>
    cases hr
    exact withoutIn hp _ _ _ hmid
  case h_2 => cases hr

/-- A production on a list of its own gives what it gives. -/
theorem onTokens {tokens : List Token} (hp : Yields p P) : Yields (onTokens tokens p) P := by
  intro s a s' hr
  unfold Parse.onTokens at hr
  split at hr
  case h_1 b inner hin =>
    cases hr
    exact hp _ _ _ hin
  case h_2 => cases hr

/-- A guard gives what is inside it, or nothing. -/
theorem recovering (hp : Yields p P) : Yields (recovering p) fun r => ∀ a ∈ r, P a := by
  intro s r s' hr
  unfold Parse.recovering at hr
  split at hr
  case h_1 a mid hmid =>
    cases hr
    exact fun b hb => Option.mem_some.mp hb ▸ hp s a _ hmid
  case h_2 fault mid hmid =>
    cases hr
    exact nofun

/-- What a step of a loop gives: something to go on with, or the result. -/
def Keeps (I : σ → Prop) (T : β → Prop) : Step σ β → Prop
  | .more acc => I acc
  | .done b => T b

/-- What each step of a loop keeps holds until it is done. -/
theorem loop {I : σ → Prop} {step : σ → Parse (Step σ β)} {init : σ} (h : I init)
    (hs : ∀ acc, I acc → Yields (step acc) (Keeps I T)) : Yields (loop step init) T := by
  have hrounds : ∀ fuel acc, I acc → Yields (rounds step fuel acc) T := by
    intro fuel
    induction fuel with
    | zero => exact fun _ _ => unexpected
    | succ fuel ih =>
      intro acc hacc
      rw [Parse.rounds]
      refine bind (hs acc hacc) fun r hr => ?_
      cases r with
      | more next => exact ih next hr
      | done b => exact pure hr
  exact after fun s => hrounds _ init h

/-- A loop whose steps add to a list, or leave it as it is. -/
theorem gather {step : List α → Parse (Step (List α) β)}
    (hs : ∀ xs : List α, (∀ x ∈ xs, P x) → Yields (step xs) (Keeps (fun xs => ∀ x ∈ xs, P x) T)) :
    Yields (Parse.loop step []) T :=
  loop (List.forall_mem_nil P) hs

end Yields

end ScriptHooks.Script

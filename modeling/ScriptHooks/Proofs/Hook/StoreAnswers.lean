/-
ScriptHooks.Proofs.Hook.StoreAnswers — a store answers as its history says.

What a store holds under an identity is decided by the last request that touched it: a definition
by the last save that was not followed by a deletion (`LastSaved`), values of parameters by the
last that were set and not followed by none or by a deletion (`LastSet`). Both say it of the list of
requests: it is cut at one request, and what comes behind does not touch the identity.

Both are found by one look at a history from its end (`foldl_eq_some_iff`). What a request does to a
definition or to values is an option of an option: nothing, or that they are cleared, or that they
are set (`onDefinition`, `onValues`). A history is a fold of these, and what it comes to is what was
set last and not cleared since.

`AnsweredBy` says of every request what its answer is in these terms; a store gives this answer at
each place of any sequence of requests (`answers_by_history`). Listings are told by what is in them
and by their order: by the text of the scope and then by the name (`ListedBefore`), each definition
once. Since a list in strict order is determined by its members, that is all there is to say.

A request that reads leaves the store as it is. So the history may hold reads, and they touch
nothing.
-/
import Mathlib.Data.List.Induction
import ScriptHooks.Proofs.Hook.AuthoringFrames

namespace ScriptHooks

/-! ## What a history says -/

/-- The definition is what was saved last under an identity, and it was not deleted since. -/
def LastSaved (history : List StoreRequest) (id : ScriptId) (definition : ScriptDefinition) :
    Prop :=
  ∃ before after, history = before ++ .change (.save definition) :: after ∧ definition.id = id ∧
    (∀ later, .change (.save later) ∈ after → later.id ≠ id) ∧ .change (.delete id) ∉ after

/-- The values are what was set last under an identity; since then they were neither cleared nor
deleted. -/
def LastSet (history : List StoreRequest) (id : ScriptId) (values : Payload) : Prop :=
  ∃ before after, history = before ++ .change (.assignParameters id values) :: after ∧
    values ≠ [] ∧ (∀ later, .change (.assignParameters id later) ∉ after) ∧
    .change (.delete id) ∉ after

/-- One definition comes before another in the order of their scopes, and of their names at one
scope. -/
def ScriptDefinition.ListedBefore (a b : ScriptDefinition) : Prop :=
  a.scope.text < b.scope.text ∨ a.scope = b.scope ∧ a.name < b.name

/-- What is answered to a request after a history. -/
def StoreRequest.AnsweredBy (history : List StoreRequest) : StoreRequest → StoreAnswer → Prop
  | .change (.save definition), .definition replaced =>
    ∀ old, replaced = some old ↔ LastSaved history definition.id old
  | .change (.delete id), .definition removed =>
    ∀ old, removed = some old ↔ LastSaved history id old
  | .change (.assignParameters _ _), .done => True
  | .get id, .definition found =>
    ∀ definition, found = some definition ↔ LastSaved history id definition
  | .sourceOf id, .source found =>
    ∀ source, found = some source ↔
      ∃ definition, LastSaved history id definition ∧ definition.source = source
  | .list, .definitions found =>
    found.Pairwise ScriptDefinition.ListedBefore ∧
      ∀ definition, definition ∈ found ↔ LastSaved history definition.id definition
  | .findActive event scopes asyncMode, .definitions found =>
    found.Nodup ∧ ∀ definition, definition ∈ found ↔
      LastSaved history definition.id definition ∧ definition.enabled = true ∧
        definition.asyncCapable = asyncMode ∧ event ∈ definition.subscribedEvents ∧
        definition.scope ∈ scopes
  | .parametersAt id, .values found =>
    ∀ values, values ≠ [] ∧ found = values ↔ LastSet history id values
  | _, _ => False

/-! ## The last request that matters -/

/-- Steps that each set something, clear it or leave it alone: what they lead to is what was set
last and left alone since. -/
theorem foldl_eq_some_iff {α β : Type} (effect : β → Option (Option α)) (steps : List β)
    (value : α) :
    steps.foldl (fun before step => (effect step).getD before) none = some value ↔
      ∃ before step after, steps = before ++ step :: after ∧ effect step = some (some value) ∧
        ∀ later ∈ after, effect later = none := by
  induction steps using List.reverseRecOn with
  | nil => simp
  | append_singleton init last ih =>
    rw [List.foldl_append, List.foldl_cons, List.foldl_nil]
    constructor
    · intro h
      cases hlast : effect last with
      | some result =>
        rw [hlast, Option.getD_some] at h
        exact ⟨init, last, [], rfl, hlast.trans (congrArg some h), List.forall_mem_nil _⟩
      | none =>
        rw [hlast, Option.getD_none] at h
        obtain ⟨before, step, after, rfl, hstep, hafter⟩ := ih.mp h
        refine ⟨before, step, after ++ [last], by simp, hstep, fun later hlater => ?_⟩
        obtain hlater | hlater := List.mem_append.mp hlater
        · exact hafter later hlater
        · exact List.mem_singleton.mp hlater ▸ hlast
    · rintro ⟨before, step, after, hsplit, hstep, hafter⟩
      induction after using List.reverseRecOn with
      | nil =>
        obtain ⟨rfl, hlast⟩ := List.append_inj' hsplit rfl
        rw [List.singleton_inj.mp hlast, hstep]
        rfl
      | append_singleton more final _ =>
        obtain ⟨rfl, hlast⟩ :=
          List.append_inj' (hsplit.trans (List.append_assoc before (step :: more) [final]).symm) rfl
        obtain rfl := List.singleton_inj.mp hlast
        rw [hafter last List.mem_concat_self, Option.getD_none]
        exact ih.mpr ⟨before, step, more, rfl, hstep, fun later hlater =>
          hafter later (List.mem_append_left _ hlater)⟩

namespace StoreRequest

/-- What a request makes of the definition of an identity, if it touches it. -/
def onDefinition (id : ScriptId) : StoreRequest → Option (Option ScriptDefinition)
  | .change (.save definition) => if definition.id = id then some (some definition) else none
  | .change (.delete other) => if other = id then some none else none
  | _ => none

/-- What a request makes of the values of an identity, if it touches them. -/
def onValues (id : ScriptId) : StoreRequest → Option (Option Payload)
  | .change (.assignParameters other values) =>
    if other = id then some (if values.isEmpty then none else some values) else none
  | .change (.delete other) => if other = id then some none else none
  | _ => none

variable {id : ScriptId} {request : StoreRequest}

/-- A definition is set by a save under its identity. -/
theorem onDefinition_eq_some_iff {definition : ScriptDefinition} :
    request.onDefinition id = some (some definition) ↔
      request = .change (.save definition) ∧ definition.id = id := by
  rcases request with (⟨saved⟩ | ⟨other⟩ | _) | _
  case change.save =>
    simp only [onDefinition, Option.ite_none_right_eq_some, Option.some.injEq, change.injEq,
      StoreStep.save.injEq]
    constructor
    · rintro ⟨hid, rfl⟩
      exact ⟨rfl, hid⟩
    · rintro ⟨rfl, hid⟩
      exact ⟨hid, rfl⟩
  all_goals simp [onDefinition]

/-- It is left alone by all but saves under its identity and deletions. -/
theorem onDefinition_eq_none_iff :
    request.onDefinition id = none ↔
      (∀ definition, request = .change (.save definition) → definition.id ≠ id) ∧
        request ≠ .change (.delete id) := by
  rcases request with (_ | _ | _) | _ <;> simp [onDefinition]

/-- Values are set if there are any. -/
theorem onValues_eq_some_iff {values : Payload} :
    request.onValues id = some (some values) ↔
      request = .change (.assignParameters id values) ∧ values ≠ [] := by
  rcases request with (_ | ⟨other⟩ | ⟨other, set⟩) | _
  case change.assignParameters =>
    simp only [onValues, Option.ite_none_right_eq_some, Option.some.injEq,
      Option.ite_none_left_eq_some, List.isEmpty_iff, change.injEq,
      StoreStep.assignParameters.injEq]
    constructor
    · rintro ⟨rfl, hset, rfl⟩
      exact ⟨⟨rfl, rfl⟩, hset⟩
    · rintro ⟨⟨rfl, rfl⟩, hset⟩
      exact ⟨rfl, hset, rfl⟩
  all_goals simp [onValues]

/-- They are left alone by all but settings and deletions. -/
theorem onValues_eq_none_iff :
    request.onValues id = none ↔
      (∀ values, request ≠ .change (.assignParameters id values)) ∧
        request ≠ .change (.delete id) := by
  rcases request with (_ | _ | _) | _ <;> simp [onValues]

end StoreRequest

/-- What was saved last is what touched the definition last. -/
theorem lastSaved_iff {history : List StoreRequest} {id : ScriptId}
    {definition : ScriptDefinition} :
    LastSaved history id definition ↔ ∃ before request after,
      history = before ++ request :: after ∧
        request.onDefinition id = some (some definition) ∧
        ∀ later ∈ after, later.onDefinition id = none := by
  simp only [StoreRequest.onDefinition_eq_some_iff, StoreRequest.onDefinition_eq_none_iff]
  constructor
  · rintro ⟨before, after, hsplit, hid, hsaved, hdeleted⟩
    exact ⟨before, _, after, hsplit, ⟨rfl, hid⟩, fun later hlater =>
      ⟨fun saved heq => hsaved saved (heq ▸ hlater), fun heq => hdeleted (heq ▸ hlater)⟩⟩
  · rintro ⟨before, _, after, hsplit, ⟨rfl, hid⟩, hafter⟩
    exact ⟨before, after, hsplit, hid, fun saved hmem => (hafter _ hmem).1 saved rfl,
      fun hmem => (hafter _ hmem).2 rfl⟩

/-- What was set last is what touched the values last. -/
theorem lastSet_iff {history : List StoreRequest} {id : ScriptId} {values : Payload} :
    LastSet history id values ↔ ∃ before request after,
      history = before ++ request :: after ∧ request.onValues id = some (some values) ∧
        ∀ later ∈ after, later.onValues id = none := by
  simp only [StoreRequest.onValues_eq_some_iff, StoreRequest.onValues_eq_none_iff]
  constructor
  · rintro ⟨before, after, hsplit, hvalues, hset, hdeleted⟩
    exact ⟨before, _, after, hsplit, ⟨rfl, hvalues⟩, fun later hlater =>
      ⟨fun set heq => hset set (heq ▸ hlater), fun heq => hdeleted (heq ▸ hlater)⟩⟩
  · rintro ⟨before, _, after, hsplit, ⟨rfl, hvalues⟩, hafter⟩
    exact ⟨before, after, hsplit, hvalues, fun set hmem => (hafter _ hmem).1 set rfl,
      fun hmem => (hafter _ hmem).2 rfl⟩

/-! ## What a store holds -/

namespace ScriptStore

variable {store : ScriptStore} {history : List StoreRequest} {id : ScriptId}

/-- The store after requests, one after the other. -/
def afterAll (store : ScriptStore) (requests : List StoreRequest) : ScriptStore :=
  requests.foldl after store

/-- One request, as a definition sees it. -/
theorem get_after (store : ScriptStore) (request : StoreRequest) (id : ScriptId) :
    (store.after request).get id = (request.onDefinition id).getD (store.get id) := by
  cases request with
  | change step =>
    rw [after, get_step]
    cases step with
    | save definition =>
      by_cases h : definition.id = id <;> simp [StoreStep.kept, StoreRequest.onDefinition, h]
    | delete other =>
      by_cases h : other = id <;> simp [StoreStep.kept, StoreRequest.onDefinition, h]
    | assignParameters other values => rfl
  | _ => rfl

/-- One request, as values see it. -/
theorem valuesOf_after (store : ScriptStore) (request : StoreRequest) (id : ScriptId) :
    Ordered.get? id (store.after request).parameters =
      (request.onValues id).getD (Ordered.get? id store.parameters) := by
  cases request with
  | change step =>
    cases step with
    | save definition => rfl
    | delete other =>
      show Ordered.get? id (Ordered.erase other store.parameters) = _
      rw [Ordered.get?_erase]
      by_cases h : other = id <;> simp [StoreRequest.onValues, h]
    | assignParameters other values =>
      show Ordered.get? id (if values.isEmpty then Ordered.erase other store.parameters
        else Ordered.insert ScriptId.compare other values store.parameters) = _
      by_cases hvalues : values.isEmpty = true
      · rw [if_pos hvalues, Ordered.get?_erase]
        by_cases h : other = id <;> simp [StoreRequest.onValues, h, hvalues]
      · rw [if_neg hvalues, Ordered.get?_insert]
        by_cases h : other = id <;> simp [StoreRequest.onValues, h, hvalues]
  | _ => rfl

/-- A history, as a definition sees it. -/
theorem get_afterAll (store : ScriptStore) (history : List StoreRequest) (id : ScriptId) :
    (store.afterAll history).get id =
      history.foldl (fun before request => (request.onDefinition id).getD before)
        (store.get id) := by
  induction history generalizing store with
  | nil => rfl
  | cons request rest ih => exact (ih _).trans (by rw [get_after]; rfl)

theorem valuesOf_afterAll (store : ScriptStore) (history : List StoreRequest) (id : ScriptId) :
    Ordered.get? id (store.afterAll history).parameters =
      history.foldl (fun before request => (request.onValues id).getD before)
        (Ordered.get? id store.parameters) := by
  induction history generalizing store with
  | nil => rfl
  | cons request rest ih => exact (ih _).trans (by rw [valuesOf_after]; rfl)

/-- The definitions are in order after any history. -/
theorem Kept.afterAll (h : store.Kept) (history : List StoreRequest) :
    (store.afterAll history).Kept := by
  refine List.foldlRecOn history after h fun store hstore request _ => ?_
  cases request with
  | change step => exact hstore.step step
  | _ => exact hstore

/-- A store holds under an identity what was saved last. -/
theorem get_eq_some_iff {definition : ScriptDefinition} :
    (empty.afterAll history).get id = some definition ↔ LastSaved history id definition := by
  rw [get_afterAll, lastSaved_iff]
  exact foldl_eq_some_iff (StoreRequest.onDefinition id) history definition

/-- A store gives the values that were set last, and without any, none. -/
theorem parametersAt_eq_iff {values : Payload} :
    values ≠ [] ∧ (empty.afterAll history).parametersAt id = values ↔
      LastSet history id values := by
  have hheld : Ordered.get? id (empty.afterAll history).parameters = some values ↔
      LastSet history id values := by
    rw [valuesOf_afterAll, lastSet_iff]
    exact foldl_eq_some_iff (StoreRequest.onValues id) history values
  rw [← hheld, parametersAt]
  constructor
  · rintro ⟨hvalues, rfl⟩
    cases hget : Ordered.get? id (empty.afterAll history).parameters with
    | none => exact absurd (by rw [hget]; rfl) hvalues
    | some found => rfl
  · intro hget
    obtain ⟨-, -, -, hvalues, -⟩ := hheld.mp hget
    exact ⟨hvalues, by rw [hget]; rfl⟩

end ScriptStore

/-! ## Listings -/

/-- One identity comes before another by its scope, or by its name at the same scope. -/
theorem ScriptId.compare_eq_lt_iff {a b : ScriptId} :
    ScriptId.compare a b = .lt ↔
      a.scope.text < b.scope.text ∨ a.scope = b.scope ∧ a.name < b.name := by
  rw [ScriptId.compare, Ordering.then_eq_lt, compareText_eq_lt_iff, compareText_eq_lt_iff,
    Std.LawfulEqCmp.compare_eq_iff_eq]
  exact or_congr_right (and_congr_left fun _ =>
    ⟨ScopePath.text_injective, congrArg ScopePath.text⟩)

theorem ScriptDefinition.not_listedBefore_self (definition : ScriptDefinition) :
    ¬ definition.ListedBefore definition := by
  rintro (hscope | ⟨-, hname⟩)
  · exact String.lt_irrefl _ hscope
  · exact String.lt_irrefl _ hname

namespace ScriptStore

variable {store : ScriptStore} {history : List StoreRequest}

/-- Listings are in the order of identities. -/
theorem Kept.pairwise_list (h : store.Kept) :
    store.list.Pairwise ScriptDefinition.ListedBefore := by
  rw [list, List.pairwise_map]
  refine h.sorted.imp_of_mem fun {a b} ha hb hlt => ?_
  rw [h.own a ha, h.own b hb] at hlt
  exact ScriptId.compare_eq_lt_iff.mp hlt

theorem Kept.nodup_list (h : store.Kept) : store.list.Nodup :=
  h.pairwise_list.imp fun {a b} hbefore (heq : a = b) =>
    b.not_listedBefore_self (heq ▸ hbefore)

/-- A store lists what was saved last. -/
theorem mem_list_iff {definition : ScriptDefinition} :
    definition ∈ (empty.afterAll history).list ↔ LastSaved history definition.id definition := by
  rw [(kept_empty.afterAll history).mem_list_iff, get_eq_some_iff]

/-- A query finds the enabled definitions for the event at the scopes. -/
theorem mem_findActive_iff {definition : ScriptDefinition} {event : String}
    {scopes : List ScopePath} {asyncMode : Bool} :
    definition ∈ store.findActive event scopes asyncMode ↔
      definition ∈ store.list ∧ definition.enabled = true ∧
        definition.asyncCapable = asyncMode ∧ event ∈ definition.subscribedEvents ∧
        definition.scope ∈ scopes := by
  simp [findActive, ScriptDefinition.listensTo, and_assoc]

/-! ## Answers -/

/-- After any history, a store gives the answer that the history says. -/
theorem answer_by_history (history : List StoreRequest) (request : StoreRequest) :
    request.AnsweredBy history ((empty.afterAll history).answer request) := by
  have hkept := kept_empty.afterAll history
  cases request with
  | change step =>
    cases step with
    | save definition => exact fun old => get_eq_some_iff
    | delete id => exact fun old => get_eq_some_iff
    | assignParameters id values => trivial
  | get id => exact fun definition => get_eq_some_iff
  | sourceOf id =>
    intro source
    rw [sourceOf, Option.map_eq_some_iff]
    simp only [get_eq_some_iff]
  | list => exact ⟨hkept.pairwise_list, fun definition => mem_list_iff⟩
  | findActive event scopes asyncMode =>
    refine ⟨hkept.nodup_list.filter _, fun definition => ?_⟩
    rw [mem_findActive_iff, mem_list_iff]
  | parametersAt id => exact fun values => parametersAt_eq_iff

/-- Requests are answered after those before them. -/
theorem answers_append (store : ScriptStore) (before after : List StoreRequest) :
    store.answers (before ++ after) =
      store.answers before ++ (store.afterAll before).answers after := by
  induction before generalizing store with
  | nil => rfl
  | cons request rest ih => exact congrArg (List.cons _) (ih _)

/-- Every request is answered. -/
theorem length_answers (store : ScriptStore) (requests : List StoreRequest) :
    (store.answers requests).length = requests.length := by
  induction requests generalizing store with
  | nil => rfl
  | cons request rest ih => exact congrArg Nat.succ (ih _)

/-- In any sequence of requests, each is answered as the requests before it say: a definition is
the last that was saved under the identity and not deleted since, the list holds these definitions
in the order of their scopes and names, a search those of them that it asks for, and values are
the last that were set under the identity and neither cleared nor deleted since. -/
theorem answers_by_history (before : List StoreRequest) (request : StoreRequest)
    (after : List StoreRequest) :
    ∃ answer, (empty.answers (before ++ request :: after))[before.length]? = some answer ∧
      request.AnsweredBy before answer := by
  refine ⟨_, ?_, answer_by_history before request⟩
  rw [answers_append, List.getElem?_append_right (by rw [length_answers]), length_answers,
    Nat.sub_self]
  rfl

/-- Values outlive the definition that is replaced, and go with the one that is deleted; the same
name at another scope is another identity. -/
example :
    let acme : ScopePath := ⟨["acme"], by decide⟩
    let define := fun scope source =>
      ScriptDefinition.mk scope "s" source "" true false [] {}
    let values : Payload := [("key", .bool true)]
    empty.answers [.change (.assignParameters ⟨acme, "s"⟩ values),
        .change (.save (define acme "1")), .change (.save (define .root "2")),
        .change (.save (define acme "3")), .parametersAt ⟨acme, "s"⟩, .list,
        .change (.delete ⟨acme, "s"⟩), .parametersAt ⟨acme, "s"⟩, .get ⟨.root, "s"⟩] =
      [.done, .definition none, .definition none, .definition (some (define acme "1")),
        .values values, .definitions [define .root "2", define acme "3"],
        .definition (some (define acme "3")), .values [],
        .definition (some (define .root "2"))] := by
  intro acme define values
  cbv

end ScriptStore

end ScriptHooks

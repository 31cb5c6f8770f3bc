/-
ScriptHooks.Proofs.Host.Envelopes — what crosses the boundary of a call can be told apart.

A script calls the host and gets a text, the envelope of an outcome. It reads the text, looks
whether it says `ok`, and takes the value or throws an error with the code and the message
(`opened`). Whatever the value is, an envelope itself or `null`, and whatever stands in the message,
the script gets what the host meant: `envelope_unambiguous`.

The statement has three parts: which entries an envelope has, what a script makes of it, and that
the outcome can be told from what it makes (`outcomeOf?`). The first rests on reading what was
written (`parse_envelopeText_ok`, `parse_envelopeText_error`): the text of an envelope is put
together from pieces, and the value stands in it as it is written elsewhere. The codes of errors
are told apart by their names, which is a look at all of them.
-/
import ScriptHooks.Host.Call
import ScriptHooks.Proofs.Json.WrittenText

namespace ScriptHooks

/-- Words that begin with capitals, in small letters and with underscores between them. -/
def snakeCase (name : String) : String :=
  String.ofList
    ((name.toList.flatMap fun c => if c.isUpper then ['_', c.toLower] else [c]).drop 1)

theorem CallErrorCode.name_eq_snakeCase (code : CallErrorCode) :
    code.name = snakeCase code.title := by
  cases code <;> rfl

/-- A code is found by its name. -/
theorem CallErrorCode.find?_name (code : CallErrorCode) :
    (CallErrorCode.all.find? fun other => other.name == code.name) = some code := by
  cases code <;> rfl

/-! ## What a script makes of an envelope -/

/-- The value of a call, or the code and the message of what is thrown. -/
def opened (envelope : Json) : Except (Option Json × Option Json) (Option Json) :=
  match envelope.get? "ok" with
  | some (.bool true) => .ok (envelope.get? "value")
  | _ => .error (envelope.get? "code", envelope.get? "message")

/-- The outcome that a script takes from an envelope, if it can be one. -/
def outcomeOf? (envelope : Json) : Option (Except CallError Json) :=
  match opened envelope with
  | .ok value => value.map .ok
  | .error (some (.string name), some (.string message)) =>
    (CallErrorCode.all.find? fun code => code.name == name).map fun code => .error ⟨code, message⟩
  | .error _ => none

/-! ## Envelopes -/

open Json

/-- The envelope of a value is read as the two entries that it has. -/
theorem parse_envelopeText_ok {value : Json} (h : InOrder IsInteger value) :
    parseUnbounded (envelopeText (.ok value)) =
      .ok (.object [("ok", .bool true), ("value", value)]) := by
  have hread := readable_fields [("ok", .bool true), ("value", value)]
    (by simp [readable_chars h, readable_chars (.bool true)]) 0
  have hfields : Json.ofEntries [("ok", .bool true), ("value", value)] =
      .object [("ok", .bool true), ("value", value)] :=
    congrArg Json.object (orderFields_eq_self (sorted_of_keys ["ok", "value"] rfl (by decide)))
  rw [envelopeText, envelope, compact, hread.parseUnbounded, hfields]

/-- The envelope of an error is read as the three entries that it has, whatever the message. -/
theorem parse_envelopeText_error (error : CallError) :
    parseUnbounded (envelopeText (.error error)) =
      .ok (.object [("code", .string error.code.name), ("message", .string error.message),
        ("ok", .bool false)]) := by
  have hread := readable_fields [("ok", .bool false),
    ("code", .string error.code.name), ("message", .string error.message)]
    (by simp [readable_chars (.bool false), readable_chars (.string _)]) 0
  have hfields : Json.ofEntries [("ok", .bool false), ("code", .string error.code.name),
      ("message", .string error.message)] =
      .object [("code", .string error.code.name), ("message", .string error.message),
        ("ok", .bool false)] :=
    congrArg Json.object (orderFields_of_perm
      (sorted_of_keys ["code", "message", "ok"] rfl (by decide))
      (@List.perm_append_comm _ [_] _))
  rw [envelopeText, envelope, compact, hread.parseUnbounded, hfields]

/-- Every envelope is JSON with just the entries that it should have, and the script that gets it
takes from it the outcome of the call: the very value, or an error with the code and the
message. -/
theorem envelope_unambiguous (outcome : Except CallError Json)
    (h : ∀ value, outcome = .ok value → InOrder IsInteger value) :
    ∃ envelope, parseUnbounded (envelopeText outcome) = .ok envelope ∧
      (∀ value, outcome = .ok value →
        envelope = .object [("ok", .bool true), ("value", value)] ∧
          opened envelope = .ok (some value)) ∧
      (∀ error, outcome = .error error →
        envelope = .object [("code", .string (snakeCase error.code.title)),
            ("message", .string error.message), ("ok", .bool false)] ∧
          opened envelope =
            .error (some (.string (snakeCase error.code.title)), some (.string error.message))) ∧
      outcomeOf? envelope = some outcome := by
  cases outcome with
  | ok value =>
    refine ⟨_, parse_envelopeText_ok (h value rfl), ?_, nofun, rfl⟩
    rintro _ ⟨⟩
    exact ⟨rfl, rfl⟩
  | error error =>
    refine ⟨_, parse_envelopeText_error error, nofun, ?_, ?_⟩
    · rintro _ ⟨⟩
      rw [← CallErrorCode.name_eq_snakeCase]
      exact ⟨rfl, rfl⟩
    · simp [outcomeOf?, opened, Json.get?, lookup, error.code.find?_name]

/-- A value that looks like the envelope of an error, with a text that must be escaped. -/
theorem envelope_unambiguous_envelope :
    let value := Json.object [("message", .string "\"\\\n\x01\u2028"), ("ok", .bool false),
      ("value", .array [.null, .number (.int (-0x8000000000000000) (by decide))])]
    InOrder IsInteger value ∧ ∃ envelope,
      parseUnbounded (envelopeText (.ok value)) = .ok envelope ∧
      envelope = .object [("ok", .bool true), ("value", value)] ∧
      outcomeOf? envelope = some (.ok value) := by
  intro value
  have horder : InOrder IsInteger value := by
    refine .object (sorted_of_keys ["message", "ok", "value"] rfl (by decide)) ?_
    simp only [List.forall_mem_cons, List.not_mem_nil, false_imp_iff, implies_true, and_true]
    refine ⟨.string _, .bool _, .array ?_⟩
    simp only [List.forall_mem_cons, List.not_mem_nil, false_imp_iff, implies_true, and_true]
    exact ⟨.null, .number trivial⟩
  obtain ⟨envelope, hparse, hok, -, hback⟩ :=
    envelope_unambiguous (.ok value) fun other hother => Except.ok.inj hother ▸ horder
  exact ⟨horder, envelope, hparse, (hok value rfl).1, hback⟩

end ScriptHooks

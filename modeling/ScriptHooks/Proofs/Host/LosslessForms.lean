/-
ScriptHooks.Proofs.Host.LosslessForms — what is kept or sent as JSON loses nothing.

Definitions and identities of scripts, descriptions, failed calls, requests and responses each
have a written form and a decoder. The decoder takes the written form for the value it was
written for (`written_forms_lossless`), `null` or absent as it may be in parts; and a
description that was read and found good is found good again in its own written form
(`ofJson_toJson`).

There is one lemma for each type, `reads_toJson`, from the bottom up. A record is gone through field
by field by the lemmas of `Filled`, and what remains is that the entries were written in the order
of their names. Types that are not records are written as texts (scopes, identities, codes) or as an
object with a kind and a content (`reads_tagged`).

Some values have no written form that could be read, because a number does not fit or a map is not
in order. `Fits` excludes them for each type. Every value that was read fits, and so does every
value that the program makes.
-/
import ScriptHooks.Hook.Definition
import ScriptHooks.Host.HttpMessage
import ScriptHooks.Proofs.Hook.Ancestors
import ScriptHooks.Proofs.Json.WrittenRecords

namespace ScriptHooks

open Json

/-! ## Scopes and identities -/

/-- A scope is read from its text. -/
theorem ScopePath.reads_text (scope : ScopePath) :
    Reads ScopePath.decode (.string scope.text) scope := by
  have hparse := scope.parse?_text
  simp only [Reads, Node.ofJson, ScopePath.decode, Node.refine, Node.string, bind, Except.bind,
    hparse]

/-- An identity is read from the text of its scope and its name. -/
theorem ScriptId.reads_toJson (id : ScriptId) : Reads ScriptId.decode id.toJson id :=
  (Filled.required id.scope.reads_text <| .required (.string id.name) .nil).reads
    ⟨by decide, by decide⟩ (by simp [Function.Commute, Function.Semiconj]) rfl

/-! ## Descriptions -/

theorem ParameterField.reads_toJson (field : ParameterField) :
    Reads ParameterField.decode field.toJson field :=
  (Filled.required (.string field.name) <| .withDefault (.string field.description) <|
    .withDefault (.string field.fieldType) <| .withDefault (.bool field.required) .nil).reads
    ⟨by decide, by decide⟩ (by simp [Function.Commute, Function.Semiconj]) rfl

namespace ScriptMetadata

/-- A version that may be absent. -/
theorem reads_version (version : Option String) :
    Reads decodeVersion (.orNull (version.map .string)) version := by
  cases version <;> rfl

/-- Parameters are written inside an object of their own. -/
theorem reads_parameters (parameters : List ParameterField) :
    Reads decodeParameters (.ofEntries [("fields", .array (parameters.map (·.toJson)))])
      parameters :=
  (Filled.withDefault (.list fun field _ => field.reads_toJson) .nil).reads
    ⟨by decide, by decide⟩ (by simp) rfl

/-- The version of the description has 32 bits. -/
def Fits (metadata : ScriptMetadata) : Prop := metadata.apiVersion < 2 ^ 32

theorem reads_toJson {metadata : ScriptMetadata} (h : metadata.Fits) :
    Reads decode metadata.toJson metadata :=
  (Filled.withDefault (.unsigned (by decide) h) <| .required (.string metadata.id) <|
    .required (.string metadata.displayName) <| .withDefault (reads_version metadata.version) <|
    .withDefault (.bool metadata.isAsync) <| .required (.strings metadata.events) <|
    .withDefault (reads_parameters metadata.parameters) .nil).reads
    ⟨by decide, by decide⟩ (by simp [Function.Commute, Function.Semiconj]) rfl

/-- A good description is found good in its written form. -/
theorem ofJson_toJson {value : Json} {metadata : ScriptMetadata}
    (h : ofJson value = .ok metadata) : ofJson metadata.toJson = .ok metadata := by
  have hproblem : metadata.problem = none := by
    unfold ofJson at h
    split at h
    case h_1 =>
      split at h
      · cases h
      · split at h
        · cases h
        · rwa [← Except.ok.inj h]
    case h_2 => cases h
  have hversion : metadata.apiVersion = supportedApiVersion := by
    by_contra hne
    rw [problem, if_pos hne] at hproblem
    cases hproblem
  have hfits : metadata.Fits := by
    rw [Fits, hversion]
    decide
  have hread : decode (Node.ofJson metadata.toJson) = .ok metadata := reads_toJson hfits
  obtain ⟨fields, hfields⟩ : ∃ fields, metadata.toJson = .object fields := ⟨_, rfl⟩
  rw [hfields] at hread ⊢
  simp only [ofJson, hread, hproblem]

end ScriptMetadata

/-! ## Definitions -/

namespace ScriptDefinition

/-- Texts in order, each once, are the set of them. -/
theorem textSet_eq_self {texts : List String} (h : texts.Pairwise (· < ·)) :
    textSet texts = texts := by
  have hsorted : Ordered.Sorted compareText (texts.map fun text => (text, ())) :=
    List.pairwise_map.mpr (h.imp compareText_eq_lt_iff.mpr)
  rw [textSet, orderFields_eq_self hsorted, List.map_map]
  exact List.map_id _

/-- The description fits, and the events are a set in the order of its members. -/
structure Fits (definition : ScriptDefinition) : Prop where
  metadata : definition.metadata.Fits
  subscribedEvents : definition.subscribedEvents.Pairwise (· < ·)

theorem reads_toJson {definition : ScriptDefinition} (h : definition.Fits) :
    Reads decode definition.toJson definition :=
  (Filled.required definition.scope.reads_text <| .required (.string definition.name) <|
    .required (.string definition.source) <| .required (.string definition.contentHash) <|
    .required (.bool definition.enabled) <| .required (.bool definition.asyncCapable) <|
    .required (.strings definition.subscribedEvents) <|
    .required (ScriptMetadata.reads_toJson h.metadata) .nil).reads
    ⟨by decide, by decide⟩ (by simp [Function.Commute, Function.Semiconj])
    (by simp [textSet_eq_self h.subscribedEvents])

end ScriptDefinition

/-! ## Failed calls -/

/-- A code is written by its name. -/
theorem CallErrorCode.reads_name (code : CallErrorCode) :
    Reads CallErrorCode.decode (.string code.name) code :=
  .variant (by cases code <;> rfl)

theorem CallError.reads_toJson (error : CallError) : Reads CallError.decode error.toJson error :=
  (Filled.required error.code.reads_name <| .required (.string error.message) .nil).reads
    ⟨by decide, by decide⟩ (by simp [Function.Commute, Function.Semiconj]) rfl

/-! ## Requests -/

theorem MultipartPart.reads_toJson (part : MultipartPart) :
    Reads MultipartPart.decode part.toJson part :=
  (Filled.required (.string part.name) <| .withDefault (.optionalString part.value) <|
    .withDefault (.optionalString part.base64) <| .withDefault (.optionalString part.fileName) <|
    .withDefault (.optionalString part.contentType) .nil).reads
    ⟨by decide, by decide⟩ (by simp [Function.Commute, Function.Semiconj]) rfl

namespace RequestBody

/-- An object with a kind and a content is the body that the content makes. -/
theorem reads_tagged {name : String} {kind : BodyKind} {content : Json} {body : RequestBody}
    (hkind : lookup name BodyKind.byName = some kind)
    (hcontent : decodeContent kind (Node.ofJson content) = .ok body) :
    Reads decode (.ofEntries [("type", .string name), ("value", content)]) body := by
  have hvariant : Node.variant BodyKind.byName (Node.ofJson (.string name)) = .ok kind :=
    Reads.variant hkind
  have hfields : Json.ofEntries [("type", .string name), ("value", content)] =
      .object [("type", .string name), ("value", content)] :=
    congrArg Json.object (orderFields_eq_self (sorted_of_keys ["type", "value"] rfl (by decide)))
  rw [Reads, hfields, Node.ofJson, Node.ofFields, Node.ofFields, Node.ofFields]
  simp only [decode, decodeEntries, hvariant, hcontent, Option.isSome, Bool.false_eq_true,
    if_false, bind, Except.bind, Ending.check]

/-- The JSON of a body is in the order of keys. -/
inductive Fits : RequestBody → Prop
  | text (value : String) : Fits (.text value)
  | json {value : Json} (h : InOrder (fun _ => True) value) : Fits (.json value)
  | form {fields : List (String × Json)} (hsorted : Ordered.Sorted compareText fields)
    (h : ∀ entry ∈ fields, InOrder (fun _ => True) entry.2) : Fits (.form fields)
  | multipart (parts : List MultipartPart) : Fits (.multipart parts)

theorem reads_toJson {body : RequestBody} (h : body.Fits) : Reads decode body.toJson body := by
  cases h with
  | text value => exact reads_tagged rfl rfl
  | json h => exact reads_tagged rfl (congrArg (Except.map json) (Reads.json h))
  | form hsorted h =>
    exact reads_tagged rfl (congrArg (Except.map form) (Reads.jsonMap hsorted h))
  | multipart parts =>
    exact reads_tagged rfl (congrArg (Except.map multipart)
      (Reads.list fun part _ => part.reads_toJson))

/-- A body is never written as `null`, so that it can be told from none. -/
theorem toJson_ne_null (body : RequestBody) : body.toJson ≠ .null := by
  cases body <;> exact nofun

end RequestBody

namespace HttpRequest

/-- The JSON of the headers and of the body is in the order of keys. -/
structure Fits (request : HttpRequest) : Prop where
  headers : Ordered.Sorted compareText request.headers
  values : ∀ header ∈ request.headers, InOrder (fun _ => True) header.2
  body : ∀ body ∈ request.body, body.Fits

theorem reads_toJson {request : HttpRequest} (h : request.Fits) :
    Reads decode request.toJson request :=
  (Filled.required (.string request.method) <| .required (.string request.url) <|
    .withDefault (.jsonMap h.headers h.values) <|
    .withDefault (.orNull (·.toJson_ne_null) fun body hbody =>
      RequestBody.reads_toJson (h.body body hbody)) .nil).reads
    ⟨by decide, by decide⟩ (by simp [Function.Commute, Function.Semiconj]) rfl

end HttpRequest

/-! ## Responses -/

namespace HttpResponse

/-- The numbers are within their types, and the headers in the order of their names. -/
structure Fits (response : HttpResponse) : Prop where
  status : response.status < 2 ^ 16
  headers : Ordered.Sorted compareText response.headers
  sizeBytes : response.sizeBytes < 2 ^ 64
  durationMs : response.durationMs < 2 ^ 64

theorem reads_toJson {response : HttpResponse} (h : response.Fits) :
    Reads decode response.toJson response := by
  refine (Filled.required (.unsigned (by decide) h.status) <|
    .required (.bool response.successful) <|
    .required (.map h.headers fun header _ => .string header.2) <|
    .whenPresent response.body <| .whenPresent response.tempFilePath <|
    .required (.unsigned (by decide) h.sizeBytes) <|
    .required (.unsigned (by decide) h.durationMs) .nil).reads_of_perm
    ?order ⟨by decide, by decide⟩ ?commute ?value
  case order =>
    -- the two counts are written before the texts that may be absent
    refine .cons _ (.cons _ (.cons _ ?_))
    simpa [List.append_assoc] using @List.perm_append_comm _ [_, _] (_ ++ _)
  case commute =>
    cases response.body <;> cases response.tempFilePath <;>
      simp [Function.Commute, Function.Semiconj]
  case value =>
    obtain ⟨_, _, _, body, path, _, _⟩ := response
    cases body <;> cases path <;> rfl

end HttpResponse

/-! ## All of them -/

/-- What is kept or sent as JSON is read back from its written form, and descriptions that are
found good are found good in theirs. -/
theorem written_forms_lossless :
    (∀ id : ScriptId, Reads ScriptId.decode id.toJson id) ∧
    (∀ metadata : ScriptMetadata, metadata.Fits →
      Reads ScriptMetadata.decode metadata.toJson metadata) ∧
    (∀ definition : ScriptDefinition, definition.Fits →
      Reads ScriptDefinition.decode definition.toJson definition) ∧
    (∀ error : CallError, Reads CallError.decode error.toJson error) ∧
    (∀ request : HttpRequest, request.Fits →
      Reads HttpRequest.decode request.toJson request) ∧
    (∀ response : HttpResponse, response.Fits →
      Reads HttpResponse.decode response.toJson response) ∧
    ∀ (value : Json) (metadata : ScriptMetadata), ScriptMetadata.ofJson value = .ok metadata →
      ScriptMetadata.ofJson metadata.toJson = .ok metadata :=
  ⟨ScriptId.reads_toJson, fun _ => ScriptMetadata.reads_toJson,
    fun _ => ScriptDefinition.reads_toJson, CallError.reads_toJson,
    fun _ => HttpRequest.reads_toJson, fun _ => HttpResponse.reads_toJson,
    fun _ _ => ScriptMetadata.ofJson_toJson⟩

/-- A description whose version is an object, a definition with it, a request whose body is
`null` in JSON, one in parts, and a response without a body. -/
theorem written_forms_lossless_nulls :
    let described := Json.object [("displayName", .string "d"),
      ("events", .strings ["USER_SIGNED_UP"]), ("id", .string "i"),
      ("version", .object [("major", .ofNat 2)])]
    let metadata : ScriptMetadata :=
      ⟨1, "i", "d", some "\x7b\"major\":2\x7d", false, ["USER_SIGNED_UP"], []⟩
    let definition : ScriptDefinition := ⟨⟨["acme", "eu"], by decide⟩, "n", "\n", "", true, false,
      ["EVENT_CREATED", "USER_SIGNED_UP"], metadata⟩
    let nulled : HttpRequest := ⟨"PUT", "http://a/", [("a", .null), ("b", .bool true)],
      some (.json .null)⟩
    let parted : HttpRequest := ⟨"POST", "", [], some (.multipart
      [⟨"p", none, none, none, none⟩, ⟨"p", some "", some "AA==", none, some "a/b"⟩])⟩
    let response : HttpResponse := ⟨65535, false, [("A", "1"), ("a", "")], none, some "f", 0, 1⟩
    (ScriptMetadata.ofJson described = .ok metadata ∧
        ScriptMetadata.ofJson metadata.toJson = .ok metadata) ∧
      Reads ScriptMetadata.decode metadata.toJson metadata ∧
      Reads ScriptDefinition.decode definition.toJson definition ∧
      Reads HttpRequest.decode nulled.toJson nulled ∧
      Reads HttpRequest.decode parted.toJson parted ∧
      Reads HttpResponse.decode response.toJson response := by
  intro described metadata definition nulled parted response
  obtain ⟨-, hmetadata, hdefinition, -, hrequest, hresponse, hagain⟩ := written_forms_lossless
  have hdescribed : ScriptMetadata.ofJson described = .ok metadata := rfl
  have hfits : metadata.Fits := by unfold ScriptMetadata.Fits; decide
  have hnulled : nulled.Fits := by
    refine ⟨sorted_of_keys ["a", "b"] rfl (by decide), ?_, ?_⟩
    · simpa [nulled] using ⟨InOrder.null, InOrder.bool true⟩
    · rintro _ ⟨⟩
      exact .json .null
  have hparted : parted.Fits := by
    refine ⟨.nil, nofun, ?_⟩
    rintro _ ⟨⟩
    exact .multipart _
  have hresponded : response.Fits :=
    ⟨by decide, sorted_of_keys ["A", "a"] rfl (by decide), by decide, by decide⟩
  exact ⟨⟨hdescribed, hagain _ _ hdescribed⟩, hmetadata _ hfits,
    hdefinition _ ⟨hfits, by decide⟩, hrequest _ hnulled, hrequest _ hparted,
    hresponse _ hresponded⟩

end ScriptHooks

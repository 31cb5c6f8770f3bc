/-
ScriptHooks.Host.HttpMessage — requests that scripts send and the responses they
get.

Both cross the boundary between script and host as JSON: each type here has a `toJson`
that writes it and a `decode` that reads it. What is written for an absent field is
`null` in requests and nothing in responses, and a reader accepts both. That reading
undoes writing is proved for all of them in `ScriptHooks.Proofs.Host.LosslessForms`.

A body is an object that says its kind under `type` and holds its content under
`value`. The two may come in either order, so content that comes first is kept as a
node until its kind is known (`RequestBody.Draft`).

Methods and headers are still what the script wrote: whether they can be sent is
decided by `OutgoingRequest.prepare`.
-/
import ScriptHooks.Host.Call

namespace ScriptHooks

open Json Json.Node

/-- One part of a multipart body: a text, or the content of a file in base 64. -/
structure MultipartPart where
  name : String
  value : Option String := none
  base64 : Option String := none
  fileName : Option String := none
  contentType : Option String := none
  deriving Repr, DecidableEq

namespace MultipartPart

/-- The part in JSON; what is absent is `null`. -/
def toJson (part : MultipartPart) : Json :=
  .ofEntries [("name", .string part.name), ("value", .orNull (part.value.map .string)),
    ("base64", .orNull (part.base64.map .string)),
    ("fileName", .orNull (part.fileName.map .string)),
    ("contentType", .orNull (part.contentType.map .string))]

/-- A part; only its name must be there. -/
def decode : Decoder MultipartPart :=
  record (title "MultipartPart")
    [required "name" string fun v r => { r with name := v },
      withDefault "value" [] (optional string) fun v r => { r with value := v },
      withDefault "base64" [] (optional string) fun v r => { r with base64 := v },
      withDefault "fileName" [] (optional string) fun v r => { r with fileName := v },
      withDefault "contentType" [] (optional string) fun v r => { r with contentType := v }]
    { name := "" }

end MultipartPart

/-- The kinds of body. -/
inductive BodyKind
  | text
  | json
  | form
  | multipart
  deriving Repr, DecidableEq

def BodyKind.byName : List (String × BodyKind) :=
  [("text", .text), ("json", .json), ("form", .form), ("multipart", .multipart)]

/-- The body of a request. -/
inductive RequestBody
  | text (value : String)
  | json (value : Json)
  | form (fields : List (String × Json))
  | multipart (parts : List MultipartPart)

namespace RequestBody

/-- The body in JSON: its kind and its content. -/
def toJson : RequestBody → Json
  | text value => .ofEntries [("type", .string "text"), ("value", .string value)]
  | json value => .ofEntries [("type", .string "json"), ("value", value)]
  | form fields => .ofEntries [("type", .string "form"), ("value", .object fields)]
  | multipart parts =>
    .ofEntries [("type", .string "multipart"), ("value", .array (parts.map (·.toJson)))]

def decodeContent (kind : BodyKind) (node : Node) : Except Complaint RequestBody :=
  match kind with
  | .text => (string node).map text
  | .json => node.toJson.map json
  | .form => (map Node.toJson node).map form
  | .multipart => (list MultipartPart.decode node).map multipart

def expected : String := "adjacently tagged enum RequestBody"

/-- What is known of a body after some entries: its kind, content that came before
the kind, and the body. -/
structure Draft where
  kind : Option BodyKind := none
  content : Option Node := none
  body : Option RequestBody := none

def decodeEntries (draft : Draft) :
    List (String × Option Place × Node) → Except Complaint Draft
  | [] => .ok draft
  | (key, place, entry) :: rest =>
    match key with
    | "type" =>
      if draft.kind.isSome then .error ⟨.duplicateField "type", place⟩
      else do
        let kind ← variant BodyKind.byName entry
        match draft.content with
        | none => decodeEntries { draft with kind := some kind } rest
        | some content => do
          let body ← decodeContent kind content
          decodeEntries { draft with kind := some kind, body := some body } rest
    | "value" =>
      if draft.content.isSome then .error ⟨.duplicateField "value", place⟩
      else
        match draft.kind with
        | none => do
          let _ ← entry.toJson
          decodeEntries { draft with content := some entry } rest
        | some kind => do
          let body ← decodeContent kind entry
          decodeEntries { draft with content := some entry, body := some body } rest
    | _ => do
      let _ ← entry.toJson
      decodeEntries draft rest

/-- A body: an object with a kind and a content, or a list of the two. -/
def decode : Decoder RequestBody
  | .object _ entries ending => do
    let draft ←
      match decodeEntries {} entries with
      | .ok draft => .ok draft
      | .error complaint => .error (locate ending.after complaint)
    ending.check
    match draft.kind, draft.body with
    | none, _ => .error ⟨.missingField "type", ending.after⟩
    | some _, none => .error ⟨.missingField "value", ending.after⟩
    | some _, some body => .ok body
  | .array _ [] ending => do
    ending.check
    .error ⟨.invalidLength 0 expected, ending.after⟩
  | .array _ [(_, kind)] ending => do
    let _ ← variant BodyKind.byName kind
    ending.check
    .error ⟨.invalidLength 1 expected, ending.after⟩
  | .array _ ((_, kind) :: (_, content) :: rest) ending => do
    let kind ← variant BodyKind.byName kind
    let body ← decodeContent kind content
    match rest with
    | [] => do
      ending.check
      pure body
    | (place, _) :: _ => .error (tooMany (rest.length + 2) place)
  | node => .error (node.mistyped expected)

end RequestBody

/-- A request as a script builds it. -/
structure HttpRequest where
  method : String
  url : String
  headers : List (String × Json) := []
  body : Option RequestBody := none

namespace HttpRequest

def toJson (request : HttpRequest) : Json :=
  .ofEntries [("method", .string request.method), ("url", .string request.url),
    ("headers", .object request.headers), ("body", .orNull (request.body.map (·.toJson)))]

/-- A request; method and address must be there. -/
def decode : Decoder HttpRequest :=
  record (title "HttpRequest")
    [required "method" string fun v r => { r with method := v },
      required "url" string fun v r => { r with url := v },
      withDefault "headers" [] (map Node.toJson) fun v r => { r with headers := v },
      withDefault "body" [] (optional RequestBody.decode) fun v r => { r with body := v }]
    { method := "", url := "" }

end HttpRequest

/-- A response as a script gets it. -/
structure HttpResponse where
  status : Nat
  /-- The status says success. -/
  successful : Bool
  headers : List (String × String)
  body : Option String := none
  /-- Where the body was saved, if the script asked for a file. -/
  tempFilePath : Option String := none
  sizeBytes : Nat
  durationMs : Nat
  deriving Repr, DecidableEq

namespace HttpResponse

/-- The response in JSON; an absent body or file is left out. -/
def toJson (response : HttpResponse) : Json :=
  .ofEntries ([("status", .ofNat response.status), ("successful", .bool response.successful),
    ("headers", .object (response.headers.map fun header => (header.1, .string header.2))),
    ("sizeBytes", .ofNat response.sizeBytes), ("durationMs", .ofNat response.durationMs)]
    ++ (response.body.map fun body => ("body", Json.string body)).toList
    ++ (response.tempFilePath.map fun path => ("tempFilePath", Json.string path)).toList)

/-- A response; body and file may be absent. -/
def decode : Decoder HttpResponse :=
  record (title "HttpResponse")
    [required "status" (unsigned "u16" 16) fun v r => { r with status := v },
      required "successful" bool fun v r => { r with successful := v },
      required "headers" (map string) fun v r => { r with headers := v },
      withDefault "body" [] (optional string) fun v r => { r with body := v },
      withDefault "tempFilePath" [] (optional string) fun v r => { r with tempFilePath := v },
      required "sizeBytes" (unsigned "usize" 64) fun v r => { r with sizeBytes := v },
      required "durationMs" (unsigned "u64" 64) fun v r => { r with durationMs := v }]
    { status := 0, successful := false, headers := [], sizeBytes := 0, durationMs := 0 }

end HttpResponse

/-- The transport of requests: a request, and whether the response is to be saved to
a file. -/
abbrev HttpTransport := HttpRequest → Bool → Except CallError HttpResponse

end ScriptHooks

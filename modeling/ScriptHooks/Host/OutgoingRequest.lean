/-
ScriptHooks.Host.OutgoingRequest — requests of scripts as they leave.

`OutgoingRequest.prepare` holds a request against the policy and the rules of requests:
the method is one of six, nothing is sent along when something is fetched, parts have one
content each, headers can be written. What is then known is what goes over the wire.
-/
import ScriptHooks.Digest.Base64
import ScriptHooks.Host.HostPolicy
import ScriptHooks.Host.HttpMessage
import ScriptHooks.Json.Writer
import ScriptHooks.Web.MediaType
import ScriptHooks.Web.Target

namespace ScriptHooks

/-- The methods of requests. -/
inductive HttpMethod
  | get
  | head
  | post
  | put
  | patch
  | delete
  deriving DecidableEq, Repr

namespace HttpMethod

def all : List HttpMethod := [get, head, post, put, patch, delete]

def name : HttpMethod → String
  | get => "GET"
  | head => "HEAD"
  | post => "POST"
  | put => "PUT"
  | patch => "PATCH"
  | delete => "DELETE"

def onlyFetches (method : HttpMethod) : Bool := method = get || method = head

def parse (text : String) : Except CallError HttpMethod :=
  match all.find? fun method => method.name == text.map Char.toUpper with
  | some method => .ok method
  | none =>
    .error (.invalidRequest ("Invalid HTTP method: '" ++ text
      ++ "'. Supported methods: GET, HEAD, POST, PUT, PATCH, DELETE."))

end HttpMethod

/-- What a part of a body holds. -/
inductive PartContent
  | text (value : String)
  | file (bytes : List UInt8) (fileName contentType : Option String)
  deriving DecidableEq, Repr

/-- What is sent along with a request. -/
inductive OutgoingBody
  | none
  | text (value : String)
  | typed (contentType value : String)
  | parts (parts : List (String × PartContent))
  deriving DecidableEq, Repr

/-- A request that may be sent. -/
structure OutgoingRequest where
  method : HttpMethod
  url : Web.Url
  target : Web.Target
  /-- The headers that were asked for, as they were written. -/
  headers : List (String × String)
  body : OutgoingBody
  deriving DecidableEq, Repr

/-- A value as a text: texts are themselves, nothing is empty, anything else is JSON. -/
def plainText : Json → String
  | .string text => text
  | .null => ""
  | other => other.compact

/-! ## Headers -/

def isHeaderChar (c : Char) : Bool := c == '\t' || (0x20 ≤ c.toNat && c.toNat != 0x7f)

def headerTexts (headers : List (String × Json)) : Except CallError (List (String × String)) :=
  headers.mapM fun (name, value) =>
    let text := plainText value
    if Web.isToken name.toList && text.toList.all isHeaderChar then .ok (name, text)
    else .error ⟨.io, "HTTP request failed: builder error"⟩

/-! ## Bodies -/

/-- The content of a part, which has a text or a file but not both. -/
def partContent (part : MultipartPart) : Except CallError PartContent :=
  match part.value, part.base64 with
  | some text, none => .ok (.text text)
  | none, some encoded =>
    match Digest.decodeBase64 encoded with
    | .error fault =>
      .error (.invalidRequest ("Invalid base64 content for part '" ++ part.name ++ "': "
        ++ fault.message))
    | .ok bytes =>
      match part.contentType with
      | some type =>
        match Web.MediaType.normal? type with
        | some type => .ok (.file bytes part.fileName (some type))
        | none =>
          .error (.invalidRequest ("Invalid content type '" ++ type ++ "': builder error"))
      | none => .ok (.file bytes part.fileName none)
  | _, _ =>
    .error (.invalidRequest ("Multipart part '" ++ part.name
      ++ "' needs exactly one of 'value' or 'base64'"))

def outgoingBody : RequestBody → Except CallError OutgoingBody
  | .text text => .ok (.text text)
  | .json value => .ok (.typed "application/json" value.compact)
  | .form fields => .ok (.typed "application/x-www-form-urlencoded" (Web.formText (fields.map fun (name, value) => (name, plainText value))))
  | .multipart parts => do
    let parts ← parts.mapM fun part => do pure (part.name, ← partContent part)
    pure (.parts parts)

/-- What is sent along with a request, if its method allows that. -/
def prepareBody (method : HttpMethod) : Option RequestBody → Except CallError OutgoingBody
  | none => .ok .none
  | some body =>
    if method.onlyFetches then
      .error (.invalidRequest (method.name ++ " requests cannot include a body"))
    else outgoingBody body

namespace OutgoingRequest

/-- The request as it leaves, if it may. What cannot be written down counts least. -/
def prepare (settings : HttpSettings) (request : HttpRequest) :
    Except CallError OutgoingRequest := do
  let url ← settings.checkAddress request.url
  let method ← HttpMethod.parse request.method
  let body ← prepareBody method request.body
  let headers ← headerTexts request.headers
  pure ⟨method, url, .ofAddress request.url, headers, body⟩

def address (request : OutgoingRequest) : String :=
  request.url.origin ++ request.target.text ++ Web.Target.marked "#" request.target.fragment

end OutgoingRequest

end ScriptHooks

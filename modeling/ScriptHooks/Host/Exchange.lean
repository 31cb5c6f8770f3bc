/-
ScriptHooks.Host.Exchange — a request over the wire, and the answer to it.

A network answers connections one after the other, each with one reply. `exchange` sends a
request, goes where replies send it on to, at most ten times, and makes a response of the
last reply. What was sent on the way is part of the result, so that it can be looked at.

The network is a function from the host and the number of the connection to a reply, or to
nothing where there is no server. It knows nothing of the requests before, and all the time
that an exchange takes is what the replies say that they take; the limit of time is for all
connections of an exchange together.

Only the first address is held against the policy, by `OutgoingRequest.prepare`. An address
that a reply sends the request on to must have the scheme `http` or `https`, and nothing
more is asked of it.

The body of a response may be cut off: the reply announces more bytes than come. Such a
response is an error, and so is one with more bytes than the settings allow.
-/
import ScriptHooks.Host.OutgoingRequest
import ScriptHooks.Text.Utf8

namespace ScriptHooks

/-! ## Requests on the wire -/

/-- A request as it goes over the wire. The names of headers are in small letters. -/
structure WireRequest where
  method : HttpMethod
  target : String
  headers : List (String × String)
  body : List UInt8
  deriving DecidableEq, Repr

def WireRequest.line (request : WireRequest) : String :=
  request.method.name ++ " " ++ request.target ++ " HTTP/1.1"

def lineEnd : String := "\r\n"

/-- The name of a part. If anything in it must be in hexadecimal, it is marked as UTF-8; a
single character needs no mark. -/
def partName (name : String) : String :=
  let written := String.ofList (Web.percentText Web.segmentBarred name.toList)
  if name.toList.all (Web.isPlain Web.segmentBarred) || (Digest.utf8Bytes name).length = 1 then
    "name=\"" ++ written ++ "\""
  else "name*=utf-8''" ++ written

/-- The name of a file, with a backslash before what would end it. -/
def partFileName (name : String) : String :=
  "; filename=\""
    ++ String.ofList (name.toList.flatMap fun c =>
      if "\\\"\r\n".toList.contains c then ['\\', c] else [c])
    ++ "\""

def partBytes (name : String) : PartContent → List UInt8
  | .text value =>
    Digest.utf8Bytes ("Content-Disposition: form-data; " ++ partName name ++ lineEnd ++ lineEnd
      ++ value ++ lineEnd)
  | .file bytes fileName contentType =>
    Digest.utf8Bytes ("Content-Disposition: form-data; " ++ partName name
      ++ (fileName.map partFileName).getD ""
      ++ (contentType.map fun type => lineEnd ++ "Content-Type: " ++ type).getD ""
      ++ lineEnd ++ lineEnd) ++ bytes ++ Digest.utf8Bytes lineEnd

namespace OutgoingBody

/-- What is sent after the head; `boundary` is the line between parts. -/
def bytes (boundary : String) : OutgoingBody → List UInt8
  | none => []
  | text value => Digest.utf8Bytes value
  | typed _ value => Digest.utf8Bytes value
  | parts [] => []
  | parts (first :: more) =>
    (first :: more).flatMap (fun (name, content) =>
      Digest.utf8Bytes ("--" ++ boundary ++ lineEnd) ++ partBytes name content)
      ++ Digest.utf8Bytes ("--" ++ boundary ++ "--" ++ lineEnd)

def headers (boundary : String) (asked : List (String × String)) (body : OutgoingBody) :
    List (String × String) :=
  let has := fun name => asked.any fun header => header.1 == name
  let type := match body with
    | typed type _ => if has "content-type" then [] else [("content-type", type)]
    | parts _ => [("content-type", "multipart/form-data; boundary=" ++ boundary)]
    | _ => []
  let length := (body.bytes boundary).length
  let isTold := (length ≠ 0 ∨ body = parts []) ∧ ¬ has "content-length"
  type ++ if isTold then [("content-length", toString length)] else []

/-- Whether the body is made while it is sent, so that it cannot be sent again. -/
def isStream : OutgoingBody → Bool
  | parts (_ :: _) => true
  | _ => false

end OutgoingBody

/-- The value of a header without the blanks around it, which nobody sees. -/
def bareValue (value : String) : String :=
  let isEdge := fun c : Char => c == ' ' || c == '\t'
  String.ofList ((value.toList.dropWhile isEdge).reverse.dropWhile isEdge).reverse

/-- The request on the wire. Any kind of answer is welcome unless it says otherwise. -/
def OutgoingRequest.sent (boundary : String) (request : OutgoingRequest) : WireRequest :=
  let asked := request.headers.map fun (name, value) => (name.map Char.toLower, bareValue value)
  let accept := if asked.any fun header => header.1 == "accept" then [] else [("accept", "*/*")]
  { method := request.method, target := request.target.text
    headers := asked ++ request.body.headers boundary asked ++ accept
    body := request.body.bytes boundary }

/-! ## Replies -/

/-- The reply of a server to one connection. -/
structure ServerReply where
  status : Nat
  /-- By names in small letters. -/
  headers : List (String × List UInt8)
  /-- How many bytes of a body are announced. -/
  announced : Nat
  /-- The bytes that come before the connection ends. -/
  body : List UInt8
  /-- How long the reply takes. -/
  delayMs : Nat := 0
  deriving DecidableEq, Repr

/-- What answers requests: for a host and the number of a connection the reply, if there is
one. -/
abbrev Network := (origin : String) → (connection : Nat) → Option ServerReply

/-- What saves a body to a file: the path of the file. -/
abbrev FileSaver := List UInt8 → Except CallError String

/-- Whether a status says that the real reply is still to come. -/
def isInterim (status : Nat) : Bool := status < 200 && status != 101

/-- Whether a reply has no body, whatever it announces. -/
def hasNoBody (method : HttpMethod) (status : Nat) : Bool :=
  method = .head || status < 200 || status = 204 || status = 304

def payloadHeaders : List String :=
  ["content-type", "content-length", "content-encoding", "transfer-encoding"]

def WireRequest.bare (request : WireRequest) (method : HttpMethod) : WireRequest :=
  { request with
    method := method, body := []
    headers := request.headers.filter fun header => !payloadHeaders.contains header.1 }

/-- The request to be sent where a reply sends it on to. What was posted is fetched from
there, except where the status keeps the method; after a 303 everything is fetched. -/
def WireRequest.onward (isStream : Bool) (status : Nat) (request : WireRequest) :
    Option WireRequest :=
  if status = 303 then some (request.bare (if request.method = .head then .head else .get))
  else if (status = 301 || status = 302) && request.method = .post then some (request.bare .get)
  else if [301, 302, 307, 308].contains status && (!isStream || request.body.isEmpty) then
    some request
  else none

def HttpResponse.ofReply (settings : HttpSettings) (saver : Option FileSaver)
    (method : HttpMethod) (reply : ServerReply) : Except CallError HttpResponse := do
  let announced := if hasNoBody method reply.status then 0 else reply.announced
  let body := reply.body.take announced
  if settings.maxResponseBytes < body.length then
    throw ⟨.io, "Response body too large (max: " ++ toString settings.maxResponseBytes
      ++ " bytes)"⟩
  if body.length < announced then throw ⟨.io, "Read error: error decoding response body"⟩
  let path ← saver.mapM fun save => save body
  pure {
    status := reply.status
    successful := 200 ≤ reply.status && reply.status < 300
    headers := Json.orderFields (reply.headers.map fun (name, value) => (name, Text.ofBytes value))
    body := if saver.isSome then none else some (Text.ofBytes body)
    tempFilePath := path
    sizeBytes := body.length
    durationMs := reply.delayMs }

/-! ## Exchanges -/

/-- What became of a request: what was sent, and the outcome. -/
structure Exchange (α : Type) where
  sent : List WireRequest
  outcome : Except CallError α

/-- A request on its way. -/
structure Hop where
  origin : String
  target : Web.Target
  request : WireRequest
  connection : Nat := 0
  elapsedMs : Nat := 0

def failedRequest (code : CallErrorCode) (reason address : String) : CallError :=
  ⟨code, "HTTP request failed: " ++ reason ++ " for url (" ++ address ++ ")"⟩

def Hop.next? (isStream : Bool) (reply : ServerReply) (hop : Hop) :
    Option (String × WireRequest) := do
  let request ← hop.request.onward isStream reply.status
  let location ← Json.lookup "location" reply.headers
  let address ← Web.referenced hop.origin hop.target (Text.ofBytes location)
  pure (address, request)

/-- Send a request, and send it on at most so many times. The `address` is the one that
errors name. -/
def follow (settings : HttpSettings) (network : Network) (isStream : Bool) (address : String) :
    Nat → Hop → Exchange (HttpMethod × ServerReply)
  | left, hop =>
    match network hop.origin hop.connection with
    | none => ⟨[], .error (failedRequest .io "error sending request" address)⟩
    | some reply =>
      let elapsed := hop.elapsedMs + reply.delayMs
      let ends := fun outcome => (⟨[hop.request], outcome⟩ : Exchange (HttpMethod × ServerReply))
      if settings.timeoutMs ≤ elapsed then
        ends (.error (failedRequest .timeout "error sending request" address))
      else if isInterim reply.status then
        ends (.error (failedRequest .io "error sending request" address))
      else
        match hop.next? isStream reply, left with
        | none, _ => ends (.ok (hop.request.method, reply))
        | some _, 0 => ends (.error (failedRequest .io "error following redirect" address))
        | some (there, request), left + 1 =>
          match Web.Url.parse there with
          | .error _ => ends (.error (failedRequest .io "builder error" address))
          | .ok url =>
            if url.scheme ≠ "http" ∧ url.scheme ≠ "https" then
              ends (.error (failedRequest .io "builder error" address))
            else
              let target := Web.Target.ofAddress there
              let rest := follow settings network isStream address left
                { origin := url.origin, target := target
                  request := { request with target := target.text }
                  connection := hop.connection + 1, elapsedMs := elapsed }
              { rest with sent := hop.request :: rest.sent }

/-- How many times a request is sent on. -/
def mostRedirects : Nat := 10

/-- A request to the network, and the response to it. A saver is there if the response is to
be saved. -/
def exchange (settings : HttpSettings) (network : Network) (boundary : String)
    (saver : Option FileSaver) (request : HttpRequest) : Exchange HttpResponse :=
  match OutgoingRequest.prepare settings request with
  | .error error => ⟨[], .error error⟩
  | .ok outgoing =>
    let last := follow settings network outgoing.body.isStream outgoing.address mostRedirects
      ⟨outgoing.url.origin, outgoing.target, outgoing.sent boundary, 0, 0⟩
    { sent := last.sent
      outcome := last.outcome.bind fun (method, reply) =>
        HttpResponse.ofReply settings saver method reply }

/-- The transport without a network: requests are held against the policy, and then nobody
answers. -/
def offlineTransport (settings : HttpSettings) : HttpTransport := fun request _ =>
  (exchange settings (fun _ _ => none) "" none request).outcome

end ScriptHooks

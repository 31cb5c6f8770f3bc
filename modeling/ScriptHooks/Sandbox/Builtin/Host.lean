/-
ScriptHooks.Sandbox.Builtin.Host — JSON, and what the host gives to scripts: `log`,
`json`, `simpleHttpClient` and `utils`.

Between script and host there are only texts and JSON. A text with a surrogate that
stands alone does not reach the host. A call that the host refuses throws an error
with the message and, as `code`, the kind of refusal.
-/
import ScriptHooks.Calendar.Pattern
import ScriptHooks.Digest.Base64
import ScriptHooks.Digest.Md5
import ScriptHooks.Digest.Sha256
import ScriptHooks.Json.Reader
import ScriptHooks.Json.Writer
import ScriptHooks.Sandbox.Builtin.Texts
import ScriptHooks.Sandbox.JsonText

namespace ScriptHooks.Sandbox

namespace Run

/-! ## JSON -/

/-- A value with its parts, and then itself, replaced by the answers of a function. -/
def revived (m : Machine) (f : Value) (holder : Ref) (name : Units) : Nat → Run Value
  | 0 => rangeError "Maximum call stack size exceeded"
  | fuel + 1 => do
    let value ← getValue m (.object holder) (.text name)
    match value with
    | .object ref =>
      for part in ← namesOf ref do
        let key := Key.text part
        match ← revived m f ref part fuel with
        | .undefined => change ref (·.remove key)
        | new => define ref key (.plain new)
    | _ => pure ()
    m.call f (.object holder) [.text name, value]

def jsonFunction (m : Machine) (f : JsonFunction) (arguments : List Value) : Run Value := do
  match f with
  | .parse =>
    let value ← parseText (← toText m (argument arguments 0))
    let reviver := argument arguments 1
    if ← isCallable reviver then
      let holder ← newObject
      define holder "" (.plain value)
      revived m reviver holder Units.empty maxJsonDepth
    else pure value
  | .stringify =>
    let style ← styleOf m (argument arguments 1) (argument arguments 2)
    match ← jsonText m style (argument arguments 0) with
    | some text => textValue text
    | none => pure .undefined

/-! ## The host's boundary -/

def hostText (text : Units) : Run String :=
  match text.decode with
  | .ok text => pure text
  | .error bytes =>
    typeError ("Conversion from string failed: invalid utf-8 sequence of 1 bytes from index "
      ++ toString bytes)

def anyText (m : Machine) (value : Value) : Run Units := do
  match ← makeText m [value] with
  | .text text => pure text
  | _ => pure Units.empty

def refused (error : CallError) : Run α := do
  let thrown ← newError .error (Units.ofString error.message)
  match thrown with
  | .object ref => define ref "code" (.plain (.text (Units.ofString error.code.name)))
  | _ => pure ()
  throw (.thrown thrown)

def unwrapped (outcome : Except CallError Json) : Run Value :=
  match outcome with
  | .ok value => ofJsonText value
  | .error error => refused error

/-! ## `log` -/

def isError (value : Value) : Run Bool := do
  match value with
  | .object ref =>
    inherits (Intrinsic.errorProto .error).ref (← chainLength) (← object ref).proto
  | _ => pure false

/-- A value in JSON or, if it has none, its text. -/
def shownText (m : Machine) (value : Value) : Run Units := do
  let written ← tryCatch (jsonText m {} value) fun
    | .thrown _ => pure none
    | halt => throw halt
  match written with
  | some text => pure text
  | none => anyText m value

def loggedText (m : Machine) (value : Value) : Run Units := do
  match value with
  | .text text => pure text
  | _ =>
    if ← isError value then
      let name ← getValue m value "name"
      let head ← sum m name (.text (Units.ofString ": "))
      let message ← getValue m value "message"
      toText m (← sum m head message)
    else shownText m value

def logLine (m : Machine) (level : LogLevel) (arguments : List Value) : Run Value := do
  let parts ← arguments.mapM (loggedText m)
  let message ← hostText (Units.join (Units.ofString " ") parts)
  modify fun w => { w with logs := ⟨level, w.host.context, message⟩ :: w.logs }
  pure .undefined

/-! ## `json` -/

def hostStringify (m : Machine) (value : Value) (pretty : Bool) : Run Value := do
  let value := match value with
    | .undefined => .null
    | other => other
  match ← jsonText m {} value with
  | none => typeError "Error converting from js 'undefined' into type 'string'"
  | some text =>
    let text ← hostText text
    unwrapped (match Json.parse text with
      | .ok value => .ok (.string (if pretty then value.pretty else value.compact))
      | .error complaint =>
        .error (.invalidRequest ("json.stringify: " ++ complaint.message)))

def hostParse (m : Machine) (value : Value) : Run Value := do
  let text ← hostText (← anyText m value)
  unwrapped ((Json.parse text).mapError fun complaint =>
    .invalidRequest ("json.parse: " ++ complaint.message))

/-! ## `simpleHttpClient` -/

def bodyValue (kind : String) (value : Value) : Run Value := do
  let ref ← newObject
  define ref "type" (.plain (.text (Units.ofString kind)))
  define ref "value" (.plain value)
  pure (.object ref)

/-- The body for what a script sends: none, a text, or JSON. -/
def payloadValue (value : Value) : Run Value := do
  match value with
  | .undefined => pure .undefined
  | .null => pure .undefined
  | .text _ => bodyValue "text" value
  | other => bodyValue "json" other

/-- A value, or a new object in the place of one that counts as false. -/
def orObject (value : Value) : Run Value := do
  if value.isTruthy then pure value else pure (.object (← newObject))

def requestOf (text : String) : Except CallError HttpRequest :=
  (Json.decodeText (some Json.nestingLimit) HttpRequest.decode text).mapError fun complaint =>
    .invalidRequest ("Invalid HTTP request params: " ++ complaint.message)

def sendRequest (m : Machine) (method : String) (url headers body : Value) (save : Bool) :
    Run Value := do
  let ref ← newObject
  define ref "method" (.plain (.text (Units.ofString method)))
  define ref "url" (.plain (.text (← anyText m url)))
  define ref "headers" (.plain (← orObject headers))
  match body with
  | .undefined => pure ()
  | body => define ref "body" (.plain body)
  let written ← jsonText m {} (.object ref)
  let text ← hostText (written.getD Units.empty)
  match requestOf text with
  | .error error => refused error
  | .ok request =>
    modify fun w => { w with requests := ⟨request, save⟩ :: w.requests }
    unwrapped (((← get).host.send request save).map (·.toJson))

def httpFunction (m : Machine) (f : HostFunction) (arguments : List Value) : Run Value := do
  let url := argument arguments 0
  let headers := argument arguments 1
  let content := argument arguments 2
  let parts : Run Value := do
    if content.isTruthy then bodyValue "multipart" content
    else bodyValue "multipart" (← newList [])
  match f with
  | .httpGet => sendRequest m "GET" url headers .undefined false
  | .httpHead => sendRequest m "HEAD" url headers .undefined false
  | .httpDelete => sendRequest m "DELETE" url headers .undefined false
  | .httpPost => sendRequest m "POST" url headers (← payloadValue content) false
  | .httpPut => sendRequest m "PUT" url headers (← payloadValue content) false
  | .httpPatch => sendRequest m "PATCH" url headers (← payloadValue content) false
  | .httpPostJson =>
    let content := match content with
      | .undefined => .null
      | other => other
    sendRequest m "POST" url headers (← bodyValue "json" content) false
  | .httpPostForm =>
    sendRequest m "POST" url headers (← bodyValue "form" (← orObject content)) false
  | .httpPostMultipart => sendRequest m "POST" url headers (← parts) false
  | .httpPostFileAndSave => sendRequest m "POST" url headers (← parts) true
  | _ => sendRequest m "GET" url headers .undefined true

/-! ## `utils` -/

def textOf (text : String) : Value := .text (Units.ofString text)

def toolFunction (m : Machine) (f : HostFunction) (arguments : List Value) : Run Value := do
  let first ← anyText m (argument arguments 0)
  match f with
  | .md5 => pure (textOf (Digest.md5Hex (← hostText first)))
  | .base64UrlSafe =>
    pure (textOf (Digest.base64UrlSafe (Digest.utf8Bytes (← hostText first))))
  | _ =>
    let second ← anyText m (argument arguments 1)
    let first ← hostText first
    let second ← hostText second
    match f with
    | .hmacSha256 => pure (textOf (Digest.hmacSha256Hex first second))
    | _ =>
      unwrapped (match Calendar.formatTimestamp first second (argument arguments 2).isTruthy with
        | .ok shown => .ok (.string shown)
        | .error error => .error (.invalidRequest error.message))

def hostFunction (m : Machine) (f : HostFunction) (arguments : List Value) : Run Value :=
  match f with
  | .logInfo => logLine m .info arguments
  | .logWarn => logLine m .warn arguments
  | .logError => logLine m .error arguments
  | .jsonStringify =>
    hostStringify m (argument arguments 0) (argument arguments 1).isTruthy
  | .jsonParse => hostParse m (argument arguments 0)
  | .md5 | .hmacSha256 | .base64UrlSafe | .formatDateTime => toolFunction m f arguments
  | .httpGet | .httpHead | .httpDelete | .httpPost | .httpPut | .httpPatch | .httpPostJson
  | .httpPostForm | .httpPostMultipart | .httpPostFileAndSave | .httpGetAndSave =>
    httpFunction m f arguments

end Run

end ScriptHooks.Sandbox

/-
ScriptHooks.Host.Call — the outcome of a call from a script into the host.

An outcome crosses the boundary as an envelope, a text of JSON: an object that
says `ok` and holds the value, or says not `ok` and holds the code and message of
the error.
-/
import ScriptHooks.Json.Decode

namespace ScriptHooks

open Json Json.Node

/-- Why the host refused or failed a call. -/
inductive CallErrorCode
  | invalidRequest
  | denied
  | io
  | timeout
  | internal
  deriving Repr, DecidableEq

namespace CallErrorCode

def all : List CallErrorCode := [invalidRequest, denied, io, timeout, internal]

def name : CallErrorCode → String
  | invalidRequest => "invalid_request"
  | denied => "denied"
  | io => "io"
  | timeout => "timeout"
  | internal => "internal"

def title : CallErrorCode → String
  | invalidRequest => "InvalidRequest"
  | denied => "Denied"
  | io => "Io"
  | timeout => "Timeout"
  | internal => "Internal"

def decode : Decoder CallErrorCode := variant (all.map fun code => (code.name, code))

end CallErrorCode

/-- A failed call. -/
structure CallError where
  code : CallErrorCode
  message : String
  deriving Repr, DecidableEq

namespace CallError

def text (error : CallError) : String := error.code.title ++ ": " ++ error.message

def toJson (error : CallError) : Json :=
  .ofEntries [("code", .string error.code.name), ("message", .string error.message)]

/-- An error; both fields must be there. -/
def decode : Decoder CallError :=
  record (title "HostCallError")
    [required "code" CallErrorCode.decode fun v r => { r with code := v },
      required "message" string fun v r => { r with message := v }] ⟨.internal, ""⟩

/-- A request that the host cannot make sense of. -/
def invalidRequest (message : String) : CallError := ⟨.invalidRequest, message⟩

end CallError

/-- The envelope of an outcome. The value comes last, the order of entries is fixed. -/
def envelope (outcome : Except CallError Json) : Json :=
  match outcome with
  | .ok value => .object [("ok", .bool true), ("value", value)]
  | .error error =>
    .object [("ok", .bool false), ("code", .string error.code.name),
      ("message", .string error.message)]

def envelopeText (outcome : Except CallError Json) : String := (envelope outcome).compact

end ScriptHooks

/-
ScriptHooks.Host.HttpSettings — what the requests of scripts may do.

The settings name the hosts that may be asked and those that may not, and limit the
size and the time of a response. Whether a host may be asked is decided in
`Host.HostPolicy`, and the limits hold in `Host.Exchange`.

They are part of the settings of the engine and read like them: every entry may be
absent, and those of two words have a second spelling.
-/
import ScriptHooks.Json.Decode

namespace ScriptHooks

open Json Json.Node

/-- The settings for requests: which hosts they may go to, and how much time and space
a response may take. -/
structure HttpSettings where
  /-- Hosts that may be asked; if there are none, all may. -/
  allowlist : List String := []
  /-- Hosts that may not be asked, even if allowed. -/
  denylist : List String := []
  maxResponseBytes : Nat := 50 * 1024 * 1024
  timeoutMs : Nat := 30000
  /-- Where responses are saved, if not where the system keeps its temporary files. -/
  tempDir : Option String := none
  deriving Repr, DecidableEq

namespace HttpSettings

def path : Decoder String
  | .scalar (.string s) _ => .ok s
  | node => .error (node.mistyped "path string")

/-- Settings; what is absent is as it is by default. -/
def decode : Decoder HttpSettings :=
  record (title "HttpClientConfig")
    [withDefault "allowlist" [] (list string) fun v r => { r with allowlist := v },
      withDefault "denylist" [] (list string) fun v r => { r with denylist := v },
      withDefault "maxResponseBytes" ["max_response_bytes"] (unsigned "usize" 64)
        fun v r => { r with maxResponseBytes := v },
      withDefault "timeoutMs" ["timeout_ms"] (unsigned "u64" 64)
        fun v r => { r with timeoutMs := v },
      withDefault "tempDir" ["temp_dir"] (optional path) fun v r => { r with tempDir := v }] {}

def toJson (settings : HttpSettings) : Json :=
  .ofEntries [("allowlist", .strings settings.allowlist),
    ("denylist", .strings settings.denylist),
    ("maxResponseBytes", .ofNat settings.maxResponseBytes),
    ("timeoutMs", .ofNat settings.timeoutMs),
    ("tempDir", .orNull (settings.tempDir.map .string))]

end HttpSettings

end ScriptHooks

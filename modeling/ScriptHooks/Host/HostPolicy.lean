/-
ScriptHooks.Host.HostPolicy — which addresses scripts may send requests to.

Hosts are named by patterns: a name stands for itself, and `*.` before a name for the name
and all names below it. Case does not matter. Denied hosts are refused even if they are
allowed; if any hosts are allowed, all others are refused.
-/
import ScriptHooks.Host.Call
import ScriptHooks.Host.HttpSettings
import ScriptHooks.Web.Url

namespace ScriptHooks

/-- Whether a pattern stands for a host; both in small letters. -/
def patternMatches (pattern host : List Char) : Bool :=
  match pattern with
  | '*' :: '.' :: name => ('.' :: name).isSuffixOf host || host == name
  | _ => host == pattern

/-- Whether any of the patterns stands for a host, in whatever case. -/
def anyMatches (patterns : List String) (host : String) : Bool :=
  patterns.any fun pattern =>
    patternMatches (pattern.toList.map Char.toLower) (host.toList.map Char.toLower)

namespace HttpSettings

/-- Refuse a host that is denied, or that others are allowed instead of. -/
def checkHost (settings : HttpSettings) (host : String) : Except CallError Unit :=
  if anyMatches settings.denylist host then
    .error ⟨.denied, "Host '" ++ host ++ "' is in denylist"⟩
  else if !settings.allowlist.isEmpty && !anyMatches settings.allowlist host then
    .error ⟨.denied, "Host '" ++ host ++ "' is not in allowlist"⟩
  else .ok ()

/-- The address that a text writes, if requests may go there. -/
def checkAddress (settings : HttpSettings) (text : String) : Except CallError Web.Url :=
  match Web.Url.parse text with
  | .error fault => .error (.invalidRequest ("Invalid URL: " ++ fault.message))
  | .ok url =>
    if url.scheme ≠ "http" ∧ url.scheme ≠ "https" then
      .error (.invalidRequest ("Unsupported URL scheme: '" ++ url.scheme ++ "'"))
    else
      match url.host with
      | none => .error (.invalidRequest "URL missing host")
      | some host => (settings.checkHost host.text).map fun _ => url

end HttpSettings

end ScriptHooks

/-
ScriptHooks.Web.Url — the addresses of resources: their scheme and their host.

An address is read as browsers read it. Blanks at its ends and line breaks anywhere in it
are dropped. Some schemes are special: after them comes a host, however many slashes of
either kind are between. After any other scheme a host comes only after two slashes. What
follows the host cannot be wrong, so it is not read.
-/
import ScriptHooks.Web.IpAddress

namespace ScriptHooks.Web

/-- Why a text is no address. -/
inductive UrlFault
  | relative
  | emptyHost
  | domainName
  | portNumber
  | ipv4Address
  | ipv6Address
  | hostCharacter
  deriving DecidableEq, Repr

def UrlFault.message : UrlFault → String
  | relative => "relative URL without a base"
  | emptyHost => "empty host"
  | domainName => "invalid international domain name"
  | portNumber => "invalid port number"
  | ipv4Address => "invalid IPv4 address"
  | ipv6Address => "invalid IPv6 address"
  | hostCharacter => "invalid domain character"

/-- A host: a name, or one of the two kinds of address. -/
inductive UrlHost
  | name (text : String)
  | ipv4 (address : Nat)
  | ipv6 (pieces : List Nat)
  deriving DecidableEq, Repr

def UrlHost.text : UrlHost → String
  | name text => text
  | ipv4 address => Ipv4.text address
  | ipv6 pieces => "[" ++ Ipv6.text pieces ++ "]"

/-- An address, as far as anybody asks for it. -/
structure Url where
  /-- In small letters. -/
  scheme : String
  host : Option UrlHost
  port : Option Nat := none
  deriving DecidableEq, Repr

/-- How what comes after a scheme is read. -/
inductive UrlKind
  /-- A host must follow. -/
  | special
  /-- A host may follow, but no port. -/
  | file
  /-- Anything may follow. -/
  | other
  deriving DecidableEq, Repr

namespace Url

/-! ## Schemes -/

def kindOf (scheme : String) : UrlKind :=
  if ["http", "https", "ws", "wss", "ftp"].contains scheme then .special
  else if scheme = "file" then .file
  else .other

def isSchemeChar (c : Char) : Bool := c.isAlphanum || c == '+' || c == '-' || c == '.'

/-- The scheme in small letters, and what follows its colon. -/
def splitScheme (text : List Char) : Option (List Char × List Char) :=
  match text.dropWhile isSchemeChar with
  | ':' :: rest =>
    if text.head?.any Char.isAlpha then
      some ((text.takeWhile isSchemeChar).map Char.toLower, rest)
    else none
  | _ => none

/-! ## Hosts -/

def bracketedHost (text : List Char) : Except UrlFault UrlHost :=
  if text.getLast? = some ']' then
    match Ipv6.parse? (text.drop 1).dropLast with
    | some pieces => .ok (.ipv6 pieces)
    | none => .error .ipv6Address
  else .error .ipv6Address

/-- The host that a text names. A name that ends in a number must be an address. -/
def readHost (text : List Char) : Except UrlFault UrlHost :=
  if text.head? = some '[' then bracketedHost text
  else
    match DomainName.toAscii text with
    | none => .error .domainName
    | some name =>
      if name.isEmpty then .error .emptyHost
      else if Ipv4.endsInNumber name then
        match Ipv4.parse? name with
        | some address => .ok (.ipv4 address)
        | none => .error .ipv4Address
      else .ok (.name (String.ofList name))

/-- The characters that a host of any scheme may not have. -/
def isBarred (c : Char) : Bool := c == '\x00' || " #/:<>?@[\\]^|".toList.contains c

/-- The host after a scheme that is not special; it is left as it is. -/
def readPlainHost (text : List Char) : Except UrlFault UrlHost :=
  if text.head? = some '[' then bracketedHost text
  else if text.any isBarred then .error .hostCharacter
  else .ok (.name (String.ofList text))

/-- How many characters come before a colon that is not in brackets. -/
def hostLength : Bool → List Char → Nat
  | _, [] => 0
  | inside, c :: rest =>
    if c = ':' && !inside then 0
    else hostLength (if c = '[' then true else if c = ']' then false else inside) rest + 1

/-- The number of a port; none if there are no digits. -/
def readPort (text : List Char) : Except UrlFault (Option Nat) :=
  if !text.all Char.isDigit then .error .portNumber
  else if text.isEmpty then .ok none
  else
    let port := digitsValue 10 text
    if port < 0x10000 then .ok (some port) else .error .portNumber

/-! ## What stands between two slashes and the next -/

def endsHostPart (kind : UrlKind) (c : Char) : Bool :=
  c == '/' || c == '?' || c == '#' || (kind != .other && c == '\\')

/-- What comes before the last at sign, if there is one, and what comes after. -/
def splitUser (text : List Char) : Option (List Char) × List Char :=
  if text.contains '@' then
    let host := (text.reverse.takeWhile (· != '@')).reverse
    (some (text.take (text.length - host.length - 1)), host)
  else (none, text)

/-- Whether somebody is named before the at sign, or a password is given. -/
def namesUser (user : Option (List Char)) : Bool :=
  match user with
  | none | some [] | some [':'] => false
  | some _ => true

/-- The host and the port after two slashes. -/
def readHostPart (kind : UrlKind) (text : List Char) :
    Except UrlFault (Option UrlHost × Option Nat) := do
  let part := text.takeWhile fun c => !endsHostPart kind c
  let rest := text.dropWhile fun c => !endsHostPart kind c
  let (user, place) := splitUser part
  if user = some [] && place.isEmpty && !rest.isEmpty then throw .emptyHost
  let name := place.take (hostLength false place)
  let behind := place.drop (hostLength false place)
  if name.isEmpty then
    if kind = .special || !behind.isEmpty || namesUser user then throw .emptyHost
    pure (none, none)
  else
    let host ← if kind = .special then readHost name else readPlainHost name
    let port ← readPort ((behind.drop 1).takeWhile fun c => c != '\\')
    pure (some host, port)

def isDrive : List Char → Bool
  | [letter, mark] => letter.isAlpha && (mark == ':' || mark == '|')
  | _ => false

/-- The host of a file. Files of this machine have none. -/
def readFileHost (text : List Char) : Except UrlFault (Option UrlHost) := do
  let part := text.takeWhile fun c => !endsHostPart .file c
  if part.isEmpty || isDrive part then pure none
  else
    let host ← readHost part
    pure (if host = .name "localhost" then none else some host)

/-! ## Addresses -/

def isSlash (c : Char) : Bool := c == '/' || c == '\\'

/-- The text without the blanks at its ends and the line breaks in it. -/
def tidy (text : List Char) : List Char :=
  let isEdge := fun c : Char => c.toNat ≤ 0x20
  let trimmed := ((text.dropWhile isEdge).reverse.dropWhile isEdge).reverse
  trimmed.filter fun c => !(c == '\t' || c == '\n' || c == '\r')

def readAfterScheme (scheme : String) (text : List Char) : Except UrlFault Url :=
  match kindOf scheme with
  | .special => do
    let (host, port) ← readHostPart .special (text.dropWhile isSlash)
    pure ⟨scheme, host, port⟩
  | .file =>
    match text with
    | a :: b :: rest => do
      let host ← if isSlash a && isSlash b then readFileHost rest else pure none
      pure { scheme := scheme, host := host }
    | _ => .ok { scheme := scheme, host := none }
  | .other =>
    match text with
    | '/' :: '/' :: rest => do
      let (host, port) ← readHostPart .other rest
      pure ⟨scheme, host, port⟩
    | _ => .ok { scheme := scheme, host := none }

def parse (text : String) : Except UrlFault Url :=
  match splitScheme (tidy text.toList) with
  | some (scheme, rest) => readAfterScheme (String.ofList scheme) rest
  | none => .error .relative

end Url

end ScriptHooks.Web

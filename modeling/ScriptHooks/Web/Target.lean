/-
ScriptHooks.Web.Target — what an address asks its host for: a path, and a query.

A path is a list of segments. The segment `.` is where one is, and `..` is one segment up;
neither stays in the path. What may not stand in an address is written with percent signs.
A reference names an address as seen from another one.
-/
import ScriptHooks.Web.PercentText
import ScriptHooks.Web.Url

namespace ScriptHooks.Web

/-- What an address asks for. -/
structure Target where
  path : List String
  query : Option String
  /-- The place in the answer, which hosts are not told. -/
  fragment : Option String := none
  deriving DecidableEq, Repr

namespace Target

/-! ## Paths -/

/-- The parts between slashes of either kind. -/
def segmentsOf : List Char → List (List Char)
  | [] => [[]]
  | c :: rest =>
    match segmentsOf rest with
    | [] => [[c]]
    | first :: more => if Url.isSlash c then [] :: first :: more else (c :: first) :: more

def dotted : List Char → List Char
  | '%' :: '2' :: c :: rest =>
    if c = 'e' || c = 'E' then '.' :: dotted rest else '%' :: '2' :: c :: rest
  | c :: rest => c :: dotted rest
  | [] => []

def isHere (segment : List Char) : Bool := dotted segment == ['.']

def isUp (segment : List Char) : Bool := dotted segment == ['.', '.']

/-- The path that segments lead to, from the segments before them. -/
def walk (before : List String) : List (List Char) → List String
  | [] => before
  | [last] =>
    if isUp last then before.dropLast ++ [""]
    else if isHere last then before ++ [""]
    else before ++ [String.ofList (percentText pathBarred last)]
  | segment :: rest =>
    if isUp segment then walk before.dropLast rest
    else if isHere segment then walk before rest
    else walk (before ++ [String.ofList (percentText pathBarred segment)]) rest

/-! ## Targets -/

/-- What comes behind a mark, if the text starts with it. -/
def behindMark (mark : Char) : List Char → Option (List Char)
  | c :: rest => if c = mark then some rest else none
  | [] => none

def read (text : List Char) : Target :=
  let beforeFragment := text.takeWhile (· != '#')
  let path := beforeFragment.takeWhile (· != '?')
  let path := match path with
    | c :: rest => if Url.isSlash c then rest else c :: rest
    | [] => []
  { path := walk [] (segmentsOf path)
    query := (behindMark '?' (beforeFragment.dropWhile (· != '?'))).map fun query =>
      String.ofList (percentText queryBarred query)
    fragment := (behindMark '#' (text.dropWhile (· != '#'))).map fun fragment =>
      String.ofList (percentText fragmentBarred fragment) }

def ofAddress (text : String) : Target :=
  match Url.splitScheme (Url.tidy text.toList) with
  | none => ⟨[""], none, none⟩
  | some (_, rest) =>
    read ((rest.dropWhile Url.isSlash).dropWhile fun c => !Url.endsHostPart .special c)

def pathText (target : Target) : String := "/" ++ "/".intercalate target.path

/-- A part with its mark before it, if there is one. -/
def marked (mark : String) : Option String → String
  | some part => mark ++ part
  | none => ""

def text (target : Target) : String := target.pathText ++ marked "?" target.query

end Target

namespace Url

/-- The port that is meant when none is written. -/
def usualPort (scheme : String) : Option Nat :=
  if scheme = "http" || scheme = "ws" then some 80
  else if scheme = "https" || scheme = "wss" then some 443
  else if scheme = "ftp" then some 21
  else none

/-- The scheme, the host and the port, if it is not the usual one. -/
def origin (url : Url) : String :=
  let port := if url.port = usualPort url.scheme then none else url.port
  url.scheme ++ "://" ++ ((url.host.map UrlHost.text).getD "")
    ++ Target.marked ":" (port.map toString)

end Url

/-! ## References -/

/-- Whether every percent sign comes before two hexadecimal digits and every character may
be in an address. -/
def isReference : List Char → Bool
  | '%' :: a :: b :: rest => Text.isHexDigit a && Text.isHexDigit b && isReference rest
  | c :: rest =>
    (c.isAlphanum || "-._~:/?#@!$&'()*+,;=".toList.contains c) && isReference rest
  | [] => true

def referenced (origin : String) (target : Target) (reference : String) : Option String :=
  let text := reference.toList
  if !isReference text then none
  else if (Url.splitScheme text).isSome then some reference
  else
    match text with
    | '/' :: '/' :: _ => some (String.ofList (origin.toList.takeWhile (· != '/')) ++ reference)
    | '/' :: _ => some (origin ++ reference)
    | '?' :: _ => some (origin ++ target.pathText ++ reference)
    | [] | '#' :: _ => some (origin ++ target.text ++ reference)
    | _ =>
      some (origin ++ "/" ++ String.join (target.path.dropLast.map (· ++ "/")) ++ reference)

end ScriptHooks.Web

/-
ScriptHooks.Web.MediaType — the kinds of content, such as `text/plain; charset=utf-8`.

A kind is a type and a subtype, and parameters behind semicolons. Case matters in the
values of parameters only, but not in that of `charset`; everything else is written in
small letters. Apart from that a kind stays as it is written.
-/

namespace ScriptHooks.Web

def isTokenChar (c : Char) : Bool := c.isAlphanum || "!#$%&'*+-.^_\x60|~".toList.contains c

def isToken (text : List Char) : Bool := !text.isEmpty && text.all isTokenChar

namespace MediaType

def isQuotedChar (c : Char) : Bool := c == '\t' || (0x20 ≤ c.toNat && c.toNat != 0x7f)

/-- The text up to the semicolon behind a value, and what follows it; only blanks may come
before the semicolon. -/
def closeValue (behind : List Char) : Option (List Char × List Char) :=
  let blanks := behind.takeWhile (· == ' ')
  match behind.dropWhile (· == ' ') with
  | [] => some (blanks, [])
  | ';' :: rest => some (blanks ++ [';'], rest)
  | _ => none

/-- A value in quotes, without the first one. It is not empty, so a quote that comes at once
is part of it. -/
def quotedValue : List Char → Option (List Char × List Char)
  | [] => none
  | first :: more =>
    let value := first :: more.takeWhile (· != '"')
    match more.dropWhile (· != '"') with
    | [] => none
    | quote :: behind =>
      if value.all isQuotedChar then
        (closeValue behind).map fun (closing, rest) =>
          (['"'] ++ value ++ [quote] ++ closing, rest)
      else none

/-- A value without quotes, which may be empty at the end only. -/
def plainValue (text : List Char) : Option (List Char × List Char) :=
  let value := text.takeWhile isTokenChar
  match text.dropWhile isTokenChar with
  | [] => some (value, [])
  | ';' :: rest => if value.isEmpty then none else some (value ++ [';'], rest)
  | _ => none

def readValue : List Char → Option (List Char × List Char)
  | '"' :: text => quotedValue text
  | text => plainValue text

/-- Parameters in their usual letters, at most so many. -/
def parameters? : Nat → List Char → Option (List Char)
  | 0, _ => none
  | fuel + 1, text =>
    let blanks := text.takeWhile (· == ' ')
    match text.dropWhile (· == ' ') with
    | [] => some blanks
    | named =>
      let name := (named.takeWhile isTokenChar).map Char.toLower
      match name, named.dropWhile isTokenChar with
      | _ :: _, '=' :: rest => do
        let (value, behind) ← readValue rest
        let value := if name = "charset".toList then value.map Char.toLower else value
        let more ← parameters? fuel behind
        pure (blanks ++ name ++ ['='] ++ value ++ more)
      | _, _ => none

/-- What a text writes as a kind of content, in its usual letters; nothing if the text is
no such kind. -/
def normal? (text : String) : Option String :=
  let essence := text.toList.takeWhile (· != ';')
  let type := essence.takeWhile (· != '/')
  let subtype := (essence.dropWhile (· != '/')).drop 1
  let isKind := isToken type && essence.contains '/' && subtype.all isTokenChar
  let small := String.ofList (essence.map Char.toLower)
  match text.toList.dropWhile (· != ';') with
  | [] => if isKind then some small else none
  | _ :: behind =>
    if !isKind || subtype.isEmpty then none
    else
      (parameters? (behind.length + 1) behind).map fun written =>
        if written.all (· == ' ') then small else small ++ ";" ++ String.ofList written

end MediaType

end ScriptHooks.Web

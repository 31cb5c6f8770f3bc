/-
ScriptHooks.Sandbox.JsonText — JSON as scripts read and write it.

`parseText` makes a value from JSON text, `jsonText` writes a value as JSON. Both are
what scripts call themselves, with a function that revives or replaces entries, and
they are not the reader and writer of `ScriptHooks.Json`: they work on units, where a
surrogate may stand alone, and every number is a double.

`ofJson` makes a value of a JSON value, where `put` says how an object gets an entry.
`ofJsonText` defines the entry. `ofHost`, by which values of the host reach a script,
writes it as an assignment would: where the prototype has a setter for the key, the
setter gets the value, and the object has no such entry. Which values of the host a
script finds whole is therefore a question about their keys
(`ScriptHooks.Proofs.Sandbox.HostWrites`).
-/
import ScriptHooks.Sandbox.Operators

namespace ScriptHooks.Sandbox

namespace Run

/-! ## Reading -/

/-- What is left of JSON text: the characters, and where they start, in bytes, lines
and bytes of the line. -/
structure JsonCursor where
  rest : List Char
  bytes : Nat := 0
  line : Nat := 1
  column : Nat := 1

namespace JsonCursor

def skip (cursor : JsonCursor) : JsonCursor :=
  match cursor.rest with
  | [] => cursor
  | c :: rest =>
    if c = '\n' then ⟨rest, cursor.bytes + 1, cursor.line + 1, 1⟩
    else ⟨rest, cursor.bytes + c.utf8Size, cursor.line, cursor.column + c.utf8Size⟩

def skipMany (cursor : JsonCursor) : Nat → JsonCursor
  | 0 => cursor
  | count + 1 => cursor.skip.skipMany count

def skipBlanks (cursor : JsonCursor) : JsonCursor :=
  cursor.skipMany (cursor.rest.takeWhile fun c =>
    c == ' ' || c == '\t' || c == '\n' || c == '\r').length

/-- The complaint about what stands here. -/
def complain (cursor : JsonCursor) (message : String) : Run α :=
  fail .syntaxError (message ++ " in JSON at position " ++ toString cursor.bytes ++ " (line "
    ++ toString cursor.line ++ " column " ++ toString cursor.column ++ ")")

end JsonCursor

/-- The characters of a text in JSON, from after its quote. -/
def jsonString (units : Array UInt16) (cursor : JsonCursor) : Nat → Run (Units × JsonCursor)
  | 0 => cursor.complain "Unterminated string"
  | fuel + 1 =>
    match cursor.rest with
    | [] => cursor.complain "Unterminated string"
    | '"' :: _ => pure (⟨units⟩, cursor.skip)
    | '\\' :: rest =>
      let simple := fun (unit : UInt16) => jsonString (units.push unit) (cursor.skipMany 2) fuel
      match rest with
      | '"' :: _ => simple 34
      | '\\' :: _ => simple 92
      | '/' :: _ => simple 47
      | 'b' :: _ => simple 8
      | 'f' :: _ => simple 12
      | 'n' :: _ => simple 10
      | 'r' :: _ => simple 13
      | 't' :: _ => simple 9
      | 'u' :: a :: b :: c :: d :: _ =>
        match hexNumber? [a, b, c, d] with
        | some n => jsonString (units.push (UInt16.ofNat n)) (cursor.skipMany 6) fuel
        | none => (cursor.skipMany 2).complain "Bad Unicode escape"
      | 'u' :: _ => (cursor.skipMany 2).complain "Bad Unicode escape"
      | [] => cursor.skip.complain "Unterminated string"
      | _ => cursor.skip.complain "Bad escaped character"
    | c :: _ =>
      if c.toNat < 0x20 then cursor.complain "Bad control character in string literal"
      else jsonString (units ++ (unitsOfChar c).toArray) cursor.skip fuel

/-- The complaint about a word that starts no value. -/
def badWord (cursor : JsonCursor) : Run α :=
  match cursor.rest with
  | [] => fail .syntaxError "Unexpected end of JSON input"
  | c :: _ =>
    let word := if isNamePart c then cursor.rest.takeWhile isNamePart else [c]
    fail .syntaxError ("unexpected token: '" ++ String.ofList word ++ "'")

def jsonNumber (cursor : JsonCursor) : Run (Value × JsonCursor) := do
  let negative := cursor.rest.head? == some '-'
  let start := if negative then cursor.skip else cursor
  let whole := start.rest.takeWhile Char.isDigit
  let after := start.skipMany whole.length
  if whole.isEmpty then start.complain "No number after minus sign"
  if whole.head? == some '0' && 1 < whole.length then start.skip.complain "Unexpected number"
  let (places, after) ← match after.rest with
    | '.' :: rest => do
      let places := rest.takeWhile Char.isDigit
      if places.isEmpty then after.skip.complain "Unterminated fractional number"
      pure (places, after.skipMany (places.length + 1))
    | _ => pure (([] : List Char), after)
  let (power, after) ← match after.rest with
    | e :: rest => do
      if e == 'e' || e == 'E' then
        let sign := match rest with
          | '-' :: _ => 1
          | '+' :: _ => 1
          | _ => 0
        let digits := (rest.drop sign).takeWhile Char.isDigit
        if digits.isEmpty then (after.skipMany (sign + 1)).complain "Exponent part is missing a number"
        let size : Nat := digits.foldl (fun n c => n * 10 + (c.toNat - 48)) 0
        pure (if rest.head? == some '-' then -(size : Int) else size,
          after.skipMany (digits.length + sign + 1))
      else pure ((0 : Int), after)
    | [] => pure ((0 : Int), after)
  let digits : Nat := (whole ++ places).foldl (fun n c => n * 10 + (c.toNat - 48)) 0
  let x := decimalFloat digits (power - places.length)
  pure (.number (if negative then -x else x), after)

def jsonKey (cursor : JsonCursor) (complaint : String) : Run (Units × JsonCursor) := do
  match cursor.rest with
  | '"' :: rest =>
    let (key, after) ← jsonString #[] cursor.skip (rest.length + 1)
    let after := after.skipBlanks
    match after.rest with
    | ':' :: _ => pure (key, after.skip.skipBlanks)
    | _ => after.complain "Expected ':' after property name"
  | _ => cursor.complain complaint

mutual

/-- A value in JSON; blanks before it are behind. -/
def jsonValue (cursor : JsonCursor) : Nat → Run (Value × JsonCursor)
  | 0 => rangeError "Maximum call stack size exceeded"
  | fuel + 1 =>
    match cursor.rest with
    | '\x7b' :: _ => do
      let ref ← newObject
      let after := cursor.skip.skipBlanks
      match after.rest with
      | '\x7d' :: _ => pure (.object ref, after.skip)
      | _ =>
        let (key, after) ← jsonKey after "Expected property name or '\x7d'"
        let (value, after) ← jsonValue after fuel
        define ref (.text key) (.plain value)
        let after ← jsonEntries ref after.skipBlanks fuel
        pure (.object ref, after)
    | '[' :: _ => do
      let after := cursor.skip.skipBlanks
      match after.rest with
      | ']' :: _ => pure (← newList [], after.skip)
      | _ =>
        let (value, after) ← jsonValue after fuel
        let (items, after) ← jsonItems [value] after.skipBlanks fuel
        pure (← newList items, after)
    | '"' :: rest => do
      let (text, after) ← jsonString #[] cursor.skip (rest.length + 1)
      pure (.text text, after)
    | c :: _ => do
      if c == '-' || c.isDigit then jsonNumber cursor
      else
        let word := String.ofList (cursor.rest.takeWhile isNamePart)
        let after := cursor.skipMany word.length
        match word with
        | "true" => pure (.bool true, after)
        | "false" => pure (.bool false, after)
        | "null" => pure (.null, after)
        | _ => badWord cursor
    | [] => badWord cursor

def jsonEntries (ref : Ref) (cursor : JsonCursor) : Nat → Run JsonCursor
  | 0 => rangeError "Maximum call stack size exceeded"
  | fuel + 1 =>
    match cursor.rest with
    | '\x7d' :: _ => pure cursor.skip
    | ',' :: _ => do
      let (key, after) ← jsonKey cursor.skip.skipBlanks "Expected double-quoted property name"
      let (value, after) ← jsonValue after fuel
      define ref (.text key) (.plain value)
      jsonEntries ref after.skipBlanks fuel
    | _ => cursor.complain "Expected ',' or '\x7d' after property value"

/-- The items after the first, those read already in reverse order. -/
def jsonItems (items : List Value) (cursor : JsonCursor) : Nat → Run (List Value × JsonCursor)
  | 0 => rangeError "Maximum call stack size exceeded"
  | fuel + 1 =>
    match cursor.rest with
    | ']' :: _ => pure (items.reverse, cursor.skip)
    | ',' :: _ => do
      let (value, after) ← jsonValue cursor.skip.skipBlanks fuel
      jsonItems (value :: items) after.skipBlanks fuel
    | _ => cursor.complain "Expected ',' or ']' after array element"

end

def parseText (text : Units) : Run Value := do
  let cursor : JsonCursor := { rest := text.toText.toList }
  let (value, after) ← jsonValue cursor.skipBlanks (cursor.rest.length + 2)
  let after := after.skipBlanks
  if after.rest.isEmpty then pure value else after.complain "Unexpected non-whitespace character after JSON"

/-! ## Writing -/

def unitDigits (unit : UInt16) : List Char :=
  let digits := Nat.toDigits 16 unit.toNat
  List.replicate (4 - digits.length) '0' ++ digits

def quotedPiece : Piece → List Char
  | .lone unit => ['\\', 'u'] ++ unitDigits unit
  | .char c =>
    if c = '"' then ['\\', '"']
    else if c = '\\' then ['\\', '\\']
    else if c = '\n' then ['\\', 'n']
    else if c = '\r' then ['\\', 'r']
    else if c = '\t' then ['\\', 't']
    else if c = '\x08' then ['\\', 'b']
    else if c = '\x0c' then ['\\', 'f']
    else if c.toNat < 0x20 then ['\\', 'u'] ++ unitDigits (UInt16.ofNat c.toNat)
    else [c]

def quotedText (text : Units) : Units :=
  Units.ofChars ('"' :: text.pieces.flatMap quotedPiece ++ ['"'])

/-- How a value is written: the indent of one level, what is asked before a value is
written, and which names are written. -/
structure JsonStyle where
  gap : Units := Units.empty
  replacer : Option Value := none
  names : Option (List Name) := none

/-- Parts in brackets, on lines of their own if there is a gap. -/
def bracketText (style : JsonStyle) (indent : Units) (opening closing : String)
    (parts : List Units) : Units :=
  if parts.isEmpty then Units.ofString (opening ++ closing)
  else if style.gap.isEmpty then
    Units.ofString opening ++ Units.join (Units.ofString ",") parts ++ Units.ofString closing
  else
    let inner := indent ++ style.gap
    let separator := Units.ofString ",\n" ++ inner
    Units.ofString opening ++ Units.ofString "\n" ++ inner ++ Units.join separator parts
      ++ Units.ofString "\n" ++ indent ++ Units.ofString closing

/-- A value as it is to be written: made over by its own `toJSON` and by the
replacer, and taken out of its box. -/
def prepared (m : Machine) (style : JsonStyle) (holder : Value) (key : Units) (value : Value) :
    Run Value := do
  let value ← match value with
    | .object _ =>
      match ← getMethod m value "toJSON" with
      | some method => m.call method value [.text key]
      | none => pure value
    | _ => pure value
  let value ← match style.replacer with
    | some replacer => m.call replacer holder [.text key, value]
    | none => pure value
  match value with
  | .object ref =>
    match (← object ref).kind with
    | .boxed (.number _) => pure (.number (← toNumber m value))
    | .boxed (.text _) => pure (.text (← toText m value))
    | .boxed inner => pure inner
    | _ => pure value
  | _ => pure value

/-- A value in JSON; nothing for those that JSON leaves out. The objects around it
are on the stack. -/
def jsonTextFrom (m : Machine) (style : JsonStyle) (stack : List Ref) (indent : Units)
    (holder : Value) (key : Units) (value : Value) : Nat → Run (Option Units)
  | 0 => rangeError "Maximum call stack size exceeded"
  | fuel + 1 => do
    match ← prepared m style holder key value with
    | .null => pure (some (Units.ofString "null"))
    | .bool b => pure (some (Units.ofString (if b then "true" else "false")))
    | .text text => pure (some (quotedText text))
    | .number x =>
      pure (some (if Numeric.isFinite x then numberText x else Units.ofString "null"))
    | .bigint _ => typeError "BigInt are forbidden in JSON.stringify"
    | .undefined => pure none
    | .symbol _ => pure none
    | .object ref =>
      let found ← object ref
      if found.isCallable then pure none
      else if stack.contains ref then typeError "circular reference"
      else
        let inner := indent ++ style.gap
        match found.kind with
        | .array _ _ _ =>
          let items ← listItems m (.object ref)
          let parts ← items.zipIdx.mapM fun (item, i) => do
            let part ← jsonTextFrom m style (ref :: stack) inner (.object ref) (Units.ofNat i) item fuel
            pure (part.getD (Units.ofString "null"))
          pure (some (bracketText style indent "[" "]" parts))
        | _ =>
          let names ← match style.names with
            | some names => pure names
            | none => namesOf ref
          let parts ← names.mapM fun name => do
            let item ← getValue m (.object ref) (.text name)
            let part ← jsonTextFrom m style (ref :: stack) inner (.object ref) name item fuel
            pure (part.map fun part =>
              quotedText name ++ Units.ofString (if style.gap.isEmpty then ":" else ": ") ++ part)
          pure (some (bracketText style indent "\x7b" "\x7d" (parts.filterMap id)))

/-- How deep values may nest that are written as JSON. -/
def maxJsonDepth : Nat := 1500

/-- A value in JSON; nothing for those that JSON leaves out. -/
def jsonText (m : Machine) (style : JsonStyle) (value : Value) : Run (Option Units) := do
  let holder ← newObject
  define holder "" (.plain value)
  jsonTextFrom m style [] Units.empty (.object holder) Units.empty value maxJsonDepth

/-- The indent that the third argument of `stringify` asks for. -/
def gapOf (m : Machine) (value : Value) : Run Units := do
  match value with
  | .number _ =>
    let count ← toInteger m value
    pure (Units.ofChars (List.replicate (min 10 count.toNat) ' '))
  | .text text => pure (text.slice 0 10)
  | _ => pure Units.empty

/-- The style that the second and third arguments of `stringify` ask for. -/
def styleOf (m : Machine) (replacer space : Value) : Run JsonStyle := do
  let gap ← gapOf m space
  match replacer with
  | .object ref =>
    let found ← object ref
    if found.isCallable then pure { gap := gap, replacer := some replacer }
    else
      match found.kind with
      | .array _ _ _ =>
        let items ← listItems m replacer
        let names ← items.filterMapM fun
          | .text name => pure (some name)
          | .number x => pure (some (numberText x))
          | _ => pure none
        pure { gap := gap, names := some names.eraseDups }
      | _ => pure { gap := gap }
  | _ => pure { gap := gap }

/-! ## Values of the host -/

mutual

/-- The value of a JSON value. Objects get their entries by `put`. -/
def ofJson (put : Ref → Name → Value → Run Unit) : Json → Run Value
  | .null => pure .null
  | .bool b => pure (.bool b)
  | .number (.int n _) => pure (.number (Float.ofInt n))
  | .number (.float x) => pure (.number x)
  | .string s => pure (.text (Units.ofString s))
  | .array items => do newList (← ofItems put items)
  | .object fields => do
    let ref ← newObject
    ofFields put ref fields
    pure (.object ref)

def ofItems (put : Ref → Name → Value → Run Unit) : List Json → Run (List Value)
  | [] => pure []
  | item :: items => do
    let value ← ofJson put item
    let values ← ofItems put items
    pure (value :: values)

def ofFields (put : Ref → Name → Value → Run Unit) (ref : Ref) :
    List (String × Json) → Run Unit
  | [] => pure ()
  | (key, item) :: fields => do
    let value ← ofJson put item
    put ref (Units.ofString key) value
    ofFields put ref fields

end

def ofJsonText (value : Json) : Run Value :=
  ofJson (fun ref name value => define ref (.text name) (.plain value)) value

/-- The value of a JSON value, as the host gives it: entries are written like those
of any object. -/
def ofHost (m : Machine) (value : Json) : Run Value :=
  ofJson (fun ref name value => setValue m (.object ref) (.text name) value) value

end Run

end ScriptHooks.Sandbox

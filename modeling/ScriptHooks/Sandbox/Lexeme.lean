/-
ScriptHooks.Sandbox.Lexeme — the words of a script that is to be run.

A `Cursor` is what is left of the text and how many characters came before.
`Cursor.next` reads one lexeme; where a slash stands for a regular expression, and
where a template goes on after its substitution, is decided by whoever reads
expressions, which then asks for `Cursor.regex` or `Cursor.template`. So this lexer
has no state besides its place, unlike that of `Script.Lexer`, which guesses the
meaning of a slash from the token before.

Every function here passes at least one character before it calls itself, and hands
back the cursor behind what it read. Where an escape may take several characters at
once the recursion is on fuel, of which there is one more than characters are left. A
fault is a text, which becomes the message of a `SyntaxError`.

All scripts are strict, so the words that only strict code reserves are keywords
everywhere. A name that spells a keyword with escapes is still a name, marked as
`reserved`: it may be the key of a property, but not a variable.
-/
import ScriptHooks.Sandbox.Syntax
import ScriptHooks.Text.CharClass

namespace ScriptHooks.Sandbox

/-- What is left of a text, and how many characters came before. -/
structure Cursor where
  rest : List Char
  offset : Nat

/-- A word of a script. -/
inductive Lexeme
  | eof
  | number (value : Float)
  | bigint (value : Int)
  | text (value : Units)
  /-- A piece of a template; the last one ends it, others end where an expression
  begins. -/
  | template (value : Units) (last : Bool)
  /-- A name; `reserved` if it spells a keyword with escapes. -/
  | ident (name : Name) (reserved : Bool)
  | keyword (word : String)
  | punct (text : String)

def keywords : List String := [
  "null", "false", "true", "if", "else", "return", "var", "this", "delete", "void", "typeof",
  "new", "in", "instanceof", "do", "while", "for", "break", "continue", "switch", "case",
  "default", "throw", "try", "catch", "finally", "function", "debugger", "with", "class",
  "const", "enum", "export", "extends", "import", "super", "implements", "interface", "let",
  "package", "private", "protected", "public", "static", "yield"]

/-- The punctuators of more than one character, longer ones before their beginnings. -/
def punctuators : List (List Char) := ([
  ">>>=", "...", "===", "!==", "**=", "<<=", ">>=", ">>>", "&&=", "||=", "??=", "=>", "==", "!=",
  "<=", ">=", "&&", "||", "??", "++", "--", "+=", "-=", "*=", "/=", "%=", "&=", "|=", "^=", "<<",
  ">>", "**"] : List String).map String.toList

def isLineEnd (c : Char) : Bool := c == '\n' || c == '\r' || c == '\u2028' || c == '\u2029'

def isGap (c : Char) : Bool := Text.isBlank c && c != '\u0085' || c == '\ufeff'

def isNameStart (c : Char) : Bool := Text.isAlphabetic c || c == '$' || c == '_'

def isNamePart (c : Char) : Bool :=
  Text.isAlphanumeric c || c == '$' || c == '_' || c == '\u200c' || c == '\u200d'
    || Text.extendsGrapheme c

def hexValue? (c : Char) : Option Nat :=
  if c.isDigit then some (c.toNat - 48)
  else if 'a' ≤ c && c ≤ 'f' then some (c.toNat - 87)
  else if 'A' ≤ c && c ≤ 'F' then some (c.toNat - 55)
  else none

def hexNumber? (digits : List Char) : Option Nat :=
  if digits.isEmpty then none
  else digits.foldl (fun n c => do pure ((← n) * 16 + (← hexValue? c))) (some 0)

/-! ## Gaps -/

/-- What is being skipped. -/
inductive Gap
  | blanks
  | lineComment
  | blockComment

/-- Past blanks and comments; whether a line ended on the way. -/
def skipGap : Gap → Bool → List Char → Nat → Except String (Bool × Cursor)
  | .blanks, ended, '/' :: '/' :: rest, n => skipGap .lineComment ended rest (n + 2)
  | .blanks, ended, '/' :: '*' :: rest, n => skipGap .blockComment ended rest (n + 2)
  | .blanks, ended, c :: rest, n =>
    if isLineEnd c then skipGap .blanks true rest (n + 1)
    else if isGap c then skipGap .blanks ended rest (n + 1)
    else .ok (ended, ⟨c :: rest, n⟩)
  | .lineComment, ended, c :: rest, n =>
    if isLineEnd c then skipGap .blanks true rest (n + 1)
    else skipGap .lineComment ended rest (n + 1)
  | .blockComment, ended, '*' :: '/' :: rest, n => skipGap .blanks ended rest (n + 2)
  | .blockComment, ended, c :: rest, n =>
    skipGap .blockComment (ended || isLineEnd c) rest (n + 1)
  | .blanks, ended, [], n => .ok (ended, ⟨[], n⟩)
  | .lineComment, ended, [], n => .ok (ended, ⟨[], n⟩)
  | .blockComment, _, [], _ => .error "unexpected end of comment"

/-! ## Numbers -/

/-- The double nearest to `digits · 10^scale`. Far beyond the range of doubles the
exact power does not matter. -/
def decimalFloat (digits : Nat) (scale : Int) : Float :=
  if digits = 0 then 0.0
  else
    let size : Int := (Nat.toDigits 10 digits).length
    if 400 < size + scale then 1.0 / 0.0
    else if size + scale < -400 then 0.0
    else Float.ofScientific digits (decide (scale < 0)) scale.natAbs

/-- Digits of a base that come next, their value and number; underscores between them
do not count. -/
def takeDigits (base : Nat) : List Char → Nat → Nat → Nat → (Nat × Nat × Cursor)
  | c :: rest, n, value, count =>
    match hexValue? c with
    | some d =>
      if d < base then takeDigits base rest (n + 1) (value * base + d) (count + 1)
      else (value, count, ⟨c :: rest, n⟩)
    | none =>
      if c = '_' && count ≠ 0 then takeDigits base rest (n + 1) value count
      else (value, count, ⟨c :: rest, n⟩)
  | [], n, value, count => (value, count, ⟨[], n⟩)

/-- A number is over where no name or digit follows. -/
def endNumber (lexeme : Lexeme) (cursor : Cursor) : Except String (Lexeme × Cursor) :=
  match cursor.rest with
  | c :: _ => if isNamePart c || c == '\\' then .error "invalid number literal" else .ok (lexeme, cursor)
  | [] => .ok (lexeme, cursor)

/-- A number in another base, after its two letters. -/
def basedNumber (base : Nat) (cursor : Cursor) : Except String (Lexeme × Cursor) :=
  let (value, count, after) := takeDigits base cursor.rest cursor.offset 0 0
  if count = 0 then .error "invalid number literal"
  else
    match after.rest with
    | 'n' :: rest => endNumber (.bigint value) ⟨rest, after.offset + 1⟩
    | _ => endNumber (.number (decimalFloat value 0)) after

/-- The exponent of a decimal number, if one comes next. -/
def takeExponent (cursor : Cursor) : Except String (Int × Cursor) :=
  match cursor.rest with
  | e :: rest =>
    if e = 'e' || e = 'E' then
      let (negative, start) : Bool × Cursor := match rest with
        | '-' :: rest => (true, ⟨rest, cursor.offset + 2⟩)
        | '+' :: rest => (false, ⟨rest, cursor.offset + 2⟩)
        | _ => (false, ⟨rest, cursor.offset + 1⟩)
      let (value, count, after) := takeDigits 10 start.rest start.offset 0 0
      if count = 0 then .error "invalid number literal"
      else .ok (if negative then -(value : Int) else value, after)
    else .ok (0, cursor)
  | [] => .ok (0, cursor)

def decimalNumber (cursor : Cursor) : Except String (Lexeme × Cursor) := do
  let (whole, count, after) := takeDigits 10 cursor.rest cursor.offset 0 0
  match after.rest with
  | 'n' :: rest =>
    if count = 0 then .error "invalid number literal"
    else endNumber (.bigint whole) ⟨rest, after.offset + 1⟩
  | '.' :: rest =>
    let (digits, places, after) := takeDigits 10 rest (after.offset + 1) whole 0
    let (exponent, after) ← takeExponent after
    endNumber (.number (decimalFloat digits (exponent - places))) after
  | _ =>
    let (exponent, after) ← takeExponent after
    endNumber (.number (decimalFloat whole exponent)) after

/-- A number, whatever its base. -/
def readNumber (cursor : Cursor) : Except String (Lexeme × Cursor) :=
  match cursor.rest with
  | '0' :: c :: rest =>
    let start : Cursor := ⟨rest, cursor.offset + 2⟩
    if c = 'x' || c = 'X' then basedNumber 16 start
    else if c = 'o' || c = 'O' then basedNumber 8 start
    else if c = 'b' || c = 'B' then basedNumber 2 start
    else if c.isDigit then .error "octal literals are deprecated in strict mode"
    else decimalNumber cursor
  | _ => decimalNumber cursor

/-! ## Texts -/

/-- What an escape stands for: units, and how many characters it takes after the
backslash. -/
def readEscape (inTemplate : Bool) : List Char → Except String (List UInt16 × Nat)
  | 'n' :: _ => .ok ([10], 1)
  | 't' :: _ => .ok ([9], 1)
  | 'r' :: _ => .ok ([13], 1)
  | 'b' :: _ => .ok ([8], 1)
  | 'f' :: _ => .ok ([12], 1)
  | 'v' :: _ => .ok ([11], 1)
  | '\r' :: '\n' :: _ => .ok ([], 2)
  | 'x' :: a :: b :: _ =>
    match hexNumber? [a, b] with
    | some n => .ok ([UInt16.ofNat n], 3)
    | none => .error "malformed escape sequence in string literal"
  | 'u' :: '\x7b' :: rest =>
    let digits := rest.takeWhile (· != '\x7d')
    match hexNumber? digits with
    | some n =>
      if rest.length = digits.length || 0x10ffff < n then
        .error "malformed escape sequence in string literal"
      else if n < 0x10000 then .ok ([UInt16.ofNat n], digits.length + 3)
      else .ok (unitsOfChar (Char.ofNat n), digits.length + 3)
    | none => .error "malformed escape sequence in string literal"
  | 'u' :: a :: b :: c :: d :: _ =>
    match hexNumber? [a, b, c, d] with
    | some n => .ok ([UInt16.ofNat n], 5)
    | none => .error "malformed escape sequence in string literal"
  | c :: rest =>
    if c = 'x' || c = 'u' then .error "malformed escape sequence in string literal"
    else if isLineEnd c then .ok ([], 1)
    else if c.isDigit then
      if c = '0' && !(rest.head?.any Char.isDigit) then .ok ([0], 1)
      else if inTemplate || c = '8' || c = '9' then
        .error "malformed escape sequence in string literal"
      else .error "octal escape sequences are not allowed in strict mode"
    else .ok (unitsOfChar c, 1)
  | [] => .error "unexpected end of string"

def quotedBody (quote : Char) (units : Array UInt16) (cursor : Cursor) :
    Nat → Except String (Lexeme × Cursor)
  | 0 => .error "unexpected end of string"
  | fuel + 1 =>
    match cursor.rest with
    | [] => .error "unexpected end of string"
    | '\\' :: rest => do
      let (escaped, size) ← readEscape false rest
      quotedBody quote (units ++ escaped.toArray) ⟨rest.drop size, cursor.offset + 1 + size⟩ fuel
    | c :: rest =>
      if c = quote then .ok (.text ⟨units⟩, ⟨rest, cursor.offset + 1⟩)
      else if c = '\n' || c = '\r' then .error "unexpected end of string"
      else
        quotedBody quote (units ++ (unitsOfChar c).toArray) ⟨rest, cursor.offset + 1⟩ fuel

/-- A piece of a template, up to its end or to the next expression. -/
def templateBody (units : Array UInt16) (cursor : Cursor) :
    Nat → Except String (Lexeme × Cursor)
  | 0 => .error "unexpected end of string"
  | fuel + 1 =>
    match cursor.rest with
    | [] => .error "unexpected end of string"
    | '\\' :: rest => do
      let (escaped, size) ← readEscape true rest
      templateBody (units ++ escaped.toArray) ⟨rest.drop size, cursor.offset + 1 + size⟩ fuel
    | '\x60' :: rest => .ok (.template ⟨units⟩ true, ⟨rest, cursor.offset + 1⟩)
    | '$' :: '\x7b' :: rest => .ok (.template ⟨units⟩ false, ⟨rest, cursor.offset + 2⟩)
    | '\r' :: '\n' :: rest => templateBody (units.push 10) ⟨rest, cursor.offset + 2⟩ fuel
    | '\r' :: rest => templateBody (units.push 10) ⟨rest, cursor.offset + 1⟩ fuel
    | c :: rest => templateBody (units ++ (unitsOfChar c).toArray) ⟨rest, cursor.offset + 1⟩ fuel

def Cursor.template (cursor : Cursor) : Except String (Lexeme × Cursor) :=
  templateBody #[] cursor (cursor.rest.length + 1)

/-! ## Names -/

/-- An escape in a name, after the backslash: the character, and how many characters
it takes. -/
def nameEscape : List Char → Option (Char × Nat)
  | 'u' :: '\x7b' :: rest =>
    let digits := rest.takeWhile (· != '\x7d')
    (hexNumber? digits).map fun n => (Char.ofNat n, digits.length + 3)
  | 'u' :: a :: b :: c :: d :: _ => (hexNumber? [a, b, c, d]).map fun n => (Char.ofNat n, 5)
  | _ => none

def nameBody (chars : List Char) (escaped : Bool) (cursor : Cursor) :
    Nat → List Char × Bool × Cursor
  | 0 => (chars.reverse, escaped, cursor)
  | fuel + 1 =>
    match cursor.rest with
    | '\\' :: rest =>
      match nameEscape rest with
      | some (c, size) =>
        if isNamePart c then
          nameBody (c :: chars) true ⟨rest.drop size, cursor.offset + 1 + size⟩ fuel
        else (chars.reverse, escaped, cursor)
      | none => (chars.reverse, escaped, cursor)
    | c :: rest =>
      if isNamePart c then nameBody (c :: chars) escaped ⟨rest, cursor.offset + 1⟩ fuel
      else (chars.reverse, escaped, cursor)
    | [] => (chars.reverse, escaped, cursor)

def readName (cursor : Cursor) : Except String (Lexeme × Cursor) :=
  let (chars, escaped, after) := nameBody [] false cursor (cursor.rest.length + 1)
  if chars.isEmpty then .error "unexpected character"
  else
    let word := String.ofList chars
    if keywords.contains word then
      .ok (if escaped then .ident (Units.ofString word) true else .keyword word, after)
    else .ok (.ident (Units.ofString word) false, after)

/-! ## Lexemes -/

/-- A punctuator. Any character of ASCII counts as one. -/
def readPunctuator (cursor : Cursor) : Except String (Lexeme × Cursor) :=
  match punctuators.find? fun p => p.isPrefixOf cursor.rest with
  | some p => .ok (.punct (String.ofList p), ⟨cursor.rest.drop p.length, cursor.offset + p.length⟩)
  | none =>
    match cursor.rest with
    | '?' :: '.' :: c :: rest =>
      if c.isDigit then .ok (.punct "?", ⟨'.' :: c :: rest, cursor.offset + 1⟩)
      else .ok (.punct "?.", ⟨c :: rest, cursor.offset + 2⟩)
    | c :: rest =>
      if c.toNat < 128 then .ok (.punct (String.singleton c), ⟨rest, cursor.offset + 1⟩)
      else .error "unexpected character"
    | [] => .ok (.eof, cursor)

/-- The lexeme where the cursor stands; there are no blanks before it. -/
def Cursor.lexeme (cursor : Cursor) : Except String (Lexeme × Cursor) :=
  match cursor.rest with
  | [] => .ok (.eof, cursor)
  | c :: rest =>
    if c = '"' || c = '\'' then
      quotedBody c #[] ⟨rest, cursor.offset + 1⟩ (rest.length + 1)
    else if c = '\x60' then Cursor.template ⟨rest, cursor.offset + 1⟩
    else if c.isDigit || (c = '.' && rest.head?.any Char.isDigit) then readNumber cursor
    else if isNameStart c || c = '\\' then readName cursor
    else readPunctuator cursor

/-- A lexeme, where it starts, and whether a line ended before it. -/
structure Word where
  lexeme : Lexeme
  start : Cursor
  newlineBefore : Bool

def Cursor.next (cursor : Cursor) : Except String (Word × Cursor) := do
  let (newline, start) ← skipGap .blanks false cursor.rest cursor.offset
  let (lexeme, after) ← start.lexeme
  pure (⟨lexeme, start, newline⟩, after)

/-- The body of a regular expression: its characters and what follows its slash. -/
def regexBody (chars : List Char) (inClass : Bool) : List Char → Nat →
    Except String (List Char × Cursor)
  | [], _ => .error "unexpected end of regexp"
  | '\\' :: c :: rest, n =>
    if isLineEnd c then .error "unexpected line terminator in regexp"
    else regexBody (c :: '\\' :: chars) inClass rest (n + 2)
  | c :: rest, n =>
    if isLineEnd c then .error "unexpected line terminator in regexp"
    else if c = '/' && !inClass then .ok (chars.reverse, ⟨rest, n + 1⟩)
    else
      let inClass := if c = '[' then true else if c = ']' then false else inClass
      regexBody (c :: chars) inClass rest (n + 1)

/-- A regular expression, after its first slash: the source, the flags, and what
follows. -/
def Cursor.regex (cursor : Cursor) : Except String (Units × Units × Cursor) := do
  let (source, after) ← regexBody [] false cursor.rest cursor.offset
  let flags := after.rest.takeWhile isNamePart
  pure (Units.ofChars source, Units.ofChars flags,
    ⟨after.rest.drop flags.length, after.offset + flags.length⟩)

end ScriptHooks.Sandbox

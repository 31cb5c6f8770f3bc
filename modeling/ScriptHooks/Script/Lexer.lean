/-
ScriptHooks.Script.Lexer — a script cut into tokens.

Scanners work on the characters that are left and carry the position along
(`Cursor`). A fault (an unterminated string, comment, template or regular
expression, a character that starts no token) is recorded and lexing goes on, so
that one typo does not hide what follows.

The characters are looked at in rounds (`round`). A round skips blanks and
comments, notes whether a line ended there, and then finds one of these:

* a lexeme, by the scanner for its first character (`scanLexeme`);
* the start of a template, whose parts and substitutions are lexed by
  `scanTemplate`;
* the brace that closes the substitution which is being lexed, if no other brace
  is open in it;
* the end of the text.

A slash starts a regular expression where the token before it cannot end an
operand (`regexMayFollow`), else it divides. That is decided by the token before
alone: a word, a constant, a closing bracket, `++` or `--` ends an operand, but for
the words in `wordsBeforeRegex`.

The substitutions of a template are lexed like the text outside, up to the brace
that closes them. `scanTokens` and `scanTemplate` call each other for this, with
fuel for as many characters as are left; `tokensOf` puts an end token behind.
-/
import ScriptHooks.Script.Token
import ScriptHooks.Text.CharClass

namespace ScriptHooks.Script.Lexer

/-- The characters that are left, and the position of the first of them. -/
structure Cursor where
  rest : List Char
  position : Position

/-- The punctuators, longer ones before their own beginnings. -/
def punctuators : List String := [
  ">>>=", "...", "===", "!==", "**=", "<<=", ">>=", ">>>", "&&=", "||=", "??=", "=>", "==",
  "!=", "<=", ">=", "&&", "||", "??", "?.", "++", "--", "+=", "-=", "*=", "/=", "%=", "&=",
  "|=", "^=", "**", "<<", ">>", "\x7b", "\x7d", "(", ")", "[", "]", ";", ",", "<", ">", "+", "-",
  "*", "/", "%", "&", "|", "^", "!", "~", "?", ":", "=", ".", "@", "#"]

/-- The words after which a slash starts a regular expression. -/
def wordsBeforeRegex : List String :=
  ["return", "typeof", "instanceof", "in", "of", "new", "delete", "void", "throw", "case", "do",
    "else"]

/-- Characters that can begin a word. -/
def startsWord (c : Char) : Bool := c == '_' || c == '$' || Text.isAlphabetic c

/-- Characters that can stand inside a word; the two joiners are among them. -/
def continuesWord (c : Char) : Bool :=
  c == '_' || c == '$' || Text.isAlphanumeric c || c == '\u200c' || c == '\u200d'

/-- The four line ends. -/
def endsLine (c : Char) : Bool :=
  c == '\n' || c == '\r' || c == '\u2028' || c == '\u2029'

/-- Blanks between tokens, line ends apart. -/
def isGap (c : Char) : Bool := Text.isBlank c || c == '\ufeff'

/-- The characters that a line comment takes. -/
def isCommentPart (c : Char) : Bool := c != '\n' && c != '\r'

def unescaped (c : Char) : Char :=
  match c with
  | 'n' => '\n'
  | 't' => '\t'
  | 'r' => '\r'
  | '0' => '\x00'
  | other => other

/-- Whether a slash after this token starts a regular expression. -/
def regexMayFollow : Option Token → Bool
  | none => true
  | some token =>
    match token.kind with
    | .punct text => !([")", "]", "\x7d", "++", "--"].contains text)
    | .word name => wordsBeforeRegex.contains name
    | _ => false

/-! ## Scanners

Each takes the characters left and the position of the first, and gives the
cursor after what it took. -/

/-- Past the characters for which `p` holds. -/
def skipWhile (p : Char → Bool) : List Char → Position → Cursor
  | [], position => ⟨[], position⟩
  | c :: rest, position =>
    if p c then skipWhile p rest (position.after c) else ⟨c :: rest, position⟩

/-- Past a block comment after its opening: whether it is closed, whether a line
feed stands in it, and the cursor after it. -/
def skipBlockComment (sawLineFeed : Bool) : List Char → Position → (Bool × Bool) × Cursor
  | [], position => ((false, sawLineFeed), ⟨[], position⟩)
  | [c], position => ((false, sawLineFeed || c == '\n'), ⟨[], position.after c⟩)
  | '*' :: '/' :: rest, position =>
    ((true, sawLineFeed), ⟨rest, (position.after '*').after '/'⟩)
  | c :: d :: rest, position =>
    skipBlockComment (sawLineFeed || c == '\n') (d :: rest) (position.after c)

/-- Past blanks and comments: whether a line ends there, the comment faults, and
the cursor after it. Every step takes a character. -/
def skipIgnored : Nat → Bool → List Issue → Cursor → Bool × List Issue × Cursor
  | 0, sawLineEnd, issues, cursor => (sawLineEnd, issues, cursor)
  | fuel + 1, sawLineEnd, issues, cursor =>
    match cursor.rest with
    | [] => (sawLineEnd, issues, cursor)
    | '/' :: '/' :: _ =>
      skipIgnored fuel sawLineEnd issues
        (skipWhile isCommentPart cursor.rest cursor.position)
    | '/' :: '*' :: rest =>
      let ((closed, sawLineFeed), after) :=
        skipBlockComment false rest ((cursor.position.after '/').after '*')
      let issues :=
        if closed then issues
        else issues ++ [.ofSyntax "unterminated block comment" cursor.position]
      skipIgnored fuel (sawLineEnd || sawLineFeed) issues after
    | c :: rest =>
      if endsLine c then skipIgnored fuel true issues ⟨rest, cursor.position.after c⟩
      else if isGap c then skipIgnored fuel sawLineEnd issues ⟨rest, cursor.position.after c⟩
      else (sawLineEnd, issues, cursor)

/-- A word: its characters, and the cursor after it. A backslash before `u`
belongs to the word, unread. -/
def scanWord : List Char → Position → List Char × Cursor
  | [], position => ([], ⟨[], position⟩)
  | c :: rest, position =>
    if continuesWord c || (c == '\\' && rest.head? == some 'u') then
      let (name, after) := scanWord rest (position.after c)
      (c :: name, after)
    else ([], ⟨c :: rest, position⟩)

def isDigitPart (c : Char) : Bool := c.isDigit || c == '_'

/-- Past the exponent of a number, if one with digits comes next. -/
def skipExponent (cursor : Cursor) : Cursor :=
  match cursor.rest with
  | e :: sign :: d :: rest =>
    if e != 'e' && e != 'E' then cursor
    else if sign.isDigit then skipWhile Char.isDigit (sign :: d :: rest) (cursor.position.after e)
    else if (sign == '+' || sign == '-') && d.isDigit then
      skipWhile Char.isDigit (d :: rest) ((cursor.position.after e).after sign)
    else cursor
  | [e, d] =>
    if (e == 'e' || e == 'E') && d.isDigit then ⟨[], (cursor.position.after e).after d⟩ else cursor
  | _ => cursor

/-- Past a point and the digits after it, if a point comes next. -/
def skipFraction (cursor : Cursor) : Cursor :=
  match cursor.rest with
  | '.' :: rest => skipWhile isDigitPart rest (cursor.position.after '.')
  | _ => cursor

def skipDecimal (cursor : Cursor) : Cursor :=
  skipExponent (skipFraction (skipWhile isDigitPart cursor.rest cursor.position))

/-- Whether a letter after a leading zero gives the base of a number. -/
def isBaseLetter (c : Char) : Bool :=
  c == 'x' || c == 'X' || c == 'o' || c == 'O' || c == 'b' || c == 'B'

/-- Past the marker of a big integer, if one comes next. -/
def skipBigMarker (cursor : Cursor) : Cursor :=
  match cursor.rest with
  | 'n' :: rest => ⟨rest, cursor.position.after 'n'⟩
  | _ => cursor

def skipNumber (cursor : Cursor) : Cursor :=
  match cursor.rest with
  | '0' :: letter :: rest =>
    if isBaseLetter letter then
      skipBigMarker (skipWhile (fun c => Text.isHexDigit c || c == '_') rest
        ((cursor.position.after '0').after letter))
    else skipBigMarker (skipDecimal cursor)
  | _ => skipBigMarker (skipDecimal cursor)

/-- A string after its opening quote: the value, whether it is closed, and the
cursor after it. A line end leaves it open and is not taken, but an escaped one
is part of the value. -/
def scanString (quote : Char) : List Char → Position → (List Char × Bool) × Cursor
  | [], position => (([], false), ⟨[], position⟩)
  | '\\' :: [], position => (([], false), ⟨[], position.after '\\'⟩)
  | '\\' :: c :: rest, position =>
    let ((value, closed), after) := scanString quote rest ((position.after '\\').after c)
    ((unescaped c :: value, closed), after)
  | c :: rest, position =>
    if c == '\n' || c == '\r' then (([], false), ⟨c :: rest, position⟩)
    else if c == quote then (([], true), ⟨rest, position.after c⟩)
    else
      let ((value, closed), after) := scanString quote rest (position.after c)
      ((c :: value, closed), after)

/-- Past a regular expression after its opening slash: whether it is closed, and
the cursor after it and its flags. A slash inside brackets does not close it. -/
def skipRegex (inBrackets : Bool) : List Char → Position → Bool × Cursor
  | [], position => (false, ⟨[], position⟩)
  | '\\' :: [], position => (false, ⟨[], position.after '\\'⟩)
  | '\\' :: c :: rest, position => skipRegex inBrackets rest ((position.after '\\').after c)
  | c :: rest, position =>
    if c == '\n' || c == '\r' then (false, ⟨c :: rest, position⟩)
    else if c == '[' then skipRegex true rest (position.after c)
    else if c == ']' then skipRegex false rest (position.after c)
    else if c == '/' && !inBrackets then
      (true, skipWhile continuesWord rest (position.after c))
    else skipRegex inBrackets rest (position.after c)

/-- The rest of the text after a beginning, if it has it. -/
def dropPrefix? : List Char → List Char → Option (List Char)
  | [], rest => some rest
  | _ :: _, [] => none
  | p :: ps, c :: rest => if p == c then dropPrefix? ps rest else none

/-- The first punctuator of the list that comes next, and the cursor after it.
Before a digit `?.` is a question mark and a point. -/
def scanPunct : List String → Cursor → Option (String × Cursor)
  | [], _ => none
  | text :: texts, cursor =>
    match dropPrefix? text.toList cursor.rest with
    | none => scanPunct texts cursor
    | some rest =>
      if text == "?." && (rest.head?.any Char.isDigit) then scanPunct texts cursor
      else some (text, ⟨rest, cursor.position.advance text.toList⟩)

/-! ## Tokens -/

/-- The braces that are open inside a substitution after this character, and
nothing if the character closes the substitution. -/
def braceDepth (depth : Nat) (c : Char) : Option Nat :=
  if c == '\x7b' then some (depth + 1)
  else if c == '\x7d' then (if depth = 0 then none else some (depth - 1))
  else some depth

def startsNumber : List Char → Bool
  | c :: rest => c.isDigit || (c == '.' && rest.head?.any Char.isDigit)
  | [] => false

/-- What stands at a cursor, templates apart: a token unless the character starts
none, what is wrong with it, and the cursor after it. -/
structure Lexeme where
  kind : Option TokenKind
  fault : Option String
  after : Cursor

/-- A token of any kind but a template from its first character on, after `previous`. -/
def scanLexeme (previous : Option Token) (c : Char) (rest : List Char) (position : Position) :
    Lexeme :=
  if startsWord c then
    let (name, after) := scanWord (c :: rest) position
    ⟨some (.word (String.ofList name)), none, after⟩
  else if startsNumber (c :: rest) then
    ⟨some .number, none, skipNumber ⟨c :: rest, position⟩⟩
  else if c == '"' || c == '\'' then
    let ((value, closed), after) := scanString c rest (position.after c)
    ⟨some (.string (String.ofList value)),
      if closed then none else some "unterminated string literal", after⟩
  else if c == '/' && regexMayFollow previous then
    let (closed, after) := skipRegex false rest (position.after c)
    ⟨some .regex, if closed then none else some "unterminated regular expression literal", after⟩
  else
    match scanPunct punctuators ⟨c :: rest, position⟩ with
    | some (text, after) => ⟨some (.punct text), none, after⟩
    | none =>
      ⟨none, some ("unexpected character '" ++ String.singleton c ++ "'"),
        ⟨rest, position.after c⟩⟩

/-- What a round of the lexer comes upon behind blanks and comments. -/
inductive Find
  /-- The end of the text, or the brace that closes the substitution. -/
  | ending (closed : Bool)
  | token (kind : TokenKind)
  /-- The opening mark of a template. -/
  | template
  /-- A character that starts no token. -/
  | nothing

/-- A round of the lexer: what it comes upon, and where; how many braces are open
and whether a line ends before it; the issues met, and the cursor after it. -/
structure Round where
  find : Find
  position : Position
  depth : Nat
  newline : Bool
  issues : List Issue
  after : Cursor

/-- The round that starts at a cursor, inside a substitution or not. -/
def round (inside : Bool) (depth : Nat) (newline : Bool) (previous : Option Token)
    (cursor : Cursor) : Round :=
  let (sawLineEnd, issues, cursor) := skipIgnored (cursor.rest.length + 1) false [] cursor
  let newline := newline || sawLineEnd
  match cursor.rest with
  | [] => ⟨.ending false, cursor.position, depth, newline, issues, cursor⟩
  | c :: rest =>
    let next : Cursor := ⟨rest, cursor.position.after c⟩
    match (if inside then braceDepth depth c else some depth) with
    | none => ⟨.ending true, cursor.position, depth, newline, issues, next⟩
    | some depth =>
      if c == '\x60' then ⟨.template, cursor.position, depth, newline, issues, next⟩
      else
        let lexeme := scanLexeme previous c rest cursor.position
        let issues := issues ++ lexeme.fault.toList.map fun fault => .ofSyntax fault cursor.position
        match lexeme.kind with
        | some kind => ⟨.token kind, cursor.position, depth, newline, issues, lexeme.after⟩
        | none => ⟨.nothing, cursor.position, depth, newline, issues, lexeme.after⟩

/-- What comes next in a template. -/
inductive TemplatePart
  /-- The end of the text, or the closing mark. -/
  | ending (closed : Bool)
  | text
  /-- The opening of a substitution. -/
  | substitution

/-- What comes next in a template, its characters and those after them. -/
def templatePart : List Char → TemplatePart × List Char × List Char
  | [] => (.ending false, [], [])
  | '\\' :: [] => (.text, ['\\'], [])
  | '\\' :: c :: rest => (.text, ['\\', c], rest)
  | '\x60' :: rest => (.ending true, ['\x60'], rest)
  | '$' :: '\x7b' :: rest => (.substitution, ['$', '\x7b'], rest)
  | c :: rest => (.text, [c], rest)

/-- What the lexer has found from some point on: tokens or substitutions, whether
their end was found, the issues recorded so far, and the cursor after it. -/
structure Scan (α : Type) where
  value : α
  closed : Bool
  issues : List Issue
  cursor : Cursor

/-- The issues of a scan, and one more if its end was not found. -/
def Scan.noted (scan : Scan α) (message : String) (position : Position) : List Issue :=
  if scan.closed then scan.issues else scan.issues ++ [.ofSyntax message position]

mutual

/-- Tokens up to the end of the text, or inside a substitution up to the brace that
closes it. `taken` holds the tokens already found, the last one first; `depth`
counts the braces open inside the substitution. Every round but the last takes a
character, so fuel beyond the text suffices. -/
def scanTokens : Nat → Bool → Nat → Bool → Option Token → List Token → List Issue → Cursor →
    Scan (List Token)
  | 0, _, _, _, _, taken, issues, cursor => ⟨taken.reverse, false, issues, cursor⟩
  | fuel + 1, inside, depth, newline, previous, taken, issues, cursor =>
    let round := round inside depth newline previous cursor
    let issues := issues ++ round.issues
    match round.find with
    | .ending closed => ⟨taken.reverse, closed, issues, round.after⟩
    | .token kind =>
      let token := .mk kind round.position round.newline
      scanTokens fuel inside round.depth false (some token) (token :: taken) issues round.after
    | .template =>
      let scan := scanTemplate fuel [] issues round.after
      let token := .mk (.template scan.value) round.position round.newline
      scanTokens fuel inside round.depth false (some token) (token :: taken)
        (scan.noted "unterminated template literal" round.position) scan.cursor
    | .nothing =>
      scanTokens fuel inside round.depth round.newline previous taken issues round.after

/-- The substitutions of a template after those already found, up to its closing
mark. -/
def scanTemplate : Nat → List (List Token) → List Issue → Cursor → Scan (List (List Token))
  | 0, taken, issues, cursor => ⟨taken.reverse, false, issues, cursor⟩
  | fuel + 1, taken, issues, cursor =>
    let (part, own, rest) := templatePart cursor.rest
    let next := ⟨rest, cursor.position.advance own⟩
    match part with
    | .ending closed => ⟨taken.reverse, closed, issues, next⟩
    | .text => scanTemplate fuel taken issues next
    | .substitution =>
      let scan := scanTokens fuel true 0 false none [] issues next
      let tokens := scan.value ++ [.mk .eof scan.cursor.position false]
      scanTemplate fuel (tokens :: taken)
        (scan.noted "unterminated template substitution" cursor.position) scan.cursor

end

/-- The tokens of a text given as characters, and the issues in the order in which
they were met. -/
def tokenizeChars (chars : List Char) : List Token × List Issue :=
  let scan := scanTokens (chars.length + 1) false 0 false none [] [] ⟨chars, .start⟩
  (scan.value ++ [.mk .eof scan.cursor.position true], scan.issues)

/-- The tokens of a script, ended by an end token, and the issues in the order in
which they were met. -/
def tokensOf (source : String) : List Token × List Issue := tokenizeChars source.toList

end ScriptHooks.Script.Lexer

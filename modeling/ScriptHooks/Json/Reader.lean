/-
ScriptHooks.Json.Reader — JSON text read into a `Node`.

`Node.read` takes one value and allows nothing but blanks after it. Nesting is
limited if a limit is given.

Reading is by a cursor over the characters that are left, together with the line and
column for complaints. Values are read by recursion on fuel, of which there are two steps
for each character: one for a value, and one for the container that goes on behind it.

Integers that fit 64 bits stay exact; every other number is a double made from at most
64 bits of leading digits and a power of ten, each step rounded (`scaled`). The result
can differ from the nearest double in the last bit when there are many digits or the
power is large.
-/
import ScriptHooks.Json.Document

namespace ScriptHooks.Json

/-- What is left of the text, and the place where it starts. -/
structure Cursor where
  rest : List Char
  place : Place

namespace Cursor

def next (c : Char) (rest : List Char) (place : Place) : Cursor := ⟨rest, place.after c⟩

/-- The place of a complaint about the character that comes next. -/
def peekPlace (cursor : Cursor) : Place :=
  match cursor.rest with
  | [] => cursor.place
  | c :: _ => cursor.place.afterByte c

def peekFault (cursor : Cursor) (fault : SyntaxFault) : Complaint :=
  ⟨.fault fault, some cursor.peekPlace⟩

def fault (cursor : Cursor) (fault : SyntaxFault) : Complaint :=
  ⟨.fault fault, some cursor.place⟩

/-- The four characters that JSON text may have between its parts. -/
def isSpace (c : Char) : Bool := c == ' ' || c == '\n' || c == '\t' || c == '\r'

/-- Past the characters for which `p` holds. -/
def skipWhile (p : Char → Bool) : List Char → Place → Cursor
  | [], place => ⟨[], place⟩
  | c :: rest, place => if p c then skipWhile p rest (place.after c) else ⟨c :: rest, place⟩

def skipSpace (cursor : Cursor) : Cursor := skipWhile isSpace cursor.rest cursor.place

end Cursor

/-! ## Numbers -/

def takeDigits : List Char → Place → List Nat × Cursor
  | [], place => ([], ⟨[], place⟩)
  | c :: rest, place =>
    if c.isDigit then
      let (digits, cursor) := takeDigits rest (place.after c)
      ((c.toNat - 48) :: digits, cursor)
    else ([], ⟨c :: rest, place⟩)

/-- The leading digits as a number that fits 64 bits, and how many digits did
not go in. -/
def leadingDigits (significand : Nat) : List Nat → Nat × Nat
  | [] => (significand, 0)
  | d :: digits =>
    if significand * 10 + d < 0x10000000000000000 then leadingDigits (significand * 10 + d) digits
    else (significand, (d :: digits).length)

/-- `f · 10^exponent`, one rounded step for each factor that a double holds;
nothing if the result is too large. -/
def scaled (f : Float) (exponent : Int) : Nat → Option Float
  | 0 => some f
  | fuel + 1 =>
    if exponent.natAbs ≤ 308 then
      let power := Float.ofScientific 1 false exponent.natAbs
      if 0 ≤ exponent then
        let product := f * power
        if Numeric.isFinite product then some product else none
      else some (f / power)
    else if Numeric.isZero f then some f
    else if 0 ≤ exponent then none
    else scaled (f / 1e308) (exponent + 308) fuel

/-- The double for digits and a power of ten. A power below -5000 leaves nothing
of 64 bits of digits. -/
def doubleOf (negative : Bool) (significand : Nat) (exponent : Int) : Option Float :=
  (scaled significand.toUInt64.toFloat (max exponent (-5000)) 20).map fun f =>
    if negative then -f else f

def readExponent (negative : Bool) (significand : Nat) (scale : Int) (cursor : Cursor) :
    Except Complaint (JsonNumber × Cursor) :=
  let (sign, cursor) := match cursor.rest with
    | '+' :: rest => (true, Cursor.next '+' rest cursor.place)
    | '-' :: rest => (false, Cursor.next '-' rest cursor.place)
    | _ => (true, cursor)
  match takeDigits cursor.rest cursor.place with
  | ([], _) =>
    match cursor.rest with
    | [] => .error (cursor.fault .eofInValue)
    | _ => .error (cursor.peekFault .invalidNumber)
  | (digits, after) =>
    let size := digits.foldl (fun n d => n * 10 + d) 0
    if 0x80000000 ≤ size then
      -- the complaint names the digit at which the exponent stops fitting
      let kept := (digits.foldl (fun (count, n) d =>
        if n * 10 + d < 0x80000000 then (count + 1, n * 10 + d) else (count, 0x80000000)) (0, 0)).1
      if sign && significand ≠ 0 then
        .error ⟨.fault .numberOutOfRange,
          some ⟨cursor.place.line, cursor.place.column + kept + 1⟩⟩
      else .ok (.float (if negative then -0.0 else 0.0), after)
    else
      let exponent := if sign then scale + size else scale - size
      match doubleOf negative significand exponent with
      | some f => .ok (.float f, after)
      | none => .error (after.fault .numberOutOfRange)

/-- What follows the digits before the point: a fraction, an exponent or nothing.
`scale` counts the digits that did not fit. -/
def readFraction (negative : Bool) (significand : Nat) (scale : Int) (cursor : Cursor) :
    Except Complaint (JsonNumber × Cursor) :=
  match takeDigits cursor.rest cursor.place with
  | ([], _) =>
    match cursor.rest with
    | [] => .error (cursor.peekFault .eofInValue)
    | _ => .error (cursor.peekFault .invalidNumber)
  | (digits, after) =>
    let (whole, dropped) := leadingDigits significand digits
    let scale := scale - (digits.length - dropped)
    match after.rest with
    | 'e' :: rest => readExponent negative whole scale (Cursor.next 'e' rest after.place)
    | 'E' :: rest => readExponent negative whole scale (Cursor.next 'E' rest after.place)
    | _ =>
      match doubleOf negative whole scale with
      | some f => .ok (.float f, after)
      | none => .error (after.fault .numberOutOfRange)

def readNumber (negative : Bool) (cursor : Cursor) : Except Complaint (JsonNumber × Cursor) :=
  match takeDigits cursor.rest cursor.place with
  | ([], _) =>
    match cursor.rest with
    | [] => .error (cursor.fault .eofInValue)
    | _ => .error (cursor.peekFault .invalidNumber)
  | (first :: digits, after) =>
    if first = 0 ∧ digits ≠ [] then
      .error ⟨.fault .invalidNumber, some ⟨cursor.place.line, cursor.place.column + 2⟩⟩
    else
      let (significand, dropped) := leadingDigits 0 (first :: digits)
      match after.rest with
      | '.' :: rest => readFraction negative significand dropped (Cursor.next '.' rest after.place)
      | 'e' :: rest => readExponent negative significand dropped (Cursor.next 'e' rest after.place)
      | 'E' :: rest => readExponent negative significand dropped (Cursor.next 'E' rest after.place)
      | _ =>
        let value : Int := if negative then -significand else significand
        if h : FitsWord value ∧ dropped = 0 ∧ ¬ (negative ∧ significand = 0) then
          .ok (.int value h.1, after)
        else
          match doubleOf negative significand dropped with
          | some f => .ok (.float f, after)
          | none => .error (after.fault .numberOutOfRange)

/-! ## Strings -/

def hexValue? (c : Char) : Option Nat :=
  if c.isDigit then some (c.toNat - 48)
  else if 'a' ≤ c ∧ c ≤ 'f' then some (c.toNat - 87)
  else if 'A' ≤ c ∧ c ≤ 'F' then some (c.toNat - 55)
  else none

def afterFourBytes : Nat → List Char → Place → Place
  | 0, _, place => place
  | _, [], place => place
  | room + 1, c :: rest, place =>
    if c.utf8Size ≤ room + 1 then afterFourBytes (room + 1 - c.utf8Size) rest (place.after c)
    else ⟨place.line, place.column + room + 1⟩

/-- The number of bytes in the characters, as far as it matters for four. -/
def hasFourBytes (rest : List Char) : Bool :=
  4 ≤ (rest.take 4).foldl (fun n c => n + c.utf8Size) 0

/-- The four hexadecimal digits of an escape. -/
def readHex (cursor : Cursor) : Except Complaint (Nat × Cursor) :=
  match cursor.rest with
  | a :: b :: c :: d :: rest =>
    match hexValue? a, hexValue? b, hexValue? c, hexValue? d with
    | some a, some b, some c, some d =>
      .ok (((a * 16 + b) * 16 + c) * 16 + d,
        ⟨rest, ⟨cursor.place.line, cursor.place.column + 4⟩⟩)
    | _, _, _, _ =>
      .error ⟨.fault .invalidEscape, some (afterFourBytes 4 cursor.rest cursor.place)⟩
  | rest =>
    if hasFourBytes rest then
      .error ⟨.fault .invalidEscape, some (afterFourBytes 4 rest cursor.place)⟩
    else
      .error ((rest.foldl (fun (at_ : Cursor) c => ⟨[], at_.place.after c⟩) cursor).fault .eofInString)

/-- The escape after a backslash: its character and what follows. -/
def readEscape (cursor : Cursor) : Except Complaint (Char × Cursor) :=
  match cursor.rest with
  | [] => .error (cursor.fault .eofInString)
  | c :: rest =>
    let after := Cursor.next c rest cursor.place
    match c with
    | '"' => .ok ('"', after)
    | '\\' => .ok ('\\', after)
    | '/' => .ok ('/', after)
    | 'b' => .ok ('\x08', after)
    | 'f' => .ok ('\x0c', after)
    | 'n' => .ok ('\n', after)
    | 'r' => .ok ('\r', after)
    | 't' => .ok ('\t', after)
    | 'u' => do
      let (unit, afterUnit) ← readHex after
      if 0xdc00 ≤ unit ∧ unit ≤ 0xdfff then
        .error (afterUnit.fault .loneSurrogate)
      else if unit < 0xd800 ∨ 0xdbff < unit then
        .ok (Char.ofNat unit, afterUnit)
      else
        match afterUnit.rest with
        | [] => .error (afterUnit.fault .eofInString)
        | '\\' :: [] => .error (Cursor.fault (Cursor.next '\\' [] afterUnit.place) .eofInString)
        | '\\' :: 'u' :: rest => do
          let (low, afterLow) ← readHex ⟨rest, ⟨afterUnit.place.line, afterUnit.place.column + 2⟩⟩
          if low < 0xdc00 ∨ 0xdfff < low then .error (afterLow.fault .loneSurrogate)
          else .ok (Char.ofNat (0x10000 + (unit - 0xd800) * 0x400 + (low - 0xdc00)), afterLow)
        | '\\' :: other =>
          .error (Cursor.peekFault (Cursor.next '\\' other afterUnit.place) .unfinishedSurrogate)
        | _ => .error (afterUnit.peekFault .unfinishedSurrogate)
    | _ => .error (cursor.peekFault .invalidEscape)

/-- The characters of a string after its opening quote, put before `taken` in
reverse. Every step takes a character, so as much fuel as text suffices. -/
def readString : Nat → List Char → Cursor → Except Complaint (String × Cursor)
  | 0, _, cursor => .error (cursor.fault .eofInString)
  | fuel + 1, taken, cursor =>
    match cursor.rest with
    | [] => .error (cursor.fault .eofInString)
    | '"' :: rest => .ok (String.ofList taken.reverse, Cursor.next '"' rest cursor.place)
    | '\\' :: rest => do
      let (c, after) ← readEscape (Cursor.next '\\' rest cursor.place)
      readString fuel (c :: taken) after
    | c :: rest =>
      if c.toNat < 0x20 then .error (cursor.peekFault .controlCharacter)
      else readString fuel (c :: taken) (Cursor.next c rest cursor.place)

/-! ## Values -/

/-- The rest of a word of which the first letter has been seen. -/
def readWord : List Char → Cursor → Except Complaint Cursor
  | [], cursor => .ok cursor
  | letter :: letters, cursor =>
    match cursor.rest with
    | [] => .error (cursor.fault .eofInValue)
    | c :: rest =>
      if c = letter then readWord letters (Cursor.next c rest cursor.place)
      else .error (cursor.peekFault .expectedIdent)

/-- The place where reading stands after an object key: past the blanks, and past
a closing brace if one comes. -/
def afterKey (cursor : Cursor) : Place :=
  let cursor := cursor.skipSpace
  match cursor.rest with
  | '\x7d' :: rest => (Cursor.next '\x7d' rest cursor.place).place
  | _ => cursor.place

def scalarNode (make : α → Scalar) : Except Complaint (α × Cursor) → Node × Option Cursor
  | .ok (value, after) => (.scalar (make value) (some after.place), some after)
  | .error complaint => (.broken complaint, none)

def wordNode (value : Scalar) : Except Complaint Cursor → Node × Option Cursor
  | .ok after => (.scalar value (some after.place), some after)
  | .error complaint => (.broken complaint, none)

mutual

/-- One value, after blanks. There is no cursor after a fault. The depth counts
the containers that may still be opened. -/
def readNode : Nat → Option Nat → Cursor → Node × Option Cursor
  | 0, _, cursor => (.broken (cursor.fault .eofInValue), none)
  | fuel + 1, depth, cursor =>
    let cursor := cursor.skipSpace
    match cursor.rest with
    | [] => (.broken (cursor.peekFault .eofInValue), none)
    | 'n' :: rest =>
      wordNode .null (readWord ['u', 'l', 'l'] (Cursor.next 'n' rest cursor.place))
    | 't' :: rest =>
      wordNode (.bool true) (readWord ['r', 'u', 'e'] (Cursor.next 't' rest cursor.place))
    | 'f' :: rest =>
      wordNode (.bool false) (readWord ['a', 'l', 's', 'e'] (Cursor.next 'f' rest cursor.place))
    | '-' :: rest =>
      scalarNode .number (readNumber true (Cursor.next '-' rest cursor.place))
    | '"' :: rest =>
      scalarNode .string
        (readString (rest.length + 1) [] (Cursor.next '"' rest cursor.place))
    | '[' :: rest =>
      if depth = some 0 then (.broken (cursor.peekFault .tooDeep), none)
      else
        let (items, ending, after) := readItems fuel (depth.map (· - 1)) true []
          (Cursor.next '[' rest cursor.place)
        (.array (some cursor.place) items ending, after)
    | '\x7b' :: rest =>
      if depth = some 0 then (.broken (cursor.peekFault .tooDeep), none)
      else
        let (entries, ending, after) := readEntries fuel (depth.map (· - 1)) true []
          (Cursor.next '\x7b' rest cursor.place)
        (.object (some cursor.place) entries ending, after)
    | c :: _ =>
      if c.isDigit then scalarNode .number (readNumber false cursor)
      else (.broken (cursor.peekFault .expectedValue), none)

/-- The items from here to the closing bracket, after those already taken. -/
def readItems : Nat → Option Nat → Bool → List (Option Place × Node) → Cursor →
    List (Option Place × Node) × Ending × Option Cursor
  | 0, _, _, taken, cursor => (taken.reverse, .broken (cursor.fault .eofInList), none)
  | fuel + 1, depth, first, taken, cursor =>
    let cursor := cursor.skipSpace
    let stop := fun complaint => (taken.reverse, Ending.broken complaint, none)
    let item := fun (cursor : Cursor) =>
      match readNode fuel depth cursor with
      | (node, some after) =>
        readItems fuel depth false ((some cursor.peekPlace, node) :: taken) after
      | (node, none) =>
        (((some cursor.peekPlace, node) :: taken).reverse, .closed none, none)
    match cursor.rest with
    | [] => stop (cursor.peekFault .eofInList)
    | ']' :: rest =>
      let after := Cursor.next ']' rest cursor.place
      (taken.reverse, .closed (some after.place), some after)
    | ',' :: rest =>
      if first then item cursor
      else
        let next := (Cursor.next ',' rest cursor.place).skipSpace
        match next.rest with
        | [] => stop (next.peekFault .eofInValue)
        | ']' :: _ => stop (next.peekFault .trailingComma)
        | _ => item next
    | _ => if first then item cursor else stop (cursor.peekFault .expectedListEnd)

/-- The entries from here to the closing brace, after those already taken. -/
def readEntries : Nat → Option Nat → Bool → List (String × Option Place × Node) → Cursor →
    List (String × Option Place × Node) × Ending × Option Cursor
  | 0, _, _, taken, cursor => (taken.reverse, .broken (cursor.fault .eofInObject), none)
  | fuel + 1, depth, first, taken, cursor =>
    let cursor := cursor.skipSpace
    let stop := fun complaint => (taken.reverse, Ending.broken complaint, none)
    let entry := fun (rest : List Char) (place : Place) =>
      match readString (rest.length + 1) [] (Cursor.next '"' rest place) with
      | .error complaint => (taken.reverse, Ending.broken complaint, none)
      | .ok (key, afterName) =>
        let stand := some (afterKey afterName)
        let colon := afterName.skipSpace
        let bad := fun complaint =>
          (((key, stand, Node.broken complaint) :: taken).reverse, Ending.closed none, none)
        match colon.rest with
        | [] => bad (colon.peekFault .eofInObject)
        | ':' :: rest =>
          match readNode fuel depth (Cursor.next ':' rest colon.place) with
          | (node, some after) => readEntries fuel depth false ((key, stand, node) :: taken) after
          | (node, none) => (((key, stand, node) :: taken).reverse, .closed none, none)
        | _ => bad (colon.peekFault .expectedColon)
    match cursor.rest with
    | [] => stop (cursor.peekFault .eofInObject)
    | '\x7d' :: rest =>
      let after := Cursor.next '\x7d' rest cursor.place
      (taken.reverse, .closed (some after.place), some after)
    | ',' :: rest =>
      if first then stop (cursor.peekFault .keyNotString)
      else
        let next := (Cursor.next ',' rest cursor.place).skipSpace
        match next.rest with
        | [] => stop (next.peekFault .eofInValue)
        | '"' :: rest => entry rest next.place
        | '\x7d' :: _ => stop (next.peekFault .trailingComma)
        | _ => stop (next.peekFault .keyNotString)
    | '"' :: rest =>
      if first then entry rest cursor.place else stop (cursor.peekFault .expectedObjectEnd)
    | _ =>
      stop (cursor.peekFault (if first then .keyNotString else .expectedObjectEnd))

end

/-- The limit on nesting for text that comes from outside: the 128th container
that is open at once is refused. -/
def nestingLimit : Nat := 127

/-- The value of a text and what follows it. A character takes at most two steps: a
bracket opens a container and a value is looked for behind it. -/
def Node.readPrefix (depth : Option Nat) (text : String) : Node × Option Cursor :=
  let chars := text.toList
  readNode (2 * chars.length + 2) depth ⟨chars, .start⟩

/-- Nothing but blanks may follow the value. -/
def checkEnd : Option Cursor → Except Complaint Unit
  | none => .ok ()
  | some cursor =>
    let cursor := cursor.skipSpace
    match cursor.rest with
    | [] => .ok ()
    | _ => .error (cursor.peekFault .trailingCharacters)

/-- Read a text and decode the value in it, complaining of the first thing wrong. -/
def decodeText (depth : Option Nat) (decode : Node → Except Complaint α) (text : String) :
    Except Complaint α := do
  let (node, after) := Node.readPrefix depth text
  let value ← decode node
  checkEnd after
  pure value

def parse (text : String) : Except Complaint Json := decodeText (some nestingLimit) Node.toJson text

/-- The value of a text, however deeply nested. -/
def parseUnbounded (text : String) : Except Complaint Json := decodeText none Node.toJson text

end ScriptHooks.Json

/-
ScriptHooks.Calendar.Pattern — showing a timestamp by a pattern of `%` directives.

A pattern is read into a list of items before anything is shown, so a directive that
does not exist spoils the whole pattern wherever it stands. The directives are those of
the calendar's usual pattern language; only one that stands for a single number takes a
padding flag (`-` none, `0` zeros, `_` blanks).
-/
import ScriptHooks.Calendar.Timestamp

namespace ScriptHooks.Calendar

/-- What fills a number up to its width. -/
inductive Padding where
  | nothing
  | zeros
  | blanks
deriving DecidableEq, Repr

/-- The numbers that a directive can stand for. -/
inductive Field where
  | year
  | weekYear
  | century
  | yearOfCentury
  | weekYearOfCentury
  | quarter
  | month
  | day
  | weekFromSunday
  | weekFromMonday
  | isoWeek
  | daysFromSunday
  | weekdayFromMonday
  | ordinal
  | hour
  | hourOfTwelve
  | minute
  | second
  | nanosecond
  | unixTime
deriving DecidableEq, Repr

/-- How an offset is written. -/
inductive OffsetStyle where
  | plain
  | colon
  | withSeconds
  | hoursOnly
deriving DecidableEq, Repr

/-- A part of a pattern. -/
inductive PatternItem where
  | literal (c : Char)
  | number (field : Field) (padding : Padding)
  | monthName (short : Bool)
  | weekdayName (short : Bool)
  | halfDay (upper : Bool)
  | zone
  | offset (style : OffsetStyle)
  /-- A point and as many digits as are needed: none, three, six or nine. -/
  | decimals
  /-- So many digits of the fraction, after a point or not. -/
  | fixedDecimals (point : Bool) (places : Nat)
  /-- The strict internet form. -/
  | internet
deriving DecidableEq, Repr

namespace Pattern

/-- The directives for a single number, with the padding they have by themselves. -/
def numberDirective? : Char → Option (Field × Padding)
  | 'Y' => some (.year, .zeros)
  | 'G' => some (.weekYear, .zeros)
  | 'C' => some (.century, .zeros)
  | 'y' => some (.yearOfCentury, .zeros)
  | 'g' => some (.weekYearOfCentury, .zeros)
  | 'q' => some (.quarter, .nothing)
  | 'm' => some (.month, .zeros)
  | 'd' => some (.day, .zeros)
  | 'e' => some (.day, .blanks)
  | 'U' => some (.weekFromSunday, .zeros)
  | 'W' => some (.weekFromMonday, .zeros)
  | 'V' => some (.isoWeek, .zeros)
  | 'w' => some (.daysFromSunday, .nothing)
  | 'u' => some (.weekdayFromMonday, .nothing)
  | 'j' => some (.ordinal, .zeros)
  | 'H' => some (.hour, .zeros)
  | 'k' => some (.hour, .blanks)
  | 'I' => some (.hourOfTwelve, .zeros)
  | 'l' => some (.hourOfTwelve, .blanks)
  | 'M' => some (.minute, .zeros)
  | 'S' => some (.second, .zeros)
  | 'f' => some (.nanosecond, .zeros)
  | 's' => some (.unixTime, .nothing)
  | _ => none

/-- A number with the padding it has by itself, or a character. -/
def part (c : Char) : PatternItem :=
  match numberDirective? c with
  | some (field, padding) => .number field padding
  | none => .literal c

def clockMinutes : List PatternItem := [part 'H', .literal ':', part 'M']

def clock : List PatternItem := clockMinutes ++ [.literal ':', part 'S']

/-- Month, day and year, in numbers. -/
def shortDate : List PatternItem :=
  [part 'm', .literal '/', part 'd', .literal '/', part 'y']

def directive? : Char → Option (List PatternItem)
  | 'a' => some [.weekdayName true]
  | 'A' => some [.weekdayName false]
  | 'b' => some [.monthName true]
  | 'h' => some [.monthName true]
  | 'B' => some [.monthName false]
  | 'c' => some ([.weekdayName true, .literal ' ', .monthName true, .literal ' ', part 'e',
      .literal ' '] ++ clock ++ [.literal ' ', part 'Y'])
  | 'D' => some shortDate
  | 'x' => some shortDate
  | 'F' => some [part 'Y', .literal '-', part 'm', .literal '-', part 'd']
  | 'v' => some [part 'e', .literal '-', .monthName true, .literal '-', part 'Y']
  | 'R' => some clockMinutes
  | 'T' => some clock
  | 'X' => some clock
  | 'r' => some ([part 'I', .literal ':', part 'M', .literal ':', part 'S', .literal ' ',
      .halfDay true])
  | 'p' => some [.halfDay true]
  | 'P' => some [.halfDay false]
  | 'Z' => some [.zone]
  | 'z' => some [.offset .plain]
  | '+' => some [.internet]
  | 't' => some [.literal '\t']
  | 'n' => some [.literal '\n']
  | '%' => some [.literal '%']
  | _ => none

def padded (c : Char) (padding : Padding) : Option (List PatternItem) :=
  (numberDirective? c).map fun (field, _) => [.number field padding]

/-- The directive after a `%`, and how many characters it has. -/
def leading : List Char → Option (List PatternItem × Nat)
  | '-' :: c :: _ => (padded c .nothing).map (·, 2)
  | '0' :: c :: _ => (padded c .zeros).map (·, 2)
  | '_' :: c :: _ => (padded c .blanks).map (·, 2)
  | ':' :: 'z' :: _ => some ([.offset .colon], 2)
  | ':' :: ':' :: 'z' :: _ => some ([.offset .withSeconds], 3)
  | ':' :: ':' :: ':' :: 'z' :: _ => some ([.offset .hoursOnly], 4)
  | '.' :: 'f' :: _ => some ([.decimals], 2)
  | '.' :: '3' :: 'f' :: _ => some ([.fixedDecimals true 3], 3)
  | '.' :: '6' :: 'f' :: _ => some ([.fixedDecimals true 6], 3)
  | '.' :: '9' :: 'f' :: _ => some ([.fixedDecimals true 9], 3)
  | '3' :: 'f' :: _ => some ([.fixedDecimals false 3], 2)
  | '6' :: 'f' :: _ => some ([.fixedDecimals false 6], 2)
  | '9' :: 'f' :: _ => some ([.fixedDecimals false 9], 2)
  | c :: _ =>
    match numberDirective? c with
    | some (field, padding) => some ([.number field padding], 1)
    | none => (directive? c).map (·, 1)
  | [] => none

/-- The items of a pattern; nothing if one of its directives does not exist. -/
def items (s : List Char) : Option (List PatternItem) :=
  match s with
  | [] => some []
  | '%' :: rest =>
    match leading rest with
    | some (found, length) => (items (rest.drop length)).map (found ++ ·)
    | none => none
  | c :: rest => (items rest).map (.literal c :: ·)
termination_by s.length
decreasing_by all_goals simp only [List.length_cons, List.length_drop]; omega

end Pattern

namespace Timestamp

def fill (width : Nat) (filler : Char) (digits : String) : String :=
  String.ofList (List.replicate (width - digits.length) filler) ++ digits

/-- A whole number to a width; zeros come between the sign and the digits. -/
def paddedNumber (width : Nat) (padding : Padding) (sign : Bool) (n : Int) : String :=
  let digits := toString n.natAbs
  let mark := if n < 0 then "-" else if sign then "+" else ""
  match padding with
  | .nothing => mark ++ digits
  | .zeros => mark ++ fill (width - mark.length) '0' digits
  | .blanks => fill width ' ' (mark ++ digits)

/-- A year: four digits, or a sign and at least four if it lies outside of them. -/
def yearText (padding : Padding) (year : Int) : String :=
  if 1000 ≤ year && year ≤ 9999 then toString year
  else
    let outside := year < 0 || 9999 < year
    paddedNumber (if outside then 5 else 4) padding outside year

/-- Two places, of one byte: the tens run on past nine into the characters after `9`. -/
def twoPlaces (padding : Padding) (n : Int) : String :=
  let byte := (n % 256).toNat
  let ones := String.singleton (Char.ofNat ('0'.toNat + byte % 10))
  match byte / 10, padding with
  | 0, .nothing => ones
  | 0, .blanks => " " ++ ones
  | tens, _ => String.singleton (Char.ofNat ('0'.toNat + tens)) ++ ones

/-- The second of the minute; a leap second is the sixtieth. -/
def secondOfMinute (t : Timestamp) : Nat := t.shown.2 % 60 + t.nanos / 1000000000

def hourOfTwelve (t : Timestamp) : Nat :=
  let hour := t.shown.2 / 3600 % 12
  if hour = 0 then 12 else hour

def fieldText (t : Timestamp) (padding : Padding) (field : Field) : String :=
  let (dayNumber, inDay) := t.shown
  let date := Date.ofDayNumber dayNumber
  match field with
  | .year => yearText padding date.year
  | .weekYear => yearText padding (Calendar.isoWeek dayNumber).1
  | .century => twoPlaces padding (date.year / 100)
  | .yearOfCentury => twoPlaces padding (date.year % 100)
  | .weekYearOfCentury => twoPlaces padding ((Calendar.isoWeek dayNumber).1 % 100)
  | .quarter => toString ((date.month - 1) / 3 + 1)
  | .month => twoPlaces padding date.month
  | .day => twoPlaces padding date.day
  | .weekFromSunday => twoPlaces padding (weekOfYear dayNumber 6)
  | .weekFromMonday => twoPlaces padding (weekOfYear dayNumber 0)
  | .isoWeek => twoPlaces padding (Calendar.isoWeek dayNumber).2
  | .daysFromSunday => toString ((weekday dayNumber + 1) % 7)
  | .weekdayFromMonday => toString (weekday dayNumber + 1)
  | .ordinal => paddedNumber 3 padding false date.ordinal
  | .hour => twoPlaces padding (inDay / 3600)
  | .hourOfTwelve => twoPlaces padding t.hourOfTwelve
  | .minute => twoPlaces padding (inDay / 60 % 60)
  | .second => twoPlaces padding t.secondOfMinute
  | .nanosecond => paddedNumber 9 padding false (t.nanos % 1000000000)
  | .unixTime => paddedNumber 9 padding false t.seconds

def fractionDigits (t : Timestamp) (places : Nat) : String :=
  fill places '0' (toString (t.nanos % 1000000000 / Nat.pow 10 (9 - places)))

/-- The fraction of the second to the thousands that it needs, after a point. -/
def decimalsText (t : Timestamp) : String :=
  let nanos := t.nanos % 1000000000
  if nanos = 0 then ""
  else if nanos % 1000000 = 0 then "." ++ t.fractionDigits 3
  else if nanos % 1000 = 0 then "." ++ t.fractionDigits 6
  else "." ++ t.fractionDigits 9

def offsetText (t : Timestamp) (style : OffsetStyle) : String :=
  let size := t.offset.natAbs
  let sign := if t.offset < 0 then "-" else "+"
  let two (n : Nat) : String := fill 2 '0' (toString n)
  let hours := two (size / 3600)
  let minutes := two (size / 60 % 60)
  sign ++ match style with
    | .plain => hours ++ minutes
    | .colon => hours ++ ":" ++ minutes
    | .withSeconds => hours ++ ":" ++ minutes ++ ":" ++ two (size % 60)
    | .hoursOnly => hours

def nameText (names : List String) (index : Nat) (short : Bool) : String :=
  let name := names.getD index ""
  if short then String.ofList (name.toList.take 3) else name

def itemText (t : Timestamp) (zone : String) : PatternItem → String
  | .literal c => String.singleton c
  | .number field padding => t.fieldText padding field
  | .monthName short =>
    nameText monthNames ((Date.ofDayNumber t.shown.1).month - 1) short
  | .weekdayName short => nameText weekdayNames (weekday t.shown.1) short
  | .halfDay upper =>
    if t.shown.2 / 3600 < 12 then (if upper then "AM" else "am")
    else (if upper then "PM" else "pm")
  | .zone => zone
  | .offset style => t.offsetText style
  | .decimals => t.decimalsText
  | .fixedDecimals point places => (if point then "." else "") ++ t.fractionDigits places
  | .internet =>
    String.join ([Field.year, .month, .day].map (t.fieldText .zeros) |>.intersperse "-")
      ++ "T"
      ++ String.join ([Field.hour, .minute, .second].map (t.fieldText .zeros)
          |>.intersperse ":")
      ++ t.decimalsText ++ t.offsetText .colon

/-- The text of a timestamp by a pattern; nothing if the pattern is none. -/
def show? (t : Timestamp) (zone pattern : String) : Option String :=
  (Pattern.items pattern.toList).map fun found => String.join (found.map (t.itemText zone))

end Timestamp

/-- Why a timestamp cannot be shown. -/
inductive ShowError where
  | timestamp (text : String)
  | pattern (text : String)
deriving DecidableEq, Repr

def ShowError.message : ShowError → String
  | .timestamp text => "unrecognized timestamp '" ++ text ++ "'"
  | .pattern text => "invalid date pattern '" ++ text ++ "'"

/-- Shows the timestamp that a text holds by a pattern, at offset 0 if asked to. -/
def formatTimestamp (text pattern : String) (atZero : Bool) : Except ShowError String :=
  match Timestamp.read? (Text.trimBlanks text) with
  | none => .error (.timestamp text)
  | some t =>
    let shown := if atZero then t.atZero.show? "UTC" pattern
      else t.show? (t.offsetText .colon) pattern
    match shown with
    | some out => .ok out
    | none => .error (.pattern pattern)

end ScriptHooks.Calendar

/-
ScriptHooks.Sandbox.Builtin.Dates — the functions of dates.

A date is a number of milliseconds since the start of 1970, told in the calendar at
offset zero. Scripts have no clock: without arguments a date is the start of 1970.
-/
import ScriptHooks.Calendar.Timestamp
import ScriptHooks.Sandbox.Builtin.Lists

namespace ScriptHooks.Sandbox

open Calendar (Date)

/-- The furthest a date may be from 1970, in milliseconds. -/
def maxDate : Float := 8.64e15

/-- The milliseconds of a date, if there is such a date. -/
def dateValue (x : Float) : Float :=
  if Numeric.isFinite x && x.abs ≤ maxDate then Numeric.trunc x + 0.0 else notANumber

/-- What calendar and clock show for whole milliseconds. -/
structure Shown where
  date : Date
  weekday : Nat
  /-- Milliseconds since midnight. -/
  inDay : Nat

def shownAt (milliseconds : Int) : Shown :=
  let day := milliseconds / 86400000
  ⟨Date.ofDayNumber day, (Calendar.weekday day + 1) % 7, (milliseconds % 86400000).toNat⟩

def digitsOf (width n : Nat) : String :=
  let digits := toString n
  String.ofList (List.replicate (width - digits.length) '0') ++ digits

/-- A year as dates are written: four digits, or a sign and six. -/
def yearDigits (year : Int) : String :=
  if 0 ≤ year && year ≤ 9999 then digitsOf 4 year.toNat
  else (if year < 0 then "-" else "+") ++ digitsOf 6 year.natAbs

def isoText (milliseconds : Int) : String :=
  let shown := shownAt milliseconds
  yearDigits shown.date.year ++ "-" ++ digitsOf 2 shown.date.month ++ "-"
    ++ digitsOf 2 shown.date.day ++ "T" ++ digitsOf 2 (shown.inDay / 3600000) ++ ":"
    ++ digitsOf 2 (shown.inDay / 60000 % 60) ++ ":" ++ digitsOf 2 (shown.inDay / 1000 % 60)
    ++ "." ++ digitsOf 3 (shown.inDay % 1000) ++ "Z"

def shortName (names : List String) (index : Nat) : String :=
  String.ofList ((names.getD index "").toList.take 3)

def longText (milliseconds : Int) : String :=
  let shown := shownAt milliseconds
  shortName Calendar.weekdayNames ((shown.weekday + 6) % 7) ++ " "
    ++ shortName Calendar.monthNames (shown.date.month - 1) ++ " "
    ++ digitsOf 2 shown.date.day ++ " "
    ++ (if shown.date.year < 0 then "-" ++ digitsOf 6 shown.date.year.natAbs
      else digitsOf 4 shown.date.year.toNat)
    ++ " " ++ digitsOf 2 (shown.inDay / 3600000) ++ ":"
    ++ digitsOf 2 (shown.inDay / 60000 % 60) ++ ":" ++ digitsOf 2 (shown.inDay / 1000 % 60)
    ++ " GMT+0000"

/-- The milliseconds of year, month (from 0), day, hour, minute, second and
millisecond, which may run over. -/
def millisecondsOf (parts : List Int) : Int :=
  let part := fun (i : Nat) (default : Int) => parts.getD i default
  let year := part 0 1970
  let year := if 0 ≤ year && year ≤ 99 then year + 1900 else year
  let months := year * 12 + part 1 0
  let first : Date := ⟨months / 12, (months % 12).toNat + 1, 1⟩
  let day := first.dayNumber + part 2 1 - 1
  (((day * 24 + part 3 0) * 60 + part 4 0) * 60 + part 5 0) * 1000 + part 6 0

namespace Run

def dateOfParts (m : Machine) (arguments : List Value) : Run Float := do
  let parts ← arguments.mapM (toNumber m)
  if parts.all fun x => Numeric.isFinite x && x.abs < 1e9 then
    pure (dateValue (Float.ofInt (millisecondsOf (parts.filterMap Numeric.truncate))))
  else pure notANumber

def dateOfText (text : String) : Float :=
  match Calendar.Timestamp.read? text with
  | some t => dateValue (Float.ofInt (t.seconds * 1000 + t.nanos / 1000000))
  | none => notANumber

def makeDate (m : Machine) (arguments : List Value) : Run Value := do
  let milliseconds ← match arguments with
    | [] => pure 0.0
    | [.object ref] =>
      match (← object ref).kind with
      | .date milliseconds => pure milliseconds
      | _ => dateOfScalar (← toPrimitive m none (.object ref))
    | [value] => dateOfScalar value
    | parts => dateOfParts m parts
  let ref ← allocate { proto := some Intrinsic.dateProto.ref, kind := .date milliseconds }
  pure (.object ref)
where
  /-- The milliseconds that a value without parts means. -/
  dateOfScalar (value : Value) : Run Float := do
    match value with
    | .text text => pure (dateOfText text.toText)
    | other => pure (dateValue (← scalarNumber other))

def thisDate (this : Value) : Run (Ref × Float) := do
  match this with
  | .object ref =>
    match (← object ref).kind with
    | .date milliseconds => pure (ref, milliseconds)
    | _ => typeError "not a Date object"
  | _ => typeError "not a Date object"

def datePart (f : DateFunction) (shown : Shown) : Int :=
  match f with
  | .getFullYear => shown.date.year
  | .getMonth => shown.date.month - 1
  | .getDate => shown.date.day
  | .getDay => shown.weekday
  | .getHours => (shown.inDay / 3600000 : Nat)
  | .getMinutes => (shown.inDay / 60000 % 60 : Nat)
  | .getSeconds => (shown.inDay / 1000 % 60 : Nat)
  | .getMilliseconds => (shown.inDay % 1000 : Nat)
  | _ => 0

def dateFunction (m : Machine) (f : DateFunction) (this : Value) (arguments : List Value) :
    Run Value := do
  match f with
  | .construct => pure (.text (Units.ofString (longText 0)))
  | .utc => pure (.number (← dateOfParts m arguments))
  | .toJson =>
    match ← toPrimitive m (some .number) this with
    | .number x =>
      if Numeric.isFinite x then
        call m (← getValue m this "toISOString") this []
      else pure .null
    | _ => call m (← getValue m this "toISOString") this []
  | .setTime =>
    let (ref, _) ← thisDate this
    let milliseconds := dateValue (← toNumber m (argument arguments 0))
    change ref fun o => { o with kind := .date milliseconds }
    pure (.number milliseconds)
  | .getTime | .valueOf => pure (.number (← thisDate this).2)
  | .toISOText =>
    match Numeric.truncate (← thisDate this).2 with
    | some n => pure (.text (Units.ofString (isoText n)))
    | none => rangeError "Date value is NaN"
  | .toText =>
    match Numeric.truncate (← thisDate this).2 with
    | some n => pure (.text (Units.ofString (longText n)))
    | none => pure (.text (Units.ofString "Invalid Date"))
  | _ =>
    match Numeric.truncate (← thisDate this).2 with
    | some n => pure (.number (Float.ofInt (datePart f (shownAt n))))
    | none => pure (.number notANumber)

end Run

end ScriptHooks.Sandbox

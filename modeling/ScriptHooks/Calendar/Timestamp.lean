/-
ScriptHooks.Calendar.Timestamp — instants with an offset, and reading them from text.

A timestamp is the time in seconds and nanoseconds together with the offset in which it
is shown. Four written forms are tried in turn: the strict internet form with an offset;
a date and a time joined by `T`, or by blanks, without one; and a bare date. The forms
without an offset are read leniently: numbers may have fewer digits and blanks before
them, and a year with a sign may have any number of digits.
-/
import ScriptHooks.Calendar.Civil
import ScriptHooks.Text.CharClass

namespace ScriptHooks.Calendar

/-- An instant: seconds since the start of 1970, nanoseconds, and the offset in seconds
of the place where it is told. In a leap second the nanoseconds are 10⁹ or more. -/
structure Timestamp where
  seconds : Int
  nanos : Nat
  offset : Int
deriving DecidableEq, Repr

/-- A date with a time of day. -/
structure Moment where
  date : Date
  hour : Nat
  minute : Nat
  second : Nat
  nanos : Nat

def isTellable (year : Int) : Bool := -262143 ≤ year && year ≤ 262142

/-- The instant at which clocks with that offset show the moment; nothing if there is no
such moment. The sixtieth second is the fifty-ninth, gone on for another second. -/
def Moment.at? (m : Moment) (offset : Int) : Option Timestamp :=
  if isTellable m.date.year && m.date.exists? && m.hour ≤ 23 && m.minute ≤ 59
      && m.second ≤ 60 then
    let leap := m.second = 60
    let second := if leap then 59 else m.second
    let nanos := if leap then m.nanos + 1000000000 else m.nanos
    let inDay : Int := ((m.hour * 60 + m.minute) * 60 + second : Nat)
    some ⟨m.date.dayNumber * 86400 + inDay - offset, nanos, offset⟩
  else none

namespace Timestamp

def valueOf (digits : List Char) : Nat :=
  digits.foldl (fun n c => n * 10 + (c.toNat - '0'.toNat)) 0

def exactly (count : Nat) (s : List Char) : Option (Nat × List Char) :=
  let digits := s.take count
  if digits.length = count && digits.all (·.isDigit) then
    some (valueOf digits, s.drop count)
  else none

def literal (c : Char) : List Char → Option (List Char)
  | [] => none
  | d :: rest => if c = d then some rest else none

/-- The digits of a fraction of a second, as nanoseconds: nine count, fewer are filled
up with zeros. -/
def fraction (s : List Char) : Option (Nat × List Char) :=
  let digits := s.takeWhile (·.isDigit)
  if digits.isEmpty then none
  else some (valueOf ((digits ++ List.replicate 9 '0').take 9), s.dropWhile (·.isDigit))

def fraction? (s : List Char) : Option (Nat × List Char) :=
  match s with
  | '.' :: rest => fraction rest
  | _ => some (0, s)

/-- An offset of the strict form: `Z`, or a sign, hours and minutes, less than a day. -/
def strictOffset (s : List Char) : Option (Int × List Char) :=
  match s with
  | 'Z' :: rest => some (0, rest)
  | 'z' :: rest => some (0, rest)
  | sign :: rest => do
    let negative ← if sign = '+' then some false
      else if sign = '-' || sign = '\u2212' then some true else none
    let (hours, rest) ← exactly 2 rest
    let rest ← literal ':' rest
    let (minutes, rest) ← exactly 2 rest
    if 59 < minutes || 23 < hours then none
    let size : Int := ((hours * 60 + minutes) * 60 : Nat)
    some (if negative then -size else size, rest)
  | [] => none

/-- The strict form: a date, `T` or a blank, a time, and an offset. -/
def strict (s : List Char) : Option Timestamp := do
  let (year, s) ← exactly 4 s
  let s ← literal '-' s
  let (month, s) ← exactly 2 s
  let s ← literal '-' s
  let (day, s) ← exactly 2 s
  let s ← (literal 'T' s).orElse fun _ => (literal 't' s).orElse fun _ => literal ' ' s
  let (hour, s) ← exactly 2 s
  let s ← literal ':' s
  let (minute, s) ← exactly 2 s
  let s ← literal ':' s
  let (second, s) ← exactly 2 s
  let (nanos, s) ← fraction? s
  let (offset, s) ← strictOffset s
  if !s.isEmpty then none
  Moment.at? ⟨⟨year, month, day⟩, hour, minute, second, nanos⟩ offset

def skipBlanks (s : List Char) : List Char := s.dropWhile Text.isBlank

/-- At most so many digits, at least one, after blanks. -/
def lenient (most : Nat) (s : List Char) : Option (Nat × List Char) :=
  let s := skipBlanks s
  let digits := (s.take most).takeWhile (·.isDigit)
  if digits.isEmpty then none else some (valueOf digits, s.drop digits.length)

/-- A year: up to four digits, or a sign and any number of them. -/
def lenientYear (s : List Char) : Option (Int × List Char) :=
  let s := skipBlanks s
  let signed (negative : Bool) (rest : List Char) : Option (Int × List Char) :=
    let digits := rest.takeWhile (·.isDigit)
    if digits.isEmpty then none
    else
      let size : Int := valueOf digits
      some (if negative then -size else size, rest.dropWhile (·.isDigit))
  match s with
  | '-' :: rest => signed true rest
  | '+' :: rest => signed false rest
  | _ => (lenient 4 s).map fun (n, rest) => ((n : Int), rest)

def lenientDate (s : List Char) : Option (Date × List Char) := do
  let (year, s) ← lenientYear s
  let s ← literal '-' s
  let (month, s) ← lenient 2 s
  let s ← literal '-' s
  let (day, s) ← lenient 2 s
  some (⟨year, month, day⟩, s)

/-- A date and a time of the lenient form, with something between them. -/
def lenientMoment (between : List Char → Option (List Char)) (s : List Char) :
    Option Moment := do
  let (date, s) ← lenientDate s
  let s ← between s
  let (hour, s) ← lenient 2 s
  let s ← literal ':' s
  let (minute, s) ← lenient 2 s
  let s ← literal ':' s
  let (second, s) ← lenient 2 s
  let (nanos, s) ← fraction? s
  if s.isEmpty then some ⟨date, hour, minute, second, nanos⟩ else none

def bareDate (s : List Char) : Option Moment := do
  let (date, s) ← lenientDate s
  if s.isEmpty then some ⟨date, 0, 0, 0, 0⟩ else none

/-- Reads a timestamp in any of the four forms; without an offset it is told at 0. -/
def read? (text : String) : Option Timestamp :=
  let s := text.toList
  (strict s).orElse fun _ =>
  ((lenientMoment (literal 'T') s).bind (·.at? 0)).orElse fun _ =>
  ((lenientMoment (fun rest => some (skipBlanks rest)) s).bind (·.at? 0)).orElse fun _ =>
  (bareDate s).bind (·.at? 0)

/-- What clocks at the offset show: the number of the day, and the seconds since
midnight. -/
def shown (t : Timestamp) : Int × Nat :=
  let clock := t.seconds + t.offset
  (clock / 86400, (clock % 86400).toNat)

/-- The same instant, told at offset 0. -/
def atZero (t : Timestamp) : Timestamp := ⟨t.seconds, t.nanos, 0⟩

end Timestamp

end ScriptHooks.Calendar

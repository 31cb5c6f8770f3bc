/-
ScriptHooks.Calendar.Civil — days and their dates in the Gregorian calendar.

Days are numbered from 1 January 1970, which is day 0, in both directions. Years are
counted from March, so that the leap day comes last, and in cycles of four hundred
years, which all have the same number of days. `Date.dayNumber` and `Date.ofDayNumber`
go from one form to the other.
-/
namespace ScriptHooks.Calendar

/-- A day by its year, month (from 1) and day of the month (from 1). -/
structure Date where
  year : Int
  month : Nat
  day : Nat
deriving DecidableEq, Repr

/-- Every fourth year is a leap year, but of the centuries only every fourth. -/
def isLeapYear (year : Int) : Bool :=
  year % 4 = 0 && (year % 100 ≠ 0 || year % 400 = 0)

def daysInMonth (year : Int) (month : Nat) : Nat :=
  if month = 2 then (if isLeapYear year then 29 else 28)
  else if month = 4 || month = 6 || month = 9 || month = 11 then 30
  else 31

def Date.exists? (d : Date) : Bool :=
  1 ≤ d.month && d.month ≤ 12 && 1 ≤ d.day && d.day ≤ daysInMonth d.year d.month

/-- The days from 1 March of the year 0 to 1 January 1970. -/
def epochShift : Int := 719468

def Date.dayNumber (d : Date) : Int :=
  let year := if d.month ≤ 2 then d.year - 1 else d.year
  let month : Int := (((d.month + 9) % 12 : Nat) : Int)
  365 * year + year / 4 - year / 100 + year / 400
    + (153 * month + 2) / 5 + (d.day : Int) - 1 - epochShift

def Date.ofDayNumber (n : Int) : Date :=
  let shifted := n + epochShift
  let cycle := shifted / 146097
  let inCycle := shifted % 146097
  let year := (inCycle - inCycle / 1460 + inCycle / 36524 - inCycle / 146096) / 365
  let inYear := inCycle - (365 * year + year / 4 - year / 100)
  let month := (5 * inYear + 2) / 153
  let day := inYear - (153 * month + 2) / 5 + 1
  let civilMonth := if month < 10 then month + 3 else month - 9
  let civilYear := year + cycle * 400 + (if civilMonth ≤ 2 then 1 else 0)
  ⟨civilYear, civilMonth.toNat, day.toNat⟩

/-- The day of the week; Monday is 0. -/
def weekday (dayNumber : Int) : Nat := ((dayNumber + 3) % 7).toNat

/-- The day of the year, from 1. -/
def Date.ordinal (d : Date) : Nat :=
  (d.dayNumber - (Date.mk d.year 1 1).dayNumber + 1).toNat

/-- The year and number of the week of a day: a week starts on Monday and belongs to
the year of its Thursday. -/
def isoWeek (dayNumber : Int) : Int × Nat :=
  let thursday := dayNumber - weekday dayNumber + 3
  let date := Date.ofDayNumber thursday
  (date.year, (date.ordinal - 1) / 7 + 1)

/-- The number of the week of a day whose weeks start at `first`, the days before the
first such day being week 0. -/
def weekOfYear (dayNumber : Int) (first : Nat) : Nat :=
  let since := (weekday dayNumber + 7 - first) % 7
  ((Date.ofDayNumber dayNumber).ordinal + 6 - since) / 7

def monthNames : List String :=
  ["January", "February", "March", "April", "May", "June", "July", "August", "September",
    "October", "November", "December"]

def weekdayNames : List String :=
  ["Monday", "Tuesday", "Wednesday", "Thursday", "Friday", "Saturday", "Sunday"]

end ScriptHooks.Calendar

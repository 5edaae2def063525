/-! Dates of the calendar with leap years every fourth year, save full centuries that are no
multiple of four hundred. Days are counted from the first day of year 1, a Monday. -/

namespace Curbside

/-- A year, a month from 1 and a day of the month from 1. -/
structure Date where
  year : Nat
  month : Nat
  day : Nat
  deriving DecidableEq, Repr

namespace Date

def isLeap (year : Nat) : Bool := year % 4 == 0 && (year % 100 != 0 || year % 400 == 0)

/-- How many days each month of a year has. -/
def monthLengths (year : Nat) : List Nat :=
  [31, if isLeap year then 29 else 28, 31, 30, 31, 30, 31, 31, 30, 31, 30, 31]

/-- How many days a month has. A month that is none has no days. -/
def monthLength (year month : Nat) : Nat :=
  if month = 0 then 0 else ((monthLengths year)[month - 1]?).getD 0

def daysBeforeYear (year : Nat) : Nat :=
  let past := year - 1
  past * 365 + past / 4 - past / 100 + past / 400

/-- How many days of a year come before a month. -/
def daysBeforeMonth (year month : Nat) : Nat :=
  ((monthLengths year).take (month - 1)).foldl (· + ·) 0

/-- Whether there is such a date in the years 1 to 9999. -/
def isValid (date : Date) : Bool :=
  1 ≤ date.year && date.year ≤ 9999 && 1 ≤ date.day && date.day ≤ monthLength date.year date.month

/-- The number of a date, counted from the first day of year 1 as 0. -/
def dayNumber (date : Date) : Nat :=
  daysBeforeYear date.year + daysBeforeMonth date.year date.month + (date.day - 1)

/-- Walk through the months until a day of the year falls into one. -/
def inMonth : List Nat → (month day : Nat) → Nat × Nat
  | [], month, day => (month, day + 1)
  | length :: more, month, day =>
    if day < length then (month, day + 1) else inMonth more (month + 1) (day - length)

/-- The date with a number. Four centuries, one century, four years and one year are split off
in turn; the last day of a leap year and of four centuries belongs to the year that ends. -/
def ofDayNumber (n : Nat) : Date :=
  let inCycle := n % 146097
  let century := min (inCycle / 36524) 3
  let inCentury := inCycle - century * 36524
  let inFour := inCentury % 1461
  let past := min (inFour / 365) 3
  let year := n / 146097 * 400 + century * 100 + inCentury / 1461 * 4 + past + 1
  let (month, day) := inMonth (monthLengths year) 1 (inFour - past * 365)
  ⟨year, month, day⟩

end Date

end Curbside

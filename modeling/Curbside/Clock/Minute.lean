/-! The face of a clock: the minutes of a day, counted from midnight, and how a number of
minutes is written as hours and minutes. -/

namespace Curbside

/-- A minute of the day, from 0 at midnight to 1439. -/
abbrev Minute : Type := Fin 1440

namespace Minute

def midnight : Minute := 0

def noon : Minute := 720

/-- The minute that an hour and its minute name on a 24-hour clock, if there is one. -/
def ofClock? (hour minute : Nat) : Option Minute :=
  if h : hour ≤ 23 ∧ minute ≤ 59 then some ⟨hour * 60 + minute, by omega⟩ else none

end Minute

/-- A number in decimal digits, filled up with zeros to a width that counts the sign. -/
def paddedDigits (width : Nat) (n : Int) : List Char :=
  let digits := Nat.toDigits 10 n.natAbs
  let sign := if n < 0 then ['-'] else []
  sign ++ List.replicate (width - sign.length - digits.length) '0' ++ digits

/-- Any number of minutes as hours and minutes. A negative number has a negative hour and a
minute from 00 to 59, as the remainder of a floored division. -/
def hoursAndMinutes (minutes : Int) : List Char :=
  paddedDigits 2 (Int.fdiv minutes 60) ++ ':' :: paddedDigits 2 (Int.fmod minutes 60)

end Curbside

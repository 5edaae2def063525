import Curbside.Window.Basic

/-! The readings at which windows open and close, and the first of them at which something
changes. Looking past the end of the calendar is a failure, even on days that no window
lists. -/

namespace Curbside

/-- Insert a number into an ascending list without repetitions. -/
def insertOnce (n : Int) : List Int → List Int
  | [] => [n]
  | first :: rest =>
    if n < first then n :: first :: rest
    else if n = first then first :: rest
    else first :: insertOnce n rest

/-- The numbers of a list in ascending order, without repetitions. -/
def ascending (numbers : List Int) : List Int := numbers.foldr insertOnce []

namespace Window

/-- The opening and closing on a day, or neither if the window does not list it. The day and the
day of closing must lie in the calendar. -/
def boundariesOn (window : Window) (day : Int) : Except Failure (List Wall) :=
  if !Wall.hasDay day then .error .outsideCalendar
  else if !window.days.has (Wall.weekdayOf day) then .ok []
  else if !Wall.hasDay (window.closingDay day) then .error .outsideCalendar
  else .ok [window.opening day, window.closing day]

/-- The days from the day before a reading up to a number of days after it. -/
def searchedDays (after : Wall) (horizon : Int) : List Int :=
  (List.range (horizon + 2).toNat).map fun (n : Nat) => after.day - 1 + (n : Int)

/-- The openings and closings later than a reading, on the searched days, in order. -/
def boundaries (window : Window) (after : Wall) (horizon : Int) : Except Failure (List Wall) := do
  let found ← (searchedDays after horizon).mapM window.boundariesOn
  return ascending (found.flatten.filter (after < ·))

/-- Days ahead within which every window opens or closes: seven, and one for windows that wrap. -/
def horizon : Int := 8

/-- Whether one of the windows is active at a reading and was not a minute before, or the other
way round. -/
def flips (windows : List Window) (wall : Wall) : Bool :=
  windows.any fun window =>
    window.activeAt wall != window.activeAt (wall - Wall.minuteLength)

/-- The first reading after another at which one of the windows opens or closes in earnest. Where
one closes as it opens again, nothing changes. -/
def nextChange (windows : List Window) (after : Wall) : Except Failure (Option Wall) := do
  let found ← windows.mapM fun window => window.boundaries after horizon
  return (ascending found.flatten).find? (flips windows)

end Window

end Curbside

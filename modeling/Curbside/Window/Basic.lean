import Curbside.Calendar.Wall

/-! A window is the part of the week during which a rule holds: from a start to a finish on
certain days. A finish before the start falls on the next day, and equal ends mean the whole
day. -/

namespace Curbside

/-- Two minutes of the day and the days on which the first of them counts. There is at least one
day. -/
structure Window where
  start : Minute
  finish : Minute
  days : DaySet
  hasDays : days ≠ DaySet.empty
  deriving DecidableEq

namespace Window

/-- A window on certain days, or on all days if none is given. -/
def onDays (start finish : Minute) (days : DaySet) : Window :=
  ⟨start, finish, days.orAll, days.orAll_ne_empty⟩

def wrapsMidnight (window : Window) : Bool := window.finish < window.start

def isAllDay (window : Window) : Bool := window.start = window.finish

/-- Whether a window holds at a reading of the wall clock. Past midnight, a window that wraps
belongs to the day before. -/
def activeAt (window : Window) (wall : Wall) : Bool :=
  let today := wall.weekday
  let now := wall.minute
  if window.isAllDay then window.days.has today
  else if window.wrapsMidnight then
    (window.start ≤ now && window.days.has today)
      || (now < window.finish && window.days.has today.previous)
  else window.days.has today && window.start ≤ now && now < window.finish

/-- The reading at which the window opens on a day. A window of whole days opens at midnight. -/
def opening (window : Window) (day : Int) : Wall :=
  Wall.atMinute day (if window.isAllDay then Minute.midnight else window.start)

/-- The day on which the window that opens on a day closes. -/
def closingDay (window : Window) (day : Int) : Int :=
  if window.isAllDay || window.wrapsMidnight then day + 1 else day

/-- The reading at which the window that opens on a day closes. -/
def closing (window : Window) (day : Int) : Wall :=
  Wall.atMinute (window.closingDay day) (if window.isAllDay then Minute.midnight else window.finish)

end Window

end Curbside

import Curbside.Calendar.Date
import Curbside.Clock.Minute
import Curbside.Days.DaySet
import Curbside.Failure

/-! Readings of the clock on the wall, as microseconds since the first midnight of year 1. The
weekday and the minute of the day follow from the count alone, so they repeat every week
in both directions without end. -/

namespace Curbside

/-- Microseconds since the first midnight of year 1, on the wall clock. -/
abbrev Wall : Type := Int

namespace Wall

/-- Microseconds in a second. -/
def secondLength : Int := 1000000

def minuteLength : Int := 60 * secondLength

def dayLength : Int := 1440 * minuteLength

/-- How many days the years 1 to 9999 have. -/
def dayCount : Int := 3652059

/-- Whether a day lies in the years 1 to 9999. -/
def hasDay (day : Int) : Bool := 0 ≤ day && day < dayCount

/-- Whether a reading lies in the years 1 to 9999. -/
def inCalendar (wall : Wall) : Bool := 0 ≤ wall && wall < dayCount * dayLength

def checked (wall : Wall) : Except Failure Wall :=
  if inCalendar wall then .ok wall else .error .outsideCalendar

def day (wall : Wall) : Int := wall / dayLength

def sinceMidnight (wall : Wall) : Int := wall % dayLength

/-- The weekday of a day. The first day of year 1 is a Monday. -/
def weekdayOf (day : Int) : Weekday :=
  ⟨(day % 7).toNat, by omega⟩

def weekday (wall : Wall) : Weekday := weekdayOf wall.day

/-- The minute of the day of a reading. Seconds are cut off. -/
def minute (wall : Wall) : Minute :=
  ⟨(wall.sinceMidnight / minuteLength).toNat, by
    unfold sinceMidnight dayLength minuteLength secondLength
    omega⟩

def atMinute (day : Int) (minute : Minute) : Wall := day * dayLength + minute.val * minuteLength

def date (wall : Wall) : Date := Date.ofDayNumber wall.day.toNat

def ofDate (date : Date) : Wall := date.dayNumber * dayLength

end Wall

end Curbside

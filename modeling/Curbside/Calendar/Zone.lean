import Curbside.Calendar.Wall

/-! Time zones. A zone has a standard offset from universal time and perhaps a summer time,
which starts and ends by the same two rules every year. -/

namespace Curbside

/-- The moment of a yearly change: a week of a month, where week 5 is the last, a weekday, and
the seconds after its midnight on the wall clock before the change. -/
structure YearlyChange where
  month : Nat
  week : Nat
  weekday : Weekday
  seconds : Int
  deriving DecidableEq, Repr

/-- An offset that holds from one yearly change to another. -/
structure SummerTime where
  offset : Int
  start : YearlyChange
  finish : YearlyChange
  deriving DecidableEq, Repr

/-- A zone, with offsets in seconds east of universal time. -/
structure Zone where
  standard : Int
  summer : Option SummerTime
  deriving DecidableEq, Repr

namespace YearlyChange

/-- The day of the month on which the change falls in a year. -/
def dayOfMonth (change : YearlyChange) (year : Nat) : Nat :=
  let firstWeekday := Wall.weekdayOf (Date.dayNumber ⟨year, change.month, 1⟩)
  let first := (change.weekday - firstWeekday).val + 1
  let day := first + (change.week - 1) * 7
  if Date.monthLength year change.month < day then day - 7 else day

/-- The reading of the wall clock at which the change happens in a year. -/
def wallIn (change : YearlyChange) (year : Nat) : Wall :=
  Wall.ofDate ⟨year, change.month, change.dayOfMonth year⟩ + change.seconds * Wall.secondLength

end YearlyChange

namespace SummerTime

/-- Whether a reading lies between two changes of a year, or not between them if the second
comes first. -/
def spans (start finish wall : Wall) : Bool :=
  if start < finish then start ≤ wall && wall < finish
  else !(finish ≤ wall && wall < start)

end SummerTime

namespace Zone

def fixed (offset : Int) : Zone := ⟨offset, none⟩

/-- The offset in force at a reading of the wall clock. A reading that the clock skips has the
offset before the change. One that it shows twice has the first offset, or the second if
the second pass is meant. -/
def offsetAt (zone : Zone) (wall : Wall) (secondPass : Bool) : Int :=
  match zone.summer with
  | none => zone.standard
  | some summer =>
    let year := wall.date.year
    let shift := (summer.offset - zone.standard) * Wall.secondLength
    let start := summer.start.wallIn year
    let finish := summer.finish.wallIn year
    let isSummer :=
      if secondPass == (0 ≤ shift : Bool) then SummerTime.spans start (finish - shift) wall
      else SummerTime.spans (start + shift) finish wall
    if isSummer then summer.offset else zone.standard

/-- The offset in force at a reading of a clock that shows universal time, and whether the wall
clock then passes through its reading for the second time. -/
def offsetFromUniversal (zone : Zone) (universal : Wall) : Int × Bool :=
  match zone.summer with
  | none => (zone.standard, false)
  | some summer =>
    let year := universal.date.year
    let shift := (summer.offset - zone.standard) * Wall.secondLength
    let start := summer.start.wallIn year - zone.standard * Wall.secondLength
    let finish := summer.finish.wallIn year - summer.offset * Wall.secondLength
    let offset := if SummerTime.spans start finish universal then summer.offset else zone.standard
    let repeats :=
      if 0 < shift then finish ≤ universal && universal < finish + shift
      else start ≤ universal && universal < start - shift
    (offset, repeats)

def hours (n : Int) : Int := n * 3600

def minutes (n : Int) : Int := n * 60

/-- A zone with summer time on Sundays from 2 o'clock to 2 o'clock. -/
def withSummer (standard offset : Int) (startMonth startWeek finishMonth finishWeek : Nat) : Zone :=
  ⟨standard, some ⟨offset, ⟨startMonth, startWeek, .sunday, hours 2⟩,
    ⟨finishMonth, finishWeek, .sunday, hours 2⟩⟩⟩

/-- From the second Sunday in March to the first Sunday in November, one hour ahead. -/
def northAmerican (standard : Int) : Zone := withSummer standard (standard + hours 1) 3 2 11 1

def known : List (String × Zone) :=
  [("America/New_York", northAmerican (hours (-5))),
    ("America/Los_Angeles", northAmerican (hours (-8))),
    ("America/St_Johns", northAmerican (minutes (-210))),
    ("America/Phoenix", fixed (hours (-7))),
    ("Europe/London",
      ⟨0, some ⟨hours 1, ⟨3, 5, .sunday, hours 1⟩, ⟨10, 5, .sunday, hours 2⟩⟩⟩),
    ("Australia/Sydney",
      ⟨hours 10, some ⟨hours 11, ⟨10, 1, .sunday, hours 2⟩, ⟨4, 1, .sunday, hours 3⟩⟩⟩),
    ("Australia/Lord_Howe", withSummer (minutes 630) (hours 11) 10 1 4 1),
    ("Asia/Kolkata", fixed (minutes 330)),
    ("Asia/Kathmandu", fixed (minutes 345)),
    ("Pacific/Kiritimati", fixed (hours 14)),
    ("UTC", fixed 0),
    ("Etc/GMT+5", fixed (hours (-5)))]

def named (name : String) : Except Failure Zone :=
  match known.lookup name with
  | some zone => .ok zone
  | none => .error (.unknownZone name)

end Zone

end Curbside

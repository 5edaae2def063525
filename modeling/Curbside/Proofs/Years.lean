import Curbside.Calendar.Zone
import Curbside.Proofs.WallClock
import Mathlib.Order.Monotone.Basic
import Mathlib.Tactic.IntervalCases
import Mathlib.Tactic.Ring

/-! Where the years begin on the wall clock, and where in them the yearly changes of a zone fall. A
change that keeps away from the first and the last month is weeks away from the turn of the
year, and two that are months apart are weeks apart in every year. -/

namespace Curbside.Proofs.Years
open Wall WallClock

theorem daysBeforeYear_step (year : Nat) :
    Date.daysBeforeYear (year + 1) + 365 ≤ Date.daysBeforeYear (year + 2) := by
  simp only [Date.daysBeforeYear]
  omega

theorem daysBeforeYear_mono : Monotone Date.daysBeforeYear := by
  apply monotone_nat_of_le_succ
  intro year
  cases year with
  | zero => decide
  | succ year => exact Nat.le_of_add_right_le (daysBeforeYear_step year)

/-- The days before a year, counted in whole cycles, centuries, four years and years. -/
theorem daysBeforeYear_of {year : Nat} (cycles centuries fours past : Nat)
    (split : year = cycles * 400 + centuries * 100 + fours * 4 + past + 1)
    (century : centuries ≤ 3) (four : fours ≤ 24) (one : past ≤ 3) :
    Date.daysBeforeYear year =
      cycles * 146097 + centuries * 36524 + fours * 1461 + past * 365 := by
  subst split
  simp only [Date.daysBeforeYear]
  omega

/-- A day is split into whole cycles, centuries, four years and years before it. -/
structure Split (n cycles centuries fours past : Nat) : Prop where
  century : centuries ≤ 3
  four : fours ≤ 24
  one : past ≤ 3
  begun : cycles * 146097 + centuries * 36524 + fours * 1461 + past * 365 ≤ n
  inCycle : n < (cycles + 1) * 146097
  inCentury : centuries < 3 → n < cycles * 146097 + (centuries + 1) * 36524
  inFours : fours < 24 → n < cycles * 146097 + centuries * 36524 + (fours + 1) * 1461
  inYear : past < 3 →
    n < cycles * 146097 + centuries * 36524 + fours * 1461 + (past + 1) * 365

theorem exists_split (n : Nat) : ∃ cycles centuries fours past, Split n cycles centuries fours past ∧
    (Date.ofDayNumber n).year = cycles * 400 + centuries * 100 + fours * 4 + past + 1 := by
  refine ⟨_, _, _, _, ?_, rfl⟩
  constructor <;> omega

/-- A day lies in the year of its date. -/
theorem day_in_year (n : Nat) :
    Date.daysBeforeYear (Date.ofDayNumber n).year ≤ n ∧
      n < Date.daysBeforeYear ((Date.ofDayNumber n).year + 1) := by
  obtain ⟨cycles, centuries, fours, past, split, year⟩ := exists_split n
  obtain ⟨century, four, one, begun, inCycle, inCentury, inFours, inYear⟩ := split
  refine ⟨by rw [daysBeforeYear_of _ _ _ _ year century four one]; exact begun, ?_⟩
  -- The next year is the next of four, or it begins the next four years, century or cycle.
  by_cases lastOne : past < 3
  · have next : (Date.ofDayNumber n).year + 1 =
        cycles * 400 + centuries * 100 + fours * 4 + (past + 1) + 1 := by omega
    rw [daysBeforeYear_of cycles centuries fours (past + 1) next century four lastOne]
    exact inYear lastOne
  · by_cases lastFour : fours < 24
    · have next : (Date.ofDayNumber n).year + 1 =
          cycles * 400 + centuries * 100 + (fours + 1) * 4 + 0 + 1 := by omega
      rw [daysBeforeYear_of cycles centuries (fours + 1) 0 next century lastFour (by omega)]
      simpa using inFours lastFour
    · by_cases lastCentury : centuries < 3
      · have next : (Date.ofDayNumber n).year + 1 =
            cycles * 400 + (centuries + 1) * 100 + 0 * 4 + 0 + 1 := by omega
        rw [daysBeforeYear_of cycles (centuries + 1) 0 0 next lastCentury (by omega) (by omega)]
        simpa using inCentury lastCentury
      · have next : (Date.ofDayNumber n).year + 1 =
            (cycles + 1) * 400 + 0 * 100 + 0 * 4 + 0 + 1 := by omega
        rw [daysBeforeYear_of (cycles + 1) 0 0 0 next (by omega) (by omega) (by omega)]
        simpa using inCycle

theorem year_eq {n year : Nat} (begun : Date.daysBeforeYear year ≤ n)
    (unfinished : n < Date.daysBeforeYear (year + 1)) : (Date.ofDayNumber n).year = year := by
  obtain ⟨begins, ends⟩ := day_in_year n
  rcases Nat.lt_trichotomy (Date.ofDayNumber n).year year with before | same | after
  · have later := daysBeforeYear_mono (show (Date.ofDayNumber n).year + 1 ≤ year from before)
    omega
  · exact same
  · have sooner := daysBeforeYear_mono (show year + 1 ≤ (Date.ofDayNumber n).year from after)
    omega

/-- The first midnight of a year. -/
def yearStart (year : Nat) : Wall := Date.daysBeforeYear year * dayLength

theorem year_of_reading {wall : Wall} {year : Nat} (begun : yearStart year ≤ wall)
    (unfinished : wall < yearStart (year + 1)) : wall.date.year = year := by
  apply year_eq
  · simp only [yearStart, Wall.day, dayLength_eq, Wall] at *
    omega
  · simp only [yearStart, Wall.day, dayLength_eq, Wall] at *
    omega

theorem yearStart_mono {first second : Nat} (ordered : first ≤ second) :
    yearStart first ≤ yearStart second := by
  have days := daysBeforeYear_mono ordered
  simp only [yearStart, dayLength_eq, Wall]
  omega

theorem yearStart_step {year : Nat} (started : 1 ≤ year) :
    yearStart year + 365 * dayLength ≤ yearStart (year + 1) := by
  obtain ⟨past, rfl⟩ := Nat.exists_eq_add_of_le' started
  have step : Date.daysBeforeYear (past + 1) + 365 ≤ Date.daysBeforeYear (past + 1 + 1) :=
    daysBeforeYear_step past
  simp only [yearStart, dayLength_eq, Wall]
  omega

theorem daysBeforeMonth_bounds (year : Nat) {month : Nat} (first : 2 ≤ month) (last : month ≤ 11) :
    31 ≤ Date.daysBeforeMonth year month ∧ Date.daysBeforeMonth year month ≤ 305 := by
  unfold Date.daysBeforeMonth Date.monthLengths
  cases Date.isLeap year <;> interval_cases month <;> decide

theorem daysBeforeMonth_apart (year : Nat) {one other : Nat} (first : 2 ≤ one)
    (apart : one + 3 ≤ other) (last : other ≤ 11) :
    Date.daysBeforeMonth year one + 89 ≤ Date.daysBeforeMonth year other := by
  have before : one ≤ 8 := by omega
  unfold Date.daysBeforeMonth Date.monthLengths
  cases Date.isLeap year <;> interval_cases one <;> interval_cases other <;> decide

theorem monthLength_bounds (year : Nat) {month : Nat} (first : 1 ≤ month) (last : month ≤ 12) :
    28 ≤ Date.monthLength year month ∧ Date.monthLength year month ≤ 31 := by
  unfold Date.monthLength Date.monthLengths
  cases Date.isLeap year <;> interval_cases month <;> decide

/-- A yearly change in a week of a month that is neither the first nor the last of the year, and
within a week of its day. -/
structure Settled (change : YearlyChange) : Prop where
  month : 2 ≤ change.month ∧ change.month ≤ 11
  week : 1 ≤ change.week ∧ change.week ≤ 5
  time : -604800 ≤ change.seconds ∧ change.seconds ≤ 604800

instance (change : YearlyChange) : Decidable (Settled change) :=
  decidable_of_iff ((2 ≤ change.month ∧ change.month ≤ 11) ∧ (1 ≤ change.week ∧ change.week ≤ 5) ∧
      (-604800 ≤ change.seconds ∧ change.seconds ≤ 604800))
    ⟨fun holds => ⟨holds.1, holds.2.1, holds.2.2⟩,
      fun settled => ⟨settled.month, settled.week, settled.time⟩⟩

theorem dayOfMonth_bounds {change : YearlyChange} (settled : Settled change) (year : Nat) :
    1 ≤ change.dayOfMonth year ∧ change.dayOfMonth year ≤ 31 := by
  obtain ⟨first, last⟩ := settled.month
  obtain ⟨firstWeek, lastWeek⟩ := settled.week
  have length := monthLength_bounds year (show 1 ≤ change.month by omega) (by omega)
  unfold YearlyChange.dayOfMonth
  have weekday := (change.weekday - weekdayOf (Date.dayNumber ⟨year, change.month, 1⟩)).isLt
  dsimp only
  split <;> omega

theorem wallIn_eq (change : YearlyChange) (year : Nat) :
    change.wallIn year = yearStart year +
      (Date.daysBeforeMonth year change.month + (change.dayOfMonth year - 1 : Nat)) * dayLength +
      change.seconds * secondLength := by
  simp only [YearlyChange.wallIn, ofDate, Date.dayNumber, yearStart]
  push_cast
  ring

theorem wallIn_bounds {change : YearlyChange} (settled : Settled change) (year : Nat) :
    yearStart year + 24 * dayLength ≤ change.wallIn year ∧
      change.wallIn year ≤ yearStart year + 342 * dayLength := by
  have month := daysBeforeMonth_bounds year settled.month.1 settled.month.2
  have day := dayOfMonth_bounds settled year
  have time := settled.time
  have second : secondLength = 1000000 := rfl
  rw [wallIn_eq, dayLength_eq, second]
  simp only [Wall]
  omega

theorem wallIn_apart {one other : YearlyChange} (first : Settled one) (second : Settled other)
    (apart : one.month + 3 ≤ other.month) (year : Nat) :
    one.wallIn year + 45 * dayLength ≤ other.wallIn year := by
  have month := daysBeforeMonth_apart year first.month.1 apart second.month.2
  have day := dayOfMonth_bounds first year
  have otherDay := dayOfMonth_bounds second year
  have time := first.time
  have otherTime := second.time
  have length : secondLength = 1000000 := rfl
  rw [wallIn_eq, wallIn_eq, dayLength_eq, length]
  simp only [Wall]
  omega

end Curbside.Proofs.Years

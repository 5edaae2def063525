import Curbside.Calendar.Wall

/-! The wall clock is only ever compared with readings at the start of a minute. Such a
comparison depends on the day and the minute of a reading, not on its seconds, and it comes out
the same a week later. -/

namespace Curbside.Proofs.WallClock
open Wall

def weekLength : Int := 7 * dayLength

/-- A reading at which a minute starts. -/
def OnMinute (wall : Wall) : Prop := wall % minuteLength = 0

theorem dayLength_eq : dayLength = 86400000000 := rfl

theorem minuteLength_eq : minuteLength = 60000000 := rfl

theorem minute_val (wall : Wall) : (wall.minute.val : Int) = wall % dayLength / minuteLength := by
  simp only [minute, sinceMidnight, dayLength_eq, minuteLength_eq, Wall]
  omega

/-- A reading comes before the start of a minute exactly if its day or its own minute does. -/
theorem lt_atMinute_iff (wall : Wall) (day : Int) (minute : Minute) :
    wall < atMinute day minute ↔ wall.day < day ∨ wall.day = day ∧ wall.minute < minute := by
  have own := minute_val wall
  have inside := minute.isLt
  simp only [Fin.lt_def, atMinute, Wall.day, dayLength_eq, minuteLength_eq, Wall] at own ⊢
  omega

theorem atMinute_le_iff (wall : Wall) (day : Int) (minute : Minute) :
    atMinute day minute ≤ wall ↔ day < wall.day ∨ wall.day = day ∧ minute ≤ wall.minute := by
  rw [← Int.not_lt, lt_atMinute_iff, Fin.lt_def, Fin.le_def]
  omega

theorem onMinute_atMinute (day : Int) (minute : Minute) : OnMinute (atMinute day minute) := by
  simp only [OnMinute, atMinute, dayLength_eq, minuteLength_eq, Wall]
  omega

theorem day_atMinute (day : Int) (minute : Minute) : (atMinute day minute).day = day := by
  have inside := minute.isLt
  simp only [atMinute, Wall.day, dayLength_eq, minuteLength_eq]
  omega

theorem day_mono {first second : Wall} (ordered : first ≤ second) : first.day ≤ second.day := by
  simp only [Wall.day, dayLength_eq, Wall] at *
  omega

theorem day_start (wall : Wall) :
    wall.day * dayLength ≤ wall ∧ wall < (wall.day + 1) * dayLength := by
  simp only [Wall.day, dayLength_eq, Wall]
  omega

theorem day_lt_of_lt {wall : Wall} {day : Int} (before : wall < day * dayLength) :
    wall.day < day := by
  simp only [Wall.day, dayLength_eq, Wall] at *
  omega

theorem inCalendar_iff (wall : Wall) :
    inCalendar wall = true ↔ 0 ≤ wall.day ∧ wall.day < dayCount := by
  rw [inCalendar, Bool.and_eq_true, decide_eq_true_eq, decide_eq_true_eq]
  simp only [Wall.day, dayCount, dayLength_eq, Wall]
  omega

theorem hasDay_iff (day : Int) : hasDay day = true ↔ 0 ≤ day ∧ day < dayCount := by
  simp [hasDay]

/-- Just before a minute starts, the clock still shows the minute before. -/
theorem before_minute {wall : Wall} (starts : OnMinute wall) :
    (wall - minuteLength).day = (wall - 1).day ∧ (wall - minuteLength).minute = (wall - 1).minute := by
  have first := minute_val (wall - minuteLength)
  have second := minute_val (wall - 1)
  simp only [OnMinute, Fin.ext_iff, Wall.day, dayLength_eq, minuteLength_eq, Wall]
    at starts first second ⊢
  omega

theorem day_add_weeks (wall : Wall) (weeks : Int) :
    (wall + weeks * weekLength).day = wall.day + weeks * 7 := by
  simp only [Wall.day, weekLength, dayLength_eq, Wall]
  omega

theorem minute_add_weeks (wall : Wall) (weeks : Int) :
    (wall + weeks * weekLength).minute = wall.minute := by
  have first := minute_val (wall + weeks * weekLength)
  have second := minute_val wall
  simp only [Fin.ext_iff, weekLength, dayLength_eq, minuteLength_eq, Wall] at first second ⊢
  omega

theorem weekdayOf_add_weeks (day weeks : Int) : weekdayOf (day + weeks * 7) = weekdayOf day := by
  simp only [weekdayOf, Fin.mk.injEq]
  omega

/-- A reading is whole weeks away from one in the week that follows a start. -/
theorem within_week (start wall : Wall) :
    ∃ (reading : Wall) (weeks : Int), start ≤ reading ∧ reading < start + weekLength ∧
      wall = reading + weeks * weekLength := by
  have positive : 0 < weekLength := by decide
  have split := Int.emod_add_mul_ediv (wall - start) weekLength
  have lower := Int.emod_nonneg (wall - start) (Int.ne_of_gt positive)
  have upper := Int.emod_lt_of_pos (wall - start) positive
  refine ⟨start + (wall - start) % weekLength, (wall - start) / weekLength, by lia, by lia, ?_⟩
  rw [Int.mul_comm] at split
  lia

theorem previous_weekdayOf (day : Int) : (weekdayOf day).previous = weekdayOf (day - 1) := by
  simp only [weekdayOf, Weekday.previous, Fin.mk.injEq]
  omega

end Curbside.Proofs.WallClock

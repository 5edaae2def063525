import Curbside.Proofs.WallClock
import Curbside.Window.Boundaries

/-! A window is open exactly during its occurrences. Each occurrence belongs to one listed day,
on which it opens, and lasts until the closing that belongs to that day. A window that wraps
closes on the day after, so a reading can lie inside an occurrence of its own day or of the
day before, and of no other. -/

namespace Curbside.Proofs.Occurrence
open Wall WallClock

/-- A reading lies inside the occurrence that opens on a day. -/
structure Inside (window : Window) (day : Int) (wall : Wall) : Prop where
  listed : window.days.has (weekdayOf day) = true
  opened : window.opening day ≤ wall
  unclosed : wall < window.closing day

theorem inside_allDay {window : Window} (whole : window.isAllDay = true) (day : Int) (wall : Wall) :
    Inside window day wall ↔ window.days.has (weekdayOf day) = true ∧ wall.day = day := by
  have opening : window.opening day = atMinute day Minute.midnight := by simp [Window.opening, whole]
  have closing : window.closing day = atMinute (day + 1) Minute.midnight := by
    simp [Window.closing, Window.closingDay, whole]
  constructor
  · intro ⟨listed, opened, unclosed⟩
    rw [opening, atMinute_le_iff] at opened
    rw [closing, lt_atMinute_iff] at unclosed
    refine ⟨listed, ?_⟩
    simp only [Minute.midnight, Fin.lt_def] at unclosed
    omega
  · intro ⟨listed, same⟩
    subst same
    refine ⟨listed, ?_, ?_⟩
    · rw [opening, atMinute_le_iff]
      exact Or.inr ⟨rfl, Nat.zero_le _⟩
    · rw [closing, lt_atMinute_iff]
      exact Or.inl (by omega)

theorem inside_wrapping {window : Window} (part : window.isAllDay = false)
    (wraps : window.wrapsMidnight = true) (day : Int) (wall : Wall) :
    Inside window day wall ↔ window.days.has (weekdayOf day) = true ∧
      (wall.day = day ∧ window.start ≤ wall.minute ∨
        wall.day = day + 1 ∧ wall.minute < window.finish) := by
  have opening : window.opening day = atMinute day window.start := by simp [Window.opening, part]
  have closing : window.closing day = atMinute (day + 1) window.finish := by
    simp [Window.closing, Window.closingDay, part, wraps]
  constructor
  · intro ⟨listed, opened, unclosed⟩
    rw [opening, atMinute_le_iff] at opened
    rw [closing, lt_atMinute_iff] at unclosed
    refine ⟨listed, ?_⟩
    rcases unclosed with early | ⟨next, early⟩
    · rcases opened with later | ⟨same, late⟩
      · omega
      · exact Or.inl ⟨same, late⟩
    · exact Or.inr ⟨next, early⟩
  · intro ⟨listed, reached⟩
    rcases reached with ⟨same, late⟩ | ⟨next, early⟩
    · subst same
      refine ⟨listed, ?_, ?_⟩
      · rw [opening, atMinute_le_iff]
        exact Or.inr ⟨rfl, late⟩
      · rw [closing, lt_atMinute_iff]
        exact Or.inl (by omega)
    · refine ⟨listed, ?_, ?_⟩
      · rw [opening, atMinute_le_iff]
        exact Or.inl (by omega)
      · rw [closing, lt_atMinute_iff]
        exact Or.inr ⟨next, early⟩

theorem inside_plain {window : Window} (part : window.isAllDay = false)
    (stays : window.wrapsMidnight = false) (day : Int) (wall : Wall) :
    Inside window day wall ↔ window.days.has (weekdayOf day) = true ∧
      wall.day = day ∧ window.start ≤ wall.minute ∧ wall.minute < window.finish := by
  have opening : window.opening day = atMinute day window.start := by simp [Window.opening, part]
  have closing : window.closing day = atMinute day window.finish := by
    simp [Window.closing, Window.closingDay, part, stays]
  constructor
  · intro ⟨listed, opened, unclosed⟩
    rw [opening, atMinute_le_iff] at opened
    rw [closing, lt_atMinute_iff] at unclosed
    rcases opened with later | ⟨same, late⟩
    · omega
    · rcases unclosed with earlier | ⟨_, early⟩
      · omega
      · exact ⟨listed, same, late, early⟩
  · intro ⟨listed, same, late, early⟩
    subst same
    refine ⟨listed, ?_, ?_⟩
    · rw [opening, atMinute_le_iff]
      exact Or.inr ⟨rfl, late⟩
    · rw [closing, lt_atMinute_iff]
      exact Or.inr ⟨rfl, early⟩

/-- An occurrence covers readings of the day on which it opens and of the day after. -/
theorem Inside.day {window : Window} {day : Int} {wall : Wall} (inside : Inside window day wall) :
    wall.day = day ∨ wall.day = day + 1 := by
  cases whole : window.isAllDay with
  | true => exact Or.inl ((inside_allDay whole day wall).mp inside).2
  | false =>
    cases wraps : window.wrapsMidnight with
    | true =>
      rcases ((inside_wrapping whole wraps day wall).mp inside).2 with ⟨same, _⟩ | ⟨next, _⟩
      · exact Or.inl same
      · exact Or.inr next
    | false => exact Or.inl ((inside_plain whole wraps day wall).mp inside).2.1

theorem activeAt_iff (window : Window) (wall : Wall) :
    window.activeAt wall = true ↔ ∃ day, Inside window day wall := by
  cases whole : window.isAllDay with
  | true =>
    simp only [Window.activeAt, whole, if_true, weekday, inside_allDay whole]
    constructor
    · exact fun listed => ⟨wall.day, listed, rfl⟩
    · intro ⟨day, listed, same⟩
      subst same
      exact listed
  | false =>
    cases wraps : window.wrapsMidnight with
    | true =>
      simp only [Window.activeAt, whole, wraps, if_true, Bool.false_eq_true, if_false, weekday,
        previous_weekdayOf, Bool.or_eq_true, Bool.and_eq_true, decide_eq_true_eq,
        inside_wrapping whole wraps]
      constructor
      · intro holds
        rcases holds with ⟨late, listed⟩ | ⟨early, listed⟩
        · exact ⟨wall.day, listed, Or.inl ⟨rfl, late⟩⟩
        · exact ⟨wall.day - 1, listed, Or.inr ⟨by omega, early⟩⟩
      · intro ⟨day, listed, reached⟩
        rcases reached with ⟨same, late⟩ | ⟨next, early⟩
        · subst same
          exact Or.inl ⟨late, listed⟩
        · obtain rfl : day = wall.day - 1 := by omega
          exact Or.inr ⟨early, listed⟩
    | false =>
      simp only [Window.activeAt, whole, wraps, Bool.false_eq_true, if_false, weekday,
        Bool.and_eq_true, decide_eq_true_eq, inside_plain whole wraps]
      constructor
      · intro ⟨⟨listed, late⟩, early⟩
        exact ⟨wall.day, listed, rfl, late, early⟩
      · intro ⟨day, listed, same, late, early⟩
        subst same
        exact ⟨⟨listed, late⟩, early⟩

end Curbside.Proofs.Occurrence

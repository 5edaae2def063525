import Curbside.Proofs.Composition
import Curbside.Proofs.Horizon

/-! Verdicts at the ends of the calendar. The search for the next change looks at the day before a
reading and at eight days after it, and on the last of them a window may close a day later still. So
there is no verdict on the first day of the calendar and in its last days, and one everywhere else. -/

namespace Curbside.Proofs.CalendarEnds
open Wall WallClock Horizon Attempt Curbside.Proofs.Composition

/-- The window opens on Fridays, and what opens on a day closes on the next. -/
def EndsOnSaturday (window : Window) : Prop :=
  window.days.has Weekday.friday = true ∧ window.finish ≤ window.start

/-- A reading too close to an end of the calendar for some rules. The very last day of the calendar is
a Friday. -/
inductive TooClose (rules : List Rule) (wall : Wall) : Prop where
  | first {rule : Rule} (listed : rule ∈ rules) (timed : rule.window ≠ none)
      (day : wall.day = Date.dayNumber ⟨1, 1, 1⟩)
  | last {rule : Rule} (listed : rule ∈ rules) (timed : rule.window ≠ none)
      (day : Date.dayNumber ⟨9999, 12, 24⟩ ≤ wall.day)
  | lastClosing {rule : Rule} {window : Window} (listed : rule ∈ rules)
      (timed : rule.window = some window) (closes : EndsOnSaturday window)
      (day : wall.day = Date.dayNumber ⟨9999, 12, 23⟩)

theorem firstDay_eq : (Date.dayNumber ⟨1, 1, 1⟩ : Int) = 0 := by decide

theorem lastSearched_eq : (Date.dayNumber ⟨9999, 12, 23⟩ : Int) = dayCount - 9 := by decide

theorem pastSearched_eq : (Date.dayNumber ⟨9999, 12, 24⟩ : Int) = dayCount - 8 := by decide

theorem lastDay_friday : weekdayOf (dayCount - 1) = Weekday.friday := by decide

theorem closingDay_eq (window : Window) (day : Int) :
    window.closingDay day = if window.finish ≤ window.start then day + 1 else day := by
  have next : (window.isAllDay || window.wrapsMidnight) = true ↔ window.finish ≤ window.start := by
    rw [Bool.or_eq_true, Window.isAllDay, Window.wrapsMidnight, decide_eq_true_eq,
      decide_eq_true_eq, Fin.ext_iff, Fin.lt_def, Fin.le_def]
    omega
  unfold Window.closingDay
  simp only [next]

theorem insideCalendar_iff (window : Window) (wall : Wall) :
    InsideCalendar window wall Window.horizon ↔ 1 ≤ wall.day ∧ wall.day + 9 ≤ dayCount ∧
      (wall.day + 9 = dayCount → ¬ EndsOnSaturday window) := by
  unfold InsideCalendar
  simp only [hasDay_iff, Window.horizon, closingDay_eq]
  constructor
  · intro inside
    obtain ⟨began, _⟩ := inside (wall.day - 1) (by omega) (by omega)
    obtain ⟨ended, closes⟩ := inside (wall.day + 8) (by omega) (by omega)
    refine ⟨by omega, by omega, ?_⟩
    rintro atEnd ⟨friday, next⟩
    have last : wall.day + 8 = dayCount - 1 := by omega
    rw [last, lastDay_friday, if_pos next] at closes
    have beyond := (closes friday).2
    omega
  · rintro ⟨began, ended, closes⟩ day first last
    refine ⟨by omega, ?_⟩
    intro listed
    split
    next next =>
      -- Only on the last day is there no next one.
      have notLast : day ≠ dayCount - 1 := by
        intro same
        rw [same, lastDay_friday] at listed
        exact closes (by omega) ⟨listed, next⟩
      omega
    next => omega

theorem boundariesOn_error {window : Window} {day : Int} {failure : Failure}
    (failed : window.boundariesOn day = .error failure) : failure = .outsideCalendar := by
  unfold Window.boundariesOn at failed
  split at failed
  · cases failed
    rfl
  · split at failed
    · cases failed
    · split at failed
      · cases failed
        rfl
      · cases failed

theorem evaluate_error {rules : List Rule} {moment : Moment} {failure : Failure}
    (failed : Verdict.evaluate rules moment = .error failure) : failure = .outsideCalendar := by
  have sought : Rule.nextChange rules moment.wall = .error failure :=
    error_of_bind failed fun change => nofun
  have found := error_of_bind sought fun found => nofun
  obtain ⟨window, _, searched⟩ := error_of_mapM found
  have looked := error_of_bind searched fun found => nofun
  obtain ⟨day, _, failed⟩ := error_of_mapM looked
  exact boundariesOn_error failed

theorem evaluates_iff_not_tooClose {rules : List Rule} {moment : Moment}
    (inside : inCalendar moment.wall = true) :
    (∃ verdict, Verdict.evaluate rules moment = .ok verdict) ↔ ¬ TooClose rules moment.wall := by
  obtain ⟨begun, unfinished⟩ := (inCalendar_iff moment.wall).mp inside
  have first := firstDay_eq
  have lastSearched := lastSearched_eq
  have pastSearched := pastSearched_eq
  rw [evaluates_iff]
  simp only [boundaries_ok_iff, insideCalendar_iff]
  constructor
  · intro reaches close
    have each : ∀ rule ∈ rules, ∀ window, rule.window = some window → 1 ≤ moment.wall.day ∧
        moment.wall.day + 9 ≤ dayCount ∧
        (moment.wall.day + 9 = dayCount → ¬ EndsOnSaturday window) :=
      fun rule listed window timed => reaches window (List.mem_filterMap.mpr ⟨rule, listed, timed⟩)
    cases close with
    | first listed timed day =>
      obtain ⟨window, timed⟩ := Option.ne_none_iff_exists'.mp timed
      obtain ⟨later, _⟩ := each _ listed window timed
      omega
    | last listed timed day =>
      obtain ⟨window, timed⟩ := Option.ne_none_iff_exists'.mp timed
      obtain ⟨_, earlier, _⟩ := each _ listed window timed
      omega
    | lastClosing listed timed closes day =>
      obtain ⟨_, _, opensOnly⟩ := each _ listed _ timed
      exact opensOnly (by omega) closes
  · intro far window listed
    obtain ⟨rule, listed, timed⟩ := List.mem_filterMap.mp listed
    have some : rule.window ≠ none := by simp [timed]
    refine ⟨?_, ?_, ?_⟩
    · apply Classical.byContradiction
      intro before
      exact far (.first listed some (by omega))
    · apply Classical.byContradiction
      intro after
      exact far (.last listed some (by omega))
    · intro atEnd closes
      exact far (.lastClosing listed timed closes (by omega))

/-- There is no verdict exactly where a search leaves the calendar: on its first day and in its last
eight days under any rule with a window, and on the day before these under a window that opens on the
last day and closes on the day after it. -/
theorem verdict_fails_iff (rules : List Rule) {moment : Moment}
    (inside : inCalendar moment.wall = true) :
    ((∃ failure, Verdict.evaluate rules moment = .error failure) ↔ TooClose rules moment.wall) ∧
      (∀ failure, Verdict.evaluate rules moment = .error failure → failure = .outsideCalendar) ∧
      (¬ TooClose rules moment.wall →
        ∃ verdict, Verdict.evaluate rules moment = .ok verdict) := by
  have answered : (∃ verdict, Verdict.evaluate rules moment = .ok verdict) ↔
      ¬ TooClose rules moment.wall := evaluates_iff_not_tooClose inside
  refine ⟨⟨?_, ?_⟩, fun failure => evaluate_error, answered.mpr⟩
  · intro ⟨failure, failed⟩
    apply Classical.byContradiction
    intro far
    obtain ⟨verdict, evaluated⟩ := answered.mpr far
    cases failed.symm.trans evaluated
  · intro close
    cases outcome : Verdict.evaluate rules moment with
    | error failure => exact ⟨failure, rfl⟩
    | ok verdict => exact absurd close (answered.mp ⟨verdict, outcome⟩)

def fridayBan (start finish : Minute) : Rule :=
  ⟨.plain .noParking, some (Window.onDays start finish (DaySet.single Weekday.friday)),
    Binary64.ofPlaces 95 2, "NO PARKING FRI", false⟩

/-- The afternoon eight days before the calendar ends. -/
def eightDaysLeft : Moment := ⟨atMinute (dayCount - 9) ⟨870, by decide⟩, none, false⟩

/-- On that afternoon a ban on Friday nights has no verdict, and one on Friday mornings has. -/
theorem friday_night_unanswered : inCalendar eightDaysLeft.wall = true ∧
    Verdict.evaluate [fridayBan ⟨1320, by decide⟩ ⟨360, by decide⟩] eightDaysLeft =
      .error .outsideCalendar ∧
    ∃ verdict, Verdict.evaluate [fridayBan ⟨360, by decide⟩ ⟨600, by decide⟩] eightDaysLeft =
      .ok verdict := by
  have inside : inCalendar eightDaysLeft.wall = true := by decide
  obtain ⟨fails, known, _⟩ :=
    verdict_fails_iff [fridayBan ⟨1320, by decide⟩ ⟨360, by decide⟩] inside
  obtain ⟨_, _, answered⟩ :=
    verdict_fails_iff [fridayBan ⟨360, by decide⟩ ⟨600, by decide⟩] inside
  obtain ⟨failure, failed⟩ := fails.mpr
    (.lastClosing (List.mem_singleton_self _) rfl ⟨by decide, by decide⟩ (by decide))
  refine ⟨inside, known failure failed ▸ failed, answered ?_⟩
  intro close
  cases close with
  | first _ _ day => exact absurd day (by decide)
  | last _ _ day => exact absurd day (by decide)
  | lastClosing listed timed closes _ =>
    rw [List.mem_singleton.mp listed] at timed
    cases timed
    exact absurd closes.2 (by decide)

end Curbside.Proofs.CalendarEnds

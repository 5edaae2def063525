import Curbside.Proofs.Attempt
import Curbside.Proofs.Occurrence

/-! The boundaries that a search finds. A search either leaves the calendar and fails, or finds
every opening and closing of its days that is still to come, each once and in order. -/

namespace Curbside.Proofs.Boundaries
open Wall WallClock Occurrence Attempt

theorem mem_insertOnce (n other : Int) (numbers : List Int) :
    other ∈ insertOnce n numbers ↔ other = n ∨ other ∈ numbers := by
  induction numbers with
  | nil => simp [insertOnce]
  | cons first rest ih =>
    simp only [insertOnce]
    split
    · simp
    · split
      next same => simp [same]
      next =>
        simp only [List.mem_cons, ih]
        constructor
        · intro member
          rcases member with first | inserted | later
          · exact Or.inr (Or.inl first)
          · exact Or.inl inserted
          · exact Or.inr (Or.inr later)
        · intro member
          rcases member with inserted | first | later
          · exact Or.inr (Or.inl inserted)
          · exact Or.inl first
          · exact Or.inr (Or.inr later)

theorem mem_ascending (other : Int) (numbers : List Int) :
    other ∈ ascending numbers ↔ other ∈ numbers := by
  induction numbers with
  | nil => simp [ascending]
  | cons n numbers ih =>
    have step : ascending (n :: numbers) = insertOnce n (ascending numbers) := rfl
    rw [step, mem_insertOnce, ih, List.mem_cons]

theorem insertOnce_ascends (n : Int) {numbers : List Int} (ascends : numbers.Pairwise (· < ·)) :
    (insertOnce n numbers).Pairwise (· < ·) := by
  induction numbers with
  | nil => simp [insertOnce]
  | cons first rest ih =>
    obtain ⟨below, ordered⟩ := List.pairwise_cons.mp ascends
    simp only [insertOnce]
    split
    next smaller =>
      refine List.pairwise_cons.mpr ⟨?_, ascends⟩
      intro other member
      rcases List.mem_cons.mp member with rfl | later
      · exact smaller
      · exact Int.lt_trans smaller (below other later)
    next notSmaller =>
      split
      · exact ascends
      next different =>
        refine List.pairwise_cons.mpr ⟨?_, ih ordered⟩
        intro other member
        rcases (mem_insertOnce n other rest).mp member with rfl | later
        · omega
        · exact below other later

theorem ascending_ascends (numbers : List Int) : (ascending numbers).Pairwise (· < ·) := by
  induction numbers with
  | nil => exact List.Pairwise.nil
  | cons n numbers ih => exact insertOnce_ascends n ih

/-- The first number found in ascending order is the least one that fits. -/
theorem find?_least {numbers : List Int} (ascends : numbers.Pairwise (· < ·)) {fits : Int → Bool}
    {found : Int} (reached : numbers.find? fits = some found) :
    ∀ other ∈ numbers, other < found → fits other = false := by
  obtain ⟨_, earlier, later, rfl, unfit⟩ := List.find?_eq_some_iff_append.mp reached
  intro other member smaller
  rcases List.mem_append.mp member with before | after
  · simpa using unfit other before
  · rcases List.mem_cons.mp after with rfl | behind
    · omega
    · have ordered := (List.pairwise_append.mp ascends).2.1
      have larger := (List.pairwise_cons.mp ordered).1 other behind
      omega

/-- A reading at which the occurrence that belongs to a listed day starts or ends. -/
def BoundaryOn (window : Window) (day : Int) (wall : Wall) : Prop :=
  window.days.has (weekdayOf day) = true ∧ (wall = window.opening day ∨ wall = window.closing day)

theorem BoundaryOn.onMinute {window : Window} {day : Int} {wall : Wall}
    (boundary : BoundaryOn window day wall) : OnMinute wall := by
  rcases boundary.2 with rfl | rfl
  · exact onMinute_atMinute ..
  · exact onMinute_atMinute ..

theorem closingDay_bounds (window : Window) (day : Int) :
    day ≤ window.closingDay day ∧ window.closingDay day ≤ day + 1 := by
  unfold Window.closingDay
  split <;> omega

theorem BoundaryOn.day {window : Window} {day : Int} {wall : Wall}
    (boundary : BoundaryOn window day wall) : day ≤ wall.day ∧ wall.day ≤ day + 1 := by
  rcases boundary.2 with rfl | rfl
  · rw [Window.opening, day_atMinute]
    omega
  · rw [Window.closing, day_atMinute]
    exact closingDay_bounds window day

theorem mem_searchedDays (after : Wall) (horizon day : Int) :
    day ∈ Window.searchedDays after horizon ↔ after.day - 1 ≤ day ∧ day ≤ after.day + horizon := by
  simp only [Window.searchedDays, List.mem_map, List.mem_range]
  constructor
  · intro ⟨n, inside, same⟩
    omega
  · intro ⟨first, last⟩
    exact ⟨(day - (after.day - 1)).toNat, by omega, by omega⟩

theorem boundariesOn_listed {window : Window} {day : Int}
    (listed : window.days.has (weekdayOf day) = true) (opens : hasDay day = true)
    (closes : hasDay (window.closingDay day) = true) :
    window.boundariesOn day = .ok [window.opening day, window.closing day] := by
  simp [Window.boundariesOn, listed, opens, closes]

theorem mem_boundariesOn {window : Window} {day : Int} {found : List Wall}
    (reached : window.boundariesOn day = .ok found) (wall : Wall) :
    wall ∈ found ↔ BoundaryOn window day wall := by
  unfold Window.boundariesOn at reached
  unfold BoundaryOn
  split at reached
  · cases reached
  · split at reached
    next unlisted =>
      cases reached
      simp_all
    next listed =>
      split at reached
      · cases reached
      · cases reached
        simp_all

theorem boundariesOn_succeeds (window : Window) {day : Int} (first : 0 ≤ day)
    (last : day + 1 < dayCount) : ∃ found, window.boundariesOn day = .ok found := by
  have opens : hasDay day = true := by simp [hasDay, first]; omega
  cases listed : window.days.has (weekdayOf day) with
  | false => exact ⟨[], by simp [Window.boundariesOn, opens, listed]⟩
  | true =>
    have bounds := closingDay_bounds window day
    have closes : hasDay (window.closingDay day) = true := by simp [hasDay]; omega
    exact ⟨_, boundariesOn_listed listed opens closes⟩

/-- A search finds exactly the boundaries of its days that lie ahead. -/
theorem mem_boundaries {window : Window} {after : Wall} {horizon : Int} {found : List Wall}
    (reached : window.boundaries after horizon = .ok found) (wall : Wall) :
    wall ∈ found ↔ after < wall ∧ ∃ day, after.day - 1 ≤ day ∧ day ≤ after.day + horizon ∧
      BoundaryOn window day wall := by
  obtain ⟨perDay, collected, same⟩ := bind_ok_iff.mp reached
  cases same
  simp only [mem_ascending, List.mem_filter, List.mem_flatten, decide_eq_true_eq,
    mem_of_mapM collected, mem_searchedDays]
  constructor
  · intro ⟨⟨onDay, ⟨day, ⟨first, last⟩, listed⟩, member⟩, ahead⟩
    exact ⟨ahead, day, first, last, (mem_boundariesOn listed wall).mp member⟩
  · intro ⟨ahead, day, first, last, boundary⟩
    obtain ⟨onDay, listed⟩ := step_of_mapM collected day ((mem_searchedDays ..).mpr ⟨first, last⟩)
    exact ⟨⟨onDay, ⟨day, ⟨first, last⟩, listed⟩, (mem_boundariesOn listed wall).mpr boundary⟩, ahead⟩

theorem boundaries_succeed (window : Window) {after : Wall} {horizon : Int} (first : 1 ≤ after.day)
    (last : after.day + horizon + 1 < dayCount) :
    ∃ found, window.boundaries after horizon = .ok found := by
  have each : ∀ day ∈ Window.searchedDays after horizon,
      ∃ found, window.boundariesOn day = .ok found := by
    intro day member
    have bounds := (mem_searchedDays after horizon day).mp member
    exact boundariesOn_succeeds window (by omega) (by omega)
  obtain ⟨perDay, collected⟩ := mapM_succeeds each
  exact ⟨_, bind_ok_iff.mpr ⟨perDay, collected, rfl⟩⟩

/-- The readings between which a window holds on a listed day, by the shape of the window: the
whole day, or from its start to its finish on the same day or on the next. -/
def interval (window : Window) (day : Int) : Wall × Wall :=
  if window.start = window.finish then
    (atMinute day Minute.midnight, atMinute (day + 1) Minute.midnight)
  else if window.start < window.finish then
    (atMinute day window.start, atMinute day window.finish)
  else (atMinute day window.start, atMinute (day + 1) window.finish)

theorem interval_eq (window : Window) (day : Int) :
    interval window day = (window.opening day, window.closing day) := by
  by_cases whole : window.start = window.finish
  · simp [interval, Window.opening, Window.closing, Window.closingDay, Window.isAllDay, whole]
  · by_cases stays : window.start < window.finish
    · have plain : ¬ window.finish < window.start := Nat.lt_asymm stays
      simp [interval, Window.opening, Window.closing, Window.closingDay, Window.isAllDay,
        Window.wrapsMidnight, whole, stays, plain]
    · have wraps : window.finish < window.start :=
        Nat.lt_of_le_of_ne (Nat.not_lt.mp stays) fun same => whole (Fin.ext same.symm)
      simp [interval, Window.opening, Window.closing, Window.closingDay, Window.isAllDay,
        Window.wrapsMidnight, whole, stays, wraps]

/-- A window holds exactly between the boundaries of its listed days, and a search of such a day
finds just these two boundaries. -/
theorem active_between_boundaries (window : Window) (wall : Wall) (first : 1 ≤ wall.day)
    (last : wall.day + 1 < dayCount) :
    (window.activeAt wall = true ↔ ∃ day, hasDay day = true ∧
      window.days.has (weekdayOf day) = true ∧
      (interval window day).1 ≤ wall ∧ wall < (interval window day).2) ∧
    ∀ day, hasDay day = true → hasDay (day + 1) = true → window.days.has (weekdayOf day) = true →
      window.boundariesOn day = .ok [(interval window day).1, (interval window day).2] := by
  simp only [interval_eq, activeAt_iff]
  constructor
  · constructor
    · intro ⟨day, inside⟩
      have near := inside.day
      exact ⟨day, (hasDay_iff day).mpr (by omega), inside.listed, inside.opened, inside.unclosed⟩
    · intro ⟨day, _, listed, opened, unclosed⟩
      exact ⟨day, listed, opened, unclosed⟩
  · intro day opens tomorrow listed
    have bounds := closingDay_bounds window day
    have closes : hasDay (window.closingDay day) = true := by
      rw [hasDay_iff] at *
      omega
    exact boundariesOn_listed listed opens closes

/-- A window from ten in the evening to six in the morning that opens on Sundays. -/
def sundayNight : Window :=
  Window.onDays ⟨1320, by decide⟩ ⟨360, by decide⟩ (DaySet.single Weekday.sunday)

/-- It still holds in the last microsecond before six on a Monday, by the occurrence that opened
on the Sunday. -/
theorem sunday_night_on_monday :
    1 ≤ Wall.day (atMinute 7 ⟨360, by decide⟩ - 1) ∧
    Wall.day (atMinute 7 ⟨360, by decide⟩ - 1) + 1 < dayCount ∧
    ∃ day, hasDay day = true ∧ sundayNight.days.has (weekdayOf day) = true ∧
      (interval sundayNight day).1 ≤ atMinute 7 ⟨360, by decide⟩ - 1 ∧
      atMinute 7 ⟨360, by decide⟩ - 1 < (interval sundayNight day).2 :=
  ⟨by decide, by decide,
    (active_between_boundaries sundayNight (atMinute 7 ⟨360, by decide⟩ - 1)
      (by decide) (by decide)).1.mp (by decide)⟩

end Curbside.Proofs.Boundaries

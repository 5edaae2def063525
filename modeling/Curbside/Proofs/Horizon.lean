import Curbside.Proofs.NextChange

/-! A search for boundaries misses nothing. Whatever the number of days that it looks ahead, it
finds the openings and closings of these days in order, and between two of them nothing changes
before the midnight that ends the last day. -/

namespace Curbside.Proofs.Horizon
open Wall WallClock Occurrence Boundaries NextChange Attempt

/-- All dates that a search looks at lie in the calendar: its days, and the day of the closing for
each day that the window lists. -/
def InsideCalendar (window : Window) (after : Wall) (horizon : Int) : Prop :=
  ∀ day, after.day - 1 ≤ day → day ≤ after.day + horizon → hasDay day = true ∧
    (window.days.has (weekdayOf day) = true → hasDay (window.closingDay day) = true)

/-- The midnight that ends the last day of a search. -/
def searchEnd (after : Wall) (horizon : Int) : Wall := (after.day + horizon + 1) * dayLength

theorem boundariesOn_ok_iff {window : Window} {day : Int} :
    (∃ found, window.boundariesOn day = .ok found) ↔ hasDay day = true ∧
      (window.days.has (weekdayOf day) = true → hasDay (window.closingDay day) = true) := by
  cases opens : hasDay day <;> cases listed : window.days.has (weekdayOf day) <;>
    cases closes : hasDay (window.closingDay day) <;>
      simp [Window.boundariesOn, opens, listed, closes]

theorem boundaries_ok_iff {window : Window} {after : Wall} {horizon : Int} :
    (∃ found, window.boundaries after horizon = .ok found) ↔
      InsideCalendar window after horizon := by
  constructor
  · intro ⟨found, reached⟩ day first last
    obtain ⟨perDay, collected, _⟩ := bind_ok_iff.mp reached
    apply boundariesOn_ok_iff.mp
    exact step_of_mapM collected day ((mem_searchedDays after horizon day).mpr ⟨first, last⟩)
  · intro inside
    have each : ∀ day ∈ Window.searchedDays after horizon,
        ∃ found, window.boundariesOn day = .ok found := by
      intro day member
      obtain ⟨first, last⟩ := (mem_searchedDays after horizon day).mp member
      exact boundariesOn_ok_iff.mpr (inside day first last)
    obtain ⟨perDay, collected⟩ := mapM_succeeds each
    exact ⟨_, bind_ok_iff.mpr ⟨perDay, collected, rfl⟩⟩

theorem boundaries_ascend {window : Window} {after : Wall} {horizon : Int} {found : List Wall}
    (reached : window.boundaries after horizon = .ok found) : found.Pairwise (· < ·) := by
  obtain ⟨perDay, _, same⟩ := bind_ok_iff.mp reached
  cases same
  exact ascending_ascends _

theorem interval_ordered (window : Window) (day : Int) :
    day * dayLength ≤ (interval window day).1 ∧
      (interval window day).1 < (interval window day).2 := by
  have start := window.start.isLt
  have finish := window.finish.isLt
  unfold interval
  split
  · simp only [atMinute, Minute.midnight, dayLength_eq, minuteLength_eq, Wall]
    omega
  · split
    next stays =>
      rw [Fin.lt_def] at stays
      simp only [atMinute, dayLength_eq, minuteLength_eq, Wall]
      omega
    · simp only [atMinute, dayLength_eq, minuteLength_eq, Wall]
      omega

theorem boundaryOn_iff {window : Window} {day : Int} {wall : Wall} :
    BoundaryOn window day wall ↔ window.days.has (weekdayOf day) = true ∧
      (wall = (interval window day).1 ∨ wall = (interval window day).2) := by
  rw [interval_eq, BoundaryOn]

section
variable {window : Window} {after first last : Wall} {horizon : Int} {found : List Wall}

/-- What changes a window up to the end of a search is found, unless it is the opening on the day
that the end begins. -/
theorem change_found (reached : window.boundaries after horizon = .ok found) (later : after < last)
    (inside : last ≤ searchEnd after horizon)
    (changes : window.activeAt last ≠ window.activeAt (last - 1)) :
    last ∈ found ∨ last = searchEnd after horizon ∧
      BoundaryOn window (after.day + horizon + 1) last := by
  obtain ⟨day, boundary⟩ := boundary_of_change changes
  have near := boundary.day
  have onward := day_mono (Int.le_of_lt later)
  by_cases searched : day ≤ after.day + horizon
  · exact Or.inl ((mem_boundaries reached last).mpr ⟨later, day, by omega, searched, boundary⟩)
  · have started := day_start last
    have ends : last.day ≤ after.day + horizon + 1 := by
      simp only [searchEnd, Wall.day, dayLength_eq, Wall] at *
      omega
    obtain rfl : day = after.day + horizon + 1 := by omega
    have same : last.day = after.day + horizon + 1 := by omega
    rw [same] at started
    exact Or.inr ⟨Int.le_antisymm inside started.1, boundary⟩

/-- Before the end of a search a window only changes at what the search finds. -/
theorem steady_between (reached : window.boundaries after horizon = .ok found)
    (started : after ≤ first) (ordered : first ≤ last) (inside : last < searchEnd after horizon)
    (quiet : ∀ wall ∈ found, ¬ (first < wall ∧ wall ≤ last)) :
    window.activeAt last = window.activeAt first := by
  apply steady_of_steps ordered
  intro wall later within
  apply Classical.byContradiction
  intro changes
  have before : wall < searchEnd after horizon := Int.lt_of_le_of_lt within inside
  have ahead : after < wall := Int.lt_of_le_of_lt started later
  rcases change_found reached ahead (Int.le_of_lt before) changes with member | ⟨atEnd, _⟩
  · exact quiet wall member ⟨later, within⟩
  · rw [atEnd] at before
    exact Int.lt_irrefl _ before

/-- At the end of a search only an opening of the next day is left out. -/
theorem steady_at_end (reached : window.boundaries after horizon = .ok found)
    (started : after ≤ first) (before : first < searchEnd after horizon)
    (quiet : ∀ wall ∈ found, ¬ (first < wall ∧ wall ≤ searchEnd after horizon)) :
    window.activeAt (searchEnd after horizon) = window.activeAt first ∨
      window.days.has (weekdayOf (after.day + horizon + 1)) = true ∧
        searchEnd after horizon = (interval window (after.day + horizon + 1)).1 := by
  have untilEnd : window.activeAt (searchEnd after horizon - 1) = window.activeAt first := by
    apply steady_between reached started (by lia) (by lia)
    intro wall member ⟨later, within⟩
    exact quiet wall member ⟨later, by lia⟩
  rw [← untilEnd]
  refine Classical.or_iff_not_imp_left.mpr fun changes => ?_
  rcases change_found reached (Int.lt_of_le_of_lt started before) (Int.le_refl _) changes with
    member | ⟨_, boundary⟩
  · exact absurd ⟨before, Int.le_refl _⟩ (quiet _ member)
  · obtain ⟨listed, opens | closes⟩ := boundaryOn_iff.mp boundary
    · exact ⟨listed, opens⟩
    · -- A closing comes after the midnight that begins its day.
      have ordered := interval_ordered window (after.day + horizon + 1)
      rw [← closes] at ordered
      exact absurd (Int.lt_of_le_of_lt ordered.1 ordered.2) (Int.lt_irrefl _)

end

/-- A search that stays inside the calendar finds exactly the ends of the occurrences on its listed
days that are still to come, in order and each once. Where it finds none between two readings
before the midnight that ends the last day, the window holds at both or at neither. At that
midnight itself an occurrence of the next day can begin, and nothing else can change. -/
theorem boundaries_complete (window : Window) (after : Wall) (horizon : Int) :
    ((∃ found, window.boundaries after horizon = .ok found) ↔
      InsideCalendar window after horizon) ∧
    ∀ found, window.boundaries after horizon = .ok found →
      found.Pairwise (· < ·) ∧
      (∀ wall, wall ∈ found ↔ after < wall ∧ ∃ day, after.day - 1 ≤ day ∧
        day ≤ after.day + horizon ∧ window.days.has (weekdayOf day) = true ∧
        (wall = (interval window day).1 ∨ wall = (interval window day).2)) ∧
      ∀ first last, after ≤ first → first ≤ last →
        (∀ wall ∈ found, ¬ (first < wall ∧ wall ≤ last)) →
        (last < searchEnd after horizon → window.activeAt last = window.activeAt first) ∧
        (last = searchEnd after horizon → window.activeAt last = window.activeAt first ∨
          window.days.has (weekdayOf (after.day + horizon + 1)) = true ∧
            last = (interval window (after.day + horizon + 1)).1) := by
  refine ⟨boundaries_ok_iff, ?_⟩
  intro found reached
  refine ⟨boundaries_ascend reached, ?_, ?_⟩
  · intro wall
    rw [mem_boundaries reached]
    simp only [boundaryOn_iff]
  · intro first last started ordered quiet
    refine ⟨fun inside => steady_between reached started ordered inside quiet, ?_⟩
    intro atEnd
    subst atEnd
    rcases Int.lt_or_eq_of_le ordered with before | same
    · exact steady_at_end reached started before quiet
    · exact Or.inl (by rw [same])

/-- An hour before midnight on a Sunday, a window of that night has only its closing ahead in the
two days to come, and until then it stays open. -/
theorem sunday_night_lasts :
    InsideCalendar sundayNight (atMinute 6 ⟨1380, by decide⟩) 2 ∧
    sundayNight.boundaries (atMinute 6 ⟨1380, by decide⟩) 2 = .ok [atMinute 7 ⟨360, by decide⟩] ∧
    sundayNight.activeAt (atMinute 7 ⟨360, by decide⟩ - 1) =
      sundayNight.activeAt (atMinute 6 ⟨1380, by decide⟩) := by
  have found : sundayNight.boundaries (atMinute 6 ⟨1380, by decide⟩) 2 =
      .ok [atMinute 7 ⟨360, by decide⟩] := ok_of_toOption (by decide +kernel)
  obtain ⟨succeeds, complete⟩ := boundaries_complete sundayNight (atMinute 6 ⟨1380, by decide⟩) 2
  obtain ⟨_, _, steady⟩ := complete _ found
  refine ⟨succeeds.mp ⟨_, found⟩, found, ?_⟩
  refine (steady _ _ (Int.le_refl _) (by decide) ?_).1 (by decide)
  intro wall member ⟨_, within⟩
  rw [List.mem_singleton.mp member] at within
  exact absurd within (by decide)

/-- A window from midnight to six that opens on Tuesdays. -/
def tuesdayNight : Window :=
  Window.onDays .midnight ⟨6 * 60, by decide⟩ (DaySet.single Weekday.tuesday)

def mondayNoon : Wall := atMinute 7 .noon

/-- From noon on a Monday, a search of no further days finds nothing, although the window opens at
the midnight that ends the Monday. -/
theorem opening_at_the_end_missed :
    InsideCalendar tuesdayNight mondayNoon 0 ∧
    tuesdayNight.boundaries mondayNoon 0 = .ok [] ∧
    mondayNoon ≤ searchEnd mondayNoon 0 ∧
    tuesdayNight.activeAt mondayNoon = false ∧
    tuesdayNight.activeAt (searchEnd mondayNoon 0) = true := by
  have found : tuesdayNight.boundaries mondayNoon 0 = .ok [] := ok_of_toOption (by decide +kernel)
  have inside := boundaries_ok_iff.mp ⟨_, found⟩
  exact ⟨inside, found, by decide, by decide +kernel, by decide +kernel⟩

end Curbside.Proofs.Horizon

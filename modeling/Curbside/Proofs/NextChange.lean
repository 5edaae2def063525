import Curbside.Proofs.Boundaries
import Curbside.Verdict.Basic

/-! The next change of a list of rules is exact. Whether a window holds can only change at one of
its boundaries, and the search looks at every boundary of the next week. If none of them
changes anything, then nothing ever does, because every week is like the one before. -/

namespace Curbside.Proofs.NextChange
open Wall WallClock Occurrence Boundaries Attempt

theorem activeAt_congr (window : Window) {first second : Wall} (day : first.day = second.day)
    (minute : first.minute = second.minute) : window.activeAt first = window.activeAt second := by
  simp only [Window.activeAt, weekday, day, minute]

theorem activeAt_add_weeks (window : Window) (wall : Wall) (weeks : Int) :
    window.activeAt (wall + weeks * weekLength) = window.activeAt wall := by
  simp only [Window.activeAt, weekday, day_add_weeks, weekdayOf_add_weeks, minute_add_weeks]

/-- A window only changes from one microsecond to the next at one of its boundaries. -/
theorem boundary_of_change {window : Window} {wall : Wall}
    (changes : window.activeAt wall ≠ window.activeAt (wall - 1)) :
    ∃ day, BoundaryOn window day wall := by
  cases now : window.activeAt wall with
  | true =>
    obtain ⟨day, inside⟩ := (activeAt_iff window wall).mp now
    refine ⟨day, inside.listed, Or.inl ?_⟩
    have opened := inside.opened
    have unclosed := inside.unclosed
    apply Classical.byContradiction
    intro later
    have before : Inside window day (wall - 1) := ⟨inside.listed, by lia, by lia⟩
    exact changes (now.trans ((activeAt_iff window (wall - 1)).mpr ⟨day, before⟩).symm)
  | false =>
    have before : window.activeAt (wall - 1) = true := by simpa [now] using changes
    obtain ⟨day, inside⟩ := (activeAt_iff window (wall - 1)).mp before
    refine ⟨day, inside.listed, Or.inr ?_⟩
    have opened := inside.opened
    have unclosed := inside.unclosed
    apply Classical.byContradiction
    intro earlier
    have stays : Inside window day wall := ⟨inside.listed, by lia, by lia⟩
    have held := (activeAt_iff window wall).mpr ⟨day, stays⟩
    rw [now] at held
    cases held

/-- A window that no microsecond changes stays as it is. -/
theorem steady_of_steps {window : Window} {first last : Wall} (ordered : first ≤ last)
    (steps : ∀ wall, first < wall → wall ≤ last →
      window.activeAt wall = window.activeAt (wall - 1)) :
    window.activeAt last = window.activeAt first := by
  obtain ⟨count, rfl⟩ : ∃ count : Nat, last = first + count := ⟨(last - first).toNat, by lia⟩
  induction count with
  | zero => simp
  | succ count ih =>
    have before : first + ((count + 1 : Nat) : Int) - 1 = first + count := by lia
    have held := ih (by lia) fun wall later within => steps wall later (by lia)
    rw [steps _ (by lia) (Int.le_refl _), before, held]

theorem flips_eq_false_iff (windows : List Window) (wall : Wall) :
    Window.flips windows wall = false ↔
      ∀ window ∈ windows, window.activeAt wall = window.activeAt (wall - minuteLength) := by
  simp [Window.flips]

/-- At a boundary, looking back a minute shows the same as looking back a moment. -/
theorem activeAt_before_boundary {window other : Window} {day : Int} {wall : Wall}
    (boundary : BoundaryOn other day wall) :
    window.activeAt (wall - minuteLength) = window.activeAt (wall - 1) := by
  obtain ⟨sameDay, sameMinute⟩ := before_minute boundary.onMinute
  exact activeAt_congr window sameDay sameMinute

/-- Windows stay as they are until the first boundary that changes any of them, as far as the
searched days reach. -/
theorem steady_until {windows : List Window} {after limit : Wall}
    (reach : limit ≤ (after.day + Window.horizon + 1) * dayLength)
    (unchanged : ∀ window ∈ windows, ∀ day wall, BoundaryOn window day wall →
      after.day - 1 ≤ day → day ≤ after.day + Window.horizon → after < wall → wall < limit →
      Window.flips windows wall = false) :
    ∀ window ∈ windows, ∀ wall, after ≤ wall → wall < limit →
      window.activeAt wall = window.activeAt after := by
  intro window member wall later inside
  apply steady_of_steps later
  intro reading ahead within
  apply Classical.byContradiction
  intro changes
  obtain ⟨day, boundary⟩ := boundary_of_change changes
  have before : reading < limit := Int.lt_of_le_of_lt within inside
  have falls := boundary.day
  have lower := day_mono (Int.le_of_lt ahead)
  have upper := day_lt_of_lt (Int.lt_of_lt_of_le before reach)
  have quiet := unchanged window member day reading boundary (by omega) (by omega) ahead before
  rw [flips_eq_false_iff] at quiet
  exact changes ((quiet window member).trans (activeAt_before_boundary boundary))

theorem steady_forever {window : Window} {after : Wall}
    (week : ∀ wall, after ≤ wall → wall < after + weekLength →
      window.activeAt wall = window.activeAt after) :
    ∀ wall, after ≤ wall → window.activeAt wall = window.activeAt after := by
  intro wall _
  obtain ⟨reading, weeks, first, last, same⟩ := within_week after wall
  rw [same, activeAt_add_weeks]
  exact week reading first last

/-- The readings among which the first change is sought, and how it is picked. -/
theorem nextChange_candidates {windows : List Window} {after : Wall} {change : Option Wall}
    (reached : Window.nextChange windows after = .ok change) :
    ∃ candidates : List Int, candidates.Pairwise (· < ·) ∧
      (∀ wall, wall ∈ candidates ↔ after < wall ∧ ∃ window ∈ windows, ∃ day,
        after.day - 1 ≤ day ∧ day ≤ after.day + Window.horizon ∧ BoundaryOn window day wall) ∧
      candidates.find? (Window.flips windows) = change := by
  obtain ⟨found, collected, picked⟩ := bind_ok_iff.mp reached
  refine ⟨ascending found.flatten, ascending_ascends _, ?_, Except.ok.inj picked⟩
  intro wall
  simp only [mem_ascending, List.mem_flatten, mem_of_mapM collected]
  constructor
  · intro ⟨ofWindow, ⟨window, member, listed⟩, inside⟩
    obtain ⟨ahead, boundary⟩ := (mem_boundaries listed wall).mp inside
    exact ⟨ahead, window, member, boundary⟩
  · intro ⟨ahead, window, member, boundary⟩
    obtain ⟨ofWindow, listed⟩ := step_of_mapM collected window member
    exact ⟨ofWindow, ⟨window, member, listed⟩, (mem_boundaries listed wall).mpr ⟨ahead, boundary⟩⟩

theorem nextChange_succeeds (windows : List Window) {after : Wall} (first : 1 ≤ after.day)
    (last : after.day + Window.horizon + 1 < dayCount) :
    ∃ change, Window.nextChange windows after = .ok change := by
  have each : ∀ window ∈ windows, ∃ found, window.boundaries after Window.horizon = .ok found :=
    fun window _ => boundaries_succeed window first last
  obtain ⟨found, collected⟩ := mapM_succeeds each
  exact ⟨_, bind_ok_iff.mpr ⟨found, collected, rfl⟩⟩

/-- Without a change before the end of the searched days, the windows never change. -/
theorem steady_of_quiet {windows : List Window} {after : Wall}
    (quiet : ∀ window ∈ windows, ∀ day wall, BoundaryOn window day wall →
      after.day - 1 ≤ day → day ≤ after.day + Window.horizon → after < wall →
      wall < (after.day + Window.horizon + 1) * dayLength → Window.flips windows wall = false) :
    ∀ window ∈ windows, ∀ wall, after ≤ wall → window.activeAt wall = window.activeAt after := by
  intro window member
  apply steady_forever
  intro wall later inside
  apply steady_until (Int.le_refl _) quiet window member wall later
  have started := day_start after
  have week : after + weekLength < (after.day + Window.horizon + 1) * dayLength := by
    simp only [weekLength, Window.horizon, dayLength_eq, Wall] at *
    omega
  exact Int.lt_trans inside week

/-- What it means that windows change next at a reading, or never. -/
def ChangesNext (windows : List Window) (after : Wall) : Option Wall → Prop
  | some change => after < change ∧ OnMinute change ∧
      (∀ window ∈ windows, ∀ wall, after ≤ wall → wall < change →
        window.activeAt wall = window.activeAt after) ∧
      ∃ window ∈ windows, window.activeAt change ≠ window.activeAt after
  | none => ∀ window ∈ windows, ∀ wall, after ≤ wall →
      window.activeAt wall = window.activeAt after

theorem windows_change_next {windows : List Window} {after : Wall} {change : Option Wall}
    (reached : Window.nextChange windows after = .ok change) : ChangesNext windows after change := by
  obtain ⟨candidates, ascends, members, picked⟩ := nextChange_candidates reached
  cases change with
  | none =>
    apply steady_of_quiet
    intro window member day wall boundary first last ahead _
    have candidate := (members wall).mpr ⟨ahead, window, member, day, first, last, boundary⟩
    simpa using List.find?_eq_none.mp picked wall candidate
  | some change =>
    have flips := List.find?_some picked
    obtain ⟨ahead, owner, _, ownDay, _, _, own⟩ := (members change).mp (List.mem_of_find?_eq_some picked)
    have earlier : ∀ window ∈ windows, ∀ day wall, BoundaryOn window day wall →
        after.day - 1 ≤ day → day ≤ after.day + Window.horizon → after < wall → wall < change →
        Window.flips windows wall = false := by
      intro window member day wall boundary first last ahead before
      have candidate := (members wall).mpr ⟨ahead, window, member, day, first, last, boundary⟩
      exact find?_least ascends picked wall candidate before
    obtain ⟨window, member, differs⟩ : ∃ window ∈ windows,
        window.activeAt change ≠ window.activeAt (change - 1) := by
      simp only [Window.flips, List.any_eq_true, bne_iff_ne] at flips
      obtain ⟨window, member, differs⟩ := flips
      exact ⟨window, member, activeAt_before_boundary own ▸ differs⟩
    -- A change beyond the searched days would be the first ever, and every week is the same.
    by_cases reach : change ≤ (after.day + Window.horizon + 1) * dayLength
    · have steady := steady_until reach earlier
      refine ⟨ahead, own.onMinute, steady, window, member, ?_⟩
      rw [← steady window member (change - 1) (by lia) (by lia)]
      exact differs
    · have steady := steady_of_quiet fun window member day wall boundary first last ahead before =>
        earlier window member day wall boundary first last ahead (by lia)
      have now := steady window member change (by lia)
      have before := steady window member (change - 1) (by lia)
      exact absurd (now.trans before.symm) differs

theorem rule_activeAt (rule : Rule) (wall : Wall) :
    rule.activeAt wall = rule.window.all (·.activeAt wall) := rfl

/-- What it means that rules change next at a reading, or never: until then each of them holds or
not as it does now, and then at least one differs. -/
def RulesChangeNext (rules : List Rule) (after : Wall) : Option Wall → Prop
  | some change => after < change ∧
      (∀ rule ∈ rules, ∀ wall, after ≤ wall → wall < change →
        rule.activeAt wall = rule.activeAt after) ∧
      ∃ rule ∈ rules, rule.activeAt change ≠ rule.activeAt after
  | none => ∀ rule ∈ rules, ∀ wall, after ≤ wall → rule.activeAt wall = rule.activeAt after

theorem mem_windows (rules : List Rule) (window : Window) :
    window ∈ Rule.windows rules ↔ ∃ rule ∈ rules, rule.window = some window :=
  List.mem_filterMap

theorem rule_steady {rules : List Rule} {first second : Wall}
    (steady : ∀ window ∈ Rule.windows rules, window.activeAt first = window.activeAt second)
    {rule : Rule} (member : rule ∈ rules) : rule.activeAt first = rule.activeAt second := by
  simp only [rule_activeAt]
  cases seen : rule.window with
  | none => rfl
  | some window =>
    simp only [Option.all_some]
    exact steady window ((mem_windows rules window).mpr ⟨rule, member, seen⟩)

theorem rules_change_next {rules : List Rule} {after : Wall} {change : Option Wall}
    (windows : ChangesNext (Rule.windows rules) after change) :
    RulesChangeNext rules after change := by
  cases change with
  | none => exact fun rule member wall later =>
      rule_steady (fun window listed => windows window listed wall later) member
  | some change =>
    obtain ⟨ahead, _, steady, window, listed, differs⟩ := windows
    obtain ⟨rule, member, seen⟩ := (mem_windows rules window).mp listed
    refine ⟨ahead, ?_, rule, member, ?_⟩
    · intro rule member wall later before
      exact rule_steady (fun window listed => steady window listed wall later before) member
    · simpa only [rule_activeAt, seen, Option.all_some] using differs

/-- The next change of rules is found wherever the calendar reaches far enough, and whenever one
is found, or found missing, it is exact. -/
theorem next_change_exact (rules : List Rule) (after : Wall) :
    (1 ≤ after.day → after.day + 9 < dayCount → ∃ change, Rule.nextChange rules after = .ok change) ∧
    ∀ change, Rule.nextChange rules after = .ok change → RulesChangeNext rules after change := by
  constructor
  · intro first last
    exact nextChange_succeeds (Rule.windows rules) first (by simpa [Window.horizon, Int.add_assoc] using last)
  · intro change reached
    exact rules_change_next (windows_change_next reached)

def workdayBan : Rule :=
  ⟨.plain .noParking, some (Window.onDays Minute.midnight Minute.midnight DaySet.workdays),
    Binary64.ofPlaces 95 2, "NO PARKING MON-FRI", false⟩

/-- A midnight between two workdays changes nothing. On a Monday just after noon, the ban next
changes as Saturday begins. -/
theorem workday_ban_until_saturday :
    1 ≤ Wall.day (atMinute 7 Minute.noon + 1) ∧
    Wall.day (atMinute 7 Minute.noon + 1) + 9 < dayCount ∧
    (∃ change, Rule.nextChange [workdayBan] (atMinute 7 Minute.noon + 1) = .ok change) ∧
    RulesChangeNext [workdayBan] (atMinute 7 Minute.noon + 1) (some (atMinute 12 Minute.midnight)) :=
  ⟨by decide, by decide, (next_change_exact [workdayBan] _).1 (by decide) (by decide),
    (next_change_exact [workdayBan] _).2 _ (ok_of_toOption (by decide +kernel))⟩

end Curbside.Proofs.NextChange

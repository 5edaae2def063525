import Curbside.Calendar.Moment
import Curbside.Proofs.Attempt
import Curbside.Proofs.WallClock

/-! Moments on the clocks of a zone. No clock is a day or more away from universal time, so a
moment well inside the calendar can be shown in every known zone, and less than two days from
where it was. -/

namespace Curbside.Proofs.LocalTime
open Wall WallClock Attempt

/-- A reading is dated in the years from a first to a last one. -/
def InYears (first last : Nat) (wall : Wall) : Prop :=
  first ≤ wall.date.year ∧ wall.date.year ≤ last

/-- A clock is less than a day ahead of universal time, or behind it. -/
def WithinDay (offset : Int) : Prop := -86400 < offset ∧ offset < 86400

theorem day_of_inYears {wall : Wall} (dated : InYears 2 9000 wall) :
    365 ≤ wall.day ∧ wall.day < 3300000 := by
  obtain ⟨first, last⟩ := dated
  simp only [Wall.date, Date.ofDayNumber] at first last
  omega

instance (offset : Int) : Decidable (WithinDay offset) :=
  inferInstanceAs (Decidable (-86400 < offset ∧ offset < 86400))

theorem named_known {name : String} {zone : Zone} (named : Zone.named name = .ok zone) :
    (name, zone) ∈ Zone.known := by
  unfold Zone.named at named
  split at named
  next found =>
    cases named
    obtain ⟨before, after, same, _⟩ := List.lookup_eq_some_iff.mp found
    simp [same]
  next => cases named

theorem named_withinDay {name : String} {zone : Zone} (named : Zone.named name = .ok zone) :
    WithinDay zone.standard ∧ ∀ summer ∈ zone.summer, WithinDay summer.offset := by
  have each : ∀ entry ∈ Zone.known, WithinDay entry.2.standard ∧
      ∀ summer ∈ entry.2.summer, WithinDay summer.offset := by
    decide
  exact each (name, zone) (named_known named)

theorem offsetFromUniversal_withinDay {zone : Zone} (standard : WithinDay zone.standard)
    (summer : ∀ summer ∈ zone.summer, WithinDay summer.offset) (universal : Wall) :
    WithinDay (zone.offsetFromUniversal universal).1 := by
  unfold Zone.offsetFromUniversal
  split
  · exact standard
  next time inSummer =>
    dsimp only
    split
    · exact summer time inSummer
    · exact standard

theorem day_shifted (wall : Wall) {offset : Int} (near : WithinDay offset) :
    wall.day - 1 ≤ (wall + offset * secondLength).day ∧
      (wall + offset * secondLength).day ≤ wall.day + 1 := by
  obtain ⟨behind, ahead⟩ := near
  have second : secondLength = 1000000 := rfl
  simp only [Wall.day, dayLength_eq, second, Wall]
  omega

theorem checked_ok (wall : Wall) (first : 0 ≤ wall.day) (last : wall.day < dayCount) :
    checked wall = .ok wall := by
  simp [checked, (inCalendar_iff wall).mpr ⟨first, last⟩]

/-- A moment can be shown on the clocks of a zone. -/
theorem inZone_succeeds {moment : Moment} {zone : Zone}
    (own : ∀ offset ∈ moment.offset?, WithinDay offset) (standard : WithinDay zone.standard)
    (summer : ∀ summer ∈ zone.summer, WithinDay summer.offset) (first : 2 ≤ moment.wall.day)
    (last : moment.wall.day + 2 < dayCount) :
    ∃ shown, moment.inZone zone = .ok shown ∧ moment.wall.day - 2 ≤ shown.wall.day ∧
      shown.wall.day ≤ moment.wall.day + 2 := by
  unfold Moment.inZone
  split
  · exact ⟨_, rfl, by dsimp only; omega, by dsimp only; omega⟩
  next offset shows =>
    have opposite : moment.wall - offset * secondLength = moment.wall + -offset * secondLength := by
      rw [Int.neg_mul]
      rfl
    have near : WithinDay (-offset) := by
      obtain ⟨behind, ahead⟩ := own offset shows
      exact ⟨by omega, by omega⟩
    have universalDay := day_shifted moment.wall near
    rw [← opposite] at universalDay
    have universal := checked_ok (moment.wall - offset * secondLength) (by omega) (by omega)
    have shownDay := day_shifted (moment.wall - offset * secondLength)
      (offsetFromUniversal_withinDay standard summer (moment.wall - offset * secondLength))
    have shown := checked_ok (moment.wall - offset * secondLength +
      (zone.offsetFromUniversal (moment.wall - offset * secondLength)).1 * secondLength)
      (by omega) (by omega)
    refine ⟨_, bind_ok_iff.mpr ⟨_, universal, bind_ok_iff.mpr ⟨_, shown, rfl⟩⟩, ?_, ?_⟩
    · dsimp only
      omega
    · dsimp only
      omega

theorem localize_succeeds {moment : Moment} {zoneName : Option String}
    (own : ∀ offset ∈ moment.offset?, WithinDay offset)
    (known : ∀ name ∈ zoneName, ∃ zone, Zone.named name = .ok zone)
    (first : 2 ≤ moment.wall.day) (last : moment.wall.day + 2 < dayCount) :
    ∃ shown, moment.localize zoneName = .ok shown ∧ moment.wall.day - 2 ≤ shown.wall.day ∧
      shown.wall.day ≤ moment.wall.day + 2 := by
  cases zoneName with
  | none => exact ⟨moment, rfl, by omega, by omega⟩
  | some name =>
    obtain ⟨zone, named⟩ := known name rfl
    obtain ⟨standard, summer⟩ := named_withinDay named
    obtain ⟨shown, shows, near⟩ := inZone_succeeds own standard summer first last
    exact ⟨shown, bind_ok_iff.mpr ⟨zone, named, shows⟩, near⟩

end Curbside.Proofs.LocalTime

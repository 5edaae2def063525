import Curbside.Proofs.Composition
import Curbside.Proofs.ZoneTime

/-! Verdicts in real time. A verdict speaks of readings of a clock, and a clock that is put forward or
back passes over some readings and shows others twice. Apart from those, a verdict holds at every
instant until its next change. -/

namespace Curbside.Proofs.RealTime
open Wall WallClock LocalTime ZoneTime NextChange Restriction Attempt Curbside.Proofs.Composition

/-- The reading that the clock of a zone shows at an instant. -/
def shown (zone : Zone) (instant : Wall) : Wall := instant + offset zone instant * secondLength

/-- A moment reads an instant off a clock less than a day away from universal time. -/
def At (moment : Moment) (instant : Wall) : Prop :=
  ∃ own, moment.offset? = some own ∧ WithinDay own ∧ moment.wall = instant + own * secondLength

def ShownWithin (zone : Zone) (wall first last : Wall) : Prop :=
  ∃ instant, first < instant ∧ instant < last ∧ shown zone instant = wall

/-- The clock passes over a reading and the moment before it. -/
def Skipped (zone : Zone) (wall : Wall) : Prop :=
  ∀ instant, shown zone instant ≠ wall ∧ shown zone instant ≠ wall - 1

theorem offset_withinDay {zone : Zone} (regular : Regular zone) (instant : Wall) :
    WithinDay (offset zone instant) :=
  offsetFromUniversal_withinDay regular.standard
    (fun summer has => (regular.summer summer has).offset) instant

theorem offsetAt_shown {zone : Zone} (regular : Regular zone) (instant : Wall) :
    zone.offsetAt (shown zone instant) (zone.offsetFromUniversal instant).2 =
      offset zone instant := by
  obtain ⟨turn, before, after, extremes, offsets⟩ := exists_turn regular instant
  obtain ⟨lowNear, highNear⟩ := extremes_withinDay regular
  have ordered := lowest_le_highest zone
  have near := offset_withinDay regular instant
  have length : secondLength = 1000000 := rfl
  rw [offsetAt_eq regular]
  generalize pastAt : instant - (highest zone - lowest zone) * secondLength = past
  generalize resolvedAt : shown zone instant -
    resolving zone (zone.offsetFromUniversal instant).2 * secondLength = resolved
  have chosen : resolving zone (zone.offsetFromUniversal instant).2 = highest zone ∧
        ¬ offset zone instant < offset zone past ∨
      resolving zone (zone.offsetFromUniversal instant).2 = lowest zone ∧
        offset zone instant < offset zone past := by
    rw [← pastAt, ← repeats_iff regular]
    cases (zone.offsetFromUniversal instant).2 <;> simp [resolving]
  simp only [WithinDay, shown, length, dayLength_eq, Wall] at *
  have own := offsets instant (by omega) (by omega)
  have byPast := offsets past (by omega) (by omega)
  have byResolved := offsets resolved (by omega) (by omega)
  omega

section
variable {zone : Zone} (regular : Regular zone) {now change : Wall} (ahead : shown zone now < change)
  (soon : change < shown zone now + weekLength)
include regular ahead soon

/-- A change to come lies ahead, save where the clock shows the present reading for the second time
and the change is printed with the offset of the first. -/
theorem later_iff :
    now < change - zone.offsetAt change false * secondLength ↔
      (zone.offsetFromUniversal now).2 = false ∨
        offset zone now = zone.offsetAt change false := by
  obtain ⟨turn, before, after, extremes, offsets⟩ := exists_turn regular now
  have repeats := repeats_iff regular now
  obtain ⟨lowNear, highNear⟩ := extremes_withinDay regular
  have ownNear := offset_withinDay regular now
  have ordered := lowest_le_highest zone
  have length : secondLength = 1000000 := rfl
  rw [← Bool.not_eq_true, repeats, offsetAt_first regular]
  generalize pastAt : now - (highest zone - lowest zone) * secondLength = past at *
  generalize resolvedAt : change - highest zone * secondLength = resolved at *
  simp only [WithinDay, shown, weekLength, length, dayLength_eq, Wall] at *
  have own := offsets now (by omega) (by omega)
  have byPast := offsets past (by omega) (by omega)
  have byResolved := offsets resolved (by omega) (by omega)
  omega

theorem shown_between (once : ¬ ShownWithin zone (shown zone now) now
      (change - zone.offsetAt change false * secondLength))
    (reached : ¬ Skipped zone change) {instant : Wall} (started : now ≤ instant)
    (unfinished : instant < change - zone.offsetAt change false * secondLength) :
    shown zone now ≤ shown zone instant ∧ shown zone instant < change := by
  obtain ⟨turn, before, after, extremes, offsets⟩ := exists_turn regular now
  have again : now < shown zone now - lowest zone * secondLength →
      shown zone now - lowest zone * secondLength <
        change - zone.offsetAt change false * secondLength →
      shown zone (shown zone now - lowest zone * secondLength) ≠ shown zone now :=
    fun first last same => once ⟨_, first, last, same⟩
  obtain ⟨landing, lands⟩ : ∃ landing,
      shown zone landing = change ∨ shown zone landing = change - 1 := by
    simpa only [Skipped, not_forall, not_and_or, not_not] using reached
  obtain ⟨lowNear, highNear⟩ := extremes_withinDay regular
  have ownNear := offset_withinDay regular now
  have landingNear := offset_withinDay regular landing
  have changeNear := offset_withinDay regular (change - highest zone * secondLength)
  have ordered := lowest_le_highest zone
  have length : secondLength = 1000000 := rfl
  rw [offsetAt_first regular] at *
  generalize secondAt : shown zone now - lowest zone * secondLength = second at *
  generalize resolvedAt : change - highest zone * secondLength = resolved at *
  simp only [WithinDay, shown, weekLength, length, dayLength_eq, Wall] at *
  have own := offsets now (by omega) (by omega)
  have bySecond := offsets second (by omega) (by omega)
  have byResolved := offsets resolved (by omega) (by omega)
  have byInstant := offsets instant (by omega) (by omega)
  have byLanding := offsets landing (by omega) (by omega)
  rcases extremes with steady | ⟨slow, fast⟩ | ⟨fast, slow⟩
  · clear again bySecond lands byLanding
    omega
  · -- Set forward, the clock would have to skip the change to pass it too early.
    clear again bySecond
    omega
  · -- Set back, it would have to show the present reading again to fall behind it.
    clear lands byLanding
    omega

end

theorem not_shown_again {zone : Zone} {now : Wall} (lowered : offset zone now = lowest zone)
    (last : Wall) : ¬ ShownWithin zone (shown zone now) now last := by
  intro again
  obtain ⟨instant, later, _, same⟩ := again
  have least := lowest_le_offset zone instant
  have length : secondLength = 1000000 := rfl
  simp only [shown, length, Wall] at *
  omega

def clockAt (zone : Zone) (instant : Wall) : Moment :=
  ⟨shown zone instant, some zone, (zone.offsetFromUniversal instant).2⟩

/-- Rules give a verdict at a moment, on the clock of a zone. -/
def Judged (rules : List Rule) (zone : Zone) (moment : Moment) (verdict : Verdict) : Prop :=
  ∃ here, moment.inZone zone = .ok here ∧ Verdict.evaluate rules here = .ok verdict

theorem judged_named {rules : List Rule} {name : String} {zone : Zone} {moment : Moment}
    {verdict : Verdict} (named : Zone.named name = .ok zone) : Judged rules zone moment verdict ↔
      ∃ here, moment.localize (some name) = .ok here ∧ Verdict.evaluate rules here = .ok verdict := by
  have same : moment.localize (some name) = moment.inZone zone := by
    simp only [Moment.localize, named]
    rfl
  rw [same]
  rfl

section
variable {zone : Zone} (regular : Regular zone) {moment : Moment} {instant : Wall}
include regular

theorem clockAt_offset (instant : Wall) :
    (clockAt zone instant).offset? = some (offset zone instant) :=
  congrArg some (offsetAt_shown regular instant)

variable (aware : At moment instant)
include aware

theorem inZone_at (first : 1 ≤ instant.day) (last : instant.day + 1 < dayCount) :
    moment.inZone zone = .ok (clockAt zone instant) := by
  obtain ⟨own, shows, _, reads⟩ := aware
  have universal : moment.wall - own * secondLength = instant := by
    rw [reads]
    exact Int.add_sub_cancel ..
  have near := day_shifted instant (offset_withinDay regular instant)
  simp only [Moment.inZone, shows, universal]
  refine bind_ok_iff.mpr ⟨instant, checked_ok instant (by omega) (by omega), ?_⟩
  exact bind_ok_iff.mpr ⟨shown zone instant, checked_ok (shown zone instant)
    (by simp only [shown]; omega) (by simp only [shown]; omega), rfl⟩

theorem judged_at (rules : List Rule) (first : 2 ≤ instant.day)
    (last : instant.day + Window.horizon + 2 < dayCount) :
    ∃ verdict, Judged rules zone moment verdict ∧
      Verdict.evaluate rules (clockAt zone instant) = .ok verdict := by
  have near := day_shifted instant (offset_withinDay regular instant)
  have opening : 1 ≤ (clockAt zone instant).wall.day := by
    simp only [clockAt, shown]
    omega
  have closing : (clockAt zone instant).wall.day + Window.horizon + 1 < dayCount := by
    simp only [clockAt, shown]
    omega
  obtain ⟨verdict, evaluated⟩ := evaluate_succeeds rules opening closing
  have shows := inZone_at regular aware (by omega) (by simp only [Window.horizon] at last; omega)
  exact ⟨verdict, ⟨_, shows, evaluated⟩, evaluated⟩

end

theorem changesNext_soon {windows : List Window} {after change : Wall}
    (changes : ChangesNext windows after (some change)) : change < after + weekLength := by
  obtain ⟨ahead, _, steady, window, member, differs⟩ := changes
  apply Int.not_le.mp
  intro late
  apply differs
  apply steady_forever _ change (Int.le_of_lt ahead)
  intro wall started inWeek
  exact steady window member wall started (Int.lt_of_lt_of_le inWeek late)

theorem verdict_steady {rules : List Rule} {here there : Moment} {verdict other : Verdict}
    (evaluated : Verdict.evaluate rules here = .ok verdict)
    (evaluatedThere : Verdict.evaluate rules there = .ok other) (started : here.wall ≤ there.wall)
    (before : ∀ change ∈ verdict.nextChange, there.wall < change.wall) :
    other.allowed = verdict.allowed ∧ other.active = verdict.active := by
  obtain ⟨changes, _⟩ := verdict_changes evaluated
  have same : ∀ rule ∈ rules, rule.activeAt there.wall = rule.activeAt here.wall := by
    intro rule member
    apply rule_steady _ member
    intro window listed
    apply steady_before changes listed started
    intro reading comes
    obtain ⟨change, next, rfl⟩ := Option.map_eq_some_iff.mp comes
    exact before change next
  obtain ⟨_, _, rfl⟩ := evaluate_ok_iff.mp evaluated
  obtain ⟨_, _, rfl⟩ := evaluate_ok_iff.mp evaluatedThere
  exact ⟨allowedAt_congr same, List.filter_congr same⟩

/-- Rules allow the same at a moment as a verdict does, and the same of them hold. -/
def Unchanged (rules : List Rule) (zone : Zone) (verdict : Verdict) (moment : Moment) : Prop :=
  ∃ other, Judged rules zone moment other ∧ other.allowed = verdict.allowed ∧
    other.active = verdict.active

theorem day_of_at {moment : Moment} {instant : Wall} (aware : At moment instant) :
    moment.wall.day - 1 ≤ instant.day ∧ instant.day ≤ moment.wall.day + 1 := by
  obtain ⟨own, _, ⟨behind, ahead⟩, reads⟩ := aware
  have length : secondLength = 1000000 := rfl
  simp only [Wall.day, reads, dayLength_eq, length, Wall]
  omega

section
variable {rules : List Rule} {zone : Zone} {now : Wall} (regular : Regular zone)
  (first : 5 ≤ now.day) (last : now.day + 30 < dayCount) {verdict : Verdict}
  (evaluated : Verdict.evaluate rules (clockAt zone now) = .ok verdict) {change : Moment}
  (next : verdict.nextChange = some change)
include evaluated next

theorem change_within_week :
    shown zone now < change.wall ∧ change.wall < shown zone now + weekLength := by
  obtain ⟨changes, _⟩ := verdict_changes evaluated
  rw [next] at changes
  exact ⟨changes.1, changesNext_soon changes⟩

theorem change_printed : change.offset? = some (zone.offsetAt change.wall false) := by
  obtain ⟨_, clock⟩ := verdict_changes evaluated
  rw [next] at clock
  exact congrArg Moment.offset? (Option.some.inj clock).symm

include regular first last in
theorem unchanged_between {other : Moment} {instant : Wall} (aware : At other instant)
    (started : shown zone now ≤ shown zone instant) (before : shown zone instant < change.wall) :
    Unchanged rules zone verdict other := by
  obtain ⟨_, soon⟩ := change_within_week evaluated next
  have near := offset_withinDay regular instant
  have nearNow := offset_withinDay regular now
  have length : secondLength = 1000000 := rfl
  have days : now.day - 3 ≤ instant.day ∧ instant.day ≤ now.day + 10 := by
    simp only [shown, WithinDay, Wall.day, weekLength, dayLength_eq, length, Wall] at *
    omega
  have horizon : Window.horizon = 8 := rfl
  obtain ⟨another, judged, evaluatedOther⟩ :=
    judged_at regular aware rules (by omega) (by omega)
  refine ⟨another, judged, verdict_steady evaluated evaluatedOther started ?_⟩
  intro later comes
  cases next.symm.trans comes
  exact before

end

/-- What a verdict says in real time. It holds at every moment that the clock shows before the next
change. The change lies ahead, save where the clock shows the present reading for the second time
and the change is printed with another offset. Until the change nothing else happens, unless the
clock shows the present reading again before it, or passes over its reading. -/
theorem verdict_holds_in_real_time (rules : List Rule) {zone : Zone} {start : Moment} {now : Wall}
    (regular : Regular zone) (dated : InYears 2 9000 start.wall) (aware : At start now) :
    ∃ verdict, Judged rules zone start verdict ∧
      ∀ change ∈ verdict.nextChange, ∃ turning, At change turning ∧
        (now < turning ↔ (clockAt zone now).secondPass = false ∨
          (clockAt zone now).offset? = change.offset?) ∧
        (∀ other instant, At other instant → shown zone now ≤ shown zone instant →
          shown zone instant < change.wall → Unchanged rules zone verdict other) ∧
        (¬ ShownWithin zone (shown zone now) now turning → ¬ Skipped zone change.wall →
          ∀ other instant, At other instant → now ≤ instant → instant < turning →
            Unchanged rules zone verdict other) := by
  obtain ⟨firstDay, lastDay⟩ := day_of_inYears dated
  obtain ⟨lower, upper⟩ := day_of_at aware
  have count : dayCount = 3652059 := rfl
  have horizon : Window.horizon = 8 := rfl
  have first : 5 ≤ now.day := by omega
  have last : now.day + 30 < dayCount := by omega
  obtain ⟨verdict, judged, evaluated⟩ := judged_at regular aware rules (by omega) (by omega)
  refine ⟨verdict, judged, ?_⟩
  intro change next
  obtain ⟨ahead, soon⟩ := change_within_week evaluated next
  have printed := change_printed evaluated next
  have withinDay : WithinDay (zone.offsetAt change.wall false) := by
    rw [offsetAt_first regular]
    exact offset_withinDay regular _
  refine ⟨change.wall - zone.offsetAt change.wall false * secondLength,
    ⟨_, printed, withinDay, (Int.sub_add_cancel ..).symm⟩, ?_, ?_, ?_⟩
  · rw [later_iff regular ahead soon, clockAt_offset regular, printed, Option.some_inj]
    rfl
  · intro other instant awareOther started before
    exact unchanged_between regular first last evaluated next awareOther started before
  · intro once reached other instant awareOther started unfinished
    obtain ⟨begun, before⟩ := shown_between regular ahead soon once reached started unfinished
    exact unchanged_between regular first last evaluated next awareOther begun before

def newYork : Zone := Zone.northAmerican (Zone.hours (-5))

def nineOClock : Wall := ofDate ⟨2026, 2, 25⟩ + 840 * minuteLength

def universally (instant : Wall) : Moment := ⟨instant, some (Zone.fixed 0), false⟩

theorem towing_until_ten : Regular newYork ∧ InYears 2 9000 (universally nineOClock).wall ∧
    At (universally nineOClock) nineOClock ∧
    ∃ here verdict, (universally nineOClock).localize (some "America/New_York") = .ok here ∧
      Verdict.evaluate [towedByMorning] here = .ok verdict ∧ verdict.allowed = false ∧
      ∀ other instant, At other instant → nineOClock ≤ instant →
        instant < nineOClock + 60 * minuteLength →
        Unchanged [towedByMorning] newYork verdict other := by
  have named : Zone.named "America/New_York" = .ok newYork := rfl
  have regular := named_regular named
  have dated : InYears 2 9000 (universally nineOClock).wall := by
    unfold InYears
    decide +kernel
  have aware : At (universally nineOClock) nineOClock := ⟨0, rfl, by decide, by decide +kernel⟩
  refine ⟨regular, dated, aware, ?_⟩
  have shows : (universally nineOClock).localize (some "America/New_York") =
      .ok ⟨nineOClock - 300 * minuteLength, some newYork, false⟩ :=
    ok_of_toOption (by decide +kernel)
  have evaluated : Verdict.evaluate [towedByMorning]
      ⟨nineOClock - 300 * minuteLength, some newYork, false⟩ =
      .ok ⟨false, some towedByMorning,
        some ⟨nineOClock - 240 * minuteLength, some newYork, false⟩, [towedByMorning]⟩ :=
    ok_of_toOption (by decide +kernel)
  obtain ⟨verdict, judged, holds⟩ :=
    verdict_holds_in_real_time [towedByMorning] regular dated aware
  obtain ⟨here, showsHere, evaluatedHere⟩ := (judged_named named).mp judged
  cases showsHere.symm.trans shows
  cases evaluatedHere.symm.trans evaluated
  refine ⟨_, _, shows, evaluated, rfl, ?_⟩
  obtain ⟨turning, ⟨own, printed, _, reads⟩, _, _, steady⟩ := holds _ rfl
  have standard : own = -18000 := Option.some.inj (printed.symm.trans (by decide +kernel))
  have turns : turning = nineOClock + 60 * minuteLength := by
    have length : secondLength = 1000000 := rfl
    simp only [standard, minuteLength_eq, length] at reads ⊢
    lia
  rw [← turns]
  apply steady
  · exact not_shown_again (show offset newYork nineOClock = lowest newYork by decide +kernel) _
  · exact fun skipped => (skipped (nineOClock + 60 * minuteLength)).1 (by decide +kernel)

def sundayNightBan : Rule :=
  ⟨.plain .noParking,
    some (Window.onDays ⟨60, by decide⟩ ⟨105, by decide⟩ (DaySet.single .sunday)),
    Binary64.ofPlaces 90 2, "NO PARKING 1AM-1:45AM SUN", false⟩

/-- Half past one in New York, for the second time in the night that sets the clock back. -/
def halfPastOne : Wall := ofDate ⟨2026, 11, 1⟩ + 390 * minuteLength

/-- The ban that ends at a quarter to two is said to have ended three quarters of an hour ago. -/
theorem repeated_hour_breaks : At (universally halfPastOne) halfPastOne ∧
    ∃ here verdict change turning,
      (universally halfPastOne).localize (some "America/New_York") = .ok here ∧
      Verdict.evaluate [sundayNightBan] here = .ok verdict ∧ change ∈ verdict.nextChange ∧
      At change turning ∧ turning < halfPastOne := by
  refine ⟨⟨0, rfl, by decide, by decide +kernel⟩, ?_⟩
  have shows : (universally halfPastOne).localize (some "America/New_York") =
      .ok ⟨halfPastOne - 300 * minuteLength, some newYork, true⟩ :=
    ok_of_toOption (by decide +kernel)
  have evaluated : Verdict.evaluate [sundayNightBan]
      ⟨halfPastOne - 300 * minuteLength, some newYork, true⟩ =
      .ok ⟨false, some sundayNightBan,
        some ⟨halfPastOne - 285 * minuteLength, some newYork, false⟩, [sundayNightBan]⟩ :=
    ok_of_toOption (by decide +kernel)
  exact ⟨_, _, _, halfPastOne - 45 * minuteLength, shows, evaluated, rfl,
    ⟨-14400, by decide +kernel, by decide, by decide +kernel⟩, by decide +kernel⟩

end Curbside.Proofs.RealTime

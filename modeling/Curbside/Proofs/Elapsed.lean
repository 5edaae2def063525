import Curbside.Proofs.Countdown
import Curbside.Proofs.RealTime

/-! How long a time limit lasts in real time. The minutes of a limit are added to a reading of the
clock, and the end is printed with the offset that the clock has there. So a stay lasts as long as
its limit says exactly if both ends are printed with the same offset. -/

namespace Curbside.Proofs.Elapsed
open Wall WallClock LocalTime ZoneTime RealTime RuleRecord Restriction Stay Deadlines Countdown Attempt

/-- The clock of a zone passes over a reading. -/
def NeverShown (zone : Zone) (wall : Wall) : Prop := ∀ instant, shown zone instant ≠ wall

theorem offset_extreme (zone : Zone) (instant : Wall) :
    offset zone instant = lowest zone ∨ offset zone instant = highest zone := by
  unfold offset lowest highest Zone.offsetFromUniversal
  cases zone.summer with
  | none => exact Or.inl rfl
  | some summer =>
    simp only [Option.elim_some]
    rcases le_total zone.standard summer.offset with ahead | behind
    · rw [min_eq_left ahead, max_eq_right ahead]
      split
      · exact Or.inr rfl
      · exact Or.inl rfl
    · rw [min_eq_right behind, max_eq_left behind]
      split
      · exact Or.inl rfl
      · exact Or.inr rfl

theorem checked_eq {wall result : Wall} (reached : checked wall = .ok result) : result = wall := by
  unfold checked at reached
  split at reached
  · cases reached
    rfl
  · cases reached

theorem inZone_shows {zone : Zone} {moment here : Moment} {instant : Wall} (aware : At moment instant)
    (shows : moment.inZone zone = .ok here) : here = clockAt zone instant := by
  obtain ⟨own, stated, _, reads⟩ := aware
  have universal : moment.wall - own * secondLength = instant := by
    rw [reads]
    exact Int.add_sub_cancel ..
  simp only [Moment.inZone, stated, universal] at shows
  obtain ⟨_, inside, shows⟩ := bind_ok_iff.mp shows
  cases checked_eq inside
  obtain ⟨_, local_, built⟩ := bind_ok_iff.mp shows
  cases checked_eq local_
  cases built
  rfl

section
variable {rules : List Rule} {start : Moment} {lead : Span} {verdict : Verdict} {timer : Timer}

theorem ofStay_minutes {finish : Moment} {reason : Timer.Reason}
    (reached : Timer.ofStay start finish lead reason = .ok timer) :
    timer.minutes = Span.wholeMinutes (finish.wall - start.wall) := by
  obtain ⟨warning, _, built⟩ := bind_ok_iff.mp reached
  rw [← Except.ok.inj built]

theorem bounded_uncut {finish : Moment} {restriction : Option Moment} {reason : Timer.Reason}
    (reached : Timer.bounded start finish restriction lead reason = .ok timer)
    (uncut : timer.reason ≠ .restrictionStart) :
    timer.reason = reason ∧ Timer.ofStay start finish lead reason = .ok timer := by
  unfold Timer.bounded at reached
  cases restriction with
  | none => exact ⟨(ofStay_ends reached).2, reached⟩
  | some earlier =>
    dsimp only at reached
    split at reached
    · exact absurd (ofStay_ends reached).2 uncut
    · exact ⟨(ofStay_ends reached).2, reached⟩

theorem limit_on_clock (acceptable : ∀ rule ∈ rules, Acceptable rule)
    (reached : Timer.suggest verdict rules start lead = .ok (some timer))
    (limited : timer.reason = .timeLimit) :
    Timer.firstLimit? (Rule.active rules start.wall) = some timer.minutes ∧
      timer.expiresAt = start.atWall (start.wall + timer.minutes * minuteLength) := by
  have uncut : timer.reason ≠ .restrictionStart := by
    rw [limited]
    nofun
  obtain ⟨restriction, _, made⟩ := suggest_made reached
  cases made with
  | @limit minutes span finish _ states held shifted bounded =>
    obtain ⟨_, stays⟩ := bounded_uncut bounded uncut
    obtain ⟨rule, active, kind⟩ := mem_firstLimit? states
    have lasting := (acceptable rule (List.mem_filter.mp active).1).lasting _ kind
    have counted : Counted (finish.wall - start.wall) := (ahead_limit lasting held shifted).counted
    obtain ⟨_, rfl⟩ := shift_ok_iff.mp shifted
    cases ofMinutes_whole held
    have elapsed : (start.atWall (start.wall + minutes * minuteLength)).wall - start.wall =
        minutes * minuteLength := add_sub_cancel_left start.wall _
    have same : timer.minutes = minutes := by
      rw [ofStay_minutes stays, counted, elapsed]
      exact Int.mul_ediv_cancel _ (by decide)
    rw [same]
    exact ⟨states, (ofStay_ends stays).1⟩
  | meter _ _ _ bounded =>
    obtain ⟨own, _⟩ := bounded_uncut bounded uncut
    cases own.symm.trans limited
  | restriction _ _ stays => exact absurd (ofStay_ends stays).2 uncut

end

/-- The reading that the clock would show after a stay if it were not changed. -/
def readingAfter (zone : Zone) (now : Wall) (stay : Int) : Moment :=
  ⟨shown zone now + stay, some zone, false⟩

section
variable {zone : Zone} (now : Wall) (stay : Int)

theorem readingAfter_wall : (readingAfter zone now stay).wall =
    now + stay + offset zone now * secondLength := by
  simp only [readingAfter, shown]
  lia

theorem skips_iff (lower : offset zone now = lowest zone) :
    NeverShown zone (readingAfter zone now stay).wall ↔
      offset zone (now + stay) ≠ lowest zone ∧
        offset zone (now + stay - (highest zone - lowest zone) * secondLength) ≠ highest zone := by
  have length : secondLength = 1000000 := rfl
  rw [readingAfter_wall, lower]
  generalize pastAt : now + stay - (highest zone - lowest zone) * secondLength = past
  constructor
  · intro never
    refine ⟨fun slow => never (now + stay) ?_, fun fast => never past ?_⟩
    · rw [shown, slow]
    · rw [shown, fast]
      simp only [length, Wall] at *
      omega
  · rintro ⟨late, early⟩ instant same
    -- An instant that shows the reading is told by the offset that it has.
    rcases offset_extreme zone instant with slow | fast
    · rw [shown, slow] at same
      have here : now + stay = instant := by
        simp only [length, Wall] at *
        omega
      exact late (here ▸ slow)
    · rw [shown, fast] at same
      have here : past = instant := by
        simp only [length, Wall] at *
        omega
      exact early (here ▸ fast)

variable (regular : Regular zone)
include regular

theorem readingAfter_offset : (readingAfter zone now stay).offset? =
    some (offset zone (now + stay - (highest zone - offset zone now) * secondLength)) := by
  have resolved : shown zone now + stay - highest zone * secondLength =
      now + stay - (highest zone - offset zone now) * secondLength := by
    simp only [shown]
    lia
  simp only [readingAfter, Moment.offset?, Option.map_some, offsetAt_first regular, resolved]

theorem arrives_iff : readingAfter zone now stay = clockAt zone (now + stay) ↔
    offset zone (now + stay) = offset zone now ∧
      offset zone (now + stay - (highest zone - lowest zone) * secondLength) ≤
        offset zone (now + stay) := by
  have passes : (zone.offsetFromUniversal (now + stay)).2 = false ↔
      offset zone (now + stay - (highest zone - lowest zone) * secondLength) ≤
        offset zone (now + stay) := by
    rw [← Bool.not_eq_true, repeats_iff regular, Int.not_lt]
  have length : secondLength = 1000000 := rfl
  simp only [readingAfter, clockAt, Moment.mk.injEq, true_and, shown, eq_comm (a := false), passes]
  refine and_congr_left fun _ => ?_
  simp only [length, Wall]
  omega

theorem same_offset_iff : (readingAfter zone now stay).offset? = some (offset zone now) ↔
    readingAfter zone now stay = clockAt zone (now + stay) ∨
      offset zone now = lowest zone ∧ NeverShown zone (readingAfter zone now stay).wall := by
  have ordered := lowest_le_highest zone
  have arrived := offset_extreme zone (now + stay)
  have before := offset_extreme zone (now + stay - (highest zone - lowest zone) * secondLength)
  rw [readingAfter_offset now stay regular, Option.some_inj, arrives_iff now stay regular,
    and_congr_right (skips_iff now stay)]
  rcases offset_extreme zone now with slow | fast
  · rw [slow]
    omega
  · rw [fast, Int.sub_self, Int.zero_mul, Int.sub_zero]
    omega

end

/-- How long a time limit lasts in real time. The stay is as much longer than the minutes that are
counted as the offset at its end is printed lower than the one at its start. So it lasts for just
those minutes exactly if its end is what the clock shows after them, or is a reading that the clock
is put forward over. -/
theorem limit_lasts_iff {rules : List Rule} {zone : Zone} {start here : Moment} {now : Wall}
    {verdict : Verdict} {lead : Span} {timer : Timer} (regular : Regular zone)
    (acceptable : ∀ rule ∈ rules, Acceptable rule) (aware : At start now)
    (shows : start.inZone zone = .ok here)
    (reached : Timer.suggest verdict rules here lead = .ok (some timer))
    (limited : timer.reason = .timeLimit) :
    Timer.firstLimit? (Rule.active rules here.wall) = some timer.minutes ∧
    ∃ finish printed, At timer.expiresAt finish ∧ timer.expiresAt.offset? = some printed ∧
      finish - now = timer.minutes * minuteLength + (offset zone now - printed) * secondLength ∧
      (finish - now = timer.minutes * minuteLength ↔
        timer.expiresAt = clockAt zone (now + timer.minutes * minuteLength) ∨
          offset zone now = lowest zone ∧ NeverShown zone timer.expiresAt.wall) := by
  obtain ⟨states, ends⟩ := limit_on_clock acceptable reached limited
  cases inZone_shows aware shows
  have reading : timer.expiresAt = readingAfter zone now (timer.minutes * minuteLength) := ends
  refine ⟨states, ?_⟩
  generalize timer.minutes * minuteLength = stay at reading ⊢
  have printed := readingAfter_offset now stay regular
  have exact_ := same_offset_iff now stay regular
  rw [printed, Option.some_inj] at exact_
  generalize resolvedAt : now + stay - (highest zone - offset zone now) * secondLength = resolved
    at printed exact_
  rw [reading, ← exact_]
  refine ⟨(readingAfter zone now stay).wall - offset zone resolved * secondLength,
    offset zone resolved, ⟨_, printed, offset_withinDay regular _, (Int.sub_add_cancel ..).symm⟩,
    printed, ?_, ?_⟩
  · rw [readingAfter_wall]
    lia
  · have length : secondLength = 1000000 := rfl
    rw [readingAfter_wall]
    simp only [length, Wall]
    omega

theorem twoHours_acceptable : ∀ rule ∈ [twoHours], Acceptable rule := by
  rw [List.forall_mem_singleton]
  refine ⟨?_, nofun, by decide +kernel, by decide +kernel, by decide +kernel⟩
  intro minutes two
  cases two
  decide

def tenMinutes : Span := 10 * minuteLength

/-- Half past twelve in New York, in the night that sets the clock forward. -/
def springNight : Wall := ofDate ⟨2026, 3, 8⟩ + 330 * minuteLength

theorem two_hours_in_spring : Regular newYork ∧ (∀ rule ∈ [twoHours], Acceptable rule) ∧
    At (universally springNight) springNight ∧ ∃ here verdict timer finish,
      (universally springNight).localize (some "America/New_York") = .ok here ∧
      Verdict.evaluate [twoHours] here = .ok verdict ∧
      Timer.suggest verdict [twoHours] here tenMinutes = .ok (some timer) ∧
      timer.reason = .timeLimit ∧ timer.minutes = 120 ∧
      At timer.expiresAt finish ∧ finish - springNight = 120 * minuteLength := by
  have regular : Regular newYork := by decide
  have aware : At (universally springNight) springNight :=
    ⟨0, rfl, by decide, by decide +kernel⟩
  have shows : (universally springNight).inZone newYork =
      .ok ⟨springNight - 300 * minuteLength, some newYork, false⟩ :=
    ok_of_toOption (by decide +kernel)
  have evaluated : Verdict.evaluate [twoHours] ⟨springNight - 300 * minuteLength, some newYork, false⟩ =
      .ok ⟨true, none, none, [twoHours]⟩ := ok_of_toOption (by decide +kernel)
  have reached : Timer.suggest ⟨true, none, none, [twoHours]⟩ [twoHours]
      ⟨springNight - 300 * minuteLength, some newYork, false⟩ tenMinutes =
      .ok (some ⟨⟨springNight - 180 * minuteLength, some newYork, false⟩,
        ⟨springNight - 190 * minuteLength, some newYork, false⟩, 120, .timeLimit⟩) :=
    ok_of_toOption (by decide +kernel)
  obtain ⟨_, finish, printed, ends, _, _, lasts⟩ :=
    limit_lasts_iff regular twoHours_acceptable aware shows reached rfl
  have lower : offset newYork springNight = lowest newYork := by decide +kernel
  have skipped : NeverShown newYork (springNight - 180 * minuteLength) := by
    have skips := (skips_iff springNight (120 * minuteLength) lower).mpr
      ⟨by decide +kernel, by decide +kernel⟩
    have reading : (readingAfter newYork springNight (120 * minuteLength)).wall =
        springNight - 180 * minuteLength := by decide +kernel
    rwa [reading] at skips
  exact ⟨regular, twoHours_acceptable, aware, _, _, _, finish, shows, evaluated, reached, rfl, rfl,
    ends, lasts.mpr (Or.inr ⟨lower, skipped⟩)⟩

/-- Half past twelve in New York, in the night that sets the clock back. -/
def autumnNight : Wall := ofDate ⟨2026, 11, 1⟩ + 270 * minuteLength

/-- Two hours from then are three hours long. -/
theorem two_hours_in_autumn : (∀ rule ∈ [twoHours], Acceptable rule) ∧
    At (universally autumnNight) autumnNight ∧ ∃ here verdict timer finish,
      (universally autumnNight).localize (some "America/New_York") = .ok here ∧
      Verdict.evaluate [twoHours] here = .ok verdict ∧
      Timer.suggest verdict [twoHours] here tenMinutes = .ok (some timer) ∧
      timer.reason = .timeLimit ∧ timer.minutes = 120 ∧
      At timer.expiresAt finish ∧ finish - autumnNight = 180 * minuteLength := by
  have shows : (universally autumnNight).localize (some "America/New_York") =
      .ok ⟨autumnNight - 240 * minuteLength, some newYork, false⟩ :=
    ok_of_toOption (by decide +kernel)
  have evaluated : Verdict.evaluate [twoHours] ⟨autumnNight - 240 * minuteLength, some newYork, false⟩ =
      .ok ⟨true, none, none, [twoHours]⟩ := ok_of_toOption (by decide +kernel)
  have reached : Timer.suggest ⟨true, none, none, [twoHours]⟩ [twoHours]
      ⟨autumnNight - 240 * minuteLength, some newYork, false⟩ tenMinutes =
      .ok (some ⟨⟨autumnNight - 120 * minuteLength, some newYork, false⟩,
        ⟨autumnNight - 130 * minuteLength, some newYork, false⟩, 120, .timeLimit⟩) :=
    ok_of_toOption (by decide +kernel)
  exact ⟨twoHours_acceptable, ⟨0, rfl, by decide, by decide +kernel⟩, _, _, _,
    autumnNight + 180 * minuteLength, shows, evaluated, reached, rfl, rfl,
    ⟨-18000, by decide +kernel, by decide, by decide +kernel⟩, by decide +kernel⟩

end Curbside.Proofs.Elapsed

import Curbside.Proofs.BilledUnits
import Curbside.Proofs.Deadlines
import Curbside.Proofs.Hops

/-! What every timer has in common, whatever verdict it was asked for with. It ends after the stay
began, warns no later than that, and counts the minutes in between on their binary64 seconds
without losing or gaining one. -/

namespace Curbside.Proofs.Countdown
open Wall WallClock Binary64 Rounding Confidence Quotients NextChange Restriction Stay Deadlines
open Attempt RuleRecord Hops

/-- The minutes that are counted in a span are its whole minutes. -/
def Counted (span : Span) : Prop := Span.wholeMinutes span = span / minuteLength

theorem wholeMinutes_eq {stay count : Nat} (short : stay < powerOfTwo 53 * 1000000)
    (reached : count * 60 * one ≤ roundUnits (stay * one) 1000000)
    (inside : roundUnits (stay * one) 1000000 < (count + 1) * 60 * one) :
    Span.wholeMinutes stay = count := by
  have seconds : Span.seconds stay = .finite false (roundUnits (stay * one) 1000000) :=
    nearest_short short (by decide) false
  have divided : roundUnits (stay * one) 1000000 / (60 * one) = count := by
    generalize roundUnits (stay * one) 1000000 = units at reached inside ⊢
    generalize one = unit at reached inside ⊢
    apply Nat.div_eq_of_lt_le
    · rwa [← Nat.mul_assoc]
    · rwa [← Nat.mul_assoc]
  have unsigned : ∀ units, (finite false units).signed = units := fun _ => rfl
  rw [Span.wholeMinutes, seconds, unsigned, ← divided]
  generalize one = unit
  exact Int.fdiv_eq_ediv_of_nonneg _ (Int.natCast_nonneg (60 * unit))

theorem counted_short {stay : Nat} (few : stay < powerOfTwo 53) : Counted stay := by
  have whole : (stay : Int) / minuteLength = (stay / 60000000 : Nat) := rfl
  have below : stay / 60000000 * 60 * 1000000 ≤ stay := by omega
  have above : stay < (stay / 60000000 + 1) * 60 * 1000000 := by omega
  have short : stay < powerOfTwo 53 * 1000000 :=
    Nat.lt_of_lt_of_le few (Nat.le_mul_of_pos_right _ (by decide))
  rw [Counted, whole]
  apply wholeMinutes_eq short
  · exact le_roundUnits short (by decide) below
  · exact roundUnits_lt few (by decide) above

theorem counted_minutes {minutes : Nat} (short : minutes * 60000000 < powerOfTwo 53 * 1000000) :
    Counted (minutes * 60000000 : Nat) := by
  have whole : ((minutes * 60000000 : Nat) : Int) / minuteLength = minutes := by
    rw [minuteLength_eq]
    omega
  unfold Counted
  rw [whole]
  apply wholeMinutes_eq short
  · exact le_roundUnits short (by decide) (by omega)
  · calc roundUnits (minutes * 60000000 * one) 1000000
        ≤ minutes * 60 * one := roundUnits_le short (by decide) (by omega)
      _ < (minutes + 1) * 60 * one := Nat.mul_lt_mul_of_pos_right (by omega) one_positive

/-- A later moment on the same clock, with the minutes up to it counted. -/
structure Ahead (start later : Moment) : Prop where
  after : start.wall < later.wall
  zone : later.zone = start.zone
  counted : Counted (later.wall - start.wall)

theorem ahead_soon {start later : Moment} (after : start.wall < later.wall)
    (soon : later.wall ≤ start.wall + Timer.horizon) (zone : later.zone = start.zone) :
    Ahead start later := by
  refine ⟨after, zone, ?_⟩
  obtain ⟨stay, same⟩ := Int.eq_ofNat_of_zero_le (Int.sub_nonneg.mpr (Int.le_of_lt after))
  have horizon : Timer.horizon = 691200000000 := rfl
  have large : powerOfTwo 53 = 9007199254740992 := rfl
  rw [same]
  apply counted_short
  rw [horizon] at soon
  rw [large]
  simp only [Wall] at *
  omega

theorem ahead_limit {start later : Moment} {minutes : Int} {span : Span} (lasting : 0 < minutes)
    (held : Span.ofMinutes (.whole minutes) = .ok span) (shifted : start.shift span = .ok later) :
    Ahead start later := by
  obtain ⟨count, same⟩ := Int.eq_ofNat_of_zero_le (Int.le_of_lt lasting)
  subst same
  have some : 0 < count := Int.natCast_pos.mp lasting
  have length : span = (count * 60000000 : Nat) := ofMinutes_whole held
  have checked : Span.checked span = .ok span := by
    obtain ⟨total, built, checked⟩ := bind_ok_iff.mp held
    cases built
    rwa [Int.add_zero, ← ofMinutes_whole held] at checked
  rw [length] at checked
  have bound : count * 60000000 < 1000000000 * 86400000000 :=
    Int.ofNat_lt.mp (BilledUnits.span_lt checked)
  obtain ⟨_, rfl⟩ := shift_ok_iff.mp shifted
  have elapsed : (start.atWall (start.wall + span)).wall - start.wall = span :=
    add_sub_cancel_left start.wall span
  refine ⟨?_, rfl, ?_⟩
  · apply Int.lt_add_of_pos_right
    rw [length]
    exact Int.natCast_pos.mpr (Nat.mul_pos some (by decide))
  · rw [elapsed, length]
    apply counted_minutes
    exact Nat.lt_trans bound (by decide)

section
variable {rules : List Rule} {start later : Moment}

theorem nextRestriction_ahead (reached : Timer.nextRestriction rules start = .ok (some later)) :
    Ahead start later := by
  unfold Timer.nextRestriction at reached
  split at reached
  next => cases reached
  next =>
    obtain ⟨limit, reach, found⟩ := bind_ok_iff.mp reached
    obtain ⟨onward, outcome, search⟩ := search_terminates (limit_ahead reach)
    obtain rfl := (search.bounded (search.few reach)).symm.trans found
    obtain ⟨leads, _⟩ := search.finds
    obtain ⟨_, rfl⟩ := shift_ok_iff.mp reach
    exact ahead_soon leads.after leads.within leads.zone

theorem nextShowing_ahead {minute : Minute} (reached : Timer.nextShowing start minute = .ok later) :
    Ahead start later := by
  obtain ⟨shows, clock⟩ := nextShowing_first reached
  have soon := shows_within_day shows
  have day : dayLength ≤ Timer.horizon := by decide
  apply ahead_soon shows.1 (by lia)
  rw [clock]
  rfl

end

/-- A timer that fits a stay under rules. What a meter shows when the stay ends is shown within a
day, and at the very start of a minute. -/
structure Fits (rules : List Rule) (start : Moment) (timer : Timer) : Prop where
  after : start.wall < timer.expiresAt.wall
  warnsInside : start.wall ≤ timer.warnAt.wall ∧ timer.warnAt.wall ≤ timer.expiresAt.wall
  zones : timer.expiresAt.zone = start.zone ∧ timer.warnAt.zone = start.zone
  elapsed : timer.minutes * minuteLength ≤ timer.expiresAt.wall - start.wall
  unfinished : timer.expiresAt.wall - start.wall < (timer.minutes + 1) * minuteLength
  meter : timer.reason = .meterExpiry → timer.expiresAt.wall ≤ start.wall + dayLength ∧
    ∃ minute, Timer.firstPaid? (Rule.active rules start.wall) = some minute ∧
      Shows minute timer.expiresAt.wall

def MeterEnds (rules : List Rule) (start finish : Moment) : Prop :=
  ∃ minute, Timer.firstPaid? (Rule.active rules start.wall) = some minute ∧
    FirstAfter start.wall (Shows minute) (some finish.wall)

section
variable {rules : List Rule} {start finish : Moment} {lead : Span} {reason : Timer.Reason}
  {timer : Timer}

theorem ofStay_fits (ahead : Ahead start finish) (notNegative : 0 ≤ lead)
    (paid : reason = .meterExpiry → MeterEnds rules start finish)
    (reached : Timer.ofStay start finish lead reason = .ok timer) : Fits rules start timer := by
  obtain ⟨warning, shifted, built⟩ := bind_ok_iff.mp reached
  obtain ⟨_, rfl⟩ := shift_ok_iff.mp shifted
  cases built
  have warned : finish.wall - lead ≤ finish.wall := Int.sub_le_self _ notNegative
  have after := ahead.after
  have counted := ahead.counted
  unfold Counted at counted
  refine ⟨after, ?_, ⟨ahead.zone, ?_⟩, ?_, ?_, ?_⟩
  · dsimp only [Moment.latest, Moment.atWall]
    split
    next early => exact ⟨Int.le_refl _, Int.le_of_lt after⟩
    next late => exact ⟨Int.not_lt.mp late, warned⟩
  · dsimp only [Moment.latest, Moment.atWall]
    split
    · rfl
    · exact ahead.zone
  · dsimp only
    rw [counted]
    exact Int.ediv_mul_le _ (by decide)
  · dsimp only
    rw [counted]
    exact Int.lt_ediv_add_one_mul_self _ (by decide)
  · intro meter
    obtain ⟨minute, shown, shows⟩ := paid meter
    exact ⟨shows_within_day shows, minute, shown, shows.2.1⟩

theorem bounded_fits {restriction : Option Moment} (ahead : Ahead start finish)
    (restricted : ∀ earlier, restriction = some earlier → Ahead start earlier)
    (notNegative : 0 ≤ lead) (paid : reason = .meterExpiry → MeterEnds rules start finish)
    (reached : Timer.bounded start finish restriction lead reason = .ok timer) :
    Fits rules start timer := by
  unfold Timer.bounded at reached
  cases restriction with
  | none => exact ofStay_fits ahead notNegative paid reached
  | some earlier =>
    dsimp only at reached
    split at reached
    · exact ofStay_fits (restricted earlier rfl) notNegative (by nofun) reached
    · exact ofStay_fits ahead notNegative paid reached

end

/-- What a timer comes from: a limit or a meter, with the restriction that may cut the stay short,
or that restriction alone. -/
inductive Made (rules : List Rule) (start : Moment) (lead : Span) (timer : Timer) :
    Option Moment → Prop where
  | limit {minutes : Int} {span : Span} {finish : Moment} {restriction : Option Moment}
      (limited : Timer.firstLimit? (Rule.active rules start.wall) = some minutes)
      (held : Span.ofMinutes (.whole minutes) = .ok span)
      (shifted : start.shift span = .ok finish)
      (bounded : Timer.bounded start finish restriction lead .timeLimit = .ok timer) :
      Made rules start lead timer restriction
  | meter {minute : Minute} {finish : Moment} {restriction : Option Moment}
      (unlimited : Timer.firstLimit? (Rule.active rules start.wall) = none)
      (paid : Timer.firstPaid? (Rule.active rules start.wall) = some minute)
      (shown : Timer.nextShowing start minute = .ok finish)
      (bounded : Timer.bounded start finish restriction lead .meterExpiry = .ok timer) :
      Made rules start lead timer restriction
  | restriction {finish : Moment}
      (unlimited : Timer.firstLimit? (Rule.active rules start.wall) = none)
      (unpaid : Timer.firstPaid? (Rule.active rules start.wall) = none)
      (stays : Timer.ofStay start finish lead .restrictionStart = .ok timer) :
      Made rules start lead timer (some finish)

section
variable {rules : List Rule} {start : Moment} {lead : Span} {verdict : Verdict} {timer : Timer}

theorem suggest_made (reached : Timer.suggest verdict rules start lead = .ok (some timer)) :
    ∃ restriction, Timer.nextRestriction rules start = .ok restriction ∧
      Made rules start lead timer restriction := by
  unfold Timer.suggest at reached
  split at reached
  next => cases reached
  next =>
    obtain ⟨restriction, found, next⟩ := bind_ok_iff.mp reached
    refine ⟨restriction, found, ?_⟩
    cases limited : Timer.firstLimit? (Rule.active rules start.wall) with
    | some minutes =>
      simp only [limited] at next
      obtain ⟨span, held, next⟩ := bind_ok_iff.mp next
      obtain ⟨finish, shifted, next⟩ := bind_ok_iff.mp next
      obtain ⟨_, bounded, same⟩ := map_ok_iff.mp next
      cases same
      exact .limit limited held shifted bounded
    | none =>
      cases paid : Timer.firstPaid? (Rule.active rules start.wall) with
      | some minute =>
        simp only [limited, paid] at next
        obtain ⟨finish, shown, next⟩ := bind_ok_iff.mp next
        obtain ⟨_, bounded, same⟩ := map_ok_iff.mp next
        cases same
        exact .meter limited paid shown bounded
      | none =>
        cases restriction with
        | none =>
          simp only [limited, paid] at next
          cases next
        | some finish =>
          simp only [limited, paid] at next
          obtain ⟨_, stays, same⟩ := map_ok_iff.mp next
          cases same
          exact .restriction limited paid stays

/-- Every timer fits the stay that it is for. -/
theorem timer_fits (acceptable : ∀ rule ∈ rules, Acceptable rule) (notNegative : 0 ≤ lead)
    (reached : Timer.suggest verdict rules start lead = .ok (some timer)) :
    Fits rules start timer := by
  obtain ⟨restriction, found, made⟩ := suggest_made reached
  have restricted : ∀ earlier, restriction = some earlier → Ahead start earlier := by
    intro earlier same
    exact nextRestriction_ahead (same ▸ found)
  cases made with
  | limit limited held shifted bounded =>
    obtain ⟨rule, active, kind⟩ := mem_firstLimit? limited
    have lasting := (acceptable rule (List.mem_filter.mp active).1).lasting _ kind
    exact bounded_fits (ahead_limit lasting held shifted) restricted notNegative (by nofun) bounded
  | meter _ paid shown bounded =>
    have ends := (nextShowing_first shown).1
    exact bounded_fits (nextShowing_ahead shown) restricted notNegative
      (fun _ => ⟨_, paid, ends⟩) bounded
  | restriction _ _ stays =>
    exact ofStay_fits (restricted _ rfl) notNegative (by nofun) stays

end

def paidMeter : Rule :=
  ⟨.plain (.metered (some ⟨945, by decide⟩)), none, Binary64.ofPlaces 9 1, "PAID UNTIL 3:45PM", false⟩

def pastThree : Moment := wednesdayAtThree.atWall (wednesdayAtThree.wall + 20 * secondLength)

def untilQuarterToFour : Timer :=
  ⟨pastThree.atWall (wednesdayAtThree.wall + 45 * minuteLength), pastThree, 44, .meterExpiry⟩

/-- The meter runs out before the restriction at four. It is too late to warn an hour before. -/
theorem meter_runs_out : (∀ rule ∈ [paidMeter, rushHour], Acceptable rule) ∧
    0 ≤ 60 * minuteLength ∧
    Timer.suggest ⟨true, none, none, []⟩ [paidMeter, rushHour] pastThree (60 * minuteLength) =
      .ok (some untilQuarterToFour) ∧
    Fits [paidMeter, rushHour] pastThree untilQuarterToFour := by
  have acceptable : ∀ rule ∈ [paidMeter, rushHour], Acceptable rule := by
    rw [List.forall_mem_cons, List.forall_mem_singleton]
    exact ⟨⟨nofun, nofun, by decide +kernel, by decide +kernel, by decide +kernel⟩,
      rushHour_acceptable⟩
  have least : 0 ≤ 60 * minuteLength := by decide
  have reached : Timer.suggest ⟨true, none, none, []⟩ [paidMeter, rushHour] pastThree
      (60 * minuteLength) = .ok (some untilQuarterToFour) :=
    ok_of_toOption (by decide +kernel)
  exact ⟨acceptable, least, reached, timer_fits acceptable least reached⟩

end Curbside.Proofs.Countdown

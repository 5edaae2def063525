import Curbside.Proofs.Restriction

/-! A timer runs to the earliest end of the stay: the next restriction, or the end of what the
driver may stay or has paid for, whichever comes first. Until then parking is allowed. -/

namespace Curbside.Proofs.Stay
open Wall WallClock Restriction Attempt

/-- A clock shows the very start of a minute of the day. -/
def Shows (minute : Minute) (wall : Wall) : Prop := wall.sinceMidnight = minute.val * minuteLength

/-- What bounds a stay apart from restrictions: the first time limit among the rules that hold,
or else the first meter among them that shows a time. -/
inductive Bound (active : List Rule) (start : Wall) : Option (Wall × Timer.Reason) → Prop where
  | limit {minutes : Int} (limited : Timer.firstLimit? active = some minutes) :
      Bound active start (some (start + minutes * minuteLength, .timeLimit))
  | meter {minute : Minute} {wall : Wall} (unlimited : Timer.firstLimit? active = none)
      (paid : Timer.firstPaid? active = some minute)
      (shows : FirstAfter start (Shows minute) (some wall)) :
      Bound active start (some (wall, .meterExpiry))
  | unbounded (unlimited : Timer.firstLimit? active = none) (unpaid : Timer.firstPaid? active = none) :
      Bound active start none

/-- The earlier of a restriction and a bound, and why the stay ends there. A restriction that
starts just when the bound is reached does not count as the reason. -/
def earliest : Option Wall → Option (Wall × Timer.Reason) → Option (Wall × Timer.Reason)
  | none, bound => bound
  | some restriction, none => some (restriction, .restrictionStart)
  | some restriction, some (wall, reason) =>
    if restriction < wall then some (restriction, .restrictionStart) else some (wall, reason)

theorem ofStay_ends {start finish : Moment} {lead : Span} {reason : Timer.Reason} {timer : Timer}
    (reached : Timer.ofStay start finish lead reason = .ok timer) :
    timer.expiresAt = finish ∧ timer.reason = reason := by
  obtain ⟨warning, _, built⟩ := bind_ok_iff.mp reached
  cases built
  exact ⟨rfl, rfl⟩

theorem ofStay_succeeds (start : Moment) {finish : Moment} {lead : Span} (reason : Timer.Reason)
    (inside : inCalendar (finish.wall - lead) = true) :
    ∃ timer, Timer.ofStay start finish lead reason = .ok timer :=
  ⟨_, bind_ok_iff.mpr ⟨_, shift_ok_iff.mpr ⟨inside, rfl⟩, rfl⟩⟩

theorem bounded_eq (start finish : Moment) (restriction : Option Moment) (lead : Span)
    (reason : Timer.Reason) : ∃ last cause,
      Timer.bounded start finish restriction lead reason = Timer.ofStay start last lead cause ∧
      earliest (restriction.map Moment.wall) (some (finish.wall, reason)) = some (last.wall, cause) ∧
      (last = finish ∨ restriction = some last) := by
  cases restriction with
  | none => exact ⟨finish, reason, rfl, rfl, Or.inl rfl⟩
  | some earlier =>
    simp only [Timer.bounded, Option.map_some, earliest]
    split
    · exact ⟨earlier, .restrictionStart, rfl, rfl, Or.inr rfl⟩
    · exact ⟨finish, reason, rfl, rfl, Or.inl rfl⟩

theorem shows_first_today {wall : Wall} {minute : Minute} (ahead : wall < atMinute wall.day minute) :
    FirstAfter wall (Shows minute) (some (atMinute wall.day minute)) := by
  have inside := minute.isLt
  refine ⟨ahead, ?_, ?_⟩
  · simp only [Shows, sinceMidnight, atMinute, dayLength_eq, minuteLength_eq, Wall]
    omega
  · intro other later earlier shows
    simp only [Shows, sinceMidnight, atMinute, Wall.day, dayLength_eq, minuteLength_eq, Wall] at *
    omega

theorem shows_first_tomorrow {wall : Wall} {minute : Minute}
    (passed : ¬ wall < atMinute wall.day minute) :
    FirstAfter wall (Shows minute) (some (atMinute wall.day minute + dayLength)) := by
  have inside := minute.isLt
  refine ⟨?_, ?_, ?_⟩
  · simp only [atMinute, Wall.day, dayLength_eq, minuteLength_eq, Wall] at *
    omega
  · simp only [Shows, sinceMidnight, atMinute, dayLength_eq, minuteLength_eq, Wall]
    omega
  · intro other later earlier shows
    simp only [Shows, sinceMidnight, atMinute, Wall.day, dayLength_eq, minuteLength_eq, Wall] at *
    omega

theorem nextShowing_first {start later : Moment} {minute : Minute}
    (reached : Timer.nextShowing start minute = .ok later) :
    FirstAfter start.wall (Shows minute) (some later.wall) ∧ later = start.atWall later.wall := by
  unfold Timer.nextShowing at reached
  dsimp only [Moment.atWall] at reached
  split at reached
  next ahead =>
    cases reached
    exact ⟨shows_first_today ahead, rfl⟩
  next passed =>
    obtain ⟨_, rfl⟩ := shift_ok_iff.mp reached
    exact ⟨shows_first_tomorrow passed, rfl⟩

theorem nextShowing_succeeds {start : Moment} {minute : Minute} (first : 0 ≤ start.wall.day)
    (last : start.wall.day + 1 < dayCount) :
    ∃ later, Timer.nextShowing start minute = .ok later := by
  unfold Timer.nextShowing
  dsimp only [Moment.atWall]
  split
  · exact ⟨_, rfl⟩
  · have tomorrow : (atMinute start.wall.day minute + dayLength).day = start.wall.day + 1 := by
      have today := day_atMinute start.wall.day minute
      simp only [Wall.day, dayLength_eq, Wall] at *
      omega
    have inside := (inCalendar_iff (atMinute start.wall.day minute + dayLength)).mpr (by omega)
    exact ⟨_, shift_ok_iff.mpr ⟨inside, rfl⟩⟩

theorem ofMinutes_whole {minutes : Int} {span : Span}
    (reached : Span.ofMinutes (.whole minutes) = .ok span) : span = minutes * minuteLength := by
  obtain ⟨total, built, held⟩ := bind_ok_iff.mp reached
  cases built
  unfold Span.checked at held
  dsimp only at held
  split at held
  · cases held
    exact Int.add_zero _
  · cases held

/-- A span between two readings of the calendar can always be held. -/
theorem ofMinutes_succeeds {start : Wall} {minutes : Int} (first : inCalendar start = true)
    (last : inCalendar (start + minutes * minuteLength) = true) :
    Span.ofMinutes (.whole minutes) = .ok (minutes * minuteLength) := by
  have held : -Span.mostDays ≤ Int.fdiv (minutes * minuteLength) dayLength ∧
      Int.fdiv (minutes * minuteLength) dayLength ≤ Span.mostDays := by
    rw [Int.fdiv_eq_ediv_of_nonneg _ (by decide)]
    simp only [inCalendar, Bool.and_eq_true, decide_eq_true_eq] at first last
    simp only [Span.mostDays, dayCount, dayLength_eq, minuteLength_eq, Wall] at *
    omega
  refine bind_ok_iff.mpr ⟨minutes * minuteLength + 0, rfl, ?_⟩
  simp [Span.checked, held]

/-- Among readings that are counted in whole steps, what happens at all happens a first time. -/
theorem exists_first (start : Wall) (holds : Wall → Prop) :
    ∃ first, FirstAfter start holds first := by
  classical
  by_cases ever : ∃ count : Nat, holds (start + 1 + count)
  · obtain ⟨count, happens⟩ := ever
    induction count using Nat.strongRecOn with
    | ind count ih =>
      by_cases earlier : ∃ sooner, sooner < count ∧ holds (start + 1 + (sooner : Int))
      · obtain ⟨sooner, less, happened⟩ := earlier
        exact ih sooner less happened
      · refine ⟨some (start + 1 + (count : Int)), by lia, happens, ?_⟩
        intro wall later before happened
        apply earlier
        refine ⟨(wall - start - 1).toNat, by lia, ?_⟩
        have same : start + 1 + ((wall - start - 1).toNat : Int) = wall := by lia
        rw [same]
        exact happened
  · refine ⟨none, ?_⟩
    intro wall later happened
    apply ever
    refine ⟨(wall - start - 1).toNat, ?_⟩
    have same : start + 1 + ((wall - start - 1).toNat : Int) = wall := by lia
    rw [same]
    exact happened

theorem exists_bound (active : List Rule) (start : Wall) : ∃ bound, Bound active start bound := by
  cases limited : Timer.firstLimit? active with
  | some minutes => exact ⟨_, .limit limited⟩
  | none =>
    cases paid : Timer.firstPaid? active with
    | none => exact ⟨none, .unbounded limited paid⟩
    | some minute =>
      by_cases ahead : start < atMinute start.day minute
      · exact ⟨_, .meter limited paid (shows_first_today ahead)⟩
      · exact ⟨_, .meter limited paid (shows_first_tomorrow ahead)⟩

def finish (timer : Timer) : Moment × Timer.Reason := (timer.expiresAt, timer.reason)

def onClock (clock : Moment) (finish : Wall × Timer.Reason) : Moment × Timer.Reason :=
  (clock.atWall finish.1, finish.2)

theorem earliest_le {restriction wall : Wall} {bound : Option (Wall × Timer.Reason)}
    {reason : Timer.Reason} (ends : earliest (some restriction) bound = some (wall, reason)) :
    wall ≤ restriction := by
  cases bound with
  | none =>
    cases ends
    exact Int.le_refl _
  | some bound =>
    simp only [earliest] at ends
    split at ends
    · cases ends
      exact Int.le_refl _
    next later =>
      cases ends
      exact Int.not_lt.mp later

theorem bounded_finishes {start last : Moment} {restriction : Option Moment} {lead : Span}
    {reason : Timer.Reason} {timer : Timer} (onClockLast : last = start.atWall last.wall)
    (onClockRestriction : ∀ later, restriction = some later → later = start.atWall later.wall)
    (reached : Timer.bounded start last restriction lead reason = .ok timer) :
    (earliest (restriction.map Moment.wall) (some (last.wall, reason))).map (onClock start) =
      some (finish timer) := by
  obtain ⟨final, cause, same, ends, which⟩ := bounded_eq start last restriction lead reason
  obtain ⟨expires, because⟩ := ofStay_ends (same ▸ reached)
  have clock : final = start.atWall final.wall := by
    rcases which with rfl | restricted
    · exact onClockLast
    · exact onClockRestriction final restricted
  rw [ends, Option.map_some, onClock, finish, expires, because, ← clock]

theorem suggest_finishes {verdict : Verdict} {rules : List Rule} {start : Moment} {lead : Span}
    {result : Option Timer} (allowed : allowedAt rules start.wall = true)
    (granted : verdict.allowed = true)
    (reached : Timer.suggest verdict rules start lead = .ok result) :
    ∃ restriction bound, FirstAfter start.wall (Forbidden rules start) restriction ∧
      Bound (Rule.active rules start.wall) start.wall bound ∧
      result.map finish = (earliest restriction bound).map (onClock start) ∧
      ∀ wall, start.wall ≤ wall → (∀ reading, restriction = some reading → wall < reading) →
        allowedAt rules wall = true := by
  unfold Timer.suggest at reached
  rw [granted] at reached
  obtain ⟨restriction, found, next⟩ := bind_ok_iff.mp reached
  obtain ⟨first, free, sameClock⟩ := nextRestriction_first allowed found
  have free : ∀ wall, start.wall ≤ wall →
      (∀ reading, restriction.map Moment.wall = some reading → wall < reading) →
      allowedAt rules wall = true := by
    intro wall later before
    exact free wall later fun reading same => before reading.wall (by rw [same]; rfl)
  cases limited : Timer.firstLimit? (Rule.active rules start.wall) with
  | some minutes =>
    simp only [limited] at next
    obtain ⟨span, held, next⟩ := bind_ok_iff.mp next
    obtain ⟨last, shifted, next⟩ := bind_ok_iff.mp next
    obtain ⟨timer, bounded, rfl⟩ := map_ok_iff.mp next
    obtain ⟨_, rfl⟩ := shift_ok_iff.mp shifted
    cases ofMinutes_whole held
    exact ⟨_, _, first, .limit limited, (bounded_finishes rfl sameClock bounded).symm, free⟩
  | none =>
    cases paid : Timer.firstPaid? (Rule.active rules start.wall) with
    | some minute =>
      simp only [limited, paid] at next
      obtain ⟨last, shown, next⟩ := bind_ok_iff.mp next
      obtain ⟨timer, bounded, rfl⟩ := map_ok_iff.mp next
      obtain ⟨shows, clock⟩ := nextShowing_first shown
      exact ⟨_, _, first, .meter limited paid shows,
        (bounded_finishes clock sameClock bounded).symm, free⟩
    | none =>
      cases restriction with
      | some last =>
        simp only [limited, paid] at next
        obtain ⟨timer, stays, rfl⟩ := map_ok_iff.mp next
        obtain ⟨expires, because⟩ := ofStay_ends stays
        refine ⟨_, none, first, .unbounded limited paid, ?_, free⟩
        simp only [Option.map_some, earliest, onClock, finish, expires, because]
        rw [← sameClock last rfl]
      | none =>
        simp only [limited, paid] at next
        cases next
        exact ⟨none, none, first, .unbounded limited paid, rfl, free⟩

/-- Every reading that goes into a timer lies in the calendar: the days on which changes are
sought, the bound of the stay, and the warning before its end. Where parking is not allowed
only the first counts, since nothing else is worked out. -/
structure InReach (rules : List Rule) (start : Moment) (lead : Span) : Prop where
  first : 1 ≤ start.wall.day
  last : start.wall.day + 17 < dayCount
  bound : allowedAt rules start.wall = true → ∀ wall reason,
    Bound (Rule.active rules start.wall) start.wall (some (wall, reason)) → inCalendar wall = true
  warning : allowedAt rules start.wall = true → ∀ restriction bound wall reason,
    FirstAfter start.wall (Forbidden rules start) restriction →
    Bound (Rule.active rules start.wall) start.wall bound →
    earliest restriction bound = some (wall, reason) → inCalendar (wall - lead) = true

theorem bounded_succeeds {start last : Moment} {restriction : Option Moment} {lead : Span}
    {reason : Timer.Reason}
    (warns : ∀ wall cause,
      earliest (restriction.map Moment.wall) (some (last.wall, reason)) = some (wall, cause) →
      inCalendar (wall - lead) = true) :
    ∃ timer, Timer.bounded start last restriction lead reason = .ok timer := by
  obtain ⟨final, cause, same, ends, _⟩ := bounded_eq start last restriction lead reason
  rw [same]
  exact ofStay_succeeds start cause (warns _ _ ends)

theorem suggest_succeeds {rules : List Rule} {start : Moment} {lead : Span}
    (reach : InReach rules start lead) (verdict : Verdict)
    (granted : verdict.allowed = allowedAt rules start.wall) :
    ∃ result, Timer.suggest verdict rules start lead = .ok result := by
  unfold Timer.suggest
  rw [granted]
  cases allowed : allowedAt rules start.wall with
  | false => exact ⟨none, rfl⟩
  | true =>
    have eight : Window.horizon = 8 := rfl
    have first := reach.first
    have last := reach.last
    have inside := (inCalendar_iff start.wall).mpr (by omega)
    obtain ⟨restriction, found⟩ := nextRestriction_succeeds rules first (by omega)
    have restricts := (nextRestriction_first allowed found).1
    have bounds := reach.bound allowed
    have warns : ∀ bound, Bound (Rule.active rules start.wall) start.wall bound →
        ∀ wall reason, earliest (restriction.map Moment.wall) bound = some (wall, reason) →
        inCalendar (wall - lead) = true :=
      fun bound bounds wall reason => reach.warning allowed _ bound wall reason restricts bounds
    simp only [Bool.not_true, Bool.false_eq_true, if_false]
    cases limited : Timer.firstLimit? (Rule.active rules start.wall) with
    | some minutes =>
      have within := bounds _ _ (.limit limited)
      have shifted := shift_ok_iff.mpr ⟨within, rfl⟩
      let last := start.atWall (start.wall + minutes * minuteLength)
      obtain ⟨timer, bounded⟩ :
          ∃ timer, Timer.bounded start last restriction lead .timeLimit = .ok timer :=
        bounded_succeeds (warns _ (.limit limited))
      refine ⟨some timer, bind_ok_iff.mpr ⟨restriction, found, ?_⟩⟩
      refine bind_ok_iff.mpr ⟨_, ofMinutes_succeeds inside within, ?_⟩
      exact bind_ok_iff.mpr ⟨last, shifted, map_ok_iff.mpr ⟨timer, bounded, rfl⟩⟩
    | none =>
      cases paid : Timer.firstPaid? (Rule.active rules start.wall) with
      | some minute =>
        obtain ⟨last, shown⟩ : ∃ last, Timer.nextShowing start minute = .ok last :=
          nextShowing_succeeds (by omega) (by omega)
        have shows := (nextShowing_first shown).1
        obtain ⟨timer, bounded⟩ := bounded_succeeds (warns _ (.meter limited paid shows))
        exact ⟨_, bind_ok_iff.mpr ⟨restriction, found,
          bind_ok_iff.mpr ⟨last, shown, map_ok_iff.mpr ⟨timer, bounded, rfl⟩⟩⟩⟩
      | none =>
        cases restriction with
        | some last =>
          obtain ⟨timer, stays⟩ := ofStay_succeeds start .restrictionStart
            (warns none (.unbounded limited paid) _ _ rfl)
          exact ⟨_, bind_ok_iff.mpr ⟨some last, found, map_ok_iff.mpr ⟨timer, stays, rfl⟩⟩⟩
        | none => exact ⟨none, bind_ok_iff.mpr ⟨none, found, rfl⟩⟩

/-- A timer ends at the earliest end of the stay, whenever there is an answer, and there is one
wherever the calendar reaches far enough. The restriction and the bound that are meant exist and
are the only ones. -/
theorem timer_runs_to_earliest_end (rules : List Rule) (start : Moment) (lead : Span) :
    (∀ verdict result, Verdict.evaluate rules start = .ok verdict →
      Timer.suggest verdict rules start lead = .ok result →
      ∃ restriction bound, FirstAfter start.wall (Forbidden rules start) restriction ∧
        Bound (Rule.active rules start.wall) start.wall bound ∧
        (result.map finish =
          if verdict.allowed then (earliest restriction bound).map (onClock start) else none) ∧
        ∀ timer, result = some timer → ∀ wall, start.wall ≤ wall → wall < timer.expiresAt.wall →
          allowedAt rules wall = true) ∧
    (InReach rules start lead → ∃ verdict result, Verdict.evaluate rules start = .ok verdict ∧
      Timer.suggest verdict rules start lead = .ok result) := by
  constructor
  · intro verdict result evaluated reached
    have judged := evaluate_allowed evaluated
    cases granted : verdict.allowed with
    | false =>
      have refused : result = none := by
        simp only [Timer.suggest, granted] at reached
        cases reached
        rfl
      obtain ⟨restriction, first⟩ := exists_first start.wall (Forbidden rules start)
      obtain ⟨bound, bounds⟩ := exists_bound (Rule.active rules start.wall) start.wall
      refine ⟨restriction, bound, first, bounds, by simp [refused], ?_⟩
      intro timer given
      rw [refused] at given
      cases given
    | true =>
      have allowed := judged.symm.trans granted
      obtain ⟨restriction, bound, first, bounds, ends, free⟩ := suggest_finishes allowed granted reached
      refine ⟨restriction, bound, first, bounds, by simpa using ends, ?_⟩
      intro timer given wall later before
      apply free wall later
      intro reading restricted
      rw [given, restricted] at ends
      obtain ⟨⟨last, cause⟩, ended, same⟩ := Option.map_eq_some_iff.mp ends.symm
      have expires : timer.expiresAt = start.atWall last := (congrArg Prod.fst same).symm
      rw [expires] at before
      exact Int.lt_of_lt_of_le before (earliest_le ended)
  · intro reach
    obtain ⟨verdict, evaluated⟩ := evaluate_succeeds rules reach.first
      (by have := reach.last; simp only [Window.horizon]; omega)
    obtain ⟨result, reached⟩ := suggest_succeeds reach verdict (evaluate_allowed evaluated)
    exact ⟨verdict, result, evaluated, reached⟩

def twoHours : Rule :=
  ⟨.plain (.timeLimit 120), none, Binary64.ofPlaces 9 1, "2 HOUR PARKING", false⟩

def rushHour : Rule :=
  ⟨.plain .noParking,
    some (Window.onDays ⟨960, by decide⟩ ⟨1080, by decide⟩ DaySet.workdays),
    Binary64.ofPlaces 95 2, "NO PARKING 4-6PM MON-FRI", false⟩

def mondayAtThree : Moment := ⟨atMinute 7 ⟨900, by decide⟩, none, false⟩

theorem monday_bound {bound : Option (Wall × Timer.Reason)}
    (bounds : Bound (Rule.active [twoHours, rushHour] mondayAtThree.wall) mondayAtThree.wall bound) :
    bound = some (atMinute 7 ⟨1020, by decide⟩, .timeLimit) := by
  have limited : Timer.firstLimit? (Rule.active [twoHours, rushHour] mondayAtThree.wall) =
      some 120 := by decide
  cases bounds with
  | limit found =>
    rw [limited] at found
    cases found
    rfl
  | meter unlimited _ _ | unbounded unlimited _ =>
    rw [limited] at unlimited
    cases unlimited

theorem monday_in_reach : InReach [twoHours, rushHour] mondayAtThree (10 * minuteLength) := by
  refine ⟨by decide, by decide, ?_, ?_⟩
  · intro _ wall reason bounds
    cases monday_bound bounds
    decide
  · intro _ restriction bound wall reason first bounds ended
    cases monday_bound bounds
    have start : mondayAtThree.wall = 658800000000 := rfl
    have late : wall ≤ 666000000000 ∧ mondayAtThree.wall < wall := by
      cases restriction with
      | none =>
        cases ended
        decide
      | some reading =>
        have ahead := first.1
        simp only [earliest] at ended
        split at ended
        next earlier =>
          cases ended
          exact ⟨Int.le_of_lt earlier, ahead⟩
        next =>
          cases ended
          decide
    rw [inCalendar, Bool.and_eq_true, decide_eq_true_eq, decide_eq_true_eq]
    simp only [dayCount, dayLength_eq, minuteLength_eq, Wall] at *
    omega

/-- The limit would last until five, but the restriction at four ends the stay. -/
theorem rush_hour_ends_stay : InReach [twoHours, rushHour] mondayAtThree (10 * minuteLength) ∧
    ∃ verdict timer, Verdict.evaluate [twoHours, rushHour] mondayAtThree = .ok verdict ∧
      Timer.suggest verdict [twoHours, rushHour] mondayAtThree (10 * minuteLength) =
        .ok (some timer) ∧
      finish timer = (mondayAtThree.atWall (atMinute 7 ⟨960, by decide⟩), .restrictionStart) ∧
      ∀ wall, mondayAtThree.wall ≤ wall → wall < timer.expiresAt.wall →
        allowedAt [twoHours, rushHour] wall = true := by
  obtain ⟨sound, answered⟩ :=
    timer_runs_to_earliest_end [twoHours, rushHour] mondayAtThree (10 * minuteLength)
  obtain ⟨verdict, result, evaluated, reached⟩ := answered monday_in_reach
  obtain ⟨_, _, _, _, _, free⟩ := sound verdict result evaluated reached
  have ends : ((Verdict.evaluate [twoHours, rushHour] mondayAtThree).bind fun verdict =>
      (Timer.suggest verdict [twoHours, rushHour] mondayAtThree (10 * minuteLength)).map
        (Option.map finish)).toOption =
      some (some (mondayAtThree.atWall (atMinute 7 ⟨960, by decide⟩), .restrictionStart)) := by
    decide +kernel
  rw [evaluated] at ends
  simp only [Except.bind, reached, Except.map, Except.toOption, Option.some.injEq] at ends
  obtain ⟨timer, rfl, ended⟩ := Option.map_eq_some_iff.mp ends
  exact ⟨monday_in_reach, verdict, timer, evaluated, reached, ended, free timer rfl⟩

end Curbside.Proofs.Stay

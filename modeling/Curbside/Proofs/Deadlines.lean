import Curbside.Proofs.LocalTime
import Curbside.Proofs.RuleRecord
import Curbside.Proofs.Stay

/-! Whether the end of a stay can be worked out. Restrictions start within a week and meters run
out within a day, so away from the ends of the calendar only a time limit can reach beyond it.
The end of the limit that counts is worked out before anything is compared with it. A limit that
ends outside the calendar leaves the request unanswered, also where a restriction starts sooner. -/

namespace Curbside.Proofs.Deadlines
open Wall WallClock NextChange Restriction Stay Attempt LocalTime RuleRecord

section
variable {start : Wall}

theorem firstAfter_le {holds : Wall → Prop} {first other : Wall}
    (earliest : FirstAfter start holds (some first)) (later : start < other)
    (happens : holds other) : first ≤ other :=
  Int.not_lt.mp fun before => earliest.2.2 other later before happens

/-- A clock shows every minute once a day. -/
theorem shows_within_day {minute : Minute} {wall : Wall}
    (shows : FirstAfter start (Shows minute) (some wall)) : wall ≤ start + dayLength := by
  by_cases ahead : start < atMinute start.day minute
  · have today := shows_first_today ahead
    have reached := firstAfter_le shows today.1 today.2.1
    have inside := minute.isLt
    simp only [atMinute, Wall.day, dayLength_eq, minuteLength_eq, Wall] at *
    omega
  · have tomorrow := shows_first_tomorrow ahead
    have reached := firstAfter_le shows tomorrow.1 tomorrow.2.1
    have passed := Int.not_lt.mp ahead
    lia

end

/-- What is ever forbidden is forbidden within a week. -/
theorem restricts_within_week {rules : List Rule} {start : Moment} {first : Wall}
    (begins : 1 ≤ start.wall.day) (ends : start.wall.day + 17 < dayCount)
    (restricts : FirstAfter start.wall (Forbidden rules start) (some first)) :
    first ≤ start.wall + weekLength := by
  obtain ⟨verdict, evaluated, refused⟩ := restricts.2.1
  have forbidden : allowedAt rules first = false := (evaluate_allowed evaluated).symm.trans refused
  -- Rules repeat every week, so the first time they forbid parking is in the first week.
  obtain ⟨reading, weeks, after, before, same⟩ := within_week (start.wall + 1) first
  rw [same, allowedAt_add_weeks] at forbidden
  have near : start.wall.day ≤ reading.day ∧ reading.day ≤ start.wall.day + 8 := by
    simp only [weekLength, Wall.day, dayLength_eq, Wall] at *
    omega
  obtain ⟨sooner, judged⟩ : ∃ sooner, Verdict.evaluate rules (start.atWall reading) = .ok sooner :=
    evaluate_succeeds rules (by simp only [Moment.atWall]; omega)
      (by simp only [Moment.atWall, Window.horizon]; omega)
  have happens : Forbidden rules start reading :=
    ⟨sooner, judged, (evaluate_allowed judged).trans forbidden⟩
  have reached := firstAfter_le restricts (by lia) happens
  lia

theorem earliest_cases {restriction : Option Wall} {bound : Option (Wall × Timer.Reason)}
    {wall : Wall} {reason : Timer.Reason}
    (ends : earliest restriction bound = some (wall, reason)) :
    restriction = some wall ∨ bound = some (wall, reason) := by
  cases restriction with
  | none => exact Or.inr ends
  | some first =>
    cases bound with
    | none =>
      cases ends
      exact Or.inl rfl
    | some bound =>
      simp only [earliest] at ends
      split at ends
      · cases ends
        exact Or.inl rfl
      · exact Or.inr ends

theorem mem_firstLimit? {rules : List Rule} {minutes : Int}
    (limited : Timer.firstLimit? rules = some minutes) :
    ∃ rule ∈ rules, rule.kind = .timeLimit minutes := by
  obtain ⟨rule, member, states⟩ := List.exists_of_findSome?_eq_some limited
  split at states
  next kind =>
    cases states
    exact ⟨rule, member, kind⟩
  next => cases states

/-- The limit that counts at the start of a stay, if there is one, ends in the calendar. -/
def EndsInside (rules : List Rule) (start : Wall) : Prop :=
  ∀ minutes, Timer.firstLimit? (Rule.active rules start) = some minutes →
    inCalendar (start + minutes * minuteLength) = true

/-- Every limit among rules lasts some time. -/
def Lasting (rules : List Rule) : Prop :=
  ∀ rule ∈ rules, ∀ minutes, rule.kind = .timeLimit minutes → 0 < minutes

section
variable {rules : List Rule} {start : Moment} {lead : Span}

/-- Whatever bounds a stay lies ahead, and in the calendar if the limit that counts does. -/
theorem bound_inside (lasting : Lasting rules) (ends : EndsInside rules start.wall)
    (first : 0 ≤ start.wall.day) (last : start.wall.day + 1 < dayCount) {wall : Wall}
    {reason : Timer.Reason}
    (bound : Bound (Rule.active rules start.wall) start.wall (some (wall, reason))) :
    start.wall < wall ∧ inCalendar wall = true := by
  cases bound with
  | limit limited =>
    refine ⟨?_, ends _ limited⟩
    obtain ⟨rule, active, kind⟩ := mem_firstLimit? limited
    have some_ := lasting rule (List.mem_filter.mp active).1 _ kind
    simp only [minuteLength_eq, Wall] at *
    omega
  | meter _ _ shows =>
    refine ⟨shows.1, (inCalendar_iff wall).mpr ?_⟩
    have soon := shows_within_day shows
    have ahead := shows.1
    simp only [Wall.day, dayLength_eq, Wall] at *
    omega

theorem inReach_of_endsInside (lasting : Lasting rules) (ends : EndsInside rules start.wall)
    (first : 1 ≤ start.wall.day) (last : start.wall.day + 17 < dayCount)
    (least : 0 ≤ lead) (most : lead ≤ dayLength) : InReach rules start lead := by
  have bounded : ∀ {wall reason},
      Bound (Rule.active rules start.wall) start.wall (some (wall, reason)) →
      start.wall < wall ∧ inCalendar wall = true :=
    bound_inside lasting ends (by omega) (by omega)
  refine ⟨first, last, fun _ wall reason bound => (bounded bound).2, ?_⟩
  intro _ restriction bound wall reason restricts bounds finishes
  have inside : start.wall < wall ∧ wall.day < dayCount := by
    rcases earliest_cases finishes with same | same
    · subst same
      have soon := restricts_within_week first last restricts
      have ahead := restricts.1
      simp only [weekLength, Wall.day, dayLength_eq, Wall] at *
      omega
    · obtain ⟨ahead, inside⟩ := bounded (same ▸ bounds)
      exact ⟨ahead, ((inCalendar_iff wall).mp inside).2⟩
  -- The warning comes at most a day before the end, which lies after the start.
  have warned : start.wall.day - 1 ≤ (wall - lead).day ∧ (wall - lead).day ≤ wall.day := by
    simp only [Wall.day, dayLength_eq, Wall, Span] at *
    omega
  exact (inCalendar_iff _).mpr (by omega)

end

/-- A failure because a date or a span is beyond all bounds. -/
inductive Unreachable : Failure → Prop where
  | date : Unreachable .outsideCalendar
  | span {days : Int} : Unreachable (.spanTooLong days)

theorem ofMinutes_cases (minutes : Int) :
    Span.ofMinutes (.whole minutes) = .ok (minutes * minuteLength) ∨
      ∃ days, Span.ofMinutes (.whole minutes) = .error (.spanTooLong days) := by
  cases built : Span.ofMinutes (.whole minutes) with
  | ok span => exact Or.inl (by rw [ofMinutes_whole built])
  | error failure =>
    have fails : Span.checked (minutes * minuteLength + 0) = .error failure := built
    unfold Span.checked at fails
    dsimp only at fails
    split at fails
    · cases fails
    · cases fails
      exact Or.inr ⟨_, rfl⟩

theorem shift_outside {moment : Moment} {span : Int}
    (outside : inCalendar (moment.wall + span) = false) :
    moment.shift span = .error .outsideCalendar := by
  simp [Moment.shift, checked, outside, Except.map]

section
variable {verdict : Verdict} {rules : List Rule} {start : Moment} {lead : Span}
  {restriction : Option Moment} {minutes : Int}

theorem suggest_beyond (granted : verdict.allowed = true)
    (found : Timer.nextRestriction rules start = .ok restriction)
    (limited : Timer.firstLimit? (Rule.active rules start.wall) = some minutes)
    (outside : inCalendar (start.wall + minutes * minuteLength) = false) :
    Timer.suggest verdict rules start lead = .error .outsideCalendar ∨
      ∃ days, Span.ofMinutes (.whole minutes) = .error (.spanTooLong days) ∧
        Timer.suggest verdict rules start lead = .error (.spanTooLong days) := by
  unfold Timer.suggest
  rw [granted, found]
  simp only [limited]
  rcases ofMinutes_cases minutes with held | ⟨days, tooLong⟩
  · rw [held]
    exact Or.inl (by simp [bind, Except.bind, shift_outside outside])
  · rw [tooLong]
    exact Or.inr ⟨days, rfl, rfl⟩

/-- A limit that ends outside the calendar leaves a request unanswered, whatever else would end
the stay. -/
theorem suggest_unreachable (granted : verdict.allowed = true)
    (found : Timer.nextRestriction rules start = .ok restriction)
    (beyond : ¬ EndsInside rules start.wall) :
    ∃ failure, Timer.suggest verdict rules start lead = .error failure ∧ Unreachable failure := by
  obtain ⟨minutes, limited, outside⟩ : ∃ minutes,
      Timer.firstLimit? (Rule.active rules start.wall) = some minutes ∧
        inCalendar (start.wall + minutes * minuteLength) = false := by
    simpa [EndsInside] using beyond
  rcases suggest_beyond granted found limited outside with date | ⟨days, _, span⟩
  · exact ⟨_, date, .date⟩
  · exact ⟨_, span, .span⟩

end

theorem suggest_refused {verdict : Verdict} {rules : List Rule} {start : Moment} {lead : Span}
    (refused : verdict.allowed = false) : Timer.suggest verdict rules start lead = .ok none := by
  unfold Timer.suggest
  rw [refused]
  rfl

theorem suggest_answers {verdict : Verdict} {rules : List Rule} {start : Moment} {lead : Span}
    (lasting : Lasting rules) (first : 1 ≤ start.wall.day) (last : start.wall.day + 17 < dayCount)
    (least : 0 ≤ lead) (most : lead ≤ dayLength)
    (judged : verdict.allowed = allowedAt rules start.wall)
    (ends : verdict.allowed = true → EndsInside rules start.wall) :
    ∃ result, Timer.suggest verdict rules start lead = .ok result := by
  cases granted : verdict.allowed with
  | false => exact ⟨none, suggest_refused granted⟩
  | true =>
    have reach : InReach rules start lead :=
      inReach_of_endsInside lasting (ends granted) first last least most
    exact suggest_succeeds reach verdict judged

/-- A valid request for a timer is answered exactly if parking is not allowed or the limit that
counts ends in the calendar. -/
theorem timer_answered_iff {rules : List Rule} {start : Moment} {lead : Span}
    (acceptable : ∀ rule ∈ rules, Acceptable rule) (dated : InYears 2 9000 start.wall)
    (least : 0 ≤ lead) (most : lead ≤ dayLength) :
    ∃ verdict, Verdict.evaluate rules start = .ok verdict ∧
      ((∃ result, Timer.suggest verdict rules start lead = .ok result) ↔
        (verdict.allowed = true → EndsInside rules start.wall)) ∧
      ∀ failure, Timer.suggest verdict rules start lead = .error failure → Unreachable failure := by
  have days := day_of_inYears dated
  have count : dayCount = 3652059 := rfl
  have eight : Window.horizon = 8 := rfl
  have lasting : Lasting rules := fun rule member => (acceptable rule member).lasting
  obtain ⟨verdict, evaluated⟩ : ∃ verdict, Verdict.evaluate rules start = .ok verdict :=
    evaluate_succeeds rules (by omega) (by omega)
  obtain ⟨restriction, found⟩ : ∃ restriction, Timer.nextRestriction rules start = .ok restriction :=
    nextRestriction_succeeds rules (by omega) (by omega)
  refine ⟨verdict, evaluated, ?_⟩
  by_cases ends : verdict.allowed = true → EndsInside rules start.wall
  · obtain ⟨result, reached⟩ : ∃ result, Timer.suggest verdict rules start lead = .ok result :=
      suggest_answers lasting (by omega) (by omega) least most (evaluate_allowed evaluated) ends
    refine ⟨⟨fun _ => ends, fun _ => ⟨result, reached⟩⟩, ?_⟩
    intro failure fails
    rw [reached] at fails
    cases fails
  · obtain ⟨granted, beyond⟩ := Classical.not_imp.mp ends
    obtain ⟨failure, fails, unreachable⟩ :
        ∃ failure, Timer.suggest verdict rules start lead = .error failure ∧ Unreachable failure :=
      suggest_unreachable granted found beyond
    refine ⟨⟨?_, fun inside => absurd inside ends⟩, ?_⟩
    · intro given
      obtain ⟨result, reached⟩ := given
      rw [fails] at reached
      cases reached
    · intro other same
      rw [fails] at same
      cases same
      exact unreachable

/-- Three in the afternoon of a Wednesday, an hour before the restriction of a rush hour. -/
def wednesdayAtThree : Moment :=
  ⟨Wall.ofDate ⟨2026, 2, 25⟩ + 15 * 60 * minuteLength, none, false⟩

theorem rushHour_acceptable : Acceptable rushHour :=
  ⟨nofun, nofun, by decide +kernel, by decide +kernel, by decide +kernel⟩

theorem two_hours_answered : (∀ rule ∈ [twoHours, rushHour], Acceptable rule) ∧
    InYears 2 9000 wednesdayAtThree.wall ∧
    ∃ verdict result, Verdict.evaluate [twoHours, rushHour] wednesdayAtThree = .ok verdict ∧
      Timer.suggest verdict [twoHours, rushHour] wednesdayAtThree (10 * minuteLength) =
        .ok result := by
  have acceptable : ∀ rule ∈ [twoHours, rushHour], Acceptable rule := by
    simp only [List.forall_mem_cons, List.not_mem_nil, false_implies, implies_true, and_true]
    refine ⟨⟨?_, nofun, by decide +kernel, by decide +kernel, by decide +kernel⟩,
      rushHour_acceptable⟩
    intro minutes two
    cases two
    decide
  have dated : InYears 2 9000 wednesdayAtThree.wall := ⟨by decide, by decide⟩
  have ends : EndsInside [twoHours, rushHour] wednesdayAtThree.wall := by
    intro minutes limited
    have two : Timer.firstLimit? (Rule.active [twoHours, rushHour] wednesdayAtThree.wall) =
        some 120 := by decide
    rw [two] at limited
    cases limited
    decide
  have least : 0 ≤ 10 * minuteLength := by decide
  obtain ⟨verdict, evaluated, answered, _⟩ := timer_answered_iff acceptable dated least (by decide)
  obtain ⟨result, reached⟩ := answered.mpr fun _ => ends
  exact ⟨acceptable, dated, verdict, result, evaluated, reached⟩

/-- A limit of ten thousand million minutes. -/
def endless : Rule :=
  ⟨.plain (.timeLimit 10000000000), none, Binary64.ofPlaces 9 1, "10000000000 MINUTE PARKING", false⟩

/-- The restriction at four would end the stay under any limit that ends in the calendar. -/
theorem endless_limit_unanswered : (∀ rule ∈ [endless, rushHour], Acceptable rule) ∧
    InYears 2 9000 wednesdayAtThree.wall ∧
    Timer.nextRestriction [endless, rushHour] wednesdayAtThree =
      .ok (some (wednesdayAtThree.atWall (wednesdayAtThree.wall + 60 * minuteLength))) ∧
    ∃ verdict, Verdict.evaluate [endless, rushHour] wednesdayAtThree = .ok verdict ∧
      verdict.allowed = true ∧
      Timer.suggest verdict [endless, rushHour] wednesdayAtThree (10 * minuteLength) =
        .error .outsideCalendar := by
  have acceptable : ∀ rule ∈ [endless, rushHour], Acceptable rule := by
    simp only [List.forall_mem_cons, List.not_mem_nil, false_implies, implies_true, and_true]
    refine ⟨⟨?_, nofun, by decide +kernel, by decide +kernel, by decide +kernel⟩,
      rushHour_acceptable⟩
    intro minutes endless
    cases endless
    decide
  have found : Timer.nextRestriction [endless, rushHour] wednesdayAtThree =
      .ok (some (wednesdayAtThree.atWall (wednesdayAtThree.wall + 60 * minuteLength))) :=
    ok_of_toOption (by decide +kernel)
  obtain ⟨verdict, evaluated⟩ :
      ∃ verdict, Verdict.evaluate [endless, rushHour] wednesdayAtThree = .ok verdict :=
    evaluate_succeeds [endless, rushHour] (by decide) (by decide)
  have allowed : verdict.allowed = true := (evaluate_allowed evaluated).trans (by decide)
  refine ⟨acceptable, ⟨by decide, by decide⟩, found, verdict, evaluated, allowed, ?_⟩
  have limited : Timer.firstLimit? (Rule.active [endless, rushHour] wednesdayAtThree.wall) =
      some 10000000000 := by decide
  rcases suggest_beyond allowed found limited (by decide) with date | ⟨days, tooLong, _⟩
  · exact date
  · cases tooLong

end Curbside.Proofs.Deadlines

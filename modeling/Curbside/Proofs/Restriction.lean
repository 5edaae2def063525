import Curbside.Proofs.NextChange
import Curbside.Timer.Basic

/-! The search for the next restriction. Whether parking is allowed is the same between two
changes, so going from change to change misses nothing. A week decides everything, and the
search looks further ahead than that. -/

namespace Curbside.Proofs.Restriction
open Wall WallClock NextChange Attempt

private theorem foldl_heavier_isNone (rules : List Rule) (held : Option Rule) :
    (rules.foldl Rule.heavier held).isNone = true ↔
      held.isNone = true ∧ ∀ rule ∈ rules, rule.isRestrictive = false := by
  induction rules generalizing held with
  | nil => simp
  | cons rule rules ih =>
    have step : (Rule.heavier held rule).isNone = true ↔
        held.isNone = true ∧ rule.isRestrictive = false := by
      unfold Rule.heavier
      cases restrictive : rule.isRestrictive with
      | false => simp
      | true =>
        cases held with
        | none => simp
        | some heavy =>
          simp only [Bool.not_true, Bool.false_eq_true, if_false]
          split <;> simp
    simp only [List.foldl_cons, ih, step, List.forall_mem_cons, and_assoc]

theorem binding_isNone_iff (rules : List Rule) :
    (Rule.binding rules).isNone = true ↔ ∀ rule ∈ rules, rule.isRestrictive = false := by
  rw [Rule.binding, foldl_heavier_isNone]
  simp

/-- Whether parking is allowed at a reading: none of the rules that hold there restricts. -/
def allowedAt (rules : List Rule) (wall : Wall) : Bool :=
  (Rule.binding (Rule.active rules wall)).isNone

theorem allowedAt_iff (rules : List Rule) (wall : Wall) :
    allowedAt rules wall = true ↔
      ∀ rule ∈ rules, rule.isRestrictive = true → rule.activeAt wall = false := by
  simp only [allowedAt, binding_isNone_iff, Rule.active, List.mem_filter]
  constructor
  · intro free rule member restrictive
    cases holds : rule.activeAt wall with
    | false => rfl
    | true =>
      rw [free rule ⟨member, holds⟩] at restrictive
      cases restrictive
  · intro idle rule ⟨member, holds⟩
    cases restrictive : rule.isRestrictive with
    | false => rfl
    | true =>
      rw [idle rule member restrictive] at holds
      cases holds

theorem allowedAt_congr {rules : List Rule} {first second : Wall}
    (same : ∀ rule ∈ rules, rule.activeAt first = rule.activeAt second) :
    allowedAt rules first = allowedAt rules second := by
  rw [Bool.eq_iff_iff, allowedAt_iff, allowedAt_iff]
  constructor
  · exact fun free rule member restrictive => same rule member ▸ free rule member restrictive
  · exact fun free rule member restrictive => (same rule member).trans (free rule member restrictive)

theorem allowedAt_add_weeks (rules : List Rule) (wall : Wall) (weeks : Int) :
    allowedAt rules (wall + weeks * weekLength) = allowedAt rules wall :=
  allowedAt_congr fun _ member =>
    rule_steady (fun window _ => activeAt_add_weeks window wall weeks) member

theorem evaluate_allowed {rules : List Rule} {moment : Moment} {verdict : Verdict}
    (reached : Verdict.evaluate rules moment = .ok verdict) :
    verdict.allowed = allowedAt rules moment.wall := by
  obtain ⟨change, _, built⟩ := bind_ok_iff.mp reached
  cases built
  rfl

theorem evaluate_succeeds (rules : List Rule) {moment : Moment} (first : 1 ≤ moment.wall.day)
    (last : moment.wall.day + Window.horizon + 1 < dayCount) :
    ∃ verdict, Verdict.evaluate rules moment = .ok verdict := by
  obtain ⟨change, found⟩ := nextChange_succeeds (Rule.windows rules) first last
  exact ⟨_, bind_ok_iff.mpr ⟨change, found, rfl⟩⟩

/-- The first reading after a start at which something holds, or none if it never does. -/
def FirstAfter (start : Wall) (holds : Wall → Prop) : Option Wall → Prop
  | some first => start < first ∧ holds first ∧
      ∀ wall, start < wall → wall < first → ¬ holds wall
  | none => ∀ wall, start < wall → ¬ holds wall

theorem allowedAt_forever {rules : List Rule} {start : Wall}
    (week : ∀ wall, start < wall → wall ≤ start + weekLength → allowedAt rules wall = true) :
    ∀ wall, start < wall → allowedAt rules wall = true := by
  intro wall _
  obtain ⟨reading, weeks, first, last, same⟩ := within_week (start + 1) wall
  rw [same, allowedAt_add_weeks]
  exact week reading (by lia) (by lia)

/-- Parking is judged at a reading, on the clock of a moment, and forbidden. -/
def Forbidden (rules : List Rule) (clock : Moment) (wall : Wall) : Prop :=
  ∃ verdict, Verdict.evaluate rules (clock.atWall wall) = .ok verdict ∧ verdict.allowed = false

theorem not_forbidden {rules : List Rule} {clock : Moment} {wall : Wall}
    (allowed : allowedAt rules wall = true) : ¬ Forbidden rules clock wall := by
  intro ⟨verdict, reached, refused⟩
  have decided := evaluate_allowed reached
  simp only [Moment.atWall, allowed, refused] at decided
  cases decided

/-- What a search up to a limit finds: the first reading at which parking is forbidden, or that
it is allowed as far as the limit. -/
def RestrictsNext (rules : List Rule) (start : Moment) (limit : Wall) : Option Wall → Prop
  | some first => start.wall < first ∧ first ≤ limit ∧ Forbidden rules start first ∧
      ∀ wall, start.wall ≤ wall → wall < first → allowedAt rules wall = true
  | none => ∀ wall, start.wall ≤ wall → wall ≤ limit → allowedAt rules wall = true

theorem allowedAt_until_change {rules : List Rule} {start : Wall} {change : Option Wall}
    (next : RulesChangeNext rules start change) (allowed : allowedAt rules start = true) :
    ∀ wall, start ≤ wall → (∀ reading, change = some reading → wall < reading) →
      allowedAt rules wall = true := by
  intro wall later before
  rw [← allowed]
  cases change with
  | none => exact allowedAt_congr fun rule member => next rule member wall later
  | some reading =>
    exact allowedAt_congr fun rule member => next.2.1 rule member wall later (before reading rfl)

/-- Every change moves the search on to a later minute, so the number of whole minutes up to the
limit bounds the number of steps. -/
theorem minutes_decrease {before change : Wall} (later : before < change)
    (starts : OnMinute change) : before / minuteLength < change / minuteLength := by
  simp only [OnMinute, minuteLength_eq, Wall] at *
  omega

theorem minutes_mono {first second : Wall} (ordered : first ≤ second) :
    first / minuteLength ≤ second / minuteLength := by
  simp only [minuteLength_eq, Wall] at *
  omega

theorem search_restricts {rules : List Rule} {limit : Wall} {steps : Nat} {moment : Moment}
    {result : Option Moment} (allowed : allowedAt rules moment.wall = true)
    (inside : moment.wall ≤ limit)
    (enough : limit / minuteLength - moment.wall / minuteLength < steps)
    (reached : Timer.searchRestriction rules limit steps moment = .ok result) :
    RestrictsNext rules moment limit (result.map Moment.wall) ∧
      ∀ later, result = some later → later = moment.atWall later.wall := by
  -- The invariant is that parking is allowed from the start up to the moment reached.
  induction steps generalizing moment with
  | zero =>
    have ordered := minutes_mono inside
    lia
  | succ steps ih =>
    simp only [Timer.searchRestriction] at reached
    obtain ⟨change, found, next⟩ := bind_ok_iff.mp reached
    have changes := windows_change_next found
    have steady := allowedAt_until_change (rules_change_next changes) allowed
    cases change with
    | none =>
      cases next
      exact ⟨fun wall later _ => steady wall later (fun _ impossible => nomatch impossible),
        fun _ impossible => nomatch impossible⟩
    | some change =>
      have steady : ∀ wall, moment.wall ≤ wall → wall < change → allowedAt rules wall = true :=
        fun wall later before => steady wall later fun _ same => Option.some.inj same ▸ before
      obtain ⟨ahead, onMinute, _⟩ := changes
      dsimp only at next
      split at next
      next beyond =>
        cases next
        exact ⟨fun wall later within => steady wall later (Int.lt_of_le_of_lt within beyond),
          fun _ impossible => nomatch impossible⟩
      next within =>
        have within : change ≤ limit := Int.not_lt.mp within
        obtain ⟨verdict, evaluated, decided⟩ := bind_ok_iff.mp next
        split at decided
        next free =>
          have progress := minutes_decrease ahead onMinute
          have free := (evaluate_allowed evaluated).symm.trans free
          have fewer : limit / minuteLength - (moment.atWall change).wall / minuteLength < steps := by
            simp only [Moment.atWall]
            lia
          obtain ⟨restricts, sameClock⟩ := ih free within fewer decided
          refine ⟨?_, fun later same => sameClock later same⟩
          cases result with
          | none =>
            intro wall later inside
            by_cases before : wall < change
            · exact steady wall later before
            · exact restricts wall (Int.not_lt.mp before) inside
          | some first =>
            obtain ⟨after, inside, forbidden, free⟩ := restricts
            refine ⟨Int.lt_trans ahead after, inside, forbidden, ?_⟩
            intro wall later earlier
            by_cases before : wall < change
            · exact steady wall later before
            · exact free wall (Int.not_lt.mp before) earlier
        next forbidden =>
          cases decided
          exact ⟨⟨ahead, within, ⟨verdict, evaluated, Bool.not_eq_true _ ▸ forbidden⟩, steady⟩,
            fun _ same => by cases same; rfl⟩

theorem search_succeeds {rules : List Rule} {limit : Wall} (steps : Nat) {moment : Moment}
    (first : 1 ≤ moment.wall.day) (last : limit.day + Window.horizon + 1 < dayCount)
    (inside : moment.wall ≤ limit) :
    ∃ result, Timer.searchRestriction rules limit steps moment = .ok result := by
  induction steps generalizing moment with
  | zero => exact ⟨none, rfl⟩
  | succ steps ih =>
    simp only [Timer.searchRestriction]
    have reach := day_mono inside
    obtain ⟨change, found⟩ := nextChange_succeeds (Rule.windows rules) first (by omega)
    have changes := windows_change_next found
    simp only [bind_ok_iff]
    cases change with
    | none => exact ⟨none, none, found, rfl⟩
    | some change =>
      by_cases beyond : limit < change
      · exact ⟨none, some change, found, by simp [beyond, pure, Except.pure]⟩
      · have onward := day_mono (Int.le_of_lt changes.1)
        have within := day_mono (Int.not_lt.mp beyond)
        have later : 1 ≤ (moment.atWall change).wall.day := Int.le_trans first onward
        have enough : (moment.atWall change).wall.day + Window.horizon + 1 < dayCount := by
          simp only [Moment.atWall]
          omega
        obtain ⟨verdict, evaluated⟩ := evaluate_succeeds rules later enough
        obtain ⟨result, reached⟩ := ih later (Int.not_lt.mp beyond)
        have step : ∃ result, (if verdict.allowed = true then
            Timer.searchRestriction rules limit steps (moment.atWall change)
            else pure (some (moment.atWall change))) = .ok result := by
          split
          · exact ⟨result, reached⟩
          · exact ⟨_, rfl⟩
        obtain ⟨result, reached⟩ := step
        refine ⟨result, some change, found, ?_⟩
        simp only [beyond, if_false]
        exact bind_ok_iff.mpr ⟨verdict, evaluated, reached⟩

theorem shift_ok_iff {moment later : Moment} {span : Int} :
    moment.shift span = .ok later ↔
      inCalendar (moment.wall + span) = true ∧ moment.atWall (moment.wall + span) = later := by
  simp only [Moment.shift, map_ok_iff, checked]
  split
  next inside =>
    constructor
    · intro ⟨wall, same, built⟩
      cases same
      exact ⟨inside, built⟩
    · intro ⟨_, built⟩
      exact ⟨_, rfl, built⟩
  next outside => simp [outside]

/-- The search for the next restriction finds the first reading at which parking is forbidden,
if there is one at all, and until then parking is allowed. -/
theorem nextRestriction_first {rules : List Rule} {start : Moment} {result : Option Moment}
    (allowed : allowedAt rules start.wall = true)
    (reached : Timer.nextRestriction rules start = .ok result) :
    FirstAfter start.wall (Forbidden rules start) (result.map Moment.wall) ∧
      (∀ wall, start.wall ≤ wall → (∀ later, result = some later → wall < later.wall) →
        allowedAt rules wall = true) ∧
      ∀ later, result = some later → later = start.atWall later.wall := by
  unfold Timer.nextRestriction at reached
  split at reached
  next unrestricted =>
    cases reached
    have free : ∀ wall, allowedAt rules wall = true := by
      intro wall
      rw [allowedAt_iff]
      intro rule member restrictive
      simp only [Bool.not_eq_true', List.any_eq_false] at unrestricted
      exact absurd restrictive (unrestricted rule member)
    exact ⟨fun wall _ => not_forbidden (free wall), fun wall _ _ => free wall,
      fun _ impossible => nomatch impossible⟩
  next =>
    obtain ⟨limit, shifted, found⟩ := bind_ok_iff.mp reached
    obtain ⟨_, rfl⟩ := shift_ok_iff.mp shifted
    have ahead : 0 < Timer.horizon := by decide
    have week : weekLength ≤ Timer.horizon := by decide
    have enough : (start.wall + Timer.horizon) / minuteLength - start.wall / minuteLength <
        Timer.mostChanges := by
      simp only [Timer.horizon, Timer.mostChanges, Window.horizon, dayLength_eq, minuteLength_eq, Wall]
      omega
    have inside : start.wall ≤ start.wall + Timer.horizon := by lia
    obtain ⟨restricts, sameClock⟩ := search_restricts allowed inside enough found
    cases result with
    | some first =>
      obtain ⟨later, _, forbidden, free⟩ := restricts
      refine ⟨⟨later, forbidden, ?_⟩, ?_, sameClock⟩
      · exact fun wall after before => not_forbidden (free wall (Int.le_of_lt after) before)
      · exact fun wall after before => free wall after (before first rfl)
    | none =>
      have free : ∀ wall, start.wall < wall → allowedAt rules wall = true := by
        apply allowedAt_forever
        intro wall after before
        have within : wall ≤ start.wall + Timer.horizon := by lia
        exact restricts wall (Int.le_of_lt after) within
      refine ⟨fun wall after => not_forbidden (free wall after), ?_, sameClock⟩
      intro wall after _
      rcases Int.lt_or_eq_of_le after with later | rfl
      · exact free wall later
      · exact allowed

theorem nextRestriction_succeeds (rules : List Rule) {start : Moment} (first : 1 ≤ start.wall.day)
    (last : start.wall.day + 2 * Window.horizon + 1 < dayCount) :
    ∃ result, Timer.nextRestriction rules start = .ok result := by
  unfold Timer.nextRestriction
  split
  · exact ⟨none, rfl⟩
  · have limitDay : (start.wall + Timer.horizon).day = start.wall.day + Window.horizon := by
      simp only [Timer.horizon, Window.horizon, Wall.day, dayLength_eq, Wall]
      omega
    have eight : Window.horizon = 8 := rfl
    have inside := (inCalendar_iff (start.wall + Timer.horizon)).mpr (by omega)
    have shifted := shift_ok_iff.mpr ⟨inside, rfl⟩
    have ahead : start.wall ≤ start.wall + Timer.horizon := by
      have positive : 0 < Timer.horizon := by decide
      lia
    have enough : (start.wall + Timer.horizon).day + Window.horizon + 1 < dayCount := by omega
    obtain ⟨result, found⟩ := search_succeeds Timer.mostChanges first enough ahead
    exact ⟨result, bind_ok_iff.mpr ⟨_, shifted, found⟩⟩

end Curbside.Proofs.Restriction

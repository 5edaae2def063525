import Curbside.Proofs.CalendarEnds
import Curbside.Proofs.Stay

/-! The search for a restriction hops from change to change, with nothing to count its rounds. It ends
all the same: every hop leads to a later minute, and the minutes that can be reached were fixed when
the search began. -/

namespace Curbside.Proofs.Hops
open Wall WallClock NextChange Restriction Stay Attempt CalendarEnds Curbside.Proofs.Composition

/-- What one round of the search comes to: a hop to a later moment, or the end of the search. -/
inductive Round where
  | hops (later : Moment)
  | ends (result : Option Moment)
  deriving DecidableEq

def round (rules : List Rule) (limit : Wall) (moment : Moment) : Except Failure Round := do
  match ← Rule.nextChange rules moment.wall with
  | none => return .ends none
  | some change =>
    if limit < change then return .ends none
    let later := moment.atWall change
    let verdict ← Verdict.evaluate rules later
    if verdict.allowed then return .hops later else return .ends (some later)

/-- A search from round to round until one of them ends it or fails, with the moments at which its
rounds begin. There is no bound on their number. -/
inductive Search (rules : List Rule) (limit : Wall) :
    List Moment → Except Failure (Option Moment) → Prop where
  | ends {moment : Moment} {result : Option Moment}
      (last : round rules limit moment = .ok (.ends result)) :
      Search rules limit [moment] (.ok result)
  | fails {moment : Moment} {failure : Failure}
      (last : round rules limit moment = .error failure) :
      Search rules limit [moment] (.error failure)
  | hops {moment later : Moment} {onward : List Moment} {outcome : Except Failure (Option Moment)}
      (first : round rules limit moment = .ok (.hops later))
      (more : Search rules limit (later :: onward) outcome) :
      Search rules limit (moment :: later :: onward) outcome

/-- A later moment on the same clock, at the start of a minute and within a limit. -/
structure Leads (limit : Wall) (moment later : Moment) : Prop where
  after : moment.wall < later.wall
  onMinute : OnMinute later.wall
  within : later.wall ≤ limit
  zone : later.zone = moment.zone

/-- A round looks at dates outside the calendar, for the next change or for the verdict there. -/
inductive LooksOutside (rules : List Rule) (limit : Wall) (moment : Moment) : Prop where
  | change (close : TooClose rules moment.wall)
  | verdict {change : Wall} (next : Rule.nextChange rules moment.wall = .ok (some change))
      (within : change ≤ limit) (close : TooClose rules change)

section
variable {rules : List Rule} {limit : Wall} {moment later : Moment} {onward : List Moment}
  {outcome : Except Failure (Option Moment)}

theorem round_cases {reached : Round} (played : round rules limit moment = .ok reached) :
    reached = .ends none ∨ ∃ later verdict, Leads limit moment later ∧
      Verdict.evaluate rules later = .ok verdict ∧
      reached = if verdict.allowed then .hops later else .ends (some later) := by
  obtain ⟨change, found, next⟩ := bind_ok_iff.mp played
  have changes := windows_change_next found
  cases change with
  | none =>
    cases next
    exact Or.inl rfl
  | some change =>
    -- What the search hops to is a boundary of some window, and these start minutes.
    obtain ⟨after, onMinute, _⟩ := changes
    dsimp only at next
    split at next
    next =>
      cases next
      exact Or.inl rfl
    next within =>
      obtain ⟨verdict, evaluated, decided⟩ := bind_ok_iff.mp next
      refine Or.inr ⟨moment.atWall change, verdict, ⟨after, onMinute, Int.not_lt.mp within, rfl⟩,
        evaluated, ?_⟩
      split at decided
      next free =>
        cases decided
        exact (if_pos free).symm
      next refused =>
        cases decided
        exact (if_neg refused).symm

theorem round_hops (first : round rules limit moment = .ok (.hops later)) :
    Leads limit moment later := by
  rcases round_cases first with impossible | ⟨stop, verdict, leads, _, same⟩
  · cases impossible
  · split at same
    · cases same
      exact leads
    · cases same

theorem round_finds (last : round rules limit moment = .ok (.ends (some later))) :
    Leads limit moment later ∧
      ∃ verdict, Verdict.evaluate rules later = .ok verdict ∧ verdict.allowed = false := by
  rcases round_cases last with impossible | ⟨stop, verdict, leads, evaluated, same⟩
  · cases impossible
  · split at same
    · cases same
    next refused =>
      cases same
      exact ⟨leads, verdict, evaluated, Bool.not_eq_true _ ▸ refused⟩

theorem searchRestriction_round (steps : Nat) :
    Timer.searchRestriction rules limit (steps + 1) moment =
      (do match ← round rules limit moment with
          | .hops later => Timer.searchRestriction rules limit steps later
          | .ends result => .ok result) := by
  simp only [Timer.searchRestriction, round]
  cases Rule.nextChange rules moment.wall with
  | error failure => rfl
  | ok change =>
    cases change with
    | none => rfl
    | some change =>
      simp only [bind, Except.bind]
      split
      · rfl
      · cases Verdict.evaluate rules (moment.atWall change) with
        | error failure => rfl
        | ok verdict =>
          dsimp only
          split <;> rfl

/-- A bound on the number of rounds that a search does not need changes nothing. -/
theorem Search.bounded {steps : Nat} (search : Search rules limit (moment :: onward) outcome)
    (enough : (moment :: onward).length ≤ steps) :
    Timer.searchRestriction rules limit steps moment = outcome := by
  induction onward generalizing moment steps with
  | nil =>
    obtain ⟨fewer, rfl⟩ := Nat.exists_eq_add_of_lt enough
    rw [searchRestriction_round]
    cases search with
    | ends last =>
      rw [last]
      rfl
    | fails last =>
      rw [last]
      rfl
  | cons later onward ih =>
    obtain ⟨fewer, rfl⟩ := Nat.exists_eq_add_of_lt enough
    cases search with
    | hops first more =>
      rw [searchRestriction_round, first]
      apply ih more
      simp only [List.length_cons] at *
      omega

theorem search_terminates (inside : moment.wall ≤ limit) :
    ∃ onward outcome, Search rules limit (moment :: onward) outcome := by
  obtain ⟨count, near⟩ : ∃ count : Nat, limit / minuteLength - moment.wall / minuteLength < count :=
    ⟨(limit / minuteLength - moment.wall / minuteLength + 1).toNat, by lia⟩
  -- Every hop uses up at least one of the minutes that are left.
  induction count generalizing moment with
  | zero =>
    have ordered := minutes_mono inside
    lia
  | succ count ih =>
    cases played : round rules limit moment with
    | error failure => exact ⟨[], _, .fails played⟩
    | ok reached =>
      cases reached with
      | ends result => exact ⟨[], _, .ends played⟩
      | hops later =>
        have leads := round_hops played
        have progress := minutes_decrease leads.after leads.onMinute
        obtain ⟨onward, outcome, more⟩ := ih leads.within (by lia)
        exact ⟨later :: onward, outcome, .hops played more⟩

theorem Leads.trans {next : Moment} (first : Leads limit moment next) (second : Leads limit next later) :
    Leads limit moment later :=
  ⟨Int.lt_trans first.after second.after, second.onMinute, second.within,
    second.zone.trans first.zone⟩

theorem Search.leads (search : Search rules limit (moment :: onward) outcome) :
    (moment :: onward).Pairwise (Leads limit) := by
  induction onward generalizing moment with
  | nil => exact List.pairwise_singleton _ _
  | cons next onward ih =>
    cases search with
    | hops first more =>
      have leads := round_hops first
      have below := ih more
      refine List.pairwise_cons.mpr ⟨?_, below⟩
      intro later member
      rcases List.mem_cons.mp member with rfl | further
      · exact leads
      · exact leads.trans ((List.pairwise_cons.mp below).1 later further)

/-- Moments that lead to each other start different minutes. -/
theorem leads_few (leads : (moment :: onward).Pairwise (Leads limit)) (inside : moment.wall ≤ limit) :
    (onward.length : Int) ≤ limit / minuteLength - moment.wall / minuteLength := by
  induction onward generalizing moment with
  | nil =>
    have ordered := minutes_mono inside
    simp only [List.length_nil]
    lia
  | cons next onward ih =>
    obtain ⟨first, below⟩ := List.pairwise_cons.mp leads
    have hop := first next List.mem_cons_self
    have progress := minutes_decrease hop.after hop.onMinute
    have others := ih below hop.within
    simp only [List.length_cons]
    lia

theorem Search.finds (search : Search rules limit (moment :: onward) (.ok (some later))) :
    Leads limit moment later ∧
      ∃ verdict, Verdict.evaluate rules later = .ok verdict ∧ verdict.allowed = false := by
  induction onward generalizing moment with
  | nil =>
    cases search with
    | ends last => exact round_finds last
  | cons next onward ih =>
    cases search with
    | hops first more =>
      obtain ⟨leads, refused⟩ := ih more
      exact ⟨(round_hops first).trans leads, refused⟩

theorem inCalendar_between {first last wall : Wall} (begun : inCalendar first = true)
    (unfinished : inCalendar last = true) (after : first ≤ wall) (before : wall ≤ last) :
    inCalendar wall = true := by
  rw [inCalendar_iff] at *
  have lower := day_mono after
  have upper := day_mono before
  omega

theorem nextChange_succeeds_iff (inside : inCalendar moment.wall = true) :
    (∃ change, Rule.nextChange rules moment.wall = .ok change) ↔ ¬ TooClose rules moment.wall := by
  rw [← evaluates_iff_not_tooClose inside, evaluates_iff]
  exact nextChange_ok_iff

theorem round_succeeds_iff (inside : inCalendar moment.wall = true)
    (ending : inCalendar limit = true) :
    (∃ reached, round rules limit moment = .ok reached) ↔ ¬ LooksOutside rules limit moment := by
  have between : ∀ {change : Wall}, Rule.nextChange rules moment.wall = .ok (some change) →
      change ≤ limit → inCalendar (moment.atWall change).wall = true := by
    intro change found within
    obtain ⟨after, _⟩ := windows_change_next found
    exact inCalendar_between inside ending (Int.le_of_lt after) within
  constructor
  · intro ⟨reached, played⟩ outside
    obtain ⟨change, found, next⟩ := bind_ok_iff.mp played
    cases outside with
    | change close => exact (nextChange_succeeds_iff inside).mp ⟨change, found⟩ close
    | verdict known within close =>
      cases found.symm.trans known
      dsimp only at next
      rw [if_neg (Int.not_lt.mpr within)] at next
      obtain ⟨verdict, evaluated, _⟩ := bind_ok_iff.mp next
      exact (evaluates_iff_not_tooClose (between found within)).mp ⟨verdict, evaluated⟩ close
  · intro looksInside
    obtain ⟨change, found⟩ := (nextChange_succeeds_iff inside).mpr fun close =>
      looksInside (.change close)
    simp only [round, found, bind, Except.bind]
    cases change with
    | none => exact ⟨_, rfl⟩
    | some change =>
      dsimp only
      split
      · exact ⟨_, rfl⟩
      next within =>
        have within := Int.not_lt.mp within
        obtain ⟨verdict, evaluated⟩ := (evaluates_iff_not_tooClose (between found within)).mpr
          fun close => looksInside (.verdict found within close)
        rw [evaluated]
        dsimp only
        split
        · exact ⟨_, rfl⟩
        · exact ⟨_, rfl⟩

theorem Search.returns_iff (search : Search rules limit (moment :: onward) outcome)
    (inside : inCalendar moment.wall = true) (ending : inCalendar limit = true) :
    (∃ result, outcome = .ok result) ↔
      ∀ reached ∈ moment :: onward, ¬ LooksOutside rules limit reached := by
  induction onward generalizing moment with
  | nil =>
    simp only [List.mem_singleton, forall_eq, ← round_succeeds_iff inside ending]
    cases search with
    | ends last => simp [last]
    | fails last => simp [last]
  | cons later onward ih =>
    cases search with
    | hops first more =>
      have leads := round_hops first
      have within : inCalendar later.wall = true :=
        inCalendar_between inside ending (Int.le_of_lt leads.after) leads.within
      have looksInside := (round_succeeds_iff inside ending).mp ⟨_, first⟩
      rw [ih more within, List.forall_mem_cons (a := moment)]
      exact ⟨fun others => ⟨looksInside, others⟩, fun all => all.2⟩

end

section
variable {rules : List Rule} {start limit later : Moment} {onward : List Moment}
  {outcome : Except Failure (Option Moment)}

theorem limit_ahead (reach : start.shift Timer.horizon = .ok limit) : start.wall ≤ limit.wall := by
  obtain ⟨_, rfl⟩ := shift_ok_iff.mp reach
  exact Int.le_add_of_nonneg_right (by decide)

theorem Search.few (search : Search rules limit.wall (start :: onward) outcome)
    (reach : start.shift Timer.horizon = .ok limit) :
    (start :: onward).length ≤ Timer.mostChanges := by
  have minutes := leads_few search.leads (limit_ahead reach)
  obtain ⟨_, rfl⟩ := shift_ok_iff.mp reach
  simp only [Moment.atWall, Timer.horizon, Timer.mostChanges, Window.horizon, List.length_cons,
    dayLength_eq, minuteLength_eq, Wall] at *
  omega

theorem Search.answers (search : Search rules limit.wall (start :: onward) outcome)
    (reach : start.shift Timer.horizon = .ok limit) :
    Timer.nextRestriction rules start =
      if rules.any Rule.isRestrictive then outcome else .ok none := by
  unfold Timer.nextRestriction
  cases rules.any Rule.isRestrictive with
  | false => rfl
  | true =>
    simp only [Bool.not_true, Bool.false_eq_true, if_false, if_true, reach]
    exact search.bounded (search.few reach)

theorem Search.returns (search : Search rules limit.wall (start :: onward) outcome)
    (reach : start.shift Timer.horizon = .ok limit) (first : 1 ≤ start.wall.day)
    (last : start.wall.day + 17 < dayCount) : ∃ result, outcome = .ok result := by
  rw [← search.bounded (search.few reach)]
  apply search_succeeds _ first _ (limit_ahead reach)
  obtain ⟨_, rfl⟩ := shift_ok_iff.mp reach
  simp only [Moment.atWall, Wall.day, Timer.horizon, Window.horizon, dayLength_eq, Wall] at *
  omega

end

/-- What a search from a start comes to. It returns exactly where no round looks outside the calendar, as
it always does away from both ends, and then it returns nothing or a moment ahead at which parking is
refused. -/
structure Concludes (rules : List Rule) (start : Moment) (limit : Wall) (onward : List Moment)
    (outcome : Except Failure (Option Moment)) : Prop where
  answers : Timer.nextRestriction rules start =
    if rules.any Rule.isRestrictive then outcome else .ok none
  leads : (start :: onward).Pairwise (Leads limit)
  few : (start :: onward).length ≤ 8 * 1440 + 1
  returns : (∃ result, outcome = .ok result) ↔
    ∀ moment ∈ start :: onward, ¬ LooksOutside rules limit moment
  returnsAway : 1 ≤ start.wall.day → start.wall.day + 17 < dayCount → ∃ result, outcome = .ok result
  finds : ∀ later, outcome = .ok (some later) → Leads limit start later ∧
    ∃ verdict, Verdict.evaluate rules later = .ok verdict ∧ verdict.allowed = false

/-- The search for a restriction ends, whatever the rules, after no more rounds than one for each minute
of the eight days ahead and one more. -/
theorem restriction_search_ends (rules : List Rule) {start limit : Moment}
    (inside : inCalendar start.wall = true) (reach : start.shift Timer.horizon = .ok limit) :
    (∃ onward outcome, Search rules limit.wall (start :: onward) outcome) ∧
      ∀ onward outcome, Search rules limit.wall (start :: onward) outcome →
        Concludes rules start limit.wall onward outcome := by
  refine ⟨search_terminates (limit_ahead reach), ?_⟩
  intro onward outcome search
  obtain ⟨ending, rfl⟩ := shift_ok_iff.mp reach
  refine ⟨search.answers reach, search.leads, search.few reach, search.returns_iff inside ending,
    search.returns reach, ?_⟩
  intro later found
  subst found
  exact search.finds

def eveningMeter : Rule :=
  ⟨.plain (.metered none), some (Window.onDays ⟨935, by decide⟩ ⟨1205, by decide⟩ DaySet.all),
    Binary64.ofPlaces 9 1, "METERED PARKING 3:35PM-8:05PM", false⟩

def eightDaysOn : Moment := mondayAtThree.atWall (mondayAtThree.wall + 8 * dayLength)

def meterStarts : Moment := mondayAtThree.atWall (mondayAtThree.wall + 35 * minuteLength)

def rushStarts : Moment := mondayAtThree.atWall (mondayAtThree.wall + 60 * minuteLength)

/-- The search hops over the moment at which a meter starts to count. -/
theorem meter_passed :
    inCalendar mondayAtThree.wall = true ∧
    mondayAtThree.shift Timer.horizon = .ok eightDaysOn ∧
    Search [eveningMeter, rushHour] eightDaysOn.wall [mondayAtThree, meterStarts]
      (.ok (some rushStarts)) ∧
    Concludes [eveningMeter, rushHour] mondayAtThree eightDaysOn.wall [meterStarts]
      (.ok (some rushStarts)) := by
  have inside : inCalendar mondayAtThree.wall = true := by decide
  have reach : mondayAtThree.shift Timer.horizon = .ok eightDaysOn := ok_of_toOption (by decide)
  have search : Search [eveningMeter, rushHour] eightDaysOn.wall [mondayAtThree, meterStarts]
      (.ok (some rushStarts)) := by
    apply Search.hops
    · exact ok_of_toOption (by decide +kernel)
    · apply Search.ends
      exact ok_of_toOption (by decide +kernel)
  exact ⟨inside, reach, search, (restriction_search_ends _ inside reach).2 _ _ search⟩

end Curbside.Proofs.Hops

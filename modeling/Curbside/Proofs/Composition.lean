import Curbside.Proofs.Restriction

/-! A list of rules may be judged in parts. Of two lists, parking is allowed where both allow it,
the heavier restriction binds, and the earlier change comes next. So the order of rules does not
matter to whether and until when parking is allowed, and more rules never allow more. -/

namespace Curbside.Proofs.Composition
open Wall WallClock NextChange Restriction Attempt

/-- The earlier of two changes on one clock, where none never comes. -/
def earlier : Option Moment → Option Moment → Option Moment
  | none, second => second
  | some first, none => some first
  | some first, some second => if second.wall < first.wall then some second else some first

/-- The rule that binds beside another one: the second only if the first is missing or less
severe. -/
def weightier : Option Rule → Option Rule → Option Rule
  | none, second => second
  | some first, none => some first
  | some first, some second =>
    if first.severity.rank < second.severity.rank then some second else some first

/-- A change comes no later than another, where none never comes. -/
def NoLater : Option Moment → Option Moment → Prop
  | _, none => True
  | none, some _ => False
  | some first, some second => first.wall ≤ second.wall

theorem weightier_none (first : Option Rule) : weightier first none = first := by
  cases first <;> rfl

theorem weightier_assoc (first second third : Option Rule) :
    weightier (weightier first second) third = weightier first (weightier second third) := by
  cases first with
  | none => rfl
  | some one =>
    cases second with
    | none => rfl
    | some two =>
      cases third with
      | none => simp only [weightier_none]
      | some three =>
        by_cases twoWins : one.severity.rank < two.severity.rank
        · by_cases threeWins : two.severity.rank < three.severity.rank
          · have overOne := Nat.lt_trans twoWins threeWins
            simp [weightier, twoWins, threeWins, overOne]
          · simp [weightier, twoWins, threeWins]
        · by_cases threeWins : two.severity.rank < three.severity.rank
          · simp [weightier, twoWins, threeWins]
          · have underOne : ¬ one.severity.rank < three.severity.rank := by omega
            simp [weightier, twoWins, threeWins, underOne]

theorem heavier_eq (held : Option Rule) (rule : Rule) :
    Rule.heavier held rule = weightier held (Rule.heavier none rule) := by
  unfold Rule.heavier
  split
  · exact (weightier_none held).symm
  · cases held <;> rfl

theorem foldl_heavier (rules : List Rule) (held : Option Rule) :
    rules.foldl Rule.heavier held = weightier held (Rule.binding rules) := by
  induction rules generalizing held with
  | nil => exact (weightier_none held).symm
  | cons rule rules ih =>
    calc rules.foldl Rule.heavier (Rule.heavier held rule)
        = weightier (weightier held (Rule.heavier none rule)) (Rule.binding rules) := by
          rw [ih, ← heavier_eq]
      _ = weightier held (weightier (Rule.heavier none rule) (Rule.binding rules)) :=
          weightier_assoc ..
      _ = weightier held (Rule.binding (rule :: rules)) := by
          rw [← ih]
          rfl

theorem binding_append (first second : List Rule) :
    Rule.binding (first ++ second) = weightier (Rule.binding first) (Rule.binding second) := by
  rw [← foldl_heavier, Rule.binding, List.foldl_append]
  rfl

theorem active_append (first second : List Rule) (wall : Wall) :
    Rule.active (first ++ second) wall = Rule.active first wall ++ Rule.active second wall :=
  List.filter_append ..

theorem weightier_isNone (first second : Option Rule) :
    (weightier first second).isNone = (first.isNone && second.isNone) := by
  cases first with
  | none => rfl
  | some one =>
    cases second with
    | none => rfl
    | some two =>
      simp only [weightier]
      split <;> rfl

/-- Changes are sought window by window, so that looking for them fails only where it fails for
one of the windows. -/
theorem nextChange_ok_iff {windows : List Window} {after : Wall} :
    (∃ change, Window.nextChange windows after = .ok change) ↔
      ∀ window ∈ windows, ∃ found, window.boundaries after Window.horizon = .ok found := by
  constructor
  · intro ⟨change, reached⟩
    obtain ⟨found, collected, _⟩ := bind_ok_iff.mp reached
    exact step_of_mapM collected
  · intro each
    obtain ⟨found, collected⟩ := mapM_succeeds each
    exact ⟨_, bind_ok_iff.mpr ⟨found, collected, rfl⟩⟩

theorem windows_append (first second : List Rule) :
    Rule.windows (first ++ second) = Rule.windows first ++ Rule.windows second :=
  List.filterMap_append

section
variable {windows more : List Window} {after : Wall}

/-- Until they change next, windows stay as they are. -/
theorem steady_before {change : Option Wall} (changes : ChangesNext windows after change)
    {window : Window} (member : window ∈ windows) {wall : Wall} (started : after ≤ wall)
    (before : ∀ reading, change = some reading → wall < reading) :
    window.activeAt wall = window.activeAt after := by
  cases change with
  | none => exact changes window member wall started
  | some reading => exact changes.2.2.1 window member wall started (before reading rfl)

/-- Windows that are among others change no earlier than these. -/
theorem changesNext_noLater {change sooner : Option Wall} (inside : windows ⊆ more)
    (changes : ChangesNext windows after change) (changesSooner : ChangesNext more after sooner)
    {wall : Wall} (comes : change = some wall) : ∃ first, sooner = some first ∧ first ≤ wall := by
  subst comes
  obtain ⟨ahead, _, _, window, member, differs⟩ := changes
  -- Were the others to stay as they are for longer, so would the window that changes here.
  apply Classical.byContradiction
  intro later
  apply differs
  apply steady_before changesSooner (inside member) (Int.le_of_lt ahead)
  intro first comes
  exact Int.not_le.mp fun before => later ⟨first, comes, before⟩

theorem changesNext_unique {one two : Option Wall} (inside : windows ⊆ more)
    (outside : more ⊆ windows) (changes : ChangesNext windows after one)
    (others : ChangesNext more after two) : one = two := by
  cases one with
  | none =>
    cases two with
    | none => rfl
    | some wall =>
      obtain ⟨first, impossible, _⟩ := changesNext_noLater outside others changes rfl
      cases impossible
  | some wall =>
    obtain ⟨first, rfl, before⟩ := changesNext_noLater inside changes others rfl
    obtain ⟨_, same, onward⟩ := changesNext_noLater outside others changes rfl
    cases same
    rw [Int.le_antisymm onward before]

/-- Windows change next with some of them, if the others stay as they are until then. -/
theorem changesNext_among {wall : Wall} (inside : windows ⊆ more)
    (changes : ChangesNext windows after (some wall))
    (quiet : ∀ window ∈ more, window ∈ windows ∨ ∀ reading, after ≤ reading → reading < wall →
      window.activeAt reading = window.activeAt after) :
    ChangesNext more after (some wall) := by
  obtain ⟨ahead, onMinute, steady, window, member, differs⟩ := changes
  refine ⟨ahead, onMinute, ?_, window, inside member, differs⟩
  intro other member reading started before
  rcases quiet other member with among | still
  · exact steady other among reading started before
  · exact still reading started before

end

/-- The earlier change of two lists of windows is the next one of both together. -/
theorem changesNext_append {first second : List Window} {after : Wall} {one two : Option Moment}
    (changes : ChangesNext first after (one.map Moment.wall))
    (changesSecond : ChangesNext second after (two.map Moment.wall)) :
    ChangesNext (first ++ second) after ((earlier one two).map Moment.wall) := by
  -- Whichever list changes first, the windows of the other one are as they were until then.
  have firstLeads : ∀ soon, one = some soon →
      (∀ reading, two.map Moment.wall = some reading → soon.wall ≤ reading) →
      ChangesNext (first ++ second) after (some soon.wall) := by
    intro soon comes leads
    subst comes
    refine changesNext_among (List.subset_append_left ..) changes fun window member => ?_
    refine (List.mem_append.mp member).imp_right fun inSecond reading started before => ?_
    exact steady_before changesSecond inSecond started fun other later =>
      Int.lt_of_lt_of_le before (leads other later)
  have secondLeads : ∀ soon, two = some soon →
      (∀ reading, one.map Moment.wall = some reading → soon.wall ≤ reading) →
      ChangesNext (first ++ second) after (some soon.wall) := by
    intro soon comes leads
    subst comes
    refine changesNext_among (List.subset_append_right ..) changesSecond fun window member => ?_
    refine (List.mem_append.mp member).symm.imp_right fun inFirst reading started before => ?_
    exact steady_before changes inFirst started fun other later =>
      Int.lt_of_lt_of_le before (leads other later)
  cases one with
  | none =>
    cases two with
    | none =>
      intro window member
      rcases List.mem_append.mp member with inFirst | inSecond
      · exact changes window inFirst
      · exact changesSecond window inSecond
    | some later => exact secondLeads later rfl nofun
  | some soon =>
    cases two with
    | none => exact firstLeads soon rfl nofun
    | some later =>
      simp only [earlier]
      split
      next less =>
        exact secondLeads later rfl fun _ same => Option.some.inj same ▸ Int.le_of_lt less
      next notLess =>
        exact firstLeads soon rfl fun _ same => Option.some.inj same ▸ Int.not_lt.mp notLess

section
variable {rules : List Rule} {moment : Moment} {verdict : Verdict}

/-- A verdict says what holds at a moment and when that changes next. -/
theorem evaluate_ok_iff : Verdict.evaluate rules moment = .ok verdict ↔
    ∃ change, Rule.nextChange rules moment.wall = .ok change ∧
      verdict = ⟨allowedAt rules moment.wall, Rule.binding (Rule.active rules moment.wall),
        change.map moment.atWall, Rule.active rules moment.wall⟩ := by
  constructor
  · intro evaluated
    obtain ⟨change, found, built⟩ := bind_ok_iff.mp evaluated
    cases built
    exact ⟨change, found, rfl⟩
  · intro ⟨change, found, same⟩
    subst same
    exact bind_ok_iff.mpr ⟨change, found, rfl⟩

theorem verdict_changes (evaluated : Verdict.evaluate rules moment = .ok verdict) :
    ChangesNext (Rule.windows rules) moment.wall (verdict.nextChange.map Moment.wall) ∧
      (verdict.nextChange.map Moment.wall).map moment.atWall = verdict.nextChange := by
  obtain ⟨change, found, rfl⟩ := evaluate_ok_iff.mp evaluated
  have changes := windows_change_next found
  cases change with
  | none => exact ⟨changes, rfl⟩
  | some wall => exact ⟨changes, rfl⟩

theorem evaluates_iff : (∃ verdict, Verdict.evaluate rules moment = .ok verdict) ↔
    ∀ window ∈ Rule.windows rules,
      ∃ found, window.boundaries moment.wall Window.horizon = .ok found := by
  rw [← nextChange_ok_iff]
  constructor
  · intro ⟨verdict, evaluated⟩
    obtain ⟨change, found, _⟩ := evaluate_ok_iff.mp evaluated
    exact ⟨change, found⟩
  · intro ⟨change, found⟩
    exact ⟨_, evaluate_ok_iff.mpr ⟨change, found, rfl⟩⟩

/-- A verdict on rules is settled by the windows' next change. -/
theorem evaluate_of_changes {next : Option Moment}
    (evaluates : ∃ verdict, Verdict.evaluate rules moment = .ok verdict)
    (changes : ChangesNext (Rule.windows rules) moment.wall (next.map Moment.wall))
    (clock : (next.map Moment.wall).map moment.atWall = next) :
    Verdict.evaluate rules moment = .ok ⟨allowedAt rules moment.wall,
      Rule.binding (Rule.active rules moment.wall), next, Rule.active rules moment.wall⟩ := by
  obtain ⟨verdict, evaluated⟩ := evaluates
  obtain ⟨change, found, rfl⟩ := evaluate_ok_iff.mp evaluated
  have same := changesNext_unique (List.Subset.refl _) (List.Subset.refl _)
    (windows_change_next found) changes
  rw [evaluated, same, clock]

end

theorem earlier_cases (one two : Option Moment) :
    earlier one two = one ∨ earlier one two = two := by
  cases one with
  | none => exact Or.inr rfl
  | some first =>
    cases two with
    | none => exact Or.inl rfl
    | some second =>
      simp only [earlier]
      split
      · exact Or.inr rfl
      · exact Or.inl rfl

/-- Two lists one after the other are judged by their verdicts alone. -/
theorem evaluate_append {first second : List Rule} {moment : Moment} {one two : Verdict}
    (evaluated : Verdict.evaluate first moment = .ok one)
    (evaluatedSecond : Verdict.evaluate second moment = .ok two) :
    Verdict.evaluate (first ++ second) moment =
      .ok ⟨one.allowed && two.allowed, weightier one.binding two.binding,
        earlier one.nextChange two.nextChange, one.active ++ two.active⟩ := by
  obtain ⟨changes, clock⟩ := verdict_changes evaluated
  obtain ⟨changesSecond, clockSecond⟩ := verdict_changes evaluatedSecond
  have evaluates : ∃ verdict, Verdict.evaluate (first ++ second) moment = .ok verdict := by
    rw [evaluates_iff, windows_append]
    intro window member
    rcases List.mem_append.mp member with inFirst | inSecond
    · exact evaluates_iff.mp ⟨one, evaluated⟩ window inFirst
    · exact evaluates_iff.mp ⟨two, evaluatedSecond⟩ window inSecond
  have together : ChangesNext (Rule.windows (first ++ second)) moment.wall
      ((earlier one.nextChange two.nextChange).map Moment.wall) := by
    rw [windows_append]
    exact changesNext_append changes changesSecond
  have onClock : ((earlier one.nextChange two.nextChange).map Moment.wall).map moment.atWall =
      earlier one.nextChange two.nextChange := by
    rcases earlier_cases one.nextChange two.nextChange with same | same
    · rw [same, clock]
    · rw [same, clockSecond]
  rw [evaluate_of_changes evaluates together onClock]
  obtain ⟨_, _, rfl⟩ := evaluate_ok_iff.mp evaluated
  obtain ⟨_, _, rfl⟩ := evaluate_ok_iff.mp evaluatedSecond
  simp only [allowedAt, active_append, binding_append, weightier_isNone]

section
variable {rules more : List Rule} {moment : Moment} {verdict other : Verdict}

theorem windows_subset (inside : rules ⊆ more) : Rule.windows rules ⊆ Rule.windows more := by
  intro window member
  obtain ⟨rule, listed, seen⟩ := (mem_windows rules window).mp member
  exact (mem_windows more window).mpr ⟨rule, inside listed, seen⟩

/-- Where rules are added, what was forbidden stays so, and a change comes no later. -/
theorem evaluate_subset (inside : rules ⊆ more)
    (evaluated : Verdict.evaluate rules moment = .ok verdict)
    (evaluatedMore : Verdict.evaluate more moment = .ok other) :
    (other.allowed = true → verdict.allowed = true) ∧
      NoLater other.nextChange verdict.nextChange := by
  constructor
  · intro allowed
    rw [evaluate_allowed evaluatedMore, allowedAt_iff] at allowed
    rw [evaluate_allowed evaluated, allowedAt_iff]
    exact fun rule member restrictive => allowed rule (inside member) restrictive
  · obtain ⟨changes, _⟩ := verdict_changes evaluated
    obtain ⟨changesMore, _⟩ := verdict_changes evaluatedMore
    cases comes : verdict.nextChange with
    | none => trivial
    | some later =>
      rw [comes] at changes
      obtain ⟨first, sooner, before⟩ :=
        changesNext_noLater (windows_subset inside) changes changesMore rfl
      obtain ⟨soon, found, rfl⟩ := Option.map_eq_some_iff.mp sooner
      rw [found]
      exact before

theorem evaluates_subset (inside : rules ⊆ more)
    (evaluates : ∃ other, Verdict.evaluate more moment = .ok other) :
    ∃ verdict, Verdict.evaluate rules moment = .ok verdict := by
  rw [evaluates_iff] at evaluates ⊢
  exact fun window member => evaluates window (windows_subset inside member)

/-- Which rules there are decides whether and until when parking is allowed, not their order. -/
theorem evaluate_perm (reordered : rules.Perm more)
    (evaluated : Verdict.evaluate rules moment = .ok verdict) :
    ∃ other, Verdict.evaluate more moment = .ok other ∧ other.allowed = verdict.allowed ∧
      other.nextChange = verdict.nextChange := by
  obtain ⟨other, evaluatedOther⟩ := evaluates_subset reordered.symm.subset ⟨verdict, evaluated⟩
  refine ⟨other, evaluatedOther, ?_, ?_⟩
  · rw [Bool.eq_iff_iff]
    constructor
    · exact (evaluate_subset reordered.subset evaluated evaluatedOther).1
    · exact (evaluate_subset reordered.symm.subset evaluatedOther evaluated).1
  · obtain ⟨changes, clock⟩ := verdict_changes evaluated
    obtain ⟨changesOther, clockOther⟩ := verdict_changes evaluatedOther
    have same := changesNext_unique (windows_subset reordered.subset)
      (windows_subset reordered.symm.subset) changes changesOther
    rw [← clock, ← clockOther, same]

end

/-- Two lists of rules are judged together by their verdicts alone. In another order rules give
the same answer on whether and until when parking is allowed, and with more rules parking is not
allowed where it was not before, nor does the next change come later. -/
theorem verdicts_compose (moment : Moment) :
    (∀ first second one two, Verdict.evaluate first moment = .ok one →
      Verdict.evaluate second moment = .ok two →
      Verdict.evaluate (first ++ second) moment =
        .ok ⟨one.allowed && two.allowed, weightier one.binding two.binding,
          earlier one.nextChange two.nextChange, one.active ++ two.active⟩) ∧
    (∀ rules others verdict, rules.Perm others → Verdict.evaluate rules moment = .ok verdict →
      ∃ other, Verdict.evaluate others moment = .ok other ∧ other.allowed = verdict.allowed ∧
        other.nextChange = verdict.nextChange) ∧
    ∀ rules more verdict other, rules ⊆ more → Verdict.evaluate rules moment = .ok verdict →
      Verdict.evaluate more moment = .ok other →
      (other.allowed = true → verdict.allowed = true) ∧
        NoLater other.nextChange verdict.nextChange := by
  refine ⟨?_, ?_, ?_⟩
  · intro first second one two evaluated evaluatedSecond
    exact evaluate_append evaluated evaluatedSecond
  · intro rules others verdict reordered evaluated
    exact evaluate_perm reordered evaluated
  · intro rules more verdict other inside evaluated evaluatedMore
    exact evaluate_subset inside evaluated evaluatedMore

def residentsByDay : Rule :=
  ⟨.plain (.permitRequired none),
    some (Window.onDays ⟨480, by decide⟩ ⟨1140, by decide⟩ DaySet.all),
    Binary64.ofPlaces 95 2, "RESIDENTS ONLY 8AM-7PM", false⟩

def towedByMorning : Rule :=
  ⟨⟨.noParking, .towAway, none⟩,
    some (Window.onDays ⟨510, by decide⟩ ⟨600, by decide⟩ DaySet.workdays),
    Binary64.ofPlaces 95 2, "NO PARKING 8:30-10AM MON-FRI", false⟩

def halfPastNine : Moment := ⟨atMinute 7 ⟨570, by decide⟩, none, false⟩

def tenOClock : Moment := halfPastNine.atWall (atMinute 7 ⟨600, by decide⟩)

def sevenOClock : Moment := halfPastNine.atWall (atMinute 7 ⟨1140, by decide⟩)

/-- The rule by which cars are towed binds although it comes second, and its end is the next
change, also if the rules are read the other way round. -/
theorem towing_outweighs_residents :
    Verdict.evaluate [residentsByDay] halfPastNine =
      .ok ⟨false, some residentsByDay, some sevenOClock, [residentsByDay]⟩ ∧
    Verdict.evaluate [towedByMorning] halfPastNine =
      .ok ⟨false, some towedByMorning, some tenOClock, [towedByMorning]⟩ ∧
    Verdict.evaluate [residentsByDay, towedByMorning] halfPastNine =
      .ok ⟨false, some towedByMorning, some tenOClock, [residentsByDay, towedByMorning]⟩ ∧
    (∃ other, Verdict.evaluate [towedByMorning, residentsByDay] halfPastNine = .ok other ∧
      other.allowed = false ∧ other.nextChange = some tenOClock) ∧
    NoLater (some tenOClock) (some sevenOClock) := by
  have residents : Verdict.evaluate [residentsByDay] halfPastNine =
      .ok ⟨false, some residentsByDay, some sevenOClock, [residentsByDay]⟩ :=
    ok_of_toOption (by decide +kernel)
  have towed : Verdict.evaluate [towedByMorning] halfPastNine =
      .ok ⟨false, some towedByMorning, some tenOClock, [towedByMorning]⟩ :=
    ok_of_toOption (by decide +kernel)
  obtain ⟨together, reordered, added⟩ := verdicts_compose halfPastNine
  have both := together _ _ _ _ residents towed
  refine ⟨residents, towed, both, ?_, ?_⟩
  · exact reordered _ [towedByMorning, residentsByDay] _ (.swap ..) both
  · exact (added _ _ _ _ (List.subset_append_left ..) residents both).2

end Curbside.Proofs.Composition

import Curbside.Proofs.Answering
import Curbside.Proofs.Composition

/-! The gravest rule that holds decides what a driver is told. Every rule brings a risk of its own,
the risk of a place is the greatest of them, and the risk tells whether parking is blocked, calls
for caution, or is safe. So of two signs the worse one counts, in whatever order they are read. -/

namespace Curbside.Proofs.Weighing
open Decision Attempt Restriction Curbside.Proofs.Composition Scanning Answering

/-- The risk that a rule brings while it holds. -/
def riskUnder (rule : Rule) : Int :=
  if rule.isRestrictive then riskOf rule.severity
  else ((condition? rule).map Prod.snd).getD leastRisk

/-- The status that goes with a risk. -/
def statusAt (risk : Int) : Status :=
  if 70 ≤ risk then .blocked else if 30 ≤ risk then .caution else .safe

/-- From safe to blocked. Advice never has a status of another name. -/
def gravity : Status → Nat
  | .safe | .other _ => 0
  | .caution => 1
  | .blocked => 2

def worse (first second : Status) : Status :=
  if gravity first < gravity second then second else first

/-- A risk is the greatest under some rules, or the least there is if none of them brings more. -/
structure Weighs (rules : List Rule) (risk : Int) : Prop where
  least : leastRisk ≤ risk
  covers : ∀ rule ∈ rules, riskUnder rule ≤ risk
  reached : risk = leastRisk ∨ ∃ rule ∈ rules, riskUnder rule = risk

theorem Weighs.le {rules more : List Rule} {risk other : Int} (inside : rules ⊆ more)
    (weighs : Weighs rules risk) (weighsMore : Weighs more other) : risk ≤ other := by
  rcases weighs.reached with least | ⟨rule, member, same⟩
  · rw [least]
    exact weighsMore.least
  · rw [← same]
    exact weighsMore.covers rule (inside member)

theorem Weighs.append {first second : List Rule} {one two : Int} (weighs : Weighs first one)
    (weighsSecond : Weighs second two) : Weighs (first ++ second) (max one two) := by
  refine ⟨Int.le_trans weighs.least (Int.le_max_left one two), ?_, ?_⟩
  · intro rule member
    rcases List.mem_append.mp member with inFirst | inSecond
    · exact Int.le_trans (weighs.covers rule inFirst) (Int.le_max_left one two)
    · exact Int.le_trans (weighsSecond.covers rule inSecond) (Int.le_max_right one two)
  · rcases Int.le_total one two with smaller | greater
    · rw [Int.max_eq_right smaller]
      apply weighsSecond.reached.imp_right
      intro ⟨rule, member, same⟩
      exact ⟨rule, List.mem_append_right first member, same⟩
    · rw [Int.max_eq_left greater]
      apply weighs.reached.imp_right
      intro ⟨rule, member, same⟩
      exact ⟨rule, List.mem_append_left second member, same⟩

theorem statusAt_cases (risk : Int) :
    (70 ≤ risk ∧ statusAt risk = .blocked) ∨
      (30 ≤ risk ∧ risk < 70 ∧ statusAt risk = .caution) ∨
      (risk < 30 ∧ statusAt risk = .safe) := by
  unfold statusAt
  split
  next high => exact Or.inl ⟨high, rfl⟩
  next notHigh =>
    split
    next notLow => exact Or.inr (Or.inl ⟨notLow, Int.not_le.mp notHigh, rfl⟩)
    next low => exact Or.inr (Or.inr ⟨Int.not_le.mp low, rfl⟩)

theorem gravity_mono {one two : Int} (ordered : one ≤ two) :
    gravity (statusAt one) ≤ gravity (statusAt two) := by
  rcases statusAt_cases one with ⟨reached, first⟩ | ⟨reached, _, first⟩ | ⟨_, first⟩
  · rcases statusAt_cases two with ⟨_, second⟩ | ⟨_, below, _⟩ | ⟨below, _⟩
    · exact Nat.le_of_eq (congrArg gravity (first.trans second.symm))
    · omega
    · omega
  · rcases statusAt_cases two with ⟨_, second⟩ | ⟨_, _, second⟩ | ⟨below, _⟩
    · rw [first, second]
      decide
    · exact Nat.le_of_eq (congrArg gravity (first.trans second.symm))
    · omega
  · rw [first]
    exact Nat.zero_le _

theorem statusAt_eq_of_gravity {one two : Int}
    (same : gravity (statusAt one) = gravity (statusAt two)) : statusAt one = statusAt two := by
  rcases statusAt_cases one with ⟨_, first⟩ | ⟨_, _, first⟩ | ⟨_, first⟩ <;>
    rcases statusAt_cases two with ⟨_, second⟩ | ⟨_, _, second⟩ | ⟨_, second⟩ <;>
      rw [first, second] at same ⊢ <;> cases same

theorem statusAt_max (one two : Int) :
    statusAt (max one two) = worse (statusAt one) (statusAt two) := by
  rcases Int.le_total one two with smaller | greater
  · rw [Int.max_eq_right smaller, worse]
    split
    · rfl
    next notLess =>
      have same := Nat.le_antisymm (gravity_mono smaller) (Nat.not_lt.mp notLess)
      exact (statusAt_eq_of_gravity same).symm
  · have notLess := Nat.not_lt.mpr (gravity_mono greater)
    rw [Int.max_eq_left greater, worse, if_neg notLess]

theorem riskOf_mono {one two : Severity} (ordered : one.rank ≤ two.rank) :
    riskOf one ≤ riskOf two := by
  revert ordered
  cases one <;> cases two <;> decide

theorem riskOf_high (severity : Severity) : 70 ≤ riskOf severity := by
  cases severity <;> decide

/-- A condition is of less weight than any restriction. -/
theorem condition?_risk {rule : Rule} {condition : String × Int}
    (conditional : condition? rule = some condition) :
    30 ≤ condition.2 ∧ condition.2 < 70 := by
  unfold condition? at conditional
  split at conditional <;> cases conditional <;> dsimp only <;> omega

theorem riskUnder_restrictive {rule : Rule} (restrictive : rule.isRestrictive = true) :
    riskUnder rule = riskOf rule.severity := if_pos restrictive

theorem riskUnder_free {rule : Rule} (free : rule.isRestrictive = false) :
    riskUnder rule = ((condition? rule).map Prod.snd).getD leastRisk := by
  rw [riskUnder, free]
  rfl

theorem riskUnder_free_lt {rule : Rule} (free : rule.isRestrictive = false) :
    riskUnder rule < 70 := by
  rw [riskUnder_free free]
  cases conditional : condition? rule with
  | none => decide
  | some condition => exact (condition?_risk conditional).2

theorem weightier_covers {one two : Option Rule} {heavy : Rule}
    (chosen : weightier one two = some heavy) {rule : Rule}
    (either : one = some rule ∨ two = some rule) : rule.severity.rank ≤ heavy.severity.rank := by
  cases one with
  | none =>
    rcases either with impossible | second
    · cases impossible
    · cases chosen.symm.trans second
      exact Nat.le_refl _
  | some first =>
    cases two with
    | none =>
      rcases either with same | impossible
      · cases chosen.symm.trans same
        exact Nat.le_refl _
      · cases impossible
    | some second =>
      simp only [weightier] at chosen
      split at chosen <;> cases chosen <;> rcases either with same | same <;> cases same
      next less => exact Nat.le_of_lt less
      next => exact Nat.le_refl _
      next => exact Nat.le_refl _
      next notLess => exact Nat.not_lt.mp notLess

/-- No restriction is more severe than the one that binds. -/
theorem binding_heaviest {rules : List Rule} {heavy : Rule}
    (binds : Rule.binding rules = some heavy) {rule : Rule} (member : rule ∈ rules)
    (restrictive : rule.isRestrictive = true) : rule.severity.rank ≤ heavy.severity.rank := by
  obtain ⟨before, after, split⟩ := List.append_of_mem member
  have own : Rule.binding (rule :: after) = weightier (some rule) (Rule.binding after) := by
    rw [Rule.binding, List.foldl_cons, foldl_heavier, Rule.heavier, restrictive]
    rfl
  rw [split, binding_append, own] at binds
  cases chosen : weightier (some rule) (Rule.binding after) with
  | none =>
    have missing := weightier_isNone (some rule) (Rule.binding after)
    rw [chosen] at missing
    cases missing
  | some candidate =>
    have heavier := weightier_covers binds (Or.inr chosen)
    exact Nat.le_trans (weightier_covers chosen (Or.inl rfl)) heavier

theorem forbidden_weighs {bands : Fine.Bands} {rules : List Rule} {heavy : Rule}
    {decision : Decision} (binds : Rule.binding rules = some heavy)
    (decided : forbidden bands heavy = .ok decision) :
    Weighs rules decision.risk ∧ decision.status = statusAt decision.risk := by
  obtain ⟨member, restrictive⟩ := binding_restrictive binds
  obtain ⟨estimate, _, built⟩ := bind_ok_iff.mp decided
  cases built
  have high := riskOf_high heavy.severity
  refine ⟨⟨?_, ?_, Or.inr ⟨heavy, member, riskUnder_restrictive restrictive⟩⟩, (if_pos high).symm⟩
  · exact Int.le_trans (by decide) high
  · intro rule inside
    cases restricts : rule.isRestrictive with
    | true =>
      rw [riskUnder_restrictive restricts]
      exact riskOf_mono (binding_heaviest binds inside restricts)
    | false => exact Int.le_trans (Int.le_of_lt (riskUnder_free_lt restricts)) high

/-- The greatest of a risk and the risks of some conditions. -/
def greatestRisk (start : Int) (conditions : List (String × Int)) : Int :=
  conditions.foldl (fun greatest condition => max greatest condition.2) start

theorem greatestRisk_covers (start : Int) (conditions : List (String × Int)) :
    start ≤ greatestRisk start conditions ∧
      ∀ condition ∈ conditions, condition.2 ≤ greatestRisk start conditions := by
  induction conditions generalizing start with
  | nil => exact ⟨Int.le_refl start, nofun⟩
  | cons condition more ih =>
    obtain ⟨above, covers⟩ := ih (max start condition.2)
    refine ⟨Int.le_trans (Int.le_max_left ..) above, ?_⟩
    intro other member
    rcases List.mem_cons.mp member with rfl | further
    · exact Int.le_trans (Int.le_max_right ..) above
    · exact covers other further

theorem greatestRisk_reached (start : Int) (conditions : List (String × Int)) :
    greatestRisk start conditions = start ∨
      ∃ condition ∈ conditions, condition.2 = greatestRisk start conditions := by
  induction conditions generalizing start with
  | nil => exact Or.inl rfl
  | cons condition more ih =>
    rcases ih (max start condition.2) with same | ⟨other, member, same⟩
    · rcases Int.le_total start condition.2 with smaller | greater
      · have own := (same.trans (Int.max_eq_right smaller)).symm
        exact Or.inr ⟨condition, List.mem_cons_self, own⟩
      · exact Or.inl (same.trans (Int.max_eq_left greater))
    · exact Or.inr ⟨other, List.mem_cons_of_mem condition member, same⟩

theorem permitted_weighs {rules : List Rule} (free : ∀ rule ∈ rules, rule.isRestrictive = false) :
    Weighs rules (permitted rules).risk ∧
      (permitted rules).status = statusAt (permitted rules).risk := by
  have known : ∀ condition, condition ∈ rules.filterMap condition? ↔
      ∃ rule ∈ rules, condition? rule = some condition := fun _ => List.mem_filterMap
  unfold permitted
  cases conditions : rules.filterMap condition? with
  | nil =>
    refine ⟨⟨Int.le_refl _, ?_, Or.inl rfl⟩, rfl⟩
    intro rule member
    rw [riskUnder_free (free rule member), List.filterMap_eq_nil_iff.mp conditions rule member]
    exact Int.le_refl _
  | cons first more =>
    rw [conditions] at known
    obtain ⟨above, covers⟩ := greatestRisk_covers first.2 more
    have attained : ∃ condition ∈ first :: more, condition.2 = greatestRisk first.2 more := by
      rcases greatestRisk_reached first.2 more with same | ⟨condition, member, same⟩
      · exact ⟨first, List.mem_cons_self, same.symm⟩
      · exact ⟨condition, List.mem_cons_of_mem first member, same⟩
    obtain ⟨condition, member, greatest⟩ := attained
    obtain ⟨rule, inside, conditional⟩ := (known condition).mp member
    have bounds := condition?_risk conditional
    rw [greatest] at bounds
    have reached : riskUnder rule = condition.2 := by
      rw [riskUnder_free (free rule inside), conditional]
      rfl
    constructor
    · refine ⟨Int.le_trans (by decide) bounds.1, ?_, Or.inr ⟨rule, inside, reached.trans greatest⟩⟩
      intro other listed
      rw [riskUnder_free (free other listed)]
      cases own : condition? other with
      | none => exact Int.le_trans (by decide) bounds.1
      | some weight =>
        rcases List.mem_cons.mp ((known weight).mpr ⟨other, listed, own⟩) with rfl | further
        · exact above
        · exact covers weight further
    · exact ((if_neg (Int.not_le.mpr bounds.2)).trans (if_pos bounds.1)).symm

/-- What a driver is told at a moment, with the fines that hold when nobody provides others. -/
def advice (rules : List Rule) (moment : Moment) : Except Failure Decision := do
  let verdict ← Verdict.evaluate rules moment
  ofVerdict Fine.builtIn verdict

section
variable {rules more : List Rule} {moment : Moment} {decision other : Decision}

theorem advice_weighs (advised : advice rules moment = .ok decision) :
    Weighs (Rule.active rules moment.wall) decision.risk ∧
      decision.status = statusAt decision.risk := by
  obtain ⟨verdict, evaluated, decided⟩ := bind_ok_iff.mp advised
  obtain ⟨change, _, rfl⟩ := evaluate_ok_iff.mp evaluated
  cases binds : Rule.binding (Rule.active rules moment.wall) with
  | none =>
    have free := (binding_isNone_iff _).mp (by rw [binds]; rfl)
    simp only [ofVerdict, allowedAt, binds, Option.isNone_none] at decided
    cases decided
    exact permitted_weighs free
  | some heavy =>
    simp only [ofVerdict, allowedAt, binds] at decided
    exact forbidden_weighs binds decided

theorem advice_succeeds (evaluates : ∃ verdict, Verdict.evaluate rules moment = .ok verdict) :
    ∃ decision, advice rules moment = .ok decision := by
  obtain ⟨verdict, evaluated⟩ := evaluates
  obtain ⟨decision, decided⟩ := ofVerdict_succeeds evaluated
  exact ⟨decision, bind_ok_iff.mpr ⟨verdict, evaluated, decided⟩⟩

theorem advice_subset (inside : rules ⊆ more) (advised : advice rules moment = .ok decision)
    (advisedMore : advice more moment = .ok other) :
    gravity decision.status ≤ gravity other.status ∧ decision.risk ≤ other.risk := by
  obtain ⟨weighs, status⟩ := advice_weighs advised
  obtain ⟨weighsMore, statusMore⟩ := advice_weighs advisedMore
  have ordered := weighs.le (List.filter_subset _ inside) weighsMore
  refine ⟨?_, ordered⟩
  rw [status, statusMore]
  exact gravity_mono ordered

theorem advice_perm (reordered : rules.Perm more) (advised : advice rules moment = .ok decision) :
    ∃ other, advice more moment = .ok other ∧ other.status = decision.status ∧
      other.risk = decision.risk := by
  obtain ⟨verdict, evaluated, _⟩ := bind_ok_iff.mp advised
  obtain ⟨other, advisedOther⟩ :=
    advice_succeeds (evaluates_subset reordered.symm.subset ⟨verdict, evaluated⟩)
  have forth := advice_subset reordered.subset advised advisedOther
  have back := advice_subset reordered.symm.subset advisedOther advised
  have risk : other.risk = decision.risk := Int.le_antisymm back.2 forth.2
  refine ⟨other, advisedOther, ?_, risk⟩
  rw [(advice_weighs advised).2, (advice_weighs advisedOther).2, risk]

end

theorem advice_append {first second : List Rule} {moment : Moment} {one two : Decision}
    (advised : advice first moment = .ok one) (advisedSecond : advice second moment = .ok two) :
    ∃ both, advice (first ++ second) moment = .ok both ∧
      both.status = worse one.status two.status ∧ both.risk = max one.risk two.risk := by
  obtain ⟨verdict, evaluated, _⟩ := bind_ok_iff.mp advised
  obtain ⟨verdictSecond, evaluatedSecond, _⟩ := bind_ok_iff.mp advisedSecond
  obtain ⟨both, advisedBoth⟩ :=
    advice_succeeds ⟨_, evaluate_append evaluated evaluatedSecond⟩
  obtain ⟨weighs, status⟩ := advice_weighs advised
  obtain ⟨weighsSecond, statusSecond⟩ := advice_weighs advisedSecond
  obtain ⟨weighsBoth, statusBoth⟩ := advice_weighs advisedBoth
  have together := weighs.append weighsSecond
  rw [← active_append] at together
  have risk : both.risk = max one.risk two.risk :=
    Int.le_antisymm (weighsBoth.le (List.Subset.refl _) together)
      (together.le (List.Subset.refl _) weighsBoth)
  refine ⟨both, advisedBoth, ?_, risk⟩
  rw [statusBoth, risk, statusAt_max, ← status, ← statusSecond]

/-- Wherever rules are judged at all there is advice, and of two lists of rules the graver advice
counts, with the greater risk. The order of rules does not matter to either, and with more rules
neither gets better. -/
theorem graver_advice_counts (moment : Moment) :
    (∀ rules, (∃ verdict, Verdict.evaluate rules moment = .ok verdict) →
      ∃ decision, advice rules moment = .ok decision) ∧
    (∀ first second one two, advice first moment = .ok one → advice second moment = .ok two →
      ∃ both, advice (first ++ second) moment = .ok both ∧
        both.status = worse one.status two.status ∧ both.risk = max one.risk two.risk) ∧
    (∀ rules others decision, rules.Perm others → advice rules moment = .ok decision →
      ∃ other, advice others moment = .ok other ∧ other.status = decision.status ∧
        other.risk = decision.risk) ∧
    ∀ rules more decision other, rules ⊆ more → advice rules moment = .ok decision →
      advice more moment = .ok other →
      gravity decision.status ≤ gravity other.status ∧ decision.risk ≤ other.risk := by
  refine ⟨?_, ?_, ?_, ?_⟩
  · intro rules evaluates
    exact advice_succeeds evaluates
  · intro first second one two advised advisedSecond
    exact advice_append advised advisedSecond
  · intro rules others decision reordered advised
    exact advice_perm reordered advised
  · intro rules more decision other inside advised advisedMore
    exact advice_subset inside advised advisedMore

def shoppersByDay : Rule :=
  ⟨.plain (.timeLimit 120),
    some (Window.onDays ⟨450, by decide⟩ ⟨1200, by decide⟩ DaySet.all),
    Binary64.ofPlaces 9 1, "2 HOUR PARKING 7:30AM-8PM", false⟩

/-- A limit alone calls for caution. Beside it cars are towed, and in either order that is what
the driver is told. -/
theorem towing_outweighs_limit : ∃ limited towed both swapped,
    advice [shoppersByDay] halfPastNine = .ok limited ∧ limited.status = .caution ∧
      limited.risk = 40 ∧
    advice [towedByMorning] halfPastNine = .ok towed ∧
    advice [shoppersByDay, towedByMorning] halfPastNine = .ok both ∧
      both.status = .blocked ∧ both.risk = 97 ∧
    advice [towedByMorning, shoppersByDay] halfPastNine = .ok swapped ∧
      swapped.status = .blocked ∧ swapped.risk = 97 ∧
    gravity limited.status ≤ gravity both.status := by
  obtain ⟨_, combined, reordered, added⟩ := graver_advice_counts halfPastNine
  have shown (rules : List Rule) (status : Status) (risk : Int)
      (same : ((advice rules halfPastNine).map fun decision =>
        (decision.status, decision.risk)).toOption = some (status, risk)) :
      ∃ decision, advice rules halfPastNine = .ok decision ∧ decision.status = status ∧
        decision.risk = risk := by
    obtain ⟨decision, advised, pair⟩ := map_ok_iff.mp (ok_of_toOption same)
    cases pair
    exact ⟨decision, advised, rfl, rfl⟩
  obtain ⟨limited, advised, caution, forty⟩ := shown [shoppersByDay] .caution 40 (by decide +kernel)
  obtain ⟨towed, advisedTowed, blocked, high⟩ :=
    shown [towedByMorning] .blocked 97 (by decide +kernel)
  obtain ⟨both, advisedBoth, status, risk⟩ := combined _ _ _ _ advised advisedTowed
  obtain ⟨swapped, advisedSwapped, sameStatus, sameRisk⟩ :=
    reordered _ [towedByMorning, shoppersByDay] _ (.swap ..) advisedBoth
  have worst := (added _ _ _ _ (List.subset_append_left ..) advised advisedBoth).1
  rw [caution, blocked] at status
  rw [forty, high] at risk
  exact ⟨limited, towed, both, swapped, advised, caution, forty, advisedTowed, advisedBoth, status,
    risk, advisedSwapped, sameStatus.trans status, sameRisk.trans risk, worst⟩

end Curbside.Proofs.Weighing

import Curbside.Decision.Basic
import Curbside.Timer.Basic

/-! What is noted about a rule decides nothing. How sure its reading is, in which words it was
printed and whether somebody confirmed it may all change: as long as a rule says the same at the
same hours, verdicts keep their outcome, and timers and advice stay as they are. -/

namespace Curbside.Proofs.Annotation

/-- A change to what is noted about rules, which leaves alone what they say and when they hold. -/
structure Keeps (note : Rule → Rule) : Prop where
  provision : ∀ rule, (note rule).provision = rule.provision
  window : ∀ rule, (note rule).window = rule.window

/-- A verdict on rules about which something else is noted. -/
def noted (note : Rule → Rule) (verdict : Verdict) : Verdict :=
  { verdict with binding := verdict.binding.map note, active := verdict.active.map note }

section
variable {note : Rule → Rule} (keeps : Keeps note)
include keeps

theorem kind_noted (rule : Rule) : (note rule).kind = rule.kind :=
  congrArg Provision.kind (keeps.provision rule)

theorem severity_noted (rule : Rule) : (note rule).severity = rule.severity :=
  congrArg Provision.severity (keeps.provision rule)

theorem isRestrictive_noted (rule : Rule) : (note rule).isRestrictive = rule.isRestrictive :=
  congrArg Kind.isRestrictive (kind_noted keeps rule)

theorem any_isRestrictive_noted (rules : List Rule) :
    (rules.map note).any Rule.isRestrictive = rules.any Rule.isRestrictive := by
  have same : Rule.isRestrictive ∘ note = Rule.isRestrictive :=
    funext (isRestrictive_noted keeps)
  rw [List.any_map, same]

theorem activeAt_noted (rule : Rule) (wall : Wall) :
    (note rule).activeAt wall = rule.activeAt wall := by
  rw [Rule.activeAt, keeps.window, Rule.activeAt]

theorem windows_noted (rules : List Rule) : Rule.windows (rules.map note) = Rule.windows rules := by
  have same : Rule.window ∘ note = Rule.window := funext keeps.window
  rw [Rule.windows, List.filterMap_map, same, Rule.windows]

theorem active_noted (rules : List Rule) (wall : Wall) :
    Rule.active (rules.map note) wall = (Rule.active rules wall).map note := by
  rw [Rule.active, List.filter_map]
  apply congrArg
  apply List.filter_congr
  intro rule _
  exact activeAt_noted keeps rule wall

theorem heavier_noted (held : Option Rule) (rule : Rule) :
    Rule.heavier (held.map note) (note rule) = (Rule.heavier held rule).map note := by
  unfold Rule.heavier
  rw [isRestrictive_noted keeps]
  split
  · rfl
  · cases held with
    | none => rfl
    | some other =>
      simp only [Option.map_some, severity_noted keeps]
      split <;> rfl

theorem binding_noted (rules : List Rule) :
    Rule.binding (rules.map note) = (Rule.binding rules).map note := by
  have step (held : Option Rule) : (rules.map note).foldl Rule.heavier (held.map note) =
      (rules.foldl Rule.heavier held).map note := by
    induction rules generalizing held with
    | nil => rfl
    | cons rule rules ih =>
      rw [List.map_cons, List.foldl_cons, heavier_noted keeps, ih, List.foldl_cons]
  exact step none

theorem nextChange_noted (rules : List Rule) (after : Wall) :
    Rule.nextChange (rules.map note) after = Rule.nextChange rules after := by
  rw [Rule.nextChange, windows_noted keeps, Rule.nextChange]

theorem evaluate_noted (rules : List Rule) (moment : Moment) :
    Verdict.evaluate (rules.map note) moment =
      (Verdict.evaluate rules moment).map (noted note) := by
  simp only [Verdict.evaluate, nextChange_noted keeps, active_noted keeps, binding_noted keeps]
  cases Rule.nextChange rules moment.wall with
  | error failure => rfl
  | ok change =>
    have allowed (binding : Option Rule) : (binding.map note).isNone = binding.isNone :=
      Option.isNone_map
    simp only [allowed]
    rfl

theorem searchRestriction_noted (rules : List Rule) (limit : Wall) (steps : Nat) (moment : Moment) :
    Timer.searchRestriction (rules.map note) limit steps moment =
      Timer.searchRestriction rules limit steps moment := by
  induction steps generalizing moment with
  | zero => rfl
  | succ steps ih =>
    simp only [Timer.searchRestriction, nextChange_noted keeps, evaluate_noted keeps, ih]
    cases Rule.nextChange rules moment.wall with
    | error failure => rfl
    | ok change =>
      cases change with
      | none => rfl
      | some change =>
        by_cases late : limit < change
        · simp only [bind, Except.bind, if_pos late]
        · simp only [bind, Except.bind, if_neg late]
          cases Verdict.evaluate rules (moment.atWall change) with
          | error failure => rfl
          | ok verdict => rfl

theorem nextRestriction_noted (rules : List Rule) (moment : Moment) :
    Timer.nextRestriction (rules.map note) moment = Timer.nextRestriction rules moment := by
  simp only [Timer.nextRestriction, any_isRestrictive_noted keeps, searchRestriction_noted keeps]

theorem firstLimit?_noted (rules : List Rule) :
    Timer.firstLimit? (rules.map note) = Timer.firstLimit? rules := by
  rw [Timer.firstLimit?, List.findSome?_map, Timer.firstLimit?]
  apply congrArg (List.findSome? · rules)
  funext rule
  simp only [Function.comp, kind_noted keeps]

theorem firstPaid?_noted (rules : List Rule) :
    Timer.firstPaid? (rules.map note) = Timer.firstPaid? rules := by
  rw [Timer.firstPaid?, List.findSome?_map, Timer.firstPaid?]
  apply congrArg (List.findSome? · rules)
  funext rule
  simp only [Function.comp, kind_noted keeps]

theorem suggest_noted (verdict : Verdict) (rules : List Rule) (start : Moment) (lead : Span) :
    Timer.suggest (noted note verdict) (rules.map note) start lead =
      Timer.suggest verdict rules start lead := by
  simp only [Timer.suggest, noted, active_noted keeps, nextRestriction_noted keeps,
    firstLimit?_noted keeps, firstPaid?_noted keeps]

theorem describe_noted (rule : Rule) : (note rule).describe = rule.describe := by
  simp only [Rule.describe, Rule.label, kind_noted keeps, keeps.window]

theorem condition?_noted (rule : Rule) :
    Decision.condition? (note rule) = Decision.condition? rule := by
  simp only [Decision.condition?, kind_noted keeps, describe_noted keeps]

theorem permitted_noted (active : List Rule) :
    Decision.permitted (active.map note) = Decision.permitted active := by
  have same : Decision.condition? ∘ note = Decision.condition? :=
    funext (condition?_noted keeps)
  simp only [Decision.permitted, List.filterMap_map, same]

theorem forbidden_noted (bands : Fine.Bands) (binding : Rule) :
    Decision.forbidden bands (note binding) = Decision.forbidden bands binding := by
  simp only [Decision.forbidden, Fine.estimate, isRestrictive_noted keeps, keeps.provision,
    kind_noted keeps, severity_noted keeps, describe_noted keeps]

theorem ofVerdict_noted (bands : Fine.Bands) (verdict : Verdict) :
    Decision.ofVerdict bands (noted note verdict) = Decision.ofVerdict bands verdict := by
  obtain ⟨allowed, binding, _, active⟩ := verdict
  cases allowed with
  | true => exact congrArg Except.ok (permitted_noted keeps active)
  | false =>
    cases binding with
    | none => exact congrArg Except.ok (permitted_noted keeps active)
    | some binding => exact forbidden_noted keeps bands binding

end

end Curbside.Proofs.Annotation

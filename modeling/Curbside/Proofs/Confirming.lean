import Curbside.Proofs.Composition
import Curbside.Sign.Confirm

/-! What confirming a time limit changes. Only the first limit among the rules is touched, so the
last confirmation counts. Time limits forbid nothing, and the hours of the rule stay, so that
verdicts keep their outcome; and what a person confirmed need not be confirmed again. -/

namespace Curbside.Proofs.Confirming
open Sign Proofs.Composition

def IsLimit (rule : Rule) : Prop := ∃ minutes, rule.kind = .timeLimit minutes

/-- The first time limit among rules, between the rules before and after it. -/
structure FirstLimit (rules before : List Rule) (limit : Rule) (after : List Rule) : Prop where
  split : rules = before ++ limit :: after
  earlier : ∀ rule ∈ before, ¬ IsLimit rule
  isLimit : IsLimit limit

theorem firstLimit_cases (rules : List Rule) :
    (∀ rule ∈ rules, ¬ IsLimit rule) ∨ ∃ before limit after, FirstLimit rules before limit after := by
  induction rules with
  | nil => exact Or.inl (List.forall_mem_nil _)
  | cons rule rules ih =>
    by_cases limit : IsLimit rule
    · exact Or.inr ⟨[], rule, rules, rfl, List.forall_mem_nil _, limit⟩
    · rcases ih with none | ⟨before, first, after, found⟩
      · exact Or.inl (List.forall_mem_cons.mpr ⟨limit, none⟩)
      · refine Or.inr ⟨rule :: before, first, after, ?_, ?_, found.isLimit⟩
        · rw [found.split, List.cons_append]
        · exact List.forall_mem_cons.mpr ⟨limit, found.earlier⟩

section
variable {minutes : Int} {rules before after : List Rule} {limit : Rule}

theorem confirm_skips (earlier : ∀ rule ∈ before, ¬ IsLimit rule) :
    confirmTimeLimit minutes (before ++ rules) = before ++ confirmTimeLimit minutes rules := by
  induction before with
  | nil => rfl
  | cons rule before ih =>
    obtain ⟨other, earlier⟩ := List.forall_mem_cons.mp earlier
    rw [List.cons_append, confirmTimeLimit, ih earlier, List.cons_append]
    split
    next found => exact absurd ⟨_, found⟩ other
    next => rfl

theorem confirm_none (none : ∀ rule ∈ rules, ¬ IsLimit rule) :
    confirmTimeLimit minutes rules = rules := by
  have skipped : confirmTimeLimit minutes (rules ++ []) = rules ++ [] := confirm_skips none
  rwa [List.append_nil] at skipped

theorem confirm_first (first : FirstLimit rules before limit after) :
    confirmTimeLimit minutes rules = before ++ confirmed minutes limit :: after := by
  obtain ⟨stated, kind⟩ := first.isLimit
  rw [first.split, confirm_skips first.earlier, confirmTimeLimit, kind]

/-- A confirmed limit is still the first one. -/
theorem firstLimit_confirmed (first : FirstLimit rules before limit after) :
    FirstLimit (confirmTimeLimit minutes rules) before (confirmed minutes limit) after :=
  ⟨confirm_first first, first.earlier, ⟨minutes, rfl⟩⟩

end

section
variable {before after : List Rule} {old new : Rule}

theorem binding_skips (unrestrictive : old.isRestrictive = false) (rules : List Rule) :
    Rule.binding (old :: rules) = Rule.binding rules := by
  rw [Rule.binding, List.foldl_cons, Rule.heavier, unrestrictive]
  rfl

/-- A rule that forbids nothing never binds. -/
theorem binding_active (unrestrictive : old.isRestrictive = false) (wall : Wall) :
    Rule.binding (Rule.active (before ++ old :: after) wall) =
      Rule.binding (Rule.active (before ++ after) wall) := by
  have skipped : Rule.binding (Rule.active (old :: after) wall) =
      Rule.binding (Rule.active after wall) := by
    rw [Rule.active, List.filter_cons]
    split
    · rw [binding_skips unrestrictive]
      rfl
    · rfl
  rw [active_append, active_append, binding_append, binding_append, skipped]

/-- Where a rule that forbids nothing is replaced by another one with the same hours, a verdict
differs in nothing but the rules that it lists. -/
theorem evaluate_replaced (hours : new.window = old.window) (unrestrictive : old.isRestrictive = false)
    (stillUnrestrictive : new.isRestrictive = false) (moment : Moment) :
    Verdict.evaluate (before ++ new :: after) moment =
      (Verdict.evaluate (before ++ old :: after) moment).map fun verdict =>
        { verdict with active := Rule.active (before ++ new :: after) moment.wall } := by
  have windows : Rule.windows (before ++ new :: after) = Rule.windows (before ++ old :: after) := by
    simp only [Rule.windows, List.filterMap_append, List.filterMap_cons, hours]
  simp only [Verdict.evaluate, Rule.nextChange, windows, binding_active unrestrictive,
    binding_active stillUnrestrictive]
  cases Window.nextChange (Rule.windows (before ++ old :: after)) moment.wall <;> rfl

end

section
variable {minutes : Int} {rules : List Rule}

theorem confirm_length : (confirmTimeLimit minutes rules).length = rules.length := by
  rcases firstLimit_cases rules with none | ⟨before, limit, after, first⟩
  · rw [confirm_none none]
  · rw [confirm_first first, first.split, List.length_append, List.length_append,
      List.length_cons, List.length_cons]

theorem confirm_again (earlier : Int) :
    confirmTimeLimit minutes (confirmTimeLimit earlier rules) = confirmTimeLimit minutes rules := by
  rcases firstLimit_cases rules with none | ⟨before, limit, after, first⟩
  · rw [confirm_none none]
  · rw [confirm_first (firstLimit_confirmed first), confirm_first first]
    rfl

theorem activeAt_confirmed (wall : Wall) :
    (confirmTimeLimit minutes rules).map (Rule.activeAt · wall) =
      rules.map (Rule.activeAt · wall) := by
  rcases firstLimit_cases rules with none | ⟨before, limit, after, first⟩
  · rw [confirm_none none]
  · rw [confirm_first first, first.split, List.map_append, List.map_append]
    rfl

theorem evaluate_confirmed (moment : Moment) :
    Verdict.evaluate (confirmTimeLimit minutes rules) moment =
      (Verdict.evaluate rules moment).map fun verdict =>
        { verdict with active := Rule.active (confirmTimeLimit minutes rules) moment.wall } := by
  rcases firstLimit_cases rules with none | ⟨before, limit, after, first⟩
  · rw [confirm_none none]
    unfold Verdict.evaluate
    cases Rule.nextChange rules moment.wall <;> rfl
  · obtain ⟨stated, kind⟩ := first.isLimit
    have unrestrictive : limit.isRestrictive = false := by
      rw [Rule.isRestrictive, kind]
      rfl
    have hours : (confirmed minutes limit).window = limit.window := rfl
    have stillUnrestrictive : (confirmed minutes limit).isRestrictive = false := rfl
    rw [confirm_first first, first.split]
    exact evaluate_replaced hours unrestrictive stillUnrestrictive moment

theorem confirmed_undoubted (rule : Rule) (threshold : Binary64) :
    (confirmed minutes rule).isDoubtful threshold = false := by
  simp [Rule.isDoubtful, confirmed, Rule.kind]

theorem doubt_remains {threshold : Binary64}
    (doubt : Rule.requireConfirmation (confirmTimeLimit minutes rules) threshold = true) :
    Rule.requireConfirmation rules threshold = true := by
  rcases firstLimit_cases rules with none | ⟨before, limit, after, first⟩
  · rwa [confirm_none none] at doubt
  · rw [confirm_first first, Rule.requireConfirmation, List.any_append, List.any_cons,
      confirmed_undoubted, Bool.false_or] at doubt
    rw [first.split, Rule.requireConfirmation, List.any_append, List.any_cons]
    rcases Bool.or_eq_true_iff.mp doubt with inBefore | inAfter
    · rw [inBefore, Bool.true_or]
    · rw [inAfter, Bool.or_true, Bool.or_true]

end

/-- Confirming a length leaves all rules but the first time limit as they are, and that one but for
its length and the notes on how sure it is. The last confirmation counts. No verdict changes, save
that it lists the confirmed rule; rules hold where they held before. Whoever should look at the
rules afterwards should have looked before. -/
theorem last_confirmation_counts (minutes : Int) (rules : List Rule) :
    (confirmTimeLimit minutes rules).length = rules.length ∧
    ((∀ rule ∈ rules, ¬ IsLimit rule) → confirmTimeLimit minutes rules = rules) ∧
    (∀ before limit after, FirstLimit rules before limit after →
      confirmTimeLimit minutes rules = before ++
        { limit with
          provision := { limit.provision with kind := .timeLimit minutes }
          confidence := Binary64.ofInt 1
          userConfirmed := true } :: after) ∧
    (∀ earlier, confirmTimeLimit minutes (confirmTimeLimit earlier rules) =
      confirmTimeLimit minutes rules) ∧
    (∀ moment, Verdict.evaluate (confirmTimeLimit minutes rules) moment =
      (Verdict.evaluate rules moment).map fun verdict =>
        { verdict with active := Rule.active (confirmTimeLimit minutes rules) moment.wall }) ∧
    (∀ (wall : Wall) (position : Nat),
      ((confirmTimeLimit minutes rules)[position]?).map (Rule.activeAt · wall) =
        (rules[position]?).map (Rule.activeAt · wall)) ∧
    ∀ threshold, Rule.requireConfirmation (confirmTimeLimit minutes rules) threshold = true →
      Rule.requireConfirmation rules threshold = true := by
  refine ⟨confirm_length, confirm_none, ?_, confirm_again, evaluate_confirmed, ?_, ?_⟩
  · intro before limit after first
    exact confirm_first first
  · intro wall position
    rw [← List.getElem?_map, ← List.getElem?_map, activeAt_confirmed]
  · intro threshold doubt
    exact doubt_remains doubt

def faintHour : Rule :=
  ⟨.plain (.timeLimit 60), none, Binary64.ofPlaces 4 1, "1 HR PARK", false⟩

def faintHours : Rule :=
  ⟨.plain (.timeLimit 240), none, Binary64.ofPlaces 5 1, "4 HOURS PARK", false⟩

/-- The second confirmation of the first limit stays. Nobody vouched for the second limit. -/
theorem ninety_minutes_stay :
    (∀ rule ∈ [towedByMorning], ¬ IsLimit rule) ∧
    confirmTimeLimit 90 [towedByMorning] = [towedByMorning] ∧
    FirstLimit [towedByMorning, faintHour, faintHours] [towedByMorning] faintHour [faintHours] ∧
    confirmTimeLimit 90 (confirmTimeLimit 600 [towedByMorning, faintHour, faintHours]) =
      [towedByMorning, ⟨.plain (.timeLimit 90), none, Binary64.ofInt 1, "1 HR PARK", true⟩,
        faintHours] ∧
    Rule.requireConfirmation (confirmTimeLimit 90 [towedByMorning, faintHour, faintHours])
      (Binary64.ofPlaces 8 1) = true ∧
    Rule.requireConfirmation [towedByMorning, faintHour, faintHours]
      (Binary64.ofPlaces 8 1) = true := by
  have other : ∀ rule ∈ [towedByMorning], ¬ IsLimit rule := by
    rw [List.forall_mem_singleton]
    intro ⟨_, impossible⟩
    cases impossible
  have first : FirstLimit [towedByMorning, faintHour, faintHours] [towedByMorning] faintHour
      [faintHours] := ⟨rfl, other, 60, rfl⟩
  obtain ⟨_, unchanged, _⟩ := last_confirmation_counts 90 [towedByMorning]
  obtain ⟨_, _, replaced, again, _, _, doubted⟩ :=
    last_confirmation_counts 90 [towedByMorning, faintHour, faintHours]
  have doubt : Rule.requireConfirmation
      (confirmTimeLimit 90 [towedByMorning, faintHour, faintHours]) (Binary64.ofPlaces 8 1) = true := by
    decide +kernel
  refine ⟨other, unchanged other, first, ?_, doubt, doubted _ doubt⟩
  rw [again]
  exact replaced _ _ _ first

end Curbside.Proofs.Confirming

import Curbside.Proofs.Attempt
import Curbside.Scan.Basic

/-! The steps of a scan. A scan succeeds exactly by all of its steps, and parking is blocked
exactly where one of the restrictions that were read off the sign binds. -/

namespace Curbside.Proofs.Scanning
open Attempt

/-- The time between a warning and the end of a stay: as asked for, or else as set. -/
def leadOf (settings : Settings) (lead : Option Span) : Except Failure Span :=
  match lead with
  | some lead => .ok lead
  | none => Span.ofMinutes settings.warningLead

/-- A scan with the results of its steps. -/
structure Steps (settings : Settings) (bands : Fine.Bands) (lead : Option Span)
    (reading : Scan.Reading) (scan : Scan) (moment : Moment) (span : Span) : Prop where
  localized : reading.moment.localize reading.zoneName = .ok moment
  extracted : Sign.extract reading.quality reading.text.toList = .ok scan.rules
  evaluated : Verdict.evaluate scan.rules moment = .ok scan.verdict
  warned : leadOf settings lead = .ok span
  suggested : Timer.suggest scan.verdict scan.rules moment span = .ok scan.timer
  decided : Decision.ofVerdict bands scan.verdict = .ok scan.decision
  confirmation : scan.requiresConfirmation =
    Rule.requireConfirmation scan.rules settings.confirmationThreshold

theorem ofReading_steps {settings : Settings} {bands : Fine.Bands} {lead : Option Span}
    {reading : Scan.Reading} {scan : Scan}
    (scanned : Scan.ofReading settings bands lead reading = .ok scan) :
    ∃ moment span, Steps settings bands lead reading scan moment span := by
  obtain ⟨moment, localized, scanned⟩ := bind_ok_iff.mp scanned
  obtain ⟨rules, extracted, scanned⟩ := bind_ok_iff.mp scanned
  obtain ⟨verdict, evaluated, scanned⟩ := bind_ok_iff.mp scanned
  have scanned : (leadOf settings lead >>= fun span => do
      let timer ← Timer.suggest verdict rules moment span
      let decision ← Decision.ofVerdict bands verdict
      return (⟨reading.text, rules, verdict, timer,
        Rule.requireConfirmation rules settings.confirmationThreshold, decision⟩ : Scan)) =
      .ok scan := by
    cases lead <;> exact scanned
  obtain ⟨span, warned, scanned⟩ := bind_ok_iff.mp scanned
  obtain ⟨timer, suggested, scanned⟩ := bind_ok_iff.mp scanned
  obtain ⟨decision, decided, built⟩ := bind_ok_iff.mp scanned
  cases built
  exact ⟨moment, span, localized, extracted, evaluated, warned, suggested, decided, rfl⟩

theorem heavier_cases {held : Option Rule} {rule heavy : Rule}
    (chosen : Rule.heavier held rule = some heavy) :
    held = some heavy ∨ heavy = rule ∧ rule.isRestrictive = true := by
  unfold Rule.heavier at chosen
  cases restrictive : rule.isRestrictive with
  | false => exact Or.inl (by simpa [restrictive] using chosen)
  | true =>
    simp only [restrictive, Bool.not_true, Bool.false_eq_true, if_false] at chosen
    cases held with
    | none => exact Or.inr ⟨(Option.some.inj chosen).symm, rfl⟩
    | some other =>
      dsimp only at chosen
      split at chosen
      · exact Or.inr ⟨(Option.some.inj chosen).symm, rfl⟩
      · exact Or.inl chosen

private theorem foldl_heavier_cases {rules : List Rule} {held : Option Rule} {heavy : Rule}
    (chosen : rules.foldl Rule.heavier held = some heavy) :
    held = some heavy ∨ heavy ∈ rules ∧ heavy.isRestrictive = true := by
  induction rules generalizing held with
  | nil => exact Or.inl chosen
  | cons rule rules ih =>
    rcases ih chosen with now | ⟨later, restrictive⟩
    · rcases heavier_cases now with before | ⟨same, restrictive⟩
      · exact Or.inl before
      · subst same
        exact Or.inr ⟨List.mem_cons_self .., restrictive⟩
    · exact Or.inr ⟨List.mem_cons_of_mem _ later, restrictive⟩

/-- What binds is one of the rules, and a restriction. -/
theorem binding_restrictive {rules : List Rule} {heavy : Rule}
    (binds : Rule.binding rules = some heavy) : heavy ∈ rules ∧ heavy.isRestrictive = true := by
  rcases foldl_heavier_cases binds with impossible | chosen
  · cases impossible
  · exact chosen

theorem evaluate_binding {rules : List Rule} {moment : Moment} {verdict : Verdict}
    (evaluated : Verdict.evaluate rules moment = .ok verdict) :
    verdict.allowed = verdict.binding.isNone ∧
      ∀ heavy, verdict.binding = some heavy → heavy ∈ rules ∧ heavy.isRestrictive = true := by
  obtain ⟨change, _, built⟩ := bind_ok_iff.mp evaluated
  cases built
  refine ⟨rfl, ?_⟩
  intro heavy binds
  obtain ⟨active, restrictive⟩ := binding_restrictive binds
  exact ⟨(List.mem_filter.mp active).1, restrictive⟩

theorem permitted_not_blocked (active : List Rule) : (Decision.permitted active).status ≠ .blocked := by
  unfold Decision.permitted
  split <;> nofun

/-- Advice that parking is blocked comes from the rule that binds, and from nothing else. -/
theorem ofVerdict_blocked {bands : Fine.Bands} {verdict : Verdict} {decision : Decision}
    (judged : verdict.allowed = verdict.binding.isNone)
    (decided : Decision.ofVerdict bands verdict = .ok decision) :
    (verdict.allowed = true ∧ decision.status ≠ .blocked) ∨
      ∃ heavy, verdict.allowed = false ∧ verdict.binding = some heavy ∧
        Decision.forbidden bands heavy = .ok decision := by
  unfold Decision.ofVerdict at decided
  cases binds : verdict.binding with
  | none =>
    rw [binds] at judged decided
    rw [judged] at decided
    cases decided
    exact Or.inl ⟨judged, permitted_not_blocked _⟩
  | some heavy =>
    rw [binds] at judged decided
    rw [judged] at decided
    exact Or.inr ⟨heavy, judged, rfl, decided⟩

end Curbside.Proofs.Scanning

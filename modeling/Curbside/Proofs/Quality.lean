import Curbside.Proofs.Annotation
import Curbside.Proofs.Extraction
import Mathlib.Data.List.Forall2

/-! How well a text could be read counts for how sure its rules are and for nothing else. The
steps from a quality to a confidence all keep order, the two roundings too, so a better quality
never makes a rule less sure. -/

namespace Curbside.Proofs.Quality
open Binary64 Sign Confidence Rounding Extraction Annotation

/-- The end of the line of numbers at which a number stands. Those between the ends stand at
none. -/
def side : Binary64 → Int
  | .infinite true => -1
  | .infinite false => 1
  | _ => 0

theorem lt_nan (x : Binary64) : x.lt .nan = false := by
  cases x <;> rfl

theorem lt_iff {x y : Binary64} (isNumber : x ≠ .nan) (otherIsNumber : y ≠ .nan) :
    x.lt y = true ↔ side x < side y ∨ side x = side y ∧ x.signed < y.signed := by
  rcases x with ⟨n, u⟩ | (_ | _) | _ <;> rcases y with ⟨m, v⟩ | (_ | _) | _
  all_goals simp_all [Binary64.lt, side, signed]

theorem not_lt_iff {x y : Binary64} (isNumber : x ≠ .nan) (otherIsNumber : y ≠ .nan) :
    y.lt x = false ↔ side x < side y ∨ side x = side y ∧ x.signed ≤ y.signed := by
  rw [← Bool.not_eq_true, lt_iff otherIsNumber isNumber]
  omega

theorem ne_nan {x : Binary64} (sign : NotNegative x) : x ≠ .nan := by
  cases sign <;> nofun

theorem signedUnits_eq {negative : Bool} {units : Nat} (signless : negative = true → units = 0) :
    signedUnits negative units = units := by
  cases negative with
  | false => rfl
  | true =>
    rw [signless rfl]
    rfl

theorem finite_lt_iff {n m : Bool} {u v : Nat} (signless : n = true → u = 0)
    (otherSignless : m = true → v = 0) : (finite m v).lt (finite n u) = false ↔ u ≤ v := by
  rw [lt_finite_eq_false, signedUnits_eq signless, signedUnits_eq otherSignless, Int.ofNat_le]

/-- The number nearest to a quotient does not fall when the quotient rises. -/
theorem nearest_mono {n m : Bool} {num more den : Nat} (positive : 0 < den) (ordered : num ≤ more)
    (sign : NotNegative (nearest n num den)) (otherSign : NotNegative (nearest m more den)) :
    (nearest m more den).lt (nearest n num den) = false := by
  have rounded : roundUnits (num * one) den ≤ roundUnits (more * one) den :=
    roundUnits_mono positive (Nat.mul_le_mul_right one ordered)
  unfold nearest at sign otherSign ⊢
  dsimp only at sign otherSign ⊢
  by_cases fits : roundUnits (more * one) den < limit
  · rw [if_pos (Nat.lt_of_le_of_lt rounded fits)] at sign ⊢
    rw [if_pos fits] at otherSign ⊢
    cases sign with | finite signless =>
    cases otherSign with | finite otherSignless =>
    exact (finite_lt_iff signless otherSignless).mpr rounded
  · rw [if_neg fits] at otherSign ⊢
    cases otherSign
    split <;> rfl

theorem mul_mono {most more : Nat} {sure low high : Binary64} (uncertain : Within most sure)
    (fraction : Within more low) (otherFraction : Within more high)
    (ordered : high.lt low = false) : (sure.mul high).lt (sure.mul low) = false := by
  have sign := mul_notNegative uncertain fraction
  have otherSign := mul_notNegative uncertain otherFraction
  obtain ⟨k, w, same, _, _⟩ := uncertain
  obtain ⟨n, u, sameLow, signless, _⟩ := fraction
  obtain ⟨m, v, sameHigh, otherSignless, _⟩ := otherFraction
  subst same sameLow sameHigh
  rw [finite_lt_iff signless otherSignless] at ordered
  rw [mul_finite] at sign otherSign
  rw [mul_finite, mul_finite]
  apply nearest_mono (Nat.mul_pos one_positive one_positive)
  · exact Nat.mul_le_mul_left w ordered
  · exact sign
  · exact otherSign

theorem least_mono {x y cap : Binary64} (isNumber : x ≠ .nan) (otherIsNumber : y ≠ .nan)
    (capIsNumber : cap ≠ .nan) (ordered : y.lt x = false) :
    (y.least cap).lt (x.least cap) = false := by
  have between := (not_lt_iff isNumber otherIsNumber).mp ordered
  unfold Binary64.least
  split
  · split
    · rw [not_lt_iff capIsNumber capIsNumber]
      omega
    next above => exact Bool.not_eq_true _ ▸ above
  next above =>
    split
    next below =>
      rw [Bool.not_eq_true, not_lt_iff otherIsNumber capIsNumber] at above
      rw [lt_iff capIsNumber isNumber] at below
      rw [not_lt_iff capIsNumber otherIsNumber]
      omega
    · exact ordered

theorem roundPlaces_mono {x y : Binary64} (within : Within mostUnits x)
    (otherWithin : Within mostUnits y) (ordered : y.lt x = false) :
    (y.roundPlaces 4).lt (x.roundPlaces 4) = false := by
  have sign := (roundPlaces_within within).notNegative
  have otherSign := (roundPlaces_within otherWithin).notNegative
  obtain ⟨n, u, same, signless, _⟩ := within
  obtain ⟨m, v, otherSame, otherSignless, _⟩ := otherWithin
  subst same otherSame
  rw [finite_lt_iff signless otherSignless] at ordered
  rw [roundPlaces_finite] at sign otherSign
  rw [roundPlaces_finite, roundPlaces_finite]
  apply nearest_mono (Nat.pow_pos (by decide))
  · apply roundHalfEven_mono one_positive
    exact Nat.mul_le_mul_right _ ordered
  · exact sign
  · exact otherSign

/-- A quality between nothing and everything. -/
abbrev IsQuality (quality : Binary64) : Prop := IsBetween (ofInt 0) (ofInt 1) quality

theorem quality_within {quality : Binary64} (fraction : IsQuality quality) :
    Within one quality := by
  rw [IsQuality, ofInt_one] at fraction
  exact isBetween_iff.mp fraction

theorem scaled_some (quality sure : Binary64) :
    scaled (some quality) sure = ((sure.mul quality).least mostConfidence).roundPlaces 4 := rfl

/-- A better quality does not lower a confidence. -/
theorem scaled_mono {sure low high : Binary64} (uncertain : Within mostUnits sure)
    (fraction : IsQuality low) (otherFraction : IsQuality high) (ordered : high.lt low = false) :
    (scaled (some high) sure).lt (scaled (some low) sure) = false := by
  have sign := mul_notNegative uncertain (quality_within fraction)
  have otherSign := mul_notNegative uncertain (quality_within otherFraction)
  have product : (sure.mul high).lt (sure.mul low) = false :=
    mul_mono uncertain (quality_within fraction) (quality_within otherFraction) ordered
  have capIsNumber : finite false mostUnits ≠ .nan := nofun
  rw [scaled_some, scaled_some, mostConfidence_eq]
  apply roundPlaces_mono (least_within sign) (least_within otherSign)
  exact least_mono (ne_nan sign) (ne_nan otherSign) capIsNumber product

/-- Two rules that say the same, read off one text at two qualities, the better one second. -/
structure Rescaled (low high : Binary64) (fainter surer : Rule) : Prop where
  provision : fainter.provision = surer.provision
  window : fainter.window = surer.window
  rawText : fainter.rawText = surer.rawText
  userConfirmed : fainter.userConfirmed = surer.userConfirmed
  isNumber : fainter.confidence ≠ .nan ∧ surer.confidence ≠ .nan
  ordered : surer.confidence.lt fainter.confidence = false
  source : (fainter = surer ∧ fainter.kind = .unknown) ∨
    ∃ sure, IsBetween (ofInt 0) mostConfidence sure ∧
    fainter.confidence = ((sure.mul low).least mostConfidence).roundPlaces 4 ∧
    surer.confidence = ((sure.mul high).least mostConfidence).roundPlaces 4

section
variable {low high : Binary64}

/-- A rule without a note on how sure its reading is. -/
def unrated (rule : Rule) : Rule := { rule with confidence := .nan }

theorem unrated_keeps : Keeps unrated := ⟨fun _ => rfl, fun _ => rfl⟩

theorem Rescaled.unrated_eq {fainter surer : Rule} (rescaled : Rescaled low high fainter surer) :
    unrated fainter = unrated surer := by
  obtain ⟨provision, window, _, rawText, userConfirmed⟩ := fainter
  obtain ⟨_, _, _, _, _⟩ := surer
  obtain ⟨sameProvision, sameWindow, sameText, sameMark, _⟩ := rescaled
  subst sameProvision sameWindow sameText sameMark
  rfl

theorem map_unrated_eq {fainter surer : List Rule}
    (rescaled : List.Forall₂ (Rescaled low high) fainter surer) :
    fainter.map unrated = surer.map unrated := by
  induction rescaled with
  | nil => rfl
  | cons first _ ih => rw [List.map_cons, first.unrated_eq, ih, List.map_cons]

theorem any_isRestrictive_eq {fainter surer : List Rule}
    (same : fainter.map unrated = surer.map unrated) :
    fainter.any Rule.isRestrictive = surer.any Rule.isRestrictive := by
  rw [← any_isRestrictive_noted unrated_keeps, same, any_isRestrictive_noted unrated_keeps]

theorem unknownRule_rescaled (text : List Char) :
    Rescaled low high (unknownRule text) (unknownRule text) := by
  have isNumber : (unknownRule text).confidence ≠ .nan := unknownRule_valid.confidence.1
  have notBelow : (unknownRule text).confidence.lt (unknownRule text).confidence = false :=
    (not_lt_iff isNumber isNumber).mpr (Or.inr ⟨rfl, Int.le_refl _⟩)
  exact ⟨rfl, rfl, rfl, rfl, ⟨isNumber, isNumber⟩, notBelow, Or.inl ⟨rfl, rfl⟩⟩

/-- Whoever doubts a rule of a better reading doubts it after a worse one. -/
theorem Rescaled.doubtful {fainter surer : Rule} (rescaled : Rescaled low high fainter surer)
    {threshold : Binary64} (doubtful : surer.isDoubtful threshold = true) :
    fainter.isDoubtful threshold = true := by
  have kind : fainter.kind = surer.kind := congrArg Provision.kind rescaled.provision
  unfold Rule.isDoubtful at doubtful ⊢
  rw [kind, rescaled.userConfirmed]
  simp only [Bool.or_eq_true, Bool.and_eq_true] at doubtful ⊢
  apply doubtful.imp_right
  intro ⟨below, unconfirmed⟩
  have comparable : threshold ≠ .nan := by
    intro same
    rw [same, lt_nan] at below
    cases below
  have least := (not_lt_iff rescaled.isNumber.1 rescaled.isNumber.2).mp rescaled.ordered
  rw [lt_iff rescaled.isNumber.2 comparable] at below
  refine ⟨(lt_iff rescaled.isNumber.1 comparable).mpr ?_, unconfirmed⟩
  omega

theorem requireConfirmation_rescaled {fainter surer : List Rule}
    (rescaled : List.Forall₂ (Rescaled low high) fainter surer) {threshold : Binary64}
    (required : Rule.requireConfirmation surer threshold = true) :
    Rule.requireConfirmation fainter threshold = true := by
  unfold Rule.requireConfirmation at required ⊢
  induction rescaled with
  | nil => exact required
  | cons first _ ih =>
    rw [List.any_cons, Bool.or_eq_true] at required ⊢
    exact required.imp first.doubtful ih

variable (fraction : IsQuality low) (otherFraction : IsQuality high) (ordered : high.lt low = false)
include fraction otherFraction ordered

theorem rulesOf_rescaled (posted : Posted) (schedule : Schedule) (rawText : List Char)
    {finding : Finding} (sound : Sound finding) :
    List.Forall₂ (Rescaled low high) (rulesOf posted (some low) schedule rawText finding)
      (rulesOf posted (some high) schedule rawText finding) := by
  have between (quality : Binary64) (fraction : IsQuality quality) :
      IsBetween (ofInt 0) mostConfidence (scaled (some quality) finding.confidence) := by
    apply scaled_between sound.uncertain
    intro q same
    rw [← Option.mem_some.mp same]
    exact fraction
  have uncertain : IsBetween (ofInt 0) mostConfidence finding.confidence := by
    rw [mostConfidence_eq]
    exact isBetween_iff.mpr sound.uncertain
  have notBelow := scaled_mono sound.uncertain fraction otherFraction ordered
  rw [rulesOf, rulesOf, List.forall₂_map_left_iff, List.forall₂_map_right_iff, List.forall₂_same]
  intro window _
  constructor
  · rfl
  · rfl
  · rfl
  · rfl
  · dsimp only
    exact ⟨(between low fraction).1, (between high otherFraction).1⟩
  · dsimp only
    exact notBelow
  · dsimp only
    exact Or.inr ⟨finding.confidence, uncertain, scaled_some low _, scaled_some high _⟩

theorem clauseRules_rescaled (posted : Posted) (clauses : List Clause) :
    List.Forall₂ (Rescaled low high) (clauseRules posted (some low) clauses)
      (clauseRules posted (some high) clauses) := by
  have sameClauses : List.Forall₂ (fun clause other => clause = other) clauses clauses :=
    List.forall₂_same.mpr fun _ _ => rfl
  apply List.rel_flatMap sameClauses
  intro clause other same
  subst same
  have sameFindings : List.Forall₂ (fun finding other => finding = other ∧ Sound finding)
      (findings clause.text) (findings clause.text) :=
    List.forall₂_same.mpr fun _ inside => ⟨rfl, findings_sound inside⟩
  apply List.rel_flatMap sameFindings
  intro finding other ⟨same, sound⟩
  subst same
  exact rulesOf_rescaled fraction otherFraction ordered posted _ _ sound

theorem foundRules_rescaled (text : List Char) :
    List.Forall₂ (Rescaled low high) (foundRules (some low) text)
      (foundRules (some high) text) := by
  have stated := clauseRules_rescaled fraction otherFraction ordered
    (Posted.ofText (Text.upper text)) (clauses text)
  unfold foundRules
  dsimp only
  rw [any_isRestrictive_eq (map_unrated_eq stated)]
  split
  · apply List.rel_append stated
    apply rulesOf_rescaled fraction otherFraction ordered
    exact ofHundredths_sound (by nofun) (by nofun) (by decide)
  · exact stated

theorem readRules_rescaled (text : List Char) :
    List.Forall₂ (Rescaled low high) (readRules (some low) text)
      (readRules (some high) text) := by
  have found := foundRules_rescaled fraction otherFraction ordered text
  have empty : (foundRules (some low) text).isEmpty = (foundRules (some high) text).isEmpty := by
    rw [← List.isEmpty_map, map_unrated_eq found, List.isEmpty_map]
  rw [readRules_eq, readRules_eq, empty]
  split
  · exact .cons (unknownRule_rescaled text) .nil
  · exact found

end

/-- The timer for a stay under some rules. -/
def timerUnder (rules : List Rule) (start : Moment) (lead : Span) :
    Except Failure (Option Timer) := do
  Timer.suggest (← Verdict.evaluate rules start) rules start lead

theorem timerUnder_noted {note : Rule → Rule} (keeps : Keeps note) (rules : List Rule)
    (start : Moment) (lead : Span) :
    timerUnder (rules.map note) start lead = timerUnder rules start lead := by
  unfold timerUnder
  rw [evaluate_noted keeps]
  cases Verdict.evaluate rules start with
  | error failure => rfl
  | ok verdict => exact suggest_noted keeps verdict rules start lead

theorem timerUnder_unrated (rules : List Rule) (start : Moment) (lead : Span) :
    timerUnder (rules.map unrated) start lead = timerUnder rules start lead :=
  timerUnder_noted unrated_keeps rules start lead

/-- A better quality of a text gives the same rules with confidences that are no lower. Verdicts
differ in these confidences at most, timers not at all, and a sign that a person should look at is
also one at the worse quality. -/
theorem quality_scales (low high : Binary64) (text : List Char) (fraction : IsQuality low)
    (otherFraction : IsQuality high) (ordered : high.lt low = false) :
    ∃ fainter surer, extract (some low) text = .ok fainter ∧ extract (some high) text = .ok surer ∧
      List.Forall₂ (Rescaled low high) fainter surer ∧
      (∀ moment, (Verdict.evaluate fainter moment).map (noted unrated) =
        (Verdict.evaluate surer moment).map (noted unrated)) ∧
      (∀ start lead, timerUnder fainter start lead = timerUnder surer start lead) ∧
      (∀ threshold, Rule.requireConfirmation surer threshold = true →
        Rule.requireConfirmation fainter threshold = true) := by
  have readable (quality : Binary64) (fraction : IsQuality quality) :
      extract (some quality) text = .ok (readRules (some quality) text) := by
    apply extract_eq
    intro q same
    rw [← Option.mem_some.mp same]
    exact fraction
  have rescaled := readRules_rescaled fraction otherFraction ordered text
  have same := map_unrated_eq rescaled
  refine ⟨_, _, readable low fraction, readable high otherFraction, rescaled, ?_, ?_, ?_⟩
  · intro moment
    rw [← evaluate_noted unrated_keeps, same, evaluate_noted unrated_keeps]
  · intro start lead
    rw [← timerUnder_unrated, same, timerUnder_unrated]
  · intro threshold required
    exact requireConfirmation_rescaled rescaled required

def rushSign : List Char := "No parking\n4PM-6PM Mon-Fri".toList

/-- Half read, the sign for the rush hours is to be confirmed, and read well it is not. -/
theorem rush_sign_fades : ∃ fainter surer,
    extract (some (.ofPlaces 5 1)) rushSign = .ok fainter ∧
    extract (some (.ofPlaces 9 1)) rushSign = .ok surer ∧
    List.Forall₂ (Rescaled (.ofPlaces 5 1) (.ofPlaces 9 1)) fainter surer ∧
    (∀ start lead, timerUnder fainter start lead = timerUnder surer start lead) ∧
    Rule.requireConfirmation fainter (.ofPlaces 8 1) = true ∧
    Rule.requireConfirmation surer (.ofPlaces 8 1) = false := by
  have half : IsQuality (.ofPlaces 5 1) := ⟨by decide +kernel, by decide +kernel, by decide +kernel⟩
  have well : IsQuality (.ofPlaces 9 1) := ⟨by decide +kernel, by decide +kernel, by decide +kernel⟩
  obtain ⟨fainter, surer, faintly, surely, rescaled, _, timers, _⟩ :=
    quality_scales (.ofPlaces 5 1) (.ofPlaces 9 1) rushSign half well (by decide +kernel)
  have doubted : (extract (some (.ofPlaces 5 1)) rushSign).toOption.map
      (Rule.requireConfirmation · (.ofPlaces 8 1)) = some true := by decide +kernel
  have trusted : (extract (some (.ofPlaces 9 1)) rushSign).toOption.map
      (Rule.requireConfirmation · (.ofPlaces 8 1)) = some false := by decide +kernel
  rw [faintly] at doubted
  rw [surely] at trusted
  exact ⟨fainter, surer, faintly, surely, rescaled, timers, Option.some.inj doubted,
    Option.some.inj trusted⟩

end Curbside.Proofs.Quality

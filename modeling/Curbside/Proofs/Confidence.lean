import Curbside.Proofs.Rounding
import Curbside.Sign.Extract

/-! A reading is never certain. Whatever the quality of a text, its scaled confidences lie between
zero and the highest confidence that a reading can have, also after both roundings. -/

namespace Curbside.Proofs.Confidence
open Binary64 Sign Rounding

/-- A number that is neither below one bound nor above another. -/
def IsBetween (low high x : Binary64) : Prop := x ≠ .nan ∧ x.lt low = false ∧ high.lt x = false

/-- A number from zero, of either sign, up to some units. -/
def Within (most : Nat) (x : Binary64) : Prop :=
  ∃ negative units, x = .finite negative units ∧ (negative = true → units = 0) ∧ units ≤ most

/-- Zero of either sign, or a number above it. An infinity may be above it too. -/
inductive NotNegative : Binary64 → Prop where
  | finite {negative units} (signless : negative = true → units = 0) :
      NotNegative (.finite negative units)
  | infinite : NotNegative (.infinite false)

def mostUnits : Nat := roundUnits (99 * one) 100

theorem one_positive : 0 < one := powerOfTwo_pos 1074

theorem ofInt_zero : ofInt 0 = .finite false 0 := by decide +kernel

theorem ofInt_one : ofInt 1 = .finite false one := by decide +kernel

theorem mostConfidence_eq : mostConfidence = .finite false mostUnits := by decide +kernel

theorem mostUnits_lt : mostUnits < limit := by decide +kernel

theorem mul_finite (n m : Bool) (u v : Nat) :
    (finite n u).mul (finite m v) = nearest (n != m) (u * v) (one * one) := rfl

theorem roundPlaces_finite (negative : Bool) (units : Nat) :
    (finite negative units).roundPlaces 4 =
      nearest negative (roundHalfEven (units * powerOfTen 4) one) (powerOfTen 4) := rfl

theorem lt_finite_eq_false {n m : Bool} {u v : Nat} :
    (finite n u).lt (finite m v) = false ↔ signedUnits m v ≤ signedUnits n u := by
  have compared : (finite n u).lt (finite m v) = decide (signedUnits n u < signedUnits m v) := rfl
  rw [compared, decide_eq_false_iff_not, Int.not_lt]

theorem isBetween_iff {most : Nat} {x : Binary64} :
    IsBetween (ofInt 0) (.finite false most) x ↔ Within most x := by
  rw [ofInt_zero]
  constructor
  · intro ⟨isNumber, notBelow, notAbove⟩
    cases x with
    | nan => exact absurd rfl isNumber
    | infinite negative =>
      -- An infinity is below zero or above every bound.
      cases negative
      · cases notAbove
      · cases notBelow
    | finite negative units =>
      refine ⟨negative, units, rfl, ?_⟩
      rw [lt_finite_eq_false] at notBelow notAbove
      cases negative with
      | false => exact ⟨nofun, Int.ofNat_le.mp notAbove⟩
      | true =>
        simp only [signedUnits, if_true, Bool.false_eq_true, if_false] at notBelow
        exact ⟨fun _ => by omega, by omega⟩
  · intro ⟨negative, units, same, signless, bounded⟩
    subst same
    refine ⟨nofun, lt_finite_eq_false.mpr ?_, lt_finite_eq_false.mpr ?_⟩
    · cases negative with
      | false => exact Int.natCast_nonneg units
      | true => rw [signless rfl]; exact Int.le_refl 0
    · cases negative with
      | false => exact Int.ofNat_le.mpr bounded
      | true => rw [signless rfl]; exact Int.natCast_nonneg most

theorem Within.notNegative {most : Nat} {x : Binary64} (within : Within most x) :
    NotNegative x := by
  obtain ⟨negative, units, same, signless, _⟩ := within
  subst same
  exact .finite signless

theorem roundUnits_zero {den : Nat} (positive : 0 < den) : roundUnits 0 den = 0 := by
  have least : roundHalfEven 0 (den * powerOfTwo ((0 / den).log2 - 52)) ≤ 0 := by
    apply roundHalfEven_le (Nat.mul_pos positive (powerOfTwo_pos _))
    omega
  unfold roundUnits
  dsimp only
  rw [Nat.le_zero.mp least, Nat.zero_mul]

theorem nearest_eq {negative : Bool} {num den : Nat} (fits : roundUnits (num * one) den < limit) :
    nearest negative num den = .finite negative (roundUnits (num * one) den) := by
  unfold nearest
  dsimp only
  rw [if_pos fits]

theorem nearest_notNegative {negative : Bool} {num den : Nat} (positive : 0 < den)
    (signless : negative = true → num = 0) : NotNegative (nearest negative num den) := by
  cases negative with
  | false =>
    unfold nearest
    dsimp only
    split
    · exact .finite nofun
    · exact .infinite
  | true =>
    have zero : roundUnits (num * one) den = 0 := by
      rw [signless rfl, Nat.zero_mul]
      exact roundUnits_zero positive
    have fits : roundUnits (num * one) den < limit := by
      rw [zero]
      exact powerOfTwo_pos 2098
    rw [nearest_eq fits]
    exact .finite fun _ => zero

theorem mul_notNegative {a b : Binary64} {most more : Nat} (first : Within most a)
    (second : Within more b) : NotNegative (a.mul b) := by
  obtain ⟨n, u, sameFirst, signless, _⟩ := first
  obtain ⟨m, v, sameSecond, otherSignless, _⟩ := second
  subst sameFirst sameSecond
  rw [mul_finite]
  apply nearest_notNegative (Nat.mul_pos one_positive one_positive)
  intro differ
  -- One of the two signs is a minus, so that one of the two numbers is zero.
  cases n with
  | true => rw [signless rfl, Nat.zero_mul]
  | false =>
    cases m with
    | true => rw [otherSignless rfl, Nat.mul_zero]
    | false => cases differ

theorem least_within {most : Nat} {x : Binary64} (sign : NotNegative x) :
    Within most (x.least (.finite false most)) := by
  unfold Binary64.least
  split
  next => exact ⟨false, most, rfl, nofun, Nat.le_refl most⟩
  next notAbove =>
    cases sign with
    | infinite => exact absurd rfl notAbove
    | @finite negative units signless =>
      refine ⟨negative, units, rfl, signless, ?_⟩
      rw [Bool.not_eq_true, lt_finite_eq_false] at notAbove
      cases negative with
      | false => exact Int.ofNat_le.mp notAbove
      | true =>
        rw [signless rfl]
        exact Nat.zero_le most

/-- Rounding to ten-thousandths does not pass the highest confidence, which is itself the number
nearest to such a fraction. -/
theorem roundPlaces_within {x : Binary64} (within : Within mostUnits x) :
    Within mostUnits (x.roundPlaces 4) := by
  obtain ⟨negative, units, same, signless, bounded⟩ := within
  subst same
  have places : roundHalfEven (units * powerOfTen 4) one ≤ 9900 := by
    have highest : mostUnits * powerOfTen 4 ≤ 9900 * one := by decide +kernel
    exact roundHalfEven_le one_positive (Nat.le_trans (Nat.mul_le_mul_right _ bounded) highest)
  have rounded : roundUnits (roundHalfEven (units * powerOfTen 4) one * one) (powerOfTen 4)
      ≤ mostUnits := by
    have spelled : roundUnits (9900 * one) (powerOfTen 4) = mostUnits := by decide +kernel
    rw [← spelled]
    exact roundUnits_mono (by decide) (Nat.mul_le_mul_right one places)
  rw [roundPlaces_finite, nearest_eq (Nat.lt_of_le_of_lt rounded mostUnits_lt)]
  refine ⟨negative, _, rfl, ?_, rounded⟩
  intro minus
  have nothing : roundHalfEven (units * powerOfTen 4) one ≤ 0 := by
    apply roundHalfEven_le one_positive
    rw [signless minus, Nat.zero_mul]
    exact Nat.zero_le _
  rw [Nat.le_zero.mp nothing, Nat.zero_mul]
  exact roundUnits_zero (by decide)

theorem ofPlaces_within {hundredths : Nat} (below : hundredths ≤ 99) :
    Within mostUnits (ofPlaces hundredths 2) := by
  have rounded : roundUnits (hundredths * one) (powerOfTen 2) ≤ mostUnits :=
    roundUnits_mono (by decide) (Nat.mul_le_mul_right one below)
  unfold ofPlaces
  rw [nearest_eq (Nat.lt_of_le_of_lt rounded mostUnits_lt)]
  exact ⟨false, _, rfl, nofun, rounded⟩

/-- No quality from zero to one scales a confidence below zero or above the highest one. -/
theorem scaled_between {quality : Option Binary64} {confidence : Binary64} {most : Nat}
    (sure : Within most confidence)
    (readable : ∀ q ∈ quality, IsBetween (ofInt 0) (ofInt 1) q) :
    IsBetween (ofInt 0) mostConfidence (scaled quality confidence) := by
  rw [mostConfidence_eq, isBetween_iff]
  unfold scaled
  rw [mostConfidence_eq]
  apply roundPlaces_within
  apply least_within
  cases quality with
  | none => exact sure.notNegative
  | some q =>
    have fraction := readable q rfl
    rw [ofInt_one, isBetween_iff] at fraction
    exact mul_notNegative sure fraction

end Curbside.Proofs.Confidence

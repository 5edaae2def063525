import Curbside.Proofs.Shortest
import Mathlib.Algebra.Order.Field.Power
import Mathlib.Tactic.Linarith
import Mathlib.Tactic.Positivity
import Mathlib.Tactic.Ring

/-! Products of decimal numbers. A product is exact up to one rounding, to the digits that it can
keep or to the least place that there is, whichever is coarser. It cannot be held exactly if it
rounds up to the next power of ten beyond the largest numbers. -/

namespace Curbside.Proofs.Products
open Decimal Rounding Shortest

/-- The number that a decimal number stands for, without its sign. -/
def magnitude (d : Decimal) : ℚ := d.coefficient * 10 ^ d.exponent

theorem ten_pow_pos (power : Int) : (0 : ℚ) < 10 ^ power := zpow_pos (by norm_num) power

theorem ten_pow_le {first second : Int} (ordered : first ≤ second) :
    (10 : ℚ) ^ first ≤ 10 ^ second :=
  zpow_le_zpow_right₀ (by norm_num) ordered

theorem ten_pow_add (first second : Int) : (10 : ℚ) ^ (first + second) = 10 ^ first * 10 ^ second :=
  zpow_add₀ (by norm_num) first second

theorem powerOfTen_cast (n : Nat) : (powerOfTen n : ℚ) = 10 ^ (n : Int) := by
  simp [powerOfTen]

theorem size_pos (d : Decimal) : 0 < d.size := Nat.length_toDigits_pos

theorem size_le_iff {d : Decimal} {most : Nat} (some : 0 < most) :
    d.size ≤ most ↔ d.coefficient < powerOfTen most :=
  Nat.length_toDigits_le_iff (by decide) some

theorem coefficient_lt (d : Decimal) : d.coefficient < powerOfTen d.size :=
  (size_le_iff (size_pos d)).mp (Nat.le_refl _)

theorem le_coefficient {d : Decimal} (some : d.coefficient ≠ 0) :
    powerOfTen (d.size - 1) ≤ d.coefficient := by
  by_cases single : d.size - 1 = 0
  · rw [single, powerOfTen_zero]
    exact Nat.pos_of_ne_zero some
  · have few := size_le_iff (d := d) (Nat.pos_of_ne_zero single)
    omega

/-- How many digits a number has and where they stand bounds it from both sides. -/
theorem magnitude_lt_iff {d : Decimal} (some : d.coefficient ≠ 0) {power : Int} :
    magnitude d < 10 ^ power ↔ d.exponent + d.size ≤ power := by
  constructor
  · intro below
    by_contra beyond
    have least : (10 : ℚ) ^ ((d.size - 1 : Nat) : Int) ≤ d.coefficient := by
      rw [← powerOfTen_cast]
      exact Nat.cast_le.mpr (le_coefficient some)
    have reached : (10 : ℚ) ^ power ≤ magnitude d := calc
      (10 : ℚ) ^ power ≤ 10 ^ (((d.size - 1 : Nat) : Int) + d.exponent) := ten_pow_le (by omega)
      _ = 10 ^ ((d.size - 1 : Nat) : Int) * 10 ^ d.exponent := ten_pow_add _ _
      _ ≤ magnitude d := mul_le_mul_of_nonneg_right least (ten_pow_pos _).le
    exact absurd below (not_lt.mpr reached)
  · intro inside
    have most : (d.coefficient : ℚ) < 10 ^ (d.size : Int) := by
      rw [← powerOfTen_cast]
      exact Nat.cast_lt.mpr (coefficient_lt d)
    calc magnitude d < 10 ^ (d.size : Int) * 10 ^ d.exponent :=
          mul_lt_mul_of_pos_right most (ten_pow_pos _)
      _ = 10 ^ ((d.size : Int) + d.exponent) := (ten_pow_add _ _).symm
      _ ≤ 10 ^ power := ten_pow_le (by omega)

/-- The place of the last digit that a product keeps. -/
def lastPlace (d : Decimal) : Int := max (d.exponent + d.size - precision) leastExponent

/-- A number in units of a place, rounded to a whole number of them. -/
def inUnits (d : Decimal) (place : Int) : Nat :=
  roundHalfEven (d.coefficient * powerOfTen (d.exponent - place).toNat)
    (powerOfTen (place - d.exponent).toNat)

theorem inUnits_ratio (d : Decimal) (place : Int) :
    ((d.coefficient * powerOfTen (d.exponent - place).toNat : Nat) : ℚ) * 10 ^ place =
      magnitude d * (powerOfTen (place - d.exponent).toNat : Nat) := by
  rw [Nat.cast_mul, powerOfTen_cast, powerOfTen_cast, mul_assoc, magnitude, mul_assoc,
    ← ten_pow_add, ← ten_pow_add]
  congr 2
  omega

theorem le_inUnits {d : Decimal} {place : Int} {k : Nat} (reached : k * 10 ^ place ≤ magnitude d) :
    k ≤ inUnits d place := by
  have positive : 0 < powerOfTen (place - d.exponent).toNat := powerOfTen_pos _
  apply le_roundHalfEven positive
  have scaled : (k : ℚ) * (powerOfTen (place - d.exponent).toNat : Nat) * 10 ^ place ≤
      ((d.coefficient * powerOfTen (d.exponent - place).toNat : Nat) : ℚ) * 10 ^ place := by
    rw [inUnits_ratio, mul_right_comm]
    exact mul_le_mul_of_nonneg_right reached (Nat.cast_nonneg _)
  exact_mod_cast le_of_mul_le_mul_right scaled (ten_pow_pos place)

theorem inUnits_le {d : Decimal} {place : Int} {k : Nat} (inside : magnitude d ≤ k * 10 ^ place) :
    inUnits d place ≤ k := by
  have positive : 0 < powerOfTen (place - d.exponent).toNat := powerOfTen_pos _
  apply roundHalfEven_le positive
  have scaled : ((d.coefficient * powerOfTen (d.exponent - place).toNat : Nat) : ℚ) * 10 ^ place ≤
      (k : ℚ) * (powerOfTen (place - d.exponent).toNat : Nat) * 10 ^ place := by
    rw [inUnits_ratio, mul_right_comm]
    exact mul_le_mul_of_nonneg_right inside (Nat.cast_nonneg _)
  exact_mod_cast le_of_mul_le_mul_right scaled (ten_pow_pos place)

/-- A quotient rounds up to an even number from half a unit below it. -/
theorem le_roundHalfEven_iff {k num den : Nat} (positive : 0 < den) (even : k % 2 = 0) :
    k ≤ roundHalfEven num den ↔ 2 * k * den ≤ 2 * num + den := by
  have parts := Nat.div_add_mod num den
  have rest := Nat.mod_lt num positive
  have near := roundHalfEven_cases num den
  by_cases whole : k ≤ num / den
  · have reached : k * den ≤ num := (Nat.le_div_iff_mul_le positive).mp whole
    have above : k ≤ roundHalfEven num den := le_roundHalfEven positive reached
    rw [Nat.mul_assoc]
    omega
  · by_cases next : k = num / den + 1
    · have scaled : 2 * k * den = 2 * (den * (num / den)) + 2 * den := by
        rw [next]
        ring
      unfold roundHalfEven
      dsimp only
      split
      · omega
      · split <;> omega
    · have beyond : (num / den + 2) * den ≤ k * den := Nat.mul_le_mul_right den (by omega)
      rw [Nat.add_mul, Nat.mul_comm (num / den)] at beyond
      rw [Nat.mul_assoc]
      omega

theorem le_inUnits_iff {d : Decimal} {place : Int} {k : Nat} (even : k % 2 = 0) :
    k ≤ inUnits d place ↔ ((k : ℚ) - 1 / 2) * 10 ^ place ≤ magnitude d := by
  have positive : 0 < powerOfTen (place - d.exponent).toNat := powerOfTen_pos _
  have scale : (0 : ℚ) < (powerOfTen (place - d.exponent).toNat : Nat) := Nat.cast_pos.mpr positive
  have ratio := inUnits_ratio d place
  rw [inUnits, le_roundHalfEven_iff positive even, ← Nat.cast_le (α := ℚ)]
  generalize d.coefficient * powerOfTen (d.exponent - place).toNat = num at ratio
  generalize powerOfTen (place - d.exponent).toNat = den at ratio scale
  have scaled : ((k : ℚ) - 1 / 2) * 10 ^ place ≤ magnitude d ↔ ((k : ℚ) - 1 / 2) * den ≤ num := by
    rw [← mul_le_mul_iff_left₀ scale, ← ratio, mul_right_comm,
      mul_le_mul_iff_left₀ (ten_pow_pos place)]
  rw [scaled]
  push_cast
  constructor
  · intro reached
    linarith
  · intro reached
    linarith

/-- A product as it is kept, save that it may be too large. -/
def kept (d : Decimal) : Decimal :=
  if lastPlace d ≤ d.exponent then d
  else if inUnits d (lastPlace d) = powerOfTen precision then
    ⟨d.negative, powerOfTen (precision - 1), lastPlace d + 1⟩
  else ⟨d.negative, inUnits d (lastPlace d), lastPlace d⟩

/-- Nothing is left of a number whose digits all stand below half a unit. -/
theorem inUnits_small {d : Decimal} {place : Int} (small : d.exponent + d.size < place) :
    inUnits d place = 0 := by
  have whole : (d.exponent - place).toNat = 0 := by omega
  have split : (place - d.exponent).toNat =
      d.size + 1 + ((place - d.exponent).toNat - d.size - 1) := by omega
  have digits := coefficient_lt d
  have further := powerOfTen_pos ((place - d.exponent).toNat - d.size - 1)
  have ten : powerOfTen 1 = 10 := rfl
  have half : 2 * d.coefficient < powerOfTen (place - d.exponent).toNat := calc
    2 * d.coefficient < powerOfTen d.size * powerOfTen 1 := by
      rw [ten]
      omega
    _ = powerOfTen (d.size + 1) := (powerOfTen_add _ _).symm
    _ ≤ powerOfTen (d.size + 1) * powerOfTen ((place - d.exponent).toNat - d.size - 1) :=
      Nat.le_mul_of_pos_right _ further
    _ = powerOfTen (place - d.exponent).toNat := by rw [← powerOfTen_add, ← split]
  rw [inUnits, whole, powerOfTen_zero, Nat.mul_one]
  have none : d.coefficient / powerOfTen (place - d.exponent).toNat = 0 :=
    Nat.div_eq_of_lt (by omega)
  have rest : d.coefficient % powerOfTen (place - d.exponent).toNat = d.coefficient :=
    Nat.mod_eq_of_lt (by omega)
  unfold roundHalfEven
  rw [none, rest]
  exact if_pos half

theorem fit?_eq {d : Decimal} (some_ : d.coefficient ≠ 0) :
    fit? d = if largestLeading < (kept d).exponent + (kept d).size - 1 then none else some (kept d) := by
  have cut : ¬ lastPlace d ≤ d.exponent →
      (if d.size < (lastPlace d - d.exponent).toNat then 0
        else roundHalfEven d.coefficient (powerOfTen (lastPlace d - d.exponent).toNat)) =
          inUnits d (lastPlace d) := by
    intro coarse
    have none : (d.exponent - lastPlace d).toNat = 0 := by omega
    split
    next all => exact (inUnits_small (by omega)).symm
    next => rw [inUnits, none, powerOfTen_zero, Nat.mul_one]
  have place : max (d.exponent + d.size - precision) leastExponent = lastPlace d := rfl
  unfold fit?
  rw [if_neg some_]
  dsimp only
  rw [place]
  unfold kept
  split
  next => rfl
  next coarse =>
    rw [cut coarse]

theorem magnitude_kept (d : Decimal) : magnitude (kept d) = inUnits d (lastPlace d) * 10 ^ lastPlace d := by
  unfold kept
  split
  next exact_ =>
    have none : (lastPlace d - d.exponent).toNat = 0 := by omega
    have ratio := inUnits_ratio d (lastPlace d)
    have whole : inUnits d (lastPlace d) =
        d.coefficient * powerOfTen (d.exponent - lastPlace d).toNat := by
      rw [inUnits, none, powerOfTen_zero]
      simp [roundHalfEven, Nat.mod_one]
    rw [none, powerOfTen_zero, Nat.cast_one, mul_one] at ratio
    rw [whole, ratio]
  next =>
    split
    next carried =>
      have digits : precision = 28 := rfl
      have split : ((precision - 1 : Nat) : Int) + (lastPlace d + 1) = precision + lastPlace d := by
        omega
      simp only [magnitude, carried, powerOfTen_cast]
      rw [← ten_pow_add, ← ten_pow_add, split]
    next => rfl

section
variable {d : Decimal} (some_ : d.coefficient ≠ 0)
include some_

/-- No more digits are kept than a product may have. -/
theorem inUnits_most : inUnits d (lastPlace d) ≤ powerOfTen precision := by
  apply inUnits_le
  have below : magnitude d < 10 ^ (lastPlace d + precision) :=
    (magnitude_lt_iff some_).mpr (by unfold lastPlace; omega)
  rw [Int.add_comm, ten_pow_add, ← powerOfTen_cast] at below
  exact below.le

/-- Unless digits stand below the least place, as many are kept as a product may have. -/
theorem inUnits_least (full : lastPlace d = d.exponent + d.size - precision) :
    powerOfTen (precision - 1) ≤ inUnits d (lastPlace d) := by
  apply le_inUnits
  rw [powerOfTen_cast, ← ten_pow_add, ← not_lt, magnitude_lt_iff some_]
  have digits : precision = 28 := rfl
  omega

/-- Nothing but digits below the least place is rounded to nothing. -/
theorem kept_zero (none : (kept d).coefficient = 0) : (kept d).exponent = leastExponent := by
  unfold kept at none ⊢
  split at none
  next => exact absurd none some_
  next coarse =>
    split at none
    next => exact absurd none (powerOfTen_pos _).ne'
    next short =>
      rw [if_neg coarse, if_neg short]
      by_contra full
      have least : powerOfTen (precision - 1) ≤ inUnits d (lastPlace d) :=
        inUnits_least some_ (by simp only [lastPlace] at full ⊢; omega)
      have positive := powerOfTen_pos (precision - 1)
      simp only at none
      omega

/-- What is kept is too large if it reaches the power of ten beyond the largest leading digit. -/
theorem kept_large_iff : largestLeading < (kept d).exponent + (kept d).size - 1 ↔
    10 ^ (largestLeading + 1) ≤ magnitude (kept d) := by
  by_cases none : (kept d).coefficient = 0
  · have exponent := kept_zero some_ none
    have nothing : magnitude (kept d) = 0 := by simp [magnitude, none]
    have single : (kept d).size ≤ 1 := (size_le_iff Nat.one_pos).mpr (by rw [none]; exact powerOfTen_pos 1)
    have bounds : largestLeading = 999999 ∧ leastExponent = -1000026 := ⟨rfl, rfl⟩
    have positive := ten_pow_pos (largestLeading + 1)
    rw [exponent, nothing]
    constructor
    · intro large
      omega
    · intro large
      exact absurd positive (not_lt.mpr large)
  · rw [← not_lt (a := magnitude (kept d)), magnitude_lt_iff none]
    omega

/-- A number whose last place lies below that of the largest products is rounded below them. -/
theorem kept_below (below : lastPlace d < largestLeading + 1 - precision) :
    magnitude d < 10 ^ largestLeading ∧ magnitude (kept d) ≤ 10 ^ largestLeading := by
  have bounds : largestLeading = 999999 ∧ leastExponent = -1000026 ∧ precision = 28 := ⟨rfl, rfl, rfl⟩
  constructor
  · apply (magnitude_lt_iff some_).mpr
    unfold lastPlace at below
    omega
  · calc magnitude (kept d) = inUnits d (lastPlace d) * 10 ^ lastPlace d := magnitude_kept d
      _ ≤ powerOfTen precision * 10 ^ lastPlace d :=
        mul_le_mul_of_nonneg_right (Nat.cast_le.mpr (inUnits_most some_)) (ten_pow_pos _).le
      _ = 10 ^ ((precision : Int) + lastPlace d) := by rw [powerOfTen_cast, ten_pow_add]
      _ ≤ 10 ^ largestLeading := ten_pow_le (by omega)

theorem kept_above (above : largestLeading + 1 - precision < lastPlace d) :
    10 ^ (largestLeading + 1) ≤ magnitude d ∧ 10 ^ (largestLeading + 1) ≤ magnitude (kept d) := by
  have bounds : largestLeading = 999999 ∧ leastExponent = -1000026 ∧ precision = 28 := ⟨rfl, rfl, rfl⟩
  have full : lastPlace d = d.exponent + d.size - precision := by
    unfold lastPlace at above ⊢
    omega
  constructor
  · rw [← not_lt, magnitude_lt_iff some_]
    omega
  · calc (10 : ℚ) ^ (largestLeading + 1) ≤ 10 ^ (((precision - 1 : Nat) : Int) + lastPlace d) :=
          ten_pow_le (by omega)
      _ = powerOfTen (precision - 1) * 10 ^ lastPlace d := by rw [powerOfTen_cast, ten_pow_add]
      _ ≤ inUnits d (lastPlace d) * 10 ^ lastPlace d :=
        mul_le_mul_of_nonneg_right (Nat.cast_le.mpr (inUnits_least some_ full)) (ten_pow_pos _).le
      _ = magnitude (kept d) := (magnitude_kept d).symm

/-- Rounding reaches a power of ten from half a unit of the last place below it. -/
theorem kept_reaches_iff : 10 ^ (largestLeading + 1) ≤ magnitude (kept d) ↔
    ((10 : ℚ) ^ precision - 1 / 2) * 10 ^ (largestLeading + 1 - precision) ≤ magnitude d := by
  have cast : (powerOfTen precision : ℚ) = 10 ^ precision := by rw [powerOfTen_cast, zpow_natCast]
  have whole : (10 : ℚ) ^ precision * 10 ^ (largestLeading + 1 - precision) =
      10 ^ (largestLeading + 1) := by
    rw [← zpow_natCast, ← ten_pow_add]
    congr 1
  have tenth : (10 : ℚ) ^ (largestLeading + 1) = 10 ^ largestLeading * 10 := by
    rw [ten_pow_add, zpow_one]
  have unit := ten_pow_pos (largestLeading + 1 - precision)
  have unit_le : (10 : ℚ) ^ (largestLeading + 1 - precision) ≤ 10 ^ largestLeading :=
    ten_pow_le (by decide)
  rcases lt_trichotomy (lastPlace d) (largestLeading + 1 - precision) with below | same | above
  · obtain ⟨small, rounded⟩ := kept_below some_ below
    constructor
    · intro reached
      linarith
    · intro reached
      linarith
  · rw [magnitude_kept d, same, ← whole, mul_le_mul_iff_left₀ unit, ← cast, Nat.cast_le]
    exact le_inUnits_iff (by decide)
  · obtain ⟨large, rounded⟩ := kept_above some_ above
    constructor
    · intro _
      linarith
    · intro _
      exact rounded

end

/-- The least number that rounds to more than a product can be. -/
def tooMuch : ℚ := ((10 : ℚ) ^ precision - 1 / 2) * 10 ^ (largestLeading + 1 - precision)

theorem tooMuch_pos : 0 < tooMuch := by
  have many : (1 : ℚ) ≤ 10 ^ precision := one_le_pow₀ (by norm_num)
  exact mul_pos (by linarith) (ten_pow_pos _)

theorem fit?_eq_none_iff {d : Decimal} : fit? d = none ↔ tooMuch ≤ magnitude d := by
  by_cases zero : d.coefficient = 0
  · have nothing : magnitude d = 0 := by simp [magnitude, zero]
    rw [nothing]
    simp [fit?, zero, tooMuch_pos]
  · rw [fit?_eq zero, tooMuch, ← kept_reaches_iff zero, ← kept_large_iff zero]
    split <;> simp [*]

/-- The number that a decimal number stands for, with its sign. -/
def value (d : Decimal) : ℚ := if d.negative then -magnitude d else magnitude d

/-- A product before it is rounded. -/
def product (a b : Decimal) : Decimal :=
  ⟨a.negative != b.negative, a.coefficient * b.coefficient, a.exponent + b.exponent⟩

theorem magnitude_product (a b : Decimal) : magnitude (product a b) = magnitude a * magnitude b := by
  simp only [magnitude, product, Nat.cast_mul, ten_pow_add]
  ring

theorem mul?_eq_none_iff {a b : Decimal} :
    mul? a b = none ↔ tooMuch ≤ magnitude a * magnitude b := by
  rw [← magnitude_product, ← fit?_eq_none_iff]
  rfl

/-- Rounding keeps order also where the quotients are written with different divisors. -/
theorem roundHalfEven_ratio_mono {num den more divisor : Nat} (positive : 0 < den)
    (positiveOther : 0 < divisor) (ordered : num * divisor ≤ more * den) :
    roundHalfEven num den ≤ roundHalfEven more divisor := by
  rw [← @roundHalfEven_scale num den divisor positiveOther,
    ← @roundHalfEven_scale more divisor den positive, Nat.mul_comm divisor]
  exact roundHalfEven_mono (Nat.mul_pos positive positiveOther) ordered

section
variable {d other : Decimal} (ordered : magnitude d ≤ magnitude other)
include ordered

theorem inUnits_mono (place : Int) : inUnits d place ≤ inUnits other place := by
  apply roundHalfEven_ratio_mono (powerOfTen_pos _) (powerOfTen_pos _)
  have ratio := inUnits_ratio d place
  have otherRatio := inUnits_ratio other place
  generalize d.coefficient * powerOfTen (d.exponent - place).toNat = num at ratio
  generalize other.coefficient * powerOfTen (other.exponent - place).toNat = more at otherRatio
  generalize powerOfTen (place - d.exponent).toNat = den at ratio
  generalize powerOfTen (place - other.exponent).toNat = divisor at otherRatio
  have scaled : (num * divisor : ℚ) * 10 ^ place ≤ (more * den : ℚ) * 10 ^ place := calc
    (num * divisor : ℚ) * 10 ^ place = magnitude d * den * divisor := by
      rw [← ratio]
      ring
    _ ≤ magnitude other * den * divisor := by gcongr
    _ = (more * den : ℚ) * 10 ^ place := by
      rw [mul_right_comm, ← otherRatio]
      ring
  exact_mod_cast le_of_mul_le_mul_right scaled (ten_pow_pos place)

variable (some_ : d.coefficient ≠ 0) (otherSome : other.coefficient ≠ 0)
include some_ otherSome

theorem lastPlace_mono : lastPlace d ≤ lastPlace other := by
  have leading : d.exponent + d.size ≤ other.exponent + other.size := by
    apply (magnitude_lt_iff some_).mp
    exact lt_of_le_of_lt ordered ((magnitude_lt_iff otherSome).mpr (le_refl _))
  unfold lastPlace
  omega

/-- What is kept of a number does not fall when the number rises. -/
theorem kept_mono : magnitude (kept d) ≤ magnitude (kept other) := by
  rw [magnitude_kept, magnitude_kept]
  rcases (lastPlace_mono ordered some_ otherSome).lt_or_eq with finer | same
  · -- As many digits as there may be of the finer unit are no more than the fewest of the coarser.
    have full : lastPlace other = other.exponent + other.size - precision := by
      unfold lastPlace at finer ⊢
      omega
    have digits : precision = 28 := rfl
    calc (inUnits d (lastPlace d) : ℚ) * 10 ^ lastPlace d
        ≤ powerOfTen precision * 10 ^ lastPlace d :=
          mul_le_mul_of_nonneg_right (Nat.cast_le.mpr (inUnits_most some_)) (ten_pow_pos _).le
      _ = 10 ^ ((precision : Int) + lastPlace d) := by rw [powerOfTen_cast, ten_pow_add]
      _ ≤ 10 ^ (((precision - 1 : Nat) : Int) + lastPlace other) := ten_pow_le (by omega)
      _ = powerOfTen (precision - 1) * 10 ^ lastPlace other := by rw [powerOfTen_cast, ten_pow_add]
      _ ≤ inUnits other (lastPlace other) * 10 ^ lastPlace other :=
          mul_le_mul_of_nonneg_right (Nat.cast_le.mpr (inUnits_least otherSome full)) (ten_pow_pos _).le
  · rw [same]
    exact mul_le_mul_of_nonneg_right (Nat.cast_le.mpr (inUnits_mono ordered _)) (ten_pow_pos _).le

end

theorem magnitude_nonneg (d : Decimal) : 0 ≤ magnitude d :=
  mul_nonneg (Nat.cast_nonneg _) (ten_pow_pos _).le

theorem magnitude_eq_zero {d : Decimal} (none : d.coefficient = 0) : magnitude d = 0 := by
  simp [magnitude, none]

theorem magnitude_pos {d : Decimal} (some_ : d.coefficient ≠ 0) : 0 < magnitude d :=
  mul_pos (Nat.cast_pos.mpr (Nat.pos_of_ne_zero some_)) (ten_pow_pos _)

theorem value_of_nonNegative {d : Decimal} (nonNegative : d.isNonNegative = true) :
    value d = magnitude d := by
  unfold value
  cases sign : d.negative with
  | false => rfl
  | true =>
    have none : d.coefficient = 0 := by simpa [isNonNegative, sign] using nonNegative
    simp [magnitude_eq_zero none]

theorem fit?_zero {d fitted : Decimal} (none : d.coefficient = 0) (fits : fit? d = some fitted) :
    fitted.coefficient = 0 := by
  unfold fit? at fits
  rw [if_pos none] at fits
  cases fits
  exact none

theorem fit?_kept {d fitted : Decimal} (some_ : d.coefficient ≠ 0) (fits : fit? d = some fitted) :
    fitted = kept d := by
  rw [fit?_eq some_] at fits
  split at fits
  · cases fits
  · exact (Option.some.inj fits).symm

theorem fit?_mono {d other low high : Decimal} (ordered : magnitude d ≤ magnitude other)
    (fits : fit? d = some low) (otherFits : fit? other = some high) :
    magnitude low ≤ magnitude high := by
  by_cases zero : d.coefficient = 0
  · rw [magnitude_eq_zero (fit?_zero zero fits)]
    exact magnitude_nonneg high
  · have otherSome : other.coefficient ≠ 0 := by
      intro otherZero
      rw [magnitude_eq_zero otherZero] at ordered
      exact absurd ordered (not_le.mpr (magnitude_pos zero))
    rw [fit?_kept zero fits, fit?_kept otherSome otherFits]
    exact kept_mono ordered zero otherSome

/-- A product does not fall when a factor rises. -/
theorem mul?_mono {a b c low high : Decimal} (ordered : magnitude b ≤ magnitude c)
    (first : mul? a b = some low) (second : mul? a c = some high) : magnitude low ≤ magnitude high := by
  have products : magnitude (product a b) ≤ magnitude (product a c) := by
    rw [magnitude_product, magnitude_product]
    exact mul_le_mul_of_nonneg_left ordered (magnitude_nonneg a)
  exact fit?_mono products first second

/-- A product of numbers that are not below zero is not below zero either. -/
theorem mul?_nonNegative {a b result : Decimal} (first : a.isNonNegative = true)
    (second : b.negative = false) (multiplied : mul? a b = some result) :
    result.isNonNegative = true := by
  by_cases zero : (product a b).coefficient = 0
  · simp [isNonNegative, fit?_zero zero multiplied]
  · have some_ : a.coefficient ≠ 0 := fun none => zero (by simp [product, none])
    have sign : a.negative = false := by simpa [isNonNegative, some_] using first
    have unsigned : ∀ d : Decimal, (kept d).negative = d.negative := by
      intro d
      unfold kept
      split
      · rfl
      · split <;> rfl
    rw [fit?_kept zero multiplied]
    simp [isNonNegative, unsigned, product, sign, second]

end Curbside.Proofs.Products

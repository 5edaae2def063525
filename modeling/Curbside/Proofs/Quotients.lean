import Curbside.Proofs.Shortest

/-! How the binary64 number nearest to a quotient stands to whole numbers. A quotient never rounds
past a whole number of up to 53 binary digits. It may round onto one from nearby: from above if
what is left over is at most half the distance to the next number, and not at all if the dividend
itself has no more than 53 digits. -/

namespace Curbside.Proofs.Quotients
open Binary64 Rounding Confidence Shortest

/-- The distance between neighbouring numbers where a quotient lies, in units. -/
def spacing (num den : Nat) : Nat := powerOfTwo ((num * one / den).log2 - 52)

theorem roundUnits_spaced (num den : Nat) : roundUnits (num * one) den =
    roundHalfEven (num * one) (den * spacing num den) * spacing num den := rfl

theorem units_add (count : Nat) : powerOfTwo (count + 1074) = powerOfTwo count * one :=
  powerOfTwo_add count 1074

theorem log2_below {n digits : Nat} (some : 0 < digits) (below : n < powerOfTwo digits) :
    n.log2 < digits := by
  by_cases none : n = 0
  · rw [none, Nat.log2_zero]
    exact some
  · exact (Nat.log2_lt none).mpr below

theorem spacing_pos (num den : Nat) : 0 < spacing num den := powerOfTwo_pos _

/-- Up to an even number, a quotient rounds down from half a unit above it. -/
theorem roundHalfEven_le_iff {k num den : Nat} (positive : 0 < den) (even : k % 2 = 0) :
    roundHalfEven num den ≤ k ↔ 2 * num ≤ 2 * k * den + den := by
  have parts := Nat.div_add_mod num den
  have rest := Nat.mod_lt num positive
  have near := roundHalfEven_cases num den
  rcases Nat.lt_trichotomy (num / den) k with below | same | above
  · have next : (num / den + 1) * den ≤ k * den := Nat.mul_le_mul_right den below
    rw [Nat.add_mul, Nat.mul_comm (num / den)] at next
    rw [Nat.mul_assoc]
    omega
  · have scaled : 2 * k * den = 2 * (den * (num / den)) := by
      rw [same, Nat.mul_assoc, Nat.mul_comm k]
    unfold roundHalfEven
    dsimp only
    split
    · omega
    · split <;> omega
  · have beyond : (k + 1) * den ≤ num / den * den := Nat.mul_le_mul_right den above
    rw [Nat.add_mul, Nat.mul_comm (num / den)] at beyond
    rw [Nat.mul_assoc]
    omega

section
variable {num den : Nat} (short : num < powerOfTwo 53 * den)
include short

/-- Where numbers have no more than 53 binary digits before the point, whole numbers are among
them. -/
theorem spacing_dvd_one : spacing num den ∣ one := by
  apply Nat.pow_dvd_pow 2
  have below : num * one / den < powerOfTwo (53 + 1074) := by
    rw [Nat.div_lt_iff_lt_mul (Nat.pos_of_ne_zero fun zero => by simp [zero] at short), units_add,
      Nat.mul_right_comm]
    exact Nat.mul_lt_mul_of_pos_right short one_positive
  have digits := log2_below (by decide) below
  omega

theorem whole_steps (n : Nat) : ∃ steps, n * one = steps * spacing num den ∧
    steps * (den * spacing num den) = n * den * one := by
  obtain ⟨steps, whole⟩ := spacing_dvd_one short
  have split : n * one = n * steps * spacing num den := by
    rw [whole, Nat.mul_assoc, Nat.mul_comm steps]
  refine ⟨n * steps, split, ?_⟩
  rw [Nat.mul_left_comm, ← split, Nat.mul_left_comm, Nat.mul_assoc]

theorem le_roundUnits {n : Nat} (positive : 0 < den) (reached : n * den ≤ num) :
    n * one ≤ roundUnits (num * one) den := by
  obtain ⟨steps, split, scaled⟩ := whole_steps short n
  rw [roundUnits_spaced, split]
  apply Nat.mul_le_mul_right
  apply le_roundHalfEven (Nat.mul_pos positive (spacing_pos num den))
  rw [scaled]
  exact Nat.mul_le_mul_right one reached

theorem roundUnits_le {n : Nat} (positive : 0 < den) (inside : num ≤ n * den) :
    roundUnits (num * one) den ≤ n * one := by
  obtain ⟨steps, split, scaled⟩ := whole_steps short n
  rw [roundUnits_spaced, split]
  apply Nat.mul_le_mul_right
  apply roundHalfEven_le (Nat.mul_pos positive (spacing_pos num den))
  rw [scaled]
  exact Nat.mul_le_mul_right one inside

theorem nearest_short (positive : 0 < den) (negative : Bool) :
    nearest negative num den = .finite negative (roundUnits (num * one) den) := by
  apply nearest_eq
  calc roundUnits (num * one) den
      ≤ powerOfTwo 53 * one := roundUnits_le short positive (Nat.le_of_lt short)
    _ < limit := by decide +kernel

end

/-- A positive quotient never rounds to nothing. -/
theorem roundUnits_pos {num den : Nat} (some : 0 < num) (positive : 0 < den)
    (fine : den < powerOfTwo 53) : 0 < roundUnits (num * one) den := by
  have large : powerOfTwo 53 ≤ one := powerOfTwo_mono (by decide)
  have reaches : num * one / den ≠ 0 := by
    apply Nat.ne_of_gt
    apply Nat.div_pos _ positive
    exact Nat.le_trans (by omega) (Nat.le_mul_of_pos_left one some)
  exact Nat.lt_of_lt_of_le (powerOfTwo_pos _) (power_le_roundUnits positive reaches)

/-- The leading digit of a quotient is that of the whole number below it. -/
theorem log2_quotient {num den n : Nat} (some : 0 < n) (reached : n * den ≤ num)
    (inside : num < (n + 1) * den) : (num * one / den).log2 = n.log2 + 1074 := by
  have positive : 0 < den := Nat.pos_of_ne_zero fun zero => by simp [zero] at inside
  have least : powerOfTwo (n.log2 + 1074) ≤ num * one / den := by
    rw [Nat.le_div_iff_mul_le positive, units_add]
    calc powerOfTwo n.log2 * one * den ≤ n * one * den :=
          Nat.mul_le_mul_right den (Nat.mul_le_mul_right one (Nat.log2_self_le (Nat.ne_of_gt some)))
      _ = n * den * one := Nat.mul_right_comm ..
      _ ≤ num * one := Nat.mul_le_mul_right one reached
  have most : num * one / den < powerOfTwo (n.log2 + 1074 + 1) := by
    rw [Nat.div_lt_iff_lt_mul positive, Nat.add_right_comm, units_add]
    calc num * one < (n + 1) * den * one := Nat.mul_lt_mul_of_pos_right inside one_positive
      _ = (n + 1) * one * den := Nat.mul_right_comm ..
      _ ≤ powerOfTwo (n.log2 + 1) * one * den :=
        Nat.mul_le_mul_right den (Nat.mul_le_mul_right one Nat.lt_log2_self)
  have nonzero : num * one / den ≠ 0 := Nat.ne_of_gt (Nat.lt_of_lt_of_le (powerOfTwo_pos _) least)
  exact (Nat.log2_eq_iff nonzero).mpr ⟨least, most⟩

/-- A quotient rounds down onto the whole number below it if what is left over is at most half the
distance to the next number, which depends on the binary digits of the whole number. -/
theorem roundUnits_le_floor_iff {num den n : Nat} (fine : den < powerOfTwo 53)
    (digits : n < powerOfTwo 52) (reached : n * den ≤ num) (inside : num < (n + 1) * den) :
    roundUnits (num * one) den ≤ n * one ↔
      powerOfTwo 53 * (num - n * den) ≤ den * powerOfTwo n.log2 := by
  have positive : 0 < den := Nat.pos_of_ne_zero fun zero => by simp [zero] at inside
  by_cases none : n = 0
  · subst none
    rw [Nat.zero_mul, Nat.zero_mul, Nat.sub_zero, Nat.log2_zero]
    by_cases nothing : num = 0
    · subst nothing
      simp [roundUnits_zero positive]
    · have seen := roundUnits_pos (Nat.pos_of_ne_zero nothing) positive fine
      have large : powerOfTwo 53 ≤ powerOfTwo 53 * num :=
        Nat.le_mul_of_pos_right _ (Nat.pos_of_ne_zero nothing)
      have single : powerOfTwo 0 = 1 := rfl
      rw [single]
      omega
  · have leading := log2_quotient (Nat.pos_of_ne_zero none) reached inside
    have short : n.log2 < 52 := log2_below (by decide) digits
    -- The numbers near the quotient part a one into an even number of steps.
    have steps : one = powerOfTwo (52 - n.log2) * spacing num den := by
      rw [spacing, leading, ← powerOfTwo_add]
      exact congrArg powerOfTwo (by omega)
    have even : n * powerOfTwo (52 - n.log2) % 2 = 0 := by
      rw [show 52 - n.log2 = 1 + (51 - n.log2) by omega, powerOfTwo_add, Nat.mul_left_comm]
      exact Nat.mul_mod_right 2 _
    have total : powerOfTwo 53 = 2 * powerOfTwo (52 - n.log2) * powerOfTwo n.log2 := by
      rw [Nat.mul_assoc, ← powerOfTwo_add, Nat.sub_add_cancel (Nat.le_of_lt short)]
      rfl
    generalize powerOfTwo (52 - n.log2) = count at steps even total
    rw [roundUnits_spaced, steps, ← Nat.mul_assoc num, ← Nat.mul_assoc n,
      Nat.mul_le_mul_right_iff (spacing_pos num den),
      roundHalfEven_le_iff (Nat.mul_pos positive (spacing_pos num den)) even]
    have scaled : 2 * (num * count * spacing num den) = 2 * count * num * spacing num den := by ac_rfl
    have scaledFloor : 2 * (n * count) * (den * spacing num den) + den * spacing num den =
        (2 * count * (n * den) + den) * spacing num den := by
      rw [Nat.add_mul]
      ac_rfl
    have leftOver : powerOfTwo 53 * (num - n * den) =
        (2 * count * num - 2 * count * (n * den)) * powerOfTwo n.log2 := by
      rw [total, Nat.mul_right_comm, Nat.mul_sub]
    rw [scaled, scaledFloor, leftOver, Nat.mul_le_mul_right_iff (spacing_pos num den),
      Nat.mul_le_mul_right_iff (powerOfTwo_pos n.log2)]
    omega

/-- Rounding to a whole number adds at most a half. -/
theorem roundHalfEven_excess (num : Nat) {den : Nat} (positive : 0 < den) :
    2 * (roundHalfEven num den * den) ≤ 2 * num + den := by
  have parts := Nat.div_add_mod num den
  have rest := Nat.mod_lt num positive
  have scaled : (num / den + 1) * den = den * (num / den) + den := by
    rw [Nat.add_mul, Nat.one_mul, Nat.mul_comm]
  unfold roundHalfEven
  dsimp only
  split
  · rw [Nat.mul_comm (num / den)]
    omega
  · split
    · omega
    · rcases Nat.mod_two_eq_zero_or_one (num / den) with even | odd
      · rw [even, Nat.add_zero, Nat.mul_comm (num / den)]
        omega
      · rw [odd]
        omega

section
variable {num den : Nat} (some : 0 < num) (positive : 0 < den) (fine : den < powerOfTwo 53)
include some positive fine

/-- Numbers stand very near to each other for their size. -/
theorem spacing_small : powerOfTwo 52 * (den * spacing num den) ≤ num * one := by
  have reaches : powerOfTwo 52 ≤ num * one / den := by
    rw [Nat.le_div_iff_mul_le positive]
    calc powerOfTwo 52 * den ≤ powerOfTwo 52 * powerOfTwo 53 :=
          Nat.mul_le_mul_left _ (Nat.le_of_lt fine)
      _ ≤ one := by
        rw [← powerOfTwo_add]
        exact powerOfTwo_mono (by decide)
      _ ≤ num * one := Nat.le_mul_of_pos_left one some
  have nonzero : num * one / den ≠ 0 := Nat.ne_of_gt (Nat.lt_of_lt_of_le (powerOfTwo_pos 52) reaches)
  have digits : 52 ≤ (num * one / den).log2 := (Nat.le_log2 nonzero).mpr reaches
  calc powerOfTwo 52 * (den * spacing num den)
      = powerOfTwo (52 + ((num * one / den).log2 - 52)) * den := by
        rw [powerOfTwo_add, Nat.mul_comm den, ← Nat.mul_assoc, spacing]
    _ = powerOfTwo (num * one / den).log2 * den := by rw [Nat.add_sub_cancel' digits]
    _ ≤ num * one / den * den := Nat.mul_le_mul_right den (Nat.log2_self_le nonzero)
    _ ≤ num * one := Nat.div_mul_le_self ..

/-- So rounding adds only a small part of a quotient. -/
theorem roundUnits_excess : powerOfTwo 53 * (roundUnits (num * one) den * den) ≤
    powerOfTwo 53 * (num * one) + num * one := by
  have half := roundHalfEven_excess (num * one) (Nat.mul_pos positive (spacing_pos num den))
  have double : powerOfTwo 53 = powerOfTwo 52 * 2 := rfl
  calc powerOfTwo 53 * (roundUnits (num * one) den * den)
      = powerOfTwo 52 * (2 * (roundHalfEven (num * one) (den * spacing num den) *
          (den * spacing num den))) := by
        rw [roundUnits_spaced, double, Nat.mul_assoc (powerOfTwo 52), Nat.mul_assoc,
          Nat.mul_comm (spacing num den)]
    _ ≤ powerOfTwo 52 * (2 * (num * one) + den * spacing num den) := Nat.mul_le_mul_left _ half
    _ = powerOfTwo 53 * (num * one) + powerOfTwo 52 * (den * spacing num den) := by
        rw [Nat.mul_add, double, Nat.mul_assoc]
    _ ≤ powerOfTwo 53 * (num * one) + num * one :=
        Nat.add_le_add_left (spacing_small some positive fine) _

end

/-- A quotient of few digits never rounds up onto a whole number. -/
theorem roundUnits_lt {num den n : Nat} (few : num < powerOfTwo 53) (fine : den < powerOfTwo 53)
    (inside : num < n * den) : roundUnits (num * one) den < n * one := by
  have positive : 0 < den := Nat.pos_of_ne_zero fun zero => by simp [zero] at inside
  rcases Nat.eq_zero_or_pos num with none | some
  · have whole : 0 < n := Nat.pos_of_ne_zero fun zero => by simp [zero] at inside
    rw [none, Nat.zero_mul, roundUnits_zero positive]
    exact Nat.mul_pos whole one_positive
  · apply Nat.lt_of_mul_lt_mul_right (a := powerOfTwo 53 * den)
    calc roundUnits (num * one) den * (powerOfTwo 53 * den)
        = powerOfTwo 53 * (roundUnits (num * one) den * den) := Nat.mul_left_comm ..
      _ ≤ powerOfTwo 53 * (num * one) + num * one := roundUnits_excess some positive fine
      _ < powerOfTwo 53 * (num * one) + powerOfTwo 53 * one :=
        Nat.add_lt_add_left (Nat.mul_lt_mul_of_pos_right few one_positive) _
      _ = powerOfTwo 53 * ((num + 1) * one) := by rw [← Nat.mul_add, Nat.add_mul, Nat.one_mul]
      _ ≤ powerOfTwo 53 * (n * den * one) :=
        Nat.mul_le_mul_left _ (Nat.mul_le_mul_right one inside)
      _ = n * one * (powerOfTwo 53 * den) := by rw [Nat.mul_right_comm, Nat.mul_left_comm]

end Curbside.Proofs.Quotients

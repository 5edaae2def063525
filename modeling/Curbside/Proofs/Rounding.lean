import Curbside.Number.Binary64

/-! Rounding keeps order. A quotient never rounds past a whole number that it does not pass, and a
binary64 number never rounds past a power of two, where the spacing of its units changes. -/

namespace Curbside.Proofs.Rounding

theorem le_roundHalfEven {k num den : Nat} (positive : 0 < den) (below : k * den ≤ num) :
    k ≤ roundHalfEven num den := by
  have whole : k ≤ num / den := (Nat.le_div_iff_mul_le positive).mpr below
  unfold roundHalfEven
  dsimp only
  split
  · exact whole
  · split <;> omega

theorem roundHalfEven_le {k num den : Nat} (positive : 0 < den) (above : num ≤ k * den) :
    roundHalfEven num den ≤ k := by
  have parts := Nat.div_add_mod num den
  have whole : num / den ≤ k := Nat.div_le_of_le_mul (Nat.mul_comm k den ▸ above)
  unfold roundHalfEven
  dsimp only
  rcases Nat.lt_or_eq_of_le whole with less | same
  · split
    · exact whole
    · split <;> omega
  · have noRest : num % den = 0 := by
      rw [same, Nat.mul_comm] at parts
      omega
    rw [noRest, same]
    simp [positive]

theorem roundHalfEven_mono {num more den : Nat} (positive : 0 < den) (ordered : num ≤ more) :
    roundHalfEven num den ≤ roundHalfEven more den := by
  have parts := Nat.div_add_mod num den
  have otherParts := Nat.div_add_mod more den
  have whole : num / den ≤ more / den := Nat.div_le_div_right ordered
  rcases Nat.lt_or_eq_of_le whole with less | same
  · -- A whole number lies between the two quotients, and neither rounds past it.
    have upper : roundHalfEven num den ≤ num / den + 1 := by
      apply roundHalfEven_le positive
      have rest := Nat.mod_lt num positive
      rw [Nat.add_mul, Nat.mul_comm]
      omega
    have lower : more / den ≤ roundHalfEven more den :=
      le_roundHalfEven positive (Nat.div_mul_le_self more den)
    omega
  · have rest : num % den ≤ more % den := by
      rw [same] at parts
      omega
    unfold roundHalfEven
    dsimp only
    rw [same]
    split
    · split
      · exact Nat.le_refl _
      · split <;> omega
    · split
      · split
        · omega
        · split <;> omega
      · split
        · omega
        · split <;> omega

theorem powerOfTwo_add (m n : Nat) : powerOfTwo (m + n) = powerOfTwo m * powerOfTwo n :=
  Nat.pow_add 2 m n

theorem powerOfTwo_pos (n : Nat) : 0 < powerOfTwo n := Nat.pow_pos (by decide)

theorem powerOfTwo_mono {m n : Nat} (ordered : m ≤ n) : powerOfTwo m ≤ powerOfTwo n :=
  Nat.pow_le_pow_right (by decide) ordered

theorem log2_mono {m n : Nat} (ordered : m ≤ n) : m.log2 ≤ n.log2 := by
  by_cases zero : m = 0
  · subst zero
    rw [Nat.log2_zero]
    exact Nat.zero_le _
  · have larger : n ≠ 0 := by omega
    exact (Nat.le_log2 larger).mpr (Nat.le_trans (Nat.log2_self_le zero) ordered)

/-- The exponent of the unit in which a quotient is rounded. -/
private def spacingOf (num den : Nat) : Nat := (num / den).log2 - 52

private theorem roundUnits_eq (num den : Nat) : Binary64.roundUnits num den =
    roundHalfEven num (den * powerOfTwo (spacingOf num den)) * powerOfTwo (spacingOf num den) := rfl

/-- A number rounds to no more than the next power of two. -/
theorem roundUnits_le_power {num den : Nat} (positive : 0 < den) :
    Binary64.roundUnits num den ≤ powerOfTwo ((num / den).log2 + 1) := by
  have split : (num / den).log2 + 1 = (num / den).log2 + 1 - spacingOf num den + spacingOf num den := by
    unfold spacingOf
    omega
  rw [roundUnits_eq, split, powerOfTwo_add]
  apply Nat.mul_le_mul_right
  apply roundHalfEven_le (Nat.mul_pos positive (powerOfTwo_pos _))
  have below : num / den < powerOfTwo ((num / den).log2 + 1) := Nat.lt_log2_self
  rw [split, powerOfTwo_add] at below
  have scaled := Nat.le_of_lt ((Nat.div_lt_iff_lt_mul positive).mp below)
  rw [Nat.mul_comm den, ← Nat.mul_assoc]
  exact scaled

/-- A number rounds to no less than the power of two that it reaches. -/
theorem power_le_roundUnits {num den : Nat} (positive : 0 < den) (reaches : num / den ≠ 0) :
    powerOfTwo (num / den).log2 ≤ Binary64.roundUnits num den := by
  have split : (num / den).log2 = (num / den).log2 - spacingOf num den + spacingOf num den := by
    unfold spacingOf
    omega
  rw [roundUnits_eq, split, powerOfTwo_add]
  apply Nat.mul_le_mul_right
  apply le_roundHalfEven (Nat.mul_pos positive (powerOfTwo_pos _))
  have above : powerOfTwo (num / den).log2 ≤ num / den := Nat.log2_self_le reaches
  rw [split, powerOfTwo_add] at above
  have scaled := (Nat.le_div_iff_mul_le positive).mp above
  rw [Nat.mul_comm den, ← Nat.mul_assoc]
  exact scaled

theorem roundUnits_mono {num more den : Nat} (positive : 0 < den) (ordered : num ≤ more) :
    Binary64.roundUnits num den ≤ Binary64.roundUnits more den := by
  have quotients : num / den ≤ more / den := Nat.div_le_div_right ordered
  rcases Nat.lt_or_eq_of_le (log2_mono quotients) with less | same
  · have reaches : more / den ≠ 0 := by
      intro zero
      rw [zero, Nat.log2_zero] at less
      omega
    calc Binary64.roundUnits num den
        ≤ powerOfTwo ((num / den).log2 + 1) := roundUnits_le_power positive
      _ ≤ powerOfTwo (more / den).log2 := powerOfTwo_mono less
      _ ≤ Binary64.roundUnits more den := power_le_roundUnits positive reaches
  · have spacing : spacingOf num den = spacingOf more den := by
      unfold spacingOf
      rw [same]
    rw [roundUnits_eq, roundUnits_eq, spacing]
    apply Nat.mul_le_mul_right
    exact roundHalfEven_mono (Nat.mul_pos positive (powerOfTwo_pos _)) ordered

end Curbside.Proofs.Rounding

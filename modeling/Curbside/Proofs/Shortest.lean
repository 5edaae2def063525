import Curbside.Proofs.Confidence
import Curbside.Proofs.Numerals

/-! The shortest text of a number reads as that number. Rounding depends on a value and not on how
it is written, and a decimal number with eighteen digits is so near to the binary64 number that it
was cut from that it rounds back to it. The search for fewer digits therefore finds some. -/

namespace Curbside.Proofs.Shortest
open Binary64 Rounding Confidence Numerals

/-- A number has a place in the binary64 format. If it is finite, all its binary digits after the
first 53 are zeros, and it is not too large. -/
inductive InFormat : Binary64 → Prop where
  | finite {negative : Bool} {units : Nat} (inside : units < limit)
      (digits : powerOfTwo (units.log2 - 52) ∣ units) : InFormat (.finite negative units)
  | infinite {negative : Bool} : InFormat (.infinite negative)
  | nan : InFormat .nan

theorem roundHalfEven_scale {num den count : Nat} (positive : 0 < count) :
    roundHalfEven (num * count) (den * count) = roundHalfEven num den := by
  have scaled : ∀ rest, 2 * (rest * count) < den * count ↔ 2 * rest < den := by
    intro rest
    rw [← Nat.mul_assoc]
    exact Nat.mul_lt_mul_right positive
  have scaledBack : ∀ rest, den * count < 2 * (rest * count) ↔ den < 2 * rest := by
    intro rest
    rw [← Nat.mul_assoc]
    exact Nat.mul_lt_mul_right positive
  unfold roundHalfEven
  simp only [Nat.mul_div_mul_right _ _ positive, Nat.mul_mod_mul_right, scaled, scaledBack]

theorem roundUnits_scale {num den count : Nat} (positive : 0 < count) :
    roundUnits (num * count) (den * count) = roundUnits num den := by
  unfold roundUnits
  simp only [Nat.mul_div_mul_right _ _ positive, Nat.mul_right_comm den count,
    roundHalfEven_scale positive]

/-- Equal quotients round to the same number. -/
theorem nearest_ratio {negative : Bool} {num den other divisor : Nat} (positive : 0 < den)
    (positiveOther : 0 < divisor) (same : num * divisor = other * den) :
    nearest negative num den = nearest negative other divisor := by
  have units : roundUnits (num * one) den = roundUnits (other * one) divisor := by
    generalize one = unit
    calc roundUnits (num * unit) den
        = roundUnits (num * unit * divisor) (den * divisor) := (roundUnits_scale positiveOther).symm
      _ = roundUnits (other * unit * den) (divisor * den) := by
        rw [Nat.mul_right_comm, same, Nat.mul_right_comm other, Nat.mul_comm den divisor]
      _ = roundUnits (other * unit) divisor := roundUnits_scale positive
  unfold nearest
  rw [units]

theorem digitsOf_scale {n : Nat} (positive : 0 < n) (count : Nat) :
    (Decimal.digitsOf (n * powerOfTen count)).length = (Decimal.digitsOf n).length + count := by
  induction count with
  | zero => simp [powerOfTen]
  | succ count ih =>
    have some : 0 < n * powerOfTen count := Nat.mul_pos positive (Nat.pow_pos (by decide))
    have longer : n * powerOfTen (count + 1) = 10 * (n * powerOfTen count) + 0 := by
      simp only [powerOfTen, Nat.pow_eq, Nat.pow_succ]
      ac_rfl
    have digits : Decimal.digitsOf (n * powerOfTen (count + 1)) =
        Decimal.digitsOf (n * powerOfTen count) ++ Decimal.digitsOf 0 := by
      rw [longer]
      exact (Nat.toDigits_append_toDigits (by decide) some (by decide)).symm
    rw [digits, List.length_append, ih]
    rfl

/-- Whether a decimal number lies where numbers are worked out. -/
def InReach (d : Decimal) : Prop := -400 ≤ d.exponent + d.size ∧ d.exponent + d.size ≤ 400

theorem ofDecimal_eq {d : Decimal} (some : d.coefficient ≠ 0) (reach : InReach d) :
    ofDecimal d = nearest d.negative (d.coefficient * powerOfTen d.exponent.toNat)
      (powerOfTen (-d.exponent).toNat) := by
  obtain ⟨least, most⟩ := reach
  have notSmall : ¬ d.exponent + d.size < -400 := by omega
  have notLarge : ¬ 400 < d.exponent + d.size := by omega
  simp only [ofDecimal, some, notSmall, notLarge, decide_false, Bool.or_self, Bool.false_eq_true,
    if_false]
  split
  next whole =>
    have none : (-d.exponent).toNat = 0 := by omega
    rw [none]
    rfl
  next fraction =>
    have none : d.exponent.toNat = 0 := by omega
    have places : (-d.exponent).toNat = d.exponent.natAbs := by omega
    rw [none, places]
    simp [powerOfTen]

theorem ofDecimal_small {d : Decimal} (small : d.exponent + d.size < -400) :
    ofDecimal d = .finite d.negative 0 := by
  simp [ofDecimal, small]

theorem ofDecimal_large {d : Decimal} (some : d.coefficient ≠ 0) (large : 400 < d.exponent + d.size) :
    ofDecimal d = .infinite d.negative := by
  have notSmall : ¬ d.exponent + d.size < -400 := by omega
  simp [ofDecimal, some, large, notSmall]

theorem powerOfTen_add (m n : Nat) : powerOfTen (m + n) = powerOfTen m * powerOfTen n :=
  Nat.pow_add 10 m n

theorem powerOfTen_zero : powerOfTen 0 = 1 := rfl

theorem powerOfTen_pos (n : Nat) : 0 < powerOfTen n := Nat.pow_pos (by decide)

/-- Zeros at the end that the exponent makes up for do not count. -/
theorem ofDecimal_shift (negative : Bool) (coefficient : Nat) (exponent : Int) (count : Nat) :
    ofDecimal ⟨negative, coefficient * powerOfTen count, exponent - count⟩ =
      ofDecimal ⟨negative, coefficient, exponent⟩ := by
  rcases Nat.eq_zero_or_pos coefficient with zero | positive
  · simp [zero, ofDecimal]
  · have some : coefficient * powerOfTen count ≠ 0 :=
      Nat.ne_of_gt (Nat.mul_pos positive (powerOfTen_pos count))
    generalize shifted : (⟨negative, coefficient * powerOfTen count, exponent - count⟩ : Decimal) = long
    generalize plain : (⟨negative, coefficient, exponent⟩ : Decimal) = short
    have someLong : long.coefficient ≠ 0 := by
      rw [← shifted]
      exact some
    have someShort : short.coefficient ≠ 0 := by
      rw [← plain]
      exact Nat.ne_of_gt positive
    have sign : long.negative = short.negative := by rw [← shifted, ← plain]
    have leading : long.exponent + long.size = short.exponent + short.size := by
      have scaled := digitsOf_scale positive count
      rw [← shifted, ← plain]
      simp only [Decimal.size, scaled]
      omega
    by_cases small : short.exponent + short.size < -400
    · rw [ofDecimal_small small, ofDecimal_small (leading ▸ small), sign]
    · by_cases large : 400 < short.exponent + short.size
      · rw [ofDecimal_large someShort large, ofDecimal_large someLong (leading ▸ large), sign]
      · have reach : InReach short := ⟨by omega, by omega⟩
        have reachLong : InReach long := ⟨by omega, by omega⟩
        rw [ofDecimal_eq someLong reachLong, ofDecimal_eq someShort reach, sign]
        apply nearest_ratio (powerOfTen_pos _) (powerOfTen_pos _)
        have exponents : count + ((exponent - count).toNat + (-exponent).toNat) =
            exponent.toNat + (-(exponent - count)).toNat := by omega
        rw [← shifted, ← plain]
        simp only [Nat.mul_assoc, ← powerOfTen_add]
        rw [Nat.add_assoc, exponents]

/-- A quotient just below a multiple of the divisor rounds up to it. -/
theorem roundHalfEven_near {k num den : Nat} (below : num ≤ k * den)
    (near : 2 * (k * den - num) < den) : roundHalfEven num den = k := by
  have positive : 0 < den := by omega
  apply Nat.le_antisymm (roundHalfEven_le positive below)
  have parts := Nat.div_add_mod num den
  have rest := Nat.mod_lt num positive
  rcases Nat.lt_or_ge (num / den) k with less | reached
  · have next : den * (num / den) + den ≤ k * den := by
      rw [Nat.mul_comm k den, ← Nat.mul_succ]
      exact Nat.mul_le_mul_left den less
    have last : k ≤ num / den + 1 := by
      apply Nat.le_of_not_lt
      intro further
      have beyond : den * (num / den) + 2 * den ≤ k * den := by
        have twice : den * (num / den) + 2 * den = (num / den + 2) * den := by
          rw [Nat.add_mul, Nat.mul_comm den]
        rw [twice]
        exact Nat.mul_le_mul_right den further
      omega
    unfold roundHalfEven
    dsimp only
    split
    · omega
    · split <;> omega
  · exact le_roundHalfEven positive (Nat.le_trans (Nat.mul_le_mul_right den reached)
      (Nat.div_mul_le_self num den))

/-- A quotient that misses a number of the format by so little that seventeen digits agree rounds
to it. -/
theorem roundUnits_near {units num den : Nat} (positive : 0 < den)
    (digits : powerOfTwo (units.log2 - 52) ∣ units) (below : num ≤ units * den)
    (near : (units * den - num) * powerOfTen 17 ≤ units * den) : roundUnits num den = units := by
  have quotient : num / den ≤ units := Nat.div_le_of_le_mul (Nat.mul_comm den units ▸ below)
  have finer : powerOfTwo ((num / den).log2 - 52) ∣ units :=
    Nat.dvd_trans (Nat.pow_dvd_pow 2 (Nat.sub_le_sub_right (log2_mono quotient) 52)) digits
  unfold roundUnits
  dsimp only
  generalize spaced : powerOfTwo ((num / den).log2 - 52) = spacing at finer
  obtain ⟨k, whole⟩ := finer
  -- At most 53 binary digits of the quotient stand before the spacing.
  have short : num < 2 ^ 53 * (den * spacing) := by
    have least : num / den < powerOfTwo ((num / den).log2 + 1) := Nat.lt_log2_self
    have digits : powerOfTwo ((num / den).log2 + 1) ≤ 2 ^ 53 * spacing := by
      rw [← spaced, show (2 : Nat) ^ 53 = powerOfTwo 53 from rfl, ← powerOfTwo_add]
      exact powerOfTwo_mono (by omega)
    have scaled := (Nat.div_lt_iff_lt_mul positive).mp (Nat.lt_of_lt_of_le least digits)
    calc num < 2 ^ 53 * spacing * den := scaled
      _ = 2 ^ 53 * (den * spacing) := by rw [Nat.mul_assoc, Nat.mul_comm spacing]
  have product : units * den = k * (den * spacing) := by
    rw [whole]
    ac_rfl
  have seventeen : powerOfTen 17 = 10 ^ 17 := rfl
  rw [product] at below near
  rw [seventeen] at near
  rw [roundHalfEven_near below (by omega), whole, Nat.mul_comm]

theorem nearest_inFormat {negative : Bool} {num den : Nat} (positive : 0 < den) :
    InFormat (nearest negative num den) := by
  rcases Nat.lt_or_ge (roundUnits (num * one) den) limit with inside | beyond
  · rw [nearest_eq inside]
    refine .finite inside ?_
    generalize num * one = num
    have divides : powerOfTwo ((num / den).log2 - 52) ∣ roundUnits num den := Nat.dvd_mul_left ..
    rcases Nat.lt_or_eq_of_le (@roundUnits_le_power num den positive) with less | same
    · apply Nat.dvd_trans (Nat.pow_dvd_pow 2 ?_) divides
      by_cases none : roundUnits num den = 0
      · rw [none, Nat.log2_zero, Nat.zero_sub]
        exact Nat.zero_le _
      · have digits := (Nat.log2_lt none).mpr less
        omega
    · have power : (powerOfTwo ((num / den).log2 + 1)).log2 = (num / den).log2 + 1 :=
        Nat.log2_two_pow
      rw [same, power]
      exact Nat.pow_dvd_pow 2 (Nat.sub_le ..)
  · unfold nearest
    dsimp only
    rw [if_neg (Nat.not_lt.mpr beyond)]
    exact .infinite

theorem ofPlaces_inFormat (coefficient places : Nat) : InFormat (ofPlaces coefficient places) := by
  unfold ofPlaces
  exact nearest_inFormat (powerOfTen_pos places)

/-- Rounding to some places gives a number of the format. -/
theorem roundPlaces_inFormat (places : Nat) (x : Binary64) : InFormat (x.roundPlaces places) := by
  unfold roundPlaces
  split
  · exact nearest_inFormat (powerOfTen_pos places)
  next other =>
    cases x with
    | finite negative units => exact absurd rfl (other negative units)
    | infinite negative => exact .infinite
    | nan => exact .nan

theorem ofDecimal_inFormat (d : Decimal) : InFormat (ofDecimal d) := by
  unfold ofDecimal
  dsimp only
  split
  · exact .finite (powerOfTwo_pos 2098) (Nat.dvd_zero _)
  · split
    · exact .infinite
    · split
      · exact nearest_inFormat Nat.one_pos
      · exact nearest_inFormat (powerOfTen_pos _)

theorem nearest_sign {num den units : Nat} (same : nearest false num den = .finite false units)
    (negative : Bool) : nearest negative num den = .finite negative units := by
  unfold nearest at same ⊢
  dsimp only at same ⊢
  split at same
  next inside =>
    cases same
    rw [if_pos inside]
  next => cases same

/-- The sign of a decimal number is the sign of the number nearest to it. -/
theorem ofDecimal_sign {coefficient units : Nat} {exponent : Int}
    (same : ofDecimal ⟨false, coefficient, exponent⟩ = .finite false units) (negative : Bool) :
    ofDecimal ⟨negative, coefficient, exponent⟩ = .finite negative units := by
  unfold ofDecimal at same ⊢
  dsimp only [Decimal.size] at same ⊢
  split at same
  next small =>
    cases same
    rw [if_pos small]
  next notSmall =>
    rw [if_neg notSmall]
    split at same
    · cases same
    next notLarge =>
      rw [if_neg notLarge]
      split at same
      next whole =>
        rw [if_pos whole]
        exact nearest_sign same negative
      next fraction =>
        rw [if_neg fraction]
        exact nearest_sign same negative

theorem firstPower_reaches {units steps power : Nat}
    (enough : one ≤ units * powerOfTen (power + steps)) :
    one ≤ units * powerOfTen (firstPower units steps power) ∧
      firstPower units steps power ≤ power + steps := by
  induction steps generalizing power with
  | zero => exact ⟨enough, Nat.le_refl _⟩
  | succ steps ih =>
    unfold firstPower
    split
    next reached => exact ⟨reached, Nat.le_add_right ..⟩
    next =>
      have later : power + (steps + 1) = power + 1 + steps := by omega
      rw [later] at enough ⊢
      exact ih enough

/-- A positive number reaches the power of ten that its leading digit stands for. -/
theorem leadingPower_reaches {units : Nat} (positive : 0 < units) :
    one * powerOfTen (leadingPower units).toNat ≤ units * powerOfTen (-leadingPower units).toNat ∧
      -331 ≤ leadingPower units := by
  unfold leadingPower
  split
  next large =>
    have some : 0 < (Decimal.digitsOf (units / one)).length := Nat.length_toDigits_pos
    generalize counted : (Decimal.digitsOf (units / one)).length = count at some
    have exponent : ((count : Int) - 1).toNat = count - 1 := by omega
    have none : (-((count : Int) - 1)).toNat = 0 := by omega
    have whole : 1 ≤ units / one := (Nat.le_div_iff_mul_le one_positive).mpr (by omega)
    have reached : powerOfTen (count - 1) ≤ units / one := by
      rcases Nat.eq_zero_or_pos (count - 1) with zero | more
      · rw [zero]
        exact whole
      · apply Nat.le_of_not_lt
        intro below
        have shorter := (Nat.length_toDigits_le_iff (by decide) more).mpr below
        have same : (Nat.toDigits 10 (units / one)).length = count := counted
        omega
    rw [exponent, none, powerOfTen_zero, Nat.mul_one, Nat.mul_comm]
    exact ⟨(Nat.le_div_iff_mul_le one_positive).mp reached, by omega⟩
  next small =>
    have enough : one ≤ units * powerOfTen (1 + 330) := by
      have least : one ≤ powerOfTen 331 := by decide +kernel
      exact Nat.le_trans least (Nat.le_mul_of_pos_left _ positive)
    obtain ⟨reached, bounded⟩ := firstPower_reaches enough
    generalize firstPower units 330 1 = power at reached bounded
    have none : (-(power : Int)).toNat = 0 := by omega
    have same : (- -(power : Int)).toNat = power := by omega
    rw [none, same, powerOfTen_zero, Nat.mul_one]
    exact ⟨reached, by omega⟩

theorem onGrid_eq (units : Nat) (power : Int) :
    onGrid units power = (units * powerOfTen (-power).toNat, one * powerOfTen power.toNat) := by
  unfold onGrid
  split
  next whole =>
    have none : (-power).toNat = 0 := by omega
    rw [none, powerOfTen_zero, Nat.mul_one]
  next fraction =>
    have none : power.toNat = 0 := by omega
    have places : (-power).toNat = power.natAbs := by omega
    rw [none, places, powerOfTen_zero, Nat.mul_one]

section
variable {units : Nat} {power : Int}

/-- The digits of a number on the grid of the eighteenth one, if the leading digit has a place. -/
structure Grid (units : Nat) (power : Int) : Prop where
  least : -348 ≤ power
  fine : one * powerOfTen power.toNat * powerOfTen 17 ≤ units * powerOfTen (-power).toNat

theorem grid_of_leading (positive : 0 < units) : Grid units (leadingPower units - 17) := by
  obtain ⟨reached, least⟩ := leadingPower_reaches positive
  refine ⟨by omega, ?_⟩
  generalize leadingPower units = leading at reached
  apply Nat.le_of_mul_le_mul_right _ (powerOfTen_pos (-leading).toNat)
  have exponents : (leading - 17).toNat + (17 + (-leading).toNat) =
      leading.toNat + (-(leading - 17)).toNat := by omega
  calc one * powerOfTen (leading - 17).toNat * powerOfTen 17 * powerOfTen (-leading).toNat
      = one * powerOfTen leading.toNat * powerOfTen (-(leading - 17)).toNat := by
        simp only [Nat.mul_assoc, ← powerOfTen_add]
        rw [Nat.add_assoc, exponents]
    _ ≤ units * powerOfTen (-leading).toNat * powerOfTen (-(leading - 17)).toNat :=
        Nat.mul_le_mul_right _ reached
    _ = units * powerOfTen (-(leading - 17)).toNat * powerOfTen (-leading).toNat :=
        Nat.mul_right_comm ..

/-- A number cut off after eighteen digits rounds back to what it was cut from. -/
theorem cut_rounds {one tens parts : Nat} (digits : powerOfTwo (units.log2 - 52) ∣ units)
    (positive : 0 < one * tens) (positiveParts : 0 < parts)
    (fine : one * tens * powerOfTen 17 ≤ units * parts) :
    0 < units * parts / (one * tens) ∧
      roundUnits (units * parts / (one * tens) * tens * one) parts = units := by
  have floor := Nat.div_mul_le_self (units * parts) (one * tens)
  have division := Nat.div_add_mod' (units * parts) (one * tens)
  have rest := Nat.mod_lt (units * parts) positive
  have some : 0 < units * parts / (one * tens) := by
    rw [Nat.div_pos_iff]
    exact ⟨positive, Nat.le_trans (Nat.le_mul_of_pos_right _ (powerOfTen_pos 17)) fine⟩
  generalize units * parts / (one * tens) = below at *
  refine ⟨some, ?_⟩
  rw [Nat.mul_assoc, Nat.mul_comm tens one]
  apply roundUnits_near positiveParts digits floor
  exact Nat.le_trans (Nat.mul_le_mul_right _ (by omega)) fine

/-- What is cut off from a number that is not too large is in reach. -/
theorem cut_inReach {one below : Nat} (large : units < one * powerOfTen 309) (some : 0 < below)
    (least : -348 ≤ power)
    (floor : below * (one * powerOfTen power.toNat) ≤ units * powerOfTen (-power).toNat) :
    InReach ⟨false, below, power⟩ := by
  have short : below * powerOfTen power.toNat < powerOfTen (309 + (-power).toNat) := by
    apply Nat.lt_of_mul_lt_mul_left (a := one)
    calc one * (below * powerOfTen power.toNat)
        = below * (one * powerOfTen power.toNat) := Nat.mul_left_comm ..
      _ ≤ units * powerOfTen (-power).toNat := floor
      _ < one * powerOfTen 309 * powerOfTen (-power).toNat :=
          Nat.mul_lt_mul_of_pos_right large (powerOfTen_pos _)
      _ = one * powerOfTen (309 + (-power).toNat) := by rw [powerOfTen_add, Nat.mul_assoc]
  have bounded : power.toNat < 309 + (-power).toNat := by
    apply (Nat.pow_lt_pow_iff_right (a := 10) (by decide)).mp
    exact Nat.lt_of_le_of_lt (Nat.le_mul_of_pos_left _ some) short
  have size : (Decimal.digitsOf below).length ≤ (309 - power).toNat := by
    apply (Nat.length_toDigits_le_iff (by decide) (by omega)).mpr
    apply Nat.lt_of_mul_lt_mul_right (a := powerOfTen power.toNat)
    have exponents : 309 + (-power).toNat = (309 - power).toNat + power.toNat := by omega
    rw [exponents, powerOfTen_add] at short
    exact short
  have written : 0 < (Decimal.digitsOf below).length := Nat.length_toDigits_pos
  unfold InReach Decimal.size
  dsimp only
  omega

/-- A number of the format, cut off after eighteen digits, reads back as it. -/
theorem below_readsBack (format : InFormat (.finite false units)) (grid : Grid units power) :
    readsBack units ((onGrid units power).1 / (onGrid units power).2) power = true := by
  cases format with
  | finite inside digits =>
    have positive : 0 < one * powerOfTen power.toNat := Nat.mul_pos one_positive (powerOfTen_pos _)
    have largest : limit ≤ one * powerOfTen 309 := by decide +kernel
    rw [onGrid_eq]
    dsimp only
    obtain ⟨some, near⟩ := cut_rounds digits positive (powerOfTen_pos _) grid.fine
    have reach := cut_inReach (Nat.lt_of_lt_of_le inside largest) some grid.least
      (Nat.div_mul_le_self ..)
    unfold readsBack
    rw [ofDecimal_eq (Nat.ne_of_gt some) reach]
    dsimp only
    rw [nearest_eq (near.symm ▸ inside), near]
    exact beq_self_eq_true _

end

theorem readsBack_iff {units coefficient : Nat} {power : Int} :
    readsBack units coefficient power = true ↔
      ofDecimal ⟨false, coefficient, power⟩ = .finite false units := by
  unfold readsBack
  exact beq_iff_eq

theorem roundHalfEven_cases (num den : Nat) :
    roundHalfEven num den = num / den ∨ roundHalfEven num den = num / den + 1 := by
  unfold roundHalfEven
  dsimp only
  split
  · exact Or.inl rfl
  · split
    · exact Or.inr rfl
    · omega

theorem onGrid?_readsBack {units coefficient : Nat} {power : Int}
    (found : onGrid? units power = some coefficient) : readsBack units coefficient power = true := by
  unfold onGrid? at found
  dsimp only at found
  split at found
  next below above =>
    cases found
    rcases roundHalfEven_cases (onGrid units power).1 (onGrid units power).2 with same | same <;>
      rw [same]
    · exact below
    · exact above
  next below _ =>
    cases found
    exact below
  next _ above =>
    cases found
    exact above
  next => cases found

theorem dropZeros_readsBack {units count coefficient : Nat} {power : Int}
    (reads : readsBack units coefficient power = true) :
    readsBack units (dropZeros count coefficient power).1 (dropZeros count coefficient power).2 =
      true := by
  induction count generalizing coefficient power with
  | zero => exact reads
  | succ count ih =>
    unfold dropZeros
    split
    next ends =>
      apply ih
      have tens : coefficient / 10 * powerOfTen 1 = coefficient := Nat.div_mul_cancel (Nat.dvd_of_mod_eq_zero ends)
      have shifted := ofDecimal_shift false (coefficient / 10) (power + 1) 1
      have back : power + 1 - (1 : Nat) = power := by omega
      rw [tens, back] at shifted
      rw [readsBack_iff, ← shifted]
      exact readsBack_iff.mp reads
    next => exact reads

/-- The search ends by the eighteenth digit, and what it finds reads back. -/
theorem shortestFrom_readsBack {units : Nat} {leading : Int}
    (ends : (onGrid? units (leading - 17)).isSome = true) {steps digits : Nat} (early : digits ≤ 17)
    (enough : 17 < digits + steps) :
    readsBack units (shortestFrom units leading steps digits).1
      (shortestFrom units leading steps digits).2 = true := by
  induction steps generalizing digits with
  | zero => omega
  | succ steps ih =>
    unfold shortestFrom
    dsimp only
    split
    next found => exact dropZeros_readsBack (onGrid?_readsBack found)
    next missing =>
      have sooner : digits ≠ 17 := by
        intro last
        subst last
        rw [show (leading - (17 : Nat)) = leading - 17 from rfl] at missing
        rw [missing] at ends
        cases ends
      exact ih (by omega) (by omega)

theorem onGrid?_isSome {units : Nat} {power : Int}
    (below : readsBack units ((onGrid units power).1 / (onGrid units power).2) power = true) :
    (onGrid? units power).isSome = true := by
  unfold onGrid?
  dsimp only
  rw [below]
  cases readsBack units ((onGrid units power).1 / (onGrid units power).2 + 1) power <;> rfl

/-- The shortest decimal number for a number of the format reads back as it. -/
theorem ofDecimal_shortest {negative : Bool} {units : Nat}
    (format : InFormat (.finite negative units)) :
    ofDecimal (shortest negative units) = .finite negative units := by
  unfold shortest
  split
  next zero =>
    rw [zero]
    rfl
  next some =>
    have unsigned : InFormat (.finite false units) := by
      cases format with
      | finite inside digits => exact .finite inside digits
    have ends := onGrid?_isSome (below_readsBack unsigned (grid_of_leading (Nat.pos_of_ne_zero some)))
    have reads := shortestFrom_readsBack ends (Nat.zero_le 17) (show 17 < 0 + 18 by decide)
    generalize shortestFrom units (leadingPower units) 18 0 = found at reads ⊢
    exact ofDecimal_sign (readsBack_iff.mp reads) negative

end Curbside.Proofs.Shortest

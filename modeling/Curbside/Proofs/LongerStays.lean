import Curbside.Proofs.BilledUnits

/-! A longer stay never costs less. Counting units and rounding their product keep order, so the
price can only rise with the time, and where a longer stay has a price a shorter one has a price
too. No price lies below zero, and the items of a price come to its total. -/

namespace Curbside.Proofs.LongerStays
open Binary64 Rounding Products Pricing BilledUnits

theorem billedUnits_mono {shorter longer : Span} {length : Nat} (ordered : shorter ≤ longer)
    (short : longer.toNat < powerOfTwo 53 * length) (positive : 0 < length) :
    Cost.billedUnits shorter length ≤ Cost.billedUnits longer length := by
  have notNegative := billedUnits_nonneg longer length
  by_cases past : shorter ≤ 0
  · rw [billedUnits_none (Int.natCast_pos.mpr positive) past]
    exact notNegative
  · have lasting : 0 < shorter := Int.not_le.mp past
    obtain ⟨less, same⟩ := Int.eq_ofNat_of_zero_le (Int.le_of_lt lasting)
    obtain ⟨more, sameLonger⟩ := Int.eq_ofNat_of_zero_le (Int.le_trans (Int.le_of_lt lasting) ordered)
    obtain ⟨units, counted⟩ := Int.eq_ofNat_of_zero_le notNegative
    subst same sameLonger
    have fewer : less ≤ more := Int.ofNat_le.mp ordered
    rw [counted, billedUnits_le_iff (Nat.lt_of_le_of_lt fewer short) positive units]
    calc roundUnits (less * one) length
        ≤ roundUnits (more * one) length := roundUnits_mono positive (Nat.mul_le_mul_right one fewer)
      _ ≤ units * one := (billedUnits_le_iff short positive units).mp (Int.le_of_eq counted)

theorem magnitude_ofInt_mono {units more : Int} (notNegative : 0 ≤ units) (ordered : units ≤ more) :
    magnitude (Decimal.ofInt units) ≤ magnitude (Decimal.ofInt more) := by
  rw [magnitude_ofInt notNegative, magnitude_ofInt (Int.le_trans notNegative ordered)]
  exact Int.cast_le.mpr ordered

/-- A price that is not below zero and is what its items come to. -/
structure Adds (cost : Cost) : Prop where
  notNegative : 0 ≤ value cost.total.amount
  sum : (cost.breakdown.map fun item => value item.amount).sum = value cost.total.amount

theorem ofItem_adds (currency description : String) {amount : Decimal}
    (nonNegative : amount.isNonNegative = true) : Adds (Cost.ofItem currency description amount) := by
  refine ⟨?_, by simp [Cost.ofItem]⟩
  rw [Cost.ofItem, value_of_nonNegative nonNegative]
  exact magnitude_nonneg amount

theorem free_adds (currency : String) : Adds ⟨⟨Decimal.ofInt 0, currency⟩, []⟩ := by
  have nothing : value (Decimal.ofInt 0) = 0 := by simp [value, magnitude, Decimal.ofInt]
  exact ⟨nothing.ge, nothing.symm⟩

theorem ofInt_unsigned {units : Int} (notNegative : 0 ≤ units) :
    (Decimal.ofInt units).negative = false :=
  decide_eq_false (Int.not_lt.mpr notNegative)

/-- Fewer units of an amount come to no more, and they come to something if more of them do. -/
theorem product_mono {amount high : Decimal} {units more : Int}
    (nonNegative : amount.isNonNegative = true) (some_ : 0 ≤ units) (ordered : units ≤ more)
    (product : amount.mul? (Decimal.ofInt more) = some high) :
    ∃ low, amount.mul? (Decimal.ofInt units) = some low ∧ low.isNonNegative = true ∧
      high.isNonNegative = true ∧ value low ≤ value high := by
  have sizes := magnitude_ofInt_mono some_ ordered
  cases fewer : amount.mul? (Decimal.ofInt units) with
  | none =>
    have large : tooMuch ≤ magnitude amount * magnitude (Decimal.ofInt more) :=
      le_trans (mul?_eq_none_iff.mp fewer) (mul_le_mul_of_nonneg_left sizes (magnitude_nonneg amount))
    rw [mul?_eq_none_iff.mpr large] at product
    cases product
  | some low =>
    have lowSign := mul?_nonNegative nonNegative (ofInt_unsigned some_) fewer
    have highSign := mul?_nonNegative nonNegative (ofInt_unsigned (some_.trans ordered)) product
    refine ⟨low, rfl, lowSign, highSign, ?_⟩
    rw [value_of_nonNegative lowSign, value_of_nonNegative highSign]
    exact mul?_mono sizes fewer product

/-- Under tiers whose amounts are not below zero, a stay has a price whenever a longer one has, and
costs no more, in the same currency. -/
theorem longer_stay_costs_no_less {currency : String} {tiers : List Tier} {start : Wall}
    {shorter longer : Span} {high : Cost}
    (valid : ∀ tier ∈ tiers, tier.amount.isNonNegative = true) (ordered : shorter ≤ longer)
    (held : Span.checked longer = .ok longer)
    (priced : Cost.ofStay currency tiers start longer = .ok high) :
    ∃ low, Cost.ofStay currency tiers start shorter = .ok low ∧
      value low.total.amount ≤ value high.total.amount ∧
      low.total.currency = high.total.currency ∧ Adds low ∧ Adds high := by
  have nonNegative {tier : Tier} (first : First tiers start tier) :
      tier.amount.isNonNegative = true := by
    obtain ⟨before, after, split, _⟩ := first
    exact valid tier (by simp [split])
  cases ofStay_iff.mp priced with
  | free unapplied =>
    have adds := free_adds currency
    exact ⟨_, Priced.result (.free unapplied), le_refl _, rfl, adds, adds⟩
  | @whole tier first unitless =>
    have adds := ofItem_adds tier.currency (Cost.describedAs tier tier.billing.wholeStay)
      (nonNegative first)
    exact ⟨_, Priced.result (.whole first unitless), le_refl _, rfl, adds, adds⟩
  | units first billed product =>
    obtain ⟨minutes, length, least, most⟩ := unit_length billed
    have positive : 0 < minutes * 60000000 := by omega
    have fewer := billedUnits_mono ordered (span_short held (by omega)) positive
    rw [← length] at fewer
    obtain ⟨low, multiplied, lowSign, highSign, less⟩ :=
      product_mono (nonNegative first) (billedUnits_nonneg shorter _) fewer product
    exact ⟨_, Priced.result (.units first billed multiplied), less, rfl,
      ofItem_adds _ _ lowSign, ofItem_adds _ _ highSign⟩

/-- Ten thirds of a dollar for an hour, with one digit more than a product can keep. -/
def thirdsRate : Tier :=
  ⟨⟨false, 33333333333333333333333333333, -28⟩, "USD", none, .hourly, none⟩

/-- Both prices have more digits than can be kept. -/
theorem seven_hours_cost_no_less : (∀ tier ∈ [thirdsRate], tier.amount.isNonNegative = true) ∧
    2 * hour.length ≤ 7 * hour.length ∧
    Span.checked (7 * hour.length) = .ok (7 * hour.length) ∧
    ∃ low high, Cost.ofStay "USD" [thirdsRate] Service.opening (2 * hour.length) = .ok low ∧
      Cost.ofStay "USD" [thirdsRate] Service.opening (7 * hour.length) = .ok high ∧
      high.total.amount = ⟨false, 2333333333333333333333333333, -26⟩ ∧
      value low.total.amount ≤ value high.total.amount ∧
      low.total.currency = high.total.currency ∧ Adds low ∧ Adds high := by
  have valid : ∀ tier ∈ [thirdsRate], tier.amount.isNonNegative = true := by decide
  have ordered : 2 * hour.length ≤ 7 * hour.length := by decide
  have held : Span.checked (7 * hour.length) = .ok (7 * hour.length) := rfl
  have first : First [thirdsRate] Service.opening thirdsRate := ⟨[], [], rfl, by simp, rfl⟩
  have billed : thirdsRate.billing.unit? = some hour := rfl
  have product : thirdsRate.amount.mul?
      (Decimal.ofInt (Cost.billedUnits (7 * hour.length) hour.length)) =
        some ⟨false, 2333333333333333333333333333, -26⟩ := by decide +kernel
  have priced : Cost.ofStay "USD" [thirdsRate] Service.opening (7 * hour.length) = _ :=
    Priced.result (.units first billed product)
  obtain ⟨low, cheaper, less, same, adds, otherAdds⟩ :=
    longer_stay_costs_no_less valid ordered held priced
  exact ⟨valid, ordered, held, low, _, cheaper, priced, rfl, less, same, adds, otherAdds⟩

end Curbside.Proofs.LongerStays

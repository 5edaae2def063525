import Curbside.Proofs.Pricing
import Curbside.Proofs.Quotients

/-! How many units of time are billed for a stay. Units are counted on the binary64 number nearest
to a quotient, so a unit that has only just begun can be lost after very many others. Apart from
that, the count is the least number of units into which the stay fits. -/

namespace Curbside.Proofs.BilledUnits
open Wall WallClock Binary64 Rounding Confidence Quotients Pricing

/-- The least number of units of a length into which a stay fits. -/
structure FitsInto (duration length : Span) (units : Int) : Prop where
  covers : duration ≤ units * length
  least : ∀ fewer, duration ≤ fewer * length → units ≤ fewer

/-- What a stay lasts beyond its whole units is at most half the distance between the binary64
numbers among which its units are counted. -/
structure Unseen (duration length : Span) : Prop where
  begun : duration % length ≠ 0
  small : powerOfTwo 53 * (duration % length) ≤ length * powerOfTwo (duration / length).toNat.log2

theorem FitsInto.unique {duration length : Span} {units others : Int}
    (fits : FitsInto duration length units) (otherFits : FitsInto duration length others) :
    units = others :=
  Int.le_antisymm (fits.least others otherFits.covers) (otherFits.least units fits.covers)

theorem fitsInto_whole {length : Span} (positive : 0 < length) (units : Int) :
    FitsInto (units * length) length units :=
  ⟨Int.le_refl _, fun _ covers => Int.le_of_mul_le_mul_right covers positive⟩

theorem fitsInto_begun {duration length : Span} (positive : 0 < length) {units : Int}
    (past : units * length < duration) (inside : duration ≤ (units + 1) * length) :
    FitsInto duration length (units + 1) := by
  refine ⟨inside, ?_⟩
  intro fewer covers
  exact Int.lt_of_mul_lt_mul_right (Int.lt_of_lt_of_le past covers) (Int.le_of_lt positive)

/-- A count is rounded up to the next whole number. -/
theorem ceil?_le_iff (units count : Nat) :
    ((finite false units).ceil?).getD 0 ≤ (count : Int) ↔ units ≤ count * one := by
  have positive : (0 : Int) < one := Int.natCast_pos.mpr one_positive
  unfold Binary64.ceil? signedUnits
  generalize one = one at positive ⊢
  simp only [Bool.false_eq_true, if_false, Option.getD_some]
  rw [Int.fdiv_eq_ediv_of_nonneg _ (Int.natCast_nonneg one), neg_le,
    Int.le_ediv_iff_mul_le positive, Int.neg_mul, Int.neg_le_neg_iff]
  norm_cast

theorem billedUnits_none {duration length : Span} (positive : 0 < length) (past : duration ≤ 0) :
    Cost.billedUnits duration length = 0 := by
  have nothing : max duration 0 = 0 := Int.max_eq_right past
  have none : roundUnits (0 * one) length.toNat = 0 := by
    rw [Nat.zero_mul]
    exact roundUnits_zero (Int.pos_iff_toNat_pos.mp positive)
  have fits : roundUnits (0 * one) length.toNat < limit := by
    rw [none]
    exact powerOfTwo_pos 2098
  apply Int.le_antisymm _ (billedUnits_nonneg duration length)
  unfold Cost.billedUnits ofRatio
  rw [nothing, Int.natAbs_zero, nearest_eq fits, none]
  exact (ceil?_le_iff 0 0).mpr (Nat.zero_le _)

section
variable {stay length : Nat} (short : stay < powerOfTwo 53 * length) (positive : 0 < length)
include short positive

theorem billedUnits_le_iff (count : Nat) :
    Cost.billedUnits stay length ≤ count ↔ roundUnits (stay * one) length ≤ count * one := by
  have lasting : max (stay : Int) 0 = stay := Int.max_eq_left (Int.natCast_nonneg stay)
  unfold Cost.billedUnits ofRatio
  rw [lasting, Int.natAbs_natCast, Int.toNat_natCast,
    decide_eq_false (Int.not_lt.mpr (Int.natCast_nonneg stay)), nearest_short short positive]
  exact ceil?_le_iff _ count

/-- No more units are billed than a stay fits into. -/
theorem billedUnits_le {count : Nat} (inside : stay ≤ count * length) :
    Cost.billedUnits stay length ≤ count :=
  (billedUnits_le_iff short positive count).mpr (roundUnits_le short positive inside)

/-- All whole units of a stay are billed. -/
theorem le_billedUnits {count : Nat} (reached : count * length ≤ stay) :
    count ≤ Cost.billedUnits stay length := by
  have notNegative := billedUnits_nonneg stay length
  obtain ⟨units, same⟩ := Int.eq_ofNat_of_zero_le notNegative
  have bounded := (billedUnits_le_iff short positive units).mp (Int.le_of_eq same)
  have least := Nat.le_trans (le_roundUnits short positive reached) bounded
  rw [same]
  exact Int.ofNat_le.mpr (Nat.le_of_mul_le_mul_right least one_positive)

/-- A unit that has begun is lost exactly if it cannot be seen. -/
theorem billedUnits_begun {units : Nat} (fine : length < powerOfTwo 53) (digits : units < powerOfTwo 52)
    (past : units * length < stay) (inside : stay < (units + 1) * length) :
    Cost.billedUnits stay length =
      if powerOfTwo 53 * (stay - units * length) ≤ length * powerOfTwo units.log2 then (units : Int)
      else units + 1 := by
  have least := le_billedUnits short positive (Nat.le_of_lt past)
  have most := billedUnits_le short positive (Nat.le_of_lt inside)
  have lost := billedUnits_le_iff short positive units
  rw [roundUnits_le_floor_iff fine digits (Nat.le_of_lt past) inside] at lost
  split
  next small =>
    have few := lost.mpr small
    omega
  next large =>
    have more := mt lost.mp large
    push_cast at most
    omega

end

theorem unit_length {billing : Billing} {unit : BillingUnit} (billed : billing.unit? = some unit) :
    ∃ minutes : Nat, unit.length = (minutes * 60000000 : Nat) ∧ 60 ≤ minutes ∧ minutes ≤ 10080 := by
  cases billing with
  | hourly =>
    cases billed
    exact ⟨60, rfl, by decide, by decide⟩
  | daily =>
    cases billed
    exact ⟨1440, rfl, by decide, by decide⟩
  | weekly =>
    cases billed
    exact ⟨10080, rfl, by decide, by decide⟩
  | monthly | flat => cases billed

theorem span_lt {duration : Span} (held : Span.checked duration = .ok duration) :
    duration < 1000000000 * dayLength := by
  unfold Span.checked at held
  dsimp only at held
  split at held
  next inside =>
    rw [Bool.and_eq_true, decide_eq_true_eq, decide_eq_true_eq,
      Int.fdiv_eq_ediv_of_nonneg _ (by decide)] at inside
    simp only [Span.mostDays, dayLength_eq, Span] at *
    omega
  next => cases held

/-- A span that can be held is so short that whole numbers of its units are exact. -/
theorem span_short {duration : Span} {minutes : Nat} (held : Span.checked duration = .ok duration)
    (some : 0 < minutes) : duration.toNat < powerOfTwo 53 * (minutes * 60000000) := by
  have bound := span_lt held
  have large : powerOfTwo 53 = 9007199254740992 := rfl
  rw [large]
  simp only [dayLength_eq, Span] at *
  omega

theorem unseen_iff {stay length : Nat} : Unseen stay length ↔
    stay % length ≠ 0 ∧ powerOfTwo 53 * (stay % length) ≤ length * powerOfTwo (stay / length).log2 := by
  have rest : (stay : Int) % length = (stay % length : Nat) := rfl
  have units : ((stay : Int) / length).toNat = stay / length := rfl
  constructor
  · intro unseen
    have begun := unseen.begun
    have small := unseen.small
    rw [rest] at begun small
    rw [units] at small
    exact ⟨by exact_mod_cast begun, by exact_mod_cast small⟩
  · intro ⟨begun, small⟩
    refine ⟨?_, ?_⟩
    · rw [rest]
      exact_mod_cast begun
    · rw [rest, units]
      exact_mod_cast small

/-- The units billed for a stay are the least into which it fits, unless the one that began last
cannot be seen. Then they are one fewer. -/
theorem billed_count {stay length : Nat} (short : stay < powerOfTwo 53 * length)
    (fine : length < powerOfTwo 53) (digits : stay / length < powerOfTwo 52) (positive : 0 < length) :
    (¬ Unseen stay length → FitsInto stay length (Cost.billedUnits stay length)) ∧
      (Unseen stay length → FitsInto stay length (Cost.billedUnits stay length + 1)) := by
  have lengthPositive : (0 : Int) < length := Int.natCast_pos.mpr positive
  have parts := Nat.div_add_mod' stay length
  by_cases whole : stay % length = 0
  · have same : stay = stay / length * length := by omega
    have billed : Cost.billedUnits stay length = (stay / length : Nat) := by
      apply Int.le_antisymm
      · exact billedUnits_le short positive (Nat.le_of_eq same)
      · exact le_billedUnits short positive (Nat.le_of_eq same.symm)
    have fits : FitsInto stay length (stay / length : Nat) := by
      have fits := fitsInto_whole lengthPositive (stay / length : Nat)
      rw [← Int.natCast_mul, ← same] at fits
      exact fits
    rw [billed]
    exact ⟨fun _ => fits, fun unseen => absurd whole (unseen_iff.mp unseen).1⟩
  · have past : stay / length * length < stay := by omega
    have inside : stay < (stay / length + 1) * length := by
      have rest := Nat.mod_lt stay positive
      rw [Nat.add_mul, Nat.one_mul]
      omega
    have rest : stay - stay / length * length = stay % length := by omega
    have fits : FitsInto stay length ((stay / length : Nat) + 1) := by
      apply fitsInto_begun lengthPositive
      · exact_mod_cast past
      · exact_mod_cast Nat.le_of_lt inside
    have billed := billedUnits_begun short positive fine digits past inside
    rw [rest] at billed
    constructor
    · intro seen
      rw [billed, if_neg fun small => seen (unseen_iff.mpr ⟨whole, small⟩)]
      exact fits
    · intro unseen
      rw [billed, if_pos (unseen_iff.mp unseen).2]
      exact fits

/-- What cannot be seen of a stay is a very small part of it. -/
theorem unseen_scarce {stay length : Nat} (fine : length < powerOfTwo 53)
    (unseen : Unseen stay length) : powerOfTwo 53 * (stay % length) ≤ stay := by
  obtain ⟨begun, small⟩ := unseen_iff.mp unseen
  have some : stay / length ≠ 0 := by
    intro none
    have large : powerOfTwo 53 ≤ powerOfTwo 53 * (stay % length) :=
      Nat.le_mul_of_pos_right _ (Nat.pos_of_ne_zero begun)
    have single : powerOfTwo (Nat.log2 0) = 1 := rfl
    rw [none, single, Nat.mul_one] at small
    omega
  calc powerOfTwo 53 * (stay % length)
      ≤ length * powerOfTwo (stay / length).log2 := small
    _ ≤ length * (stay / length) := Nat.mul_le_mul_left length (Nat.log2_self_le some)
    _ ≤ stay := Nat.mul_div_le stay length

/-- A stay of whole minutes lasts no less than a minute beyond whole units, which can be seen. -/
theorem minutes_seen {minutes count : Nat} (fine : minutes * 60000000 < powerOfTwo 53)
    (few : count * 60000000 < 1000000000 * 86400000000) :
    ¬ Unseen (count * 60000000 : Nat) (minutes * 60000000 : Nat) := by
  intro unseen
  have scarce := unseen_scarce fine unseen
  have begun := (unseen_iff.mp unseen).1
  have large : powerOfTwo 53 = 9007199254740992 := rfl
  rw [Nat.mul_mod_mul_right] at scarce begun
  rw [large] at scarce
  omega

/-- The price of a stay of so many units in a tier. -/
def priceOf (tier : Tier) (unit : BillingUnit) (units : Int) : Except Failure Cost :=
  (tier.amount.mul? (Decimal.ofInt units)).elim (.error .amountTooLarge) fun amount =>
    .ok (Cost.ofItem tier.currency (Cost.rateText tier unit units) amount)

/-- Under a tier that is billed by units of time, a stay that does not last has no units, and one
that lasts has the least number of them into which it fits, exactly if what it lasts beyond whole
units can be seen. If that cannot be seen, it has one fewer. In a stay of whole minutes it can. -/
theorem started_units_billed {currency : String} {tiers : List Tier} {start : Wall} {duration : Span}
    {tier : Tier} {unit : BillingUnit} (first : First tiers start tier)
    (billed : tier.billing.unit? = some unit) (held : Span.checked duration = .ok duration) :
    Cost.ofStay currency tiers start duration =
        priceOf tier unit (Cost.billedUnits duration unit.length) ∧
      (duration ≤ 0 → Cost.billedUnits duration unit.length = 0) ∧
      (0 < duration →
        (FitsInto duration unit.length (Cost.billedUnits duration unit.length) ↔
          ¬ Unseen duration unit.length) ∧
        (Unseen duration unit.length →
          FitsInto duration unit.length (Cost.billedUnits duration unit.length + 1)) ∧
        (duration % minuteLength = 0 → ¬ Unseen duration unit.length)) := by
  obtain ⟨minutes, length, least, most⟩ := unit_length billed
  have price : Cost.ofStay currency tiers start duration =
      priceOf tier unit (Cost.billedUnits duration unit.length) := by
    rw [Cost.ofStay, select?_iff.mpr first]
    exact underTier_units billed rfl
  refine ⟨price, ?_, ?_⟩
  · rw [length]
    exact billedUnits_none (Int.natCast_pos.mpr (by omega))
  · intro lasting
    obtain ⟨stay, same⟩ := Int.eq_ofNat_of_zero_le (Int.le_of_lt lasting)
    subst same
    have short : stay < powerOfTwo 53 * (minutes * 60000000) := span_short held (by omega)
    have large : powerOfTwo 53 = 9007199254740992 ∧ powerOfTwo 52 = 4503599627370496 := ⟨rfl, rfl⟩
    have few : stay < 1000000000 * 86400000000 := Int.ofNat_lt.mp (span_lt held)
    have positive : 0 < minutes * 60000000 := by omega
    have fine : minutes * 60000000 < powerOfTwo 53 := by omega
    have digits : stay / (minutes * 60000000) < powerOfTwo 52 := by
      rw [Nat.div_lt_iff_lt_mul positive, large.2]
      omega
    rw [length]
    obtain ⟨seen, unseen⟩ := billed_count short fine digits positive
    refine ⟨⟨?_, seen⟩, unseen, ?_⟩
    · intro fits lost
      have more := fits.unique (unseen lost)
      omega
    · intro whole
      have shown : stay % 60000000 = 0 := Int.ofNat_inj.mp whole
      obtain ⟨count, same⟩ : ∃ count, stay = count * 60000000 := ⟨stay / 60000000, by omega⟩
      rw [same] at few ⊢
      exact minutes_seen fine few

def hour : BillingUnit := ⟨60 * minuteLength, "hour", "hr"⟩

def hourRate : Tier := ⟨⟨false, 250, -2⟩, "USD", none, .hourly, none⟩

/-- So many hours that the next binary64 number of hours is more than three microseconds away. -/
def manyHours : Span := 4194304 * hour.length

theorem hourRate_first : First [hourRate] Service.opening hourRate :=
  ⟨[], [], rfl, by simp, rfl⟩

theorem next_hour_fits {spare : Span} (some : 0 < spare) (inside : spare ≤ hour.length) :
    FitsInto (manyHours + spare) hour.length 4194305 := by
  have fits : FitsInto (manyHours + spare) hour.length (4194304 + 1) := by
    apply fitsInto_begun (by decide)
    · exact Int.lt_add_of_pos_right _ some
    · rw [Int.add_mul, Int.one_mul]
      exact Int.add_le_add_left inside _
  exact fits

/-- Two microseconds beyond so many hours are billed as an hour. -/
theorem two_spare_microseconds_billed : First [hourRate] Service.opening hourRate ∧
    hourRate.billing.unit? = some hour ∧
    Span.checked (manyHours + 2) = .ok (manyHours + 2) ∧
    FitsInto (manyHours + 2) hour.length 4194305 ∧
    Cost.ofStay "USD" [hourRate] Service.opening (manyHours + 2) = priceOf hourRate hour 4194305 := by
  have held : Span.checked (manyHours + 2) = .ok (manyHours + 2) := rfl
  have fits : FitsInto (manyHours + 2) hour.length 4194305 := next_hour_fits (by decide) (by decide)
  obtain ⟨price, _, counted⟩ := started_units_billed hourRate_first rfl held
  have seen : ¬ Unseen (manyHours + 2) hour.length := fun unseen =>
    absurd unseen.small (by decide +kernel)
  have billed := (counted (by decide)).1.mpr seen
  rw [billed.unique fits] at price
  exact ⟨hourRate_first, rfl, held, fits, price⟩

/-- A single microsecond beyond so many hours is lost. -/
theorem spare_microsecond_lost : First [hourRate] Service.opening hourRate ∧
    hourRate.billing.unit? = some hour ∧
    Span.checked (manyHours + 1) = .ok (manyHours + 1) ∧ 0 < manyHours + 1 ∧
    Cost.billedUnits (manyHours + 1) hour.length = 4194304 ∧
    Cost.ofStay "USD" [hourRate] Service.opening (manyHours + 1) = priceOf hourRate hour 4194304 ∧
    ¬ FitsInto (manyHours + 1) hour.length 4194304 := by
  have billed : Cost.billedUnits (manyHours + 1) hour.length = 4194304 := by decide +kernel
  have price : Cost.ofStay "USD" [hourRate] Service.opening (manyHours + 1) =
      priceOf hourRate hour 4194304 := by
    rw [Cost.ofStay, select?_iff.mpr hourRate_first, ← billed]
    exact underTier_units rfl rfl
  refine ⟨hourRate_first, rfl, rfl, by decide, billed, price, ?_⟩
  intro fits
  exact absurd fits.covers (by decide)

end Curbside.Proofs.BilledUnits

import Curbside.Tariff.Tier

/-! What a stay costs. A started unit of time is billed in full, and a stay to which no tier
applies costs nothing. -/

namespace Curbside

structure Money where
  amount : Decimal
  currency : String
  deriving DecidableEq

structure LineItem where
  description : String
  amount : Decimal
  deriving DecidableEq

/-- A total and the items that it is made of. -/
structure Cost where
  total : Money
  breakdown : List LineItem
  deriving DecidableEq

/-- A unit of time by which a stay is billed, its word in a count, and its word in a rate. -/
structure BillingUnit where
  length : Span
  word : String
  rateWord : String

namespace Billing

/-- The unit of time, unless the amount is charged for the stay as a whole. -/
def unit? : Billing → Option BillingUnit
  | hourly => some ⟨60 * Wall.minuteLength, "hour", "hr"⟩
  | daily => some ⟨Wall.dayLength, "day", "day"⟩
  | weekly => some ⟨7 * Wall.dayLength, "week", "week"⟩
  | monthly | flat => none

/-- How an amount for a whole stay is described when the tier does not say. -/
def wholeStay : Billing → String
  | monthly => "Monthly parking"
  | _ => "Flat rate"

end Billing

namespace Cost

/-- The units billed for a stay: the least integer that is not below the binary64 number nearest
to the quotient. A stay that does not last has none. -/
def billedUnits (duration length : Span) : Int :=
  ((Binary64.ofRatio (max duration 0) length.toNat).ceil?).getD 0

/-- A count of units and the rate in words. A rate with more digits than memory holds reaches this
point only with no units to bill, since any other product with it is too large. -/
def rateText (tier : Tier) (unit : BillingUnit) (units : Int) : String :=
  let label := if units = 1 then unit.word else unit.word ++ "s"
  toString units ++ " " ++ label ++ " @ " ++ String.ofList (tier.amount.fixed 2) ++ " "
    ++ tier.currency ++ "/" ++ unit.rateWord

def ofItem (currency description : String) (amount : Decimal) : Cost :=
  ⟨⟨amount, currency⟩, [⟨description, amount⟩]⟩

/-- The description of a tier, or another one if it is empty or missing. -/
def describedAs (tier : Tier) (usual : String) : String :=
  match tier.description with
  | none => usual
  | some description => if description = "" then usual else description

def underTier (tier : Tier) (duration : Span) : Except Failure Cost :=
  match tier.billing.unit? with
  | none => .ok (ofItem tier.currency (describedAs tier tier.billing.wholeStay) tier.amount)
  | some unit =>
    let units := billedUnits duration unit.length
    match tier.amount.mul? (Decimal.ofInt units) with
    | none => .error .amountTooLarge
    | some amount => .ok (ofItem tier.currency (rateText tier unit units) amount)

/-- The cost of a stay that starts at a reading of the wall clock. The currency is the one in
which nothing is charged when no tier applies. -/
def ofStay (currency : String) (tiers : List Tier) (start : Wall) (duration : Span) :
    Except Failure Cost :=
  match Tier.select? tiers start with
  | none => .ok ⟨⟨Decimal.ofInt 0, currency⟩, []⟩
  | some tier => underTier tier duration

end Cost

end Curbside

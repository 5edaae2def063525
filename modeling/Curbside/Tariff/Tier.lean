import Curbside.Calendar.Span
import Curbside.Rule.Record

/-! A tariff is a list of tiers. Each tier has an amount for a unit of time or for the whole
stay, and perhaps a window in which it applies. The first tier that applies is the one that
counts. -/

namespace Curbside

/-- What the amount of a tier is charged for. -/
inductive Billing where
  | hourly
  | daily
  | weekly
  | monthly
  | flat
  deriving DecidableEq, Repr

namespace Billing

def all : List Billing := [hourly, daily, weekly, monthly, flat]

def name : Billing → String
  | hourly => "hourly"
  | daily => "daily"
  | weekly => "weekly"
  | monthly => "monthly"
  | flat => "flat"

def decode : Decoder Billing := Decoder.oneOf all name

end Billing

/-- An amount of money and what it is charged for. -/
structure Tier where
  amount : Decimal
  currency : String
  applicability : Option Window
  billing : Billing
  description : Option String
  deriving DecidableEq

namespace Tier

/-- Whether a tier applies at a reading of the wall clock. A tier without a window always does. -/
def appliesAt (tier : Tier) (wall : Wall) : Bool := tier.applicability.all (·.activeAt wall)

def select? (tiers : List Tier) (wall : Wall) : Option Tier := tiers.find? (·.appliesAt wall)

def selectedIndex? (tiers : List Tier) (wall : Wall) : Option Nat :=
  tiers.findIdx? (·.appliesAt wall)

def encode (tier : Tier) : Json :=
  .object [("amount", tier.amount.encode), ("currency", .string tier.currency),
    ("applicability", .orNull Window.encode tier.applicability),
    ("billing", .string tier.billing.name), ("description", .orNull .string tier.description)]

/-- The currency of a tier that states none. -/
def usualCurrency : String := "USD"

def decode : Decoder Tier :=
  Decoder.record "RateTier" fun members =>
    Tier.mk
      <$> Decoder.required members "amount" Decoder.amount
      <*> Decoder.optional members "currency" usualCurrency (Decoder.stringOfLength 3)
      <*> Decoder.optional members "applicability" none (Decoder.nullable Window.decode)
      <*> Decoder.required members "billing" Billing.decode
      <*> Decoder.optional members "description" none (Decoder.nullable Decoder.string)

end Tier

end Curbside

import Curbside.Rule.Basic

/-! What breaking a restriction usually costs, as a band from a least to a most fine for each
kind of rule. -/

namespace Curbside.Fine

/-- A least and a most fine, where the numbers come from, and a remark. A catalog may hold what
is no finite number, and that is noticed when the band is used. -/
structure Band where
  least : Decimal.Reading
  most : Decimal.Reading
  currency : String
  note : String
  source : String
  deriving DecidableEq

abbrev Bands : Type := List (String × Band)

/-- Where the built-in bands come from. -/
def builtInSource : String := "ParkGuard default fine bands"

def usualCurrency : String := "USD"

def builtInBand (least most : Int) (note : String) : Band :=
  ⟨.number (Decimal.ofInt least), .number (Decimal.ofInt most), usualCurrency, note, builtInSource⟩

/-- The bands that hold when nobody provides others. Every kind of restriction has one. -/
def builtIn : Bands :=
  [(Kind.noParking.name, builtInBand 65 115 "No parking violation estimate by zone/time."),
    ((Kind.permitRequired none).name,
      builtInBand 50 100 "Parking without a valid zone permit."),
    (Kind.streetCleaning.name, builtInBand 65 150 "Street cleaning violation estimate."),
    (Kind.loadingZone.name, builtInBand 95 115 "Loading zone misuse estimate.")]

end Curbside.Fine

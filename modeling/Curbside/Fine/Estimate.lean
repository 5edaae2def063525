import Curbside.Fine.Band
import Curbside.Rule.Record

/-! The fine that a driver risks under a restriction. A fine printed on the sign wins over the
band of its kind, and a rule that restricts nothing has no fine. -/

namespace Curbside

/-- What a driver risks, from a least to a most amount. -/
structure Fine where
  ruleType : String
  least : Decimal
  most : Decimal
  currency : String
  severity : Severity
  source : String
  note : Option String
  deriving DecidableEq

namespace Fine

/-- Where a fine that is printed on a sign comes from. -/
def signSource : String := "Posted on sign"

/-- What comes on top where cars are towed. -/
def towNote : String :=
  "Tow-away zone: towing and storage fees are charged on top of the fine."

/-- A remark that follows from the severity alone. -/
def noteOf : Severity → Option String
  | .towAway => some towNote
  | .warning | .ticket => none

def finite : Decimal.Reading → Checked Decimal
  | .number d => .passed d
  | .notFinite => .fault .notFinite

/-- A fine from a band. -/
def ofBand (ruleType : String) (severity : Severity) (band : Band) : Checked Fine :=
  (fun least most =>
      ⟨ruleType, least, most, band.currency, severity, band.source,
        some ((noteOf severity).getD band.note)⟩)
    <$> (finite band.least).under (.field "min_fine")
    <*> (finite band.most).under (.field "max_fine")

/-- The fine for breaking a rule, if there is one. -/
def estimate (bands : Bands) (rule : Rule) : Except Failure (Option Fine) :=
  if !rule.isRestrictive then .ok none
  else
    match rule.provision.fine with
    | some posted =>
      .ok (some ⟨rule.kind.name, posted, posted, usualCurrency, rule.severity, signSource,
        noteOf rule.severity⟩)
    | none =>
      match bands.lookup rule.kind.name with
      | none => .ok none
      | some band => some <$> (ofBand rule.kind.name rule.severity band).toExcept

def encode (fine : Fine) : Json :=
  .object [("rule_type", .string fine.ruleType), ("min_fine", fine.least.encode),
    ("max_fine", fine.most.encode), ("currency", .string fine.currency),
    ("severity", fine.severity.encode), ("source", .string fine.source),
    ("note", .orNull .string fine.note)]

/-- A fine from its record. It is taken as it stands. -/
def decode : Decoder Fine :=
  Decoder.record "FineEstimate" fun members =>
    Fine.mk
      <$> Decoder.required members "rule_type" Decoder.string
      <*> Decoder.required members "min_fine" Decoder.decimal
      <*> Decoder.required members "max_fine" Decoder.decimal
      <*> Decoder.optional members "currency" usualCurrency Decoder.string
      <*> Decoder.required members "severity" Severity.decode
      <*> Decoder.required members "source" Decoder.string
      <*> Decoder.optional members "note" none (Decoder.nullable Decoder.string)

end Fine

end Curbside

import Curbside.Service.Request

/-! The records by name. A record that passes its checks is written out again with all of its
fields. -/

namespace Curbside.Model

/-- Check a value and write it out. -/
def writtenOut (decode : Decoder α) (encode : α → Json) : Decoder Json := fun value =>
  (decode value).map encode

def kinds : List (String × Decoder Json) :=
  Kind.readers.map fun (model, tag, readKind) =>
    (model, writtenOut (Decoder.record model (Provision.decodeFields tag readKind)) Provision.encode)

def health : Decoder Json :=
  Decoder.record "HealthResponse" fun members =>
    (fun status => .object [("status", .string status)])
      <$> Decoder.required members "status" Decoder.string

def all : List (String × Decoder Json) :=
  kinds ++
    [("HealthResponse", health),
      ("TimeWindow", writtenOut Window.decode Window.encode),
      ("ParkingRule", writtenOut Rule.decode Rule.encode),
      ("RateTier", writtenOut Tier.decode Tier.encode),
      ("Money", writtenOut Money.decode Money.encode),
      ("LineItem", writtenOut LineItem.decode LineItem.encode),
      ("CostBreakdown", writtenOut Cost.decode Cost.encode),
      ("LegalityVerdict", writtenOut Verdict.decode Verdict.encode),
      ("TimerSuggestion", writtenOut Timer.decode Timer.encode),
      ("FineEstimate", writtenOut Fine.decode Fine.encode),
      ("ParkingDecision", writtenOut Decision.decode Decision.encode),
      ("ScanResult", writtenOut Scan.decode Scan.encode),
      ("ExtractRequest",
        writtenOut Service.ExtractRequest.decode Service.ExtractRequest.encode),
      ("ExtractResponse",
        writtenOut Service.ExtractResponse.decode Service.ExtractResponse.encode),
      ("ConfirmRequest",
        writtenOut Service.ConfirmRequest.decode Service.ConfirmRequest.encode),
      ("EvaluateRequest",
        writtenOut Service.EvaluateRequest.decode Service.EvaluateRequest.encode),
      ("CostRequest", writtenOut Service.CostRequest.decode Service.CostRequest.encode),
      ("ScanRequest", writtenOut Service.ScanRequest.decode Service.ScanRequest.encode)]

/-- Check a value as a record with a name. A name that no record has leaves it as it is. -/
def validate (name : String) (value : Json) : Except Failure Json :=
  match all.lookup name with
  | some decode => (decode value).toExcept
  | none => .ok value

end Curbside.Model

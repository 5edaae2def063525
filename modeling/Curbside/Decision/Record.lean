import Curbside.Decision.Basic

/-! The written record of a decision. -/

namespace Curbside.Decision

def encode (decision : Decision) : Json :=
  .object [("status", .string decision.status.name), ("risk_score", .int decision.risk),
    ("primary_reason", .string decision.reason), ("recommended_action", .string decision.action),
    ("fine_estimate", .orNull Fine.encode decision.fine)]

/-- A risk out of a hundred. -/
def decodeRisk : Decoder Int := fun value =>
  (Decoder.integer value).andThen fun n => (Decoder.atMost 100 n).andThen (Decoder.atLeast 0)

/-- A decision from its record. It is taken as it stands. -/
def decode : Decoder Decision :=
  Decoder.record "ParkingDecision" fun members =>
    Decision.mk
      <$> (Status.ofName <$> Decoder.required members "status" Decoder.string)
      <*> Decoder.required members "risk_score" decodeRisk
      <*> Decoder.required members "primary_reason" Decoder.string
      <*> Decoder.required members "recommended_action" Decoder.string
      <*> Decoder.optional members "fine_estimate" none (Decoder.nullable Fine.decode)

end Curbside.Decision

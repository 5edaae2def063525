import Curbside.Calendar.Record
import Curbside.Rule.Record
import Curbside.Verdict.Basic

/-! The written record of a verdict. -/

namespace Curbside.Verdict

def encode (verdict : Verdict) : Json :=
  .object [("allowed", .bool verdict.allowed),
    ("binding_rule", .orNull Rule.encode verdict.binding),
    ("next_change_at", .orNull Moment.encode verdict.nextChange),
    ("active_rules", .array (verdict.active.map Rule.encode))]

/-- A verdict from its record. It is taken as it stands. -/
def decode : Decoder Verdict :=
  Decoder.record "LegalityVerdict" fun members =>
    Verdict.mk
      <$> Decoder.required members "allowed" Decoder.boolean
      <*> Decoder.optional members "binding_rule" none (Decoder.nullable Rule.decode)
      <*> Decoder.optional members "next_change_at" none (Decoder.nullable Decoder.moment)
      <*> Decoder.optional members "active_rules" [] (Decoder.list Rule.decode)

end Curbside.Verdict

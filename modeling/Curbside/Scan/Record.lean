import Curbside.Decision.Record
import Curbside.Scan.Basic
import Curbside.Timer.Record
import Curbside.Verdict.Record

/-! The written record of a scan. -/

namespace Curbside.Scan

def encode (scan : Scan) : Json :=
  .object [("text", .string scan.text), ("rules", .array (scan.rules.map Rule.encode)),
    ("verdict", scan.verdict.encode), ("timer", .orNull Timer.encode scan.timer),
    ("requires_confirmation", .bool scan.requiresConfirmation),
    ("decision", scan.decision.encode)]

/-- A scan from its record. It is taken as it stands. -/
def decode : Decoder Scan :=
  Decoder.record "ScanResult" fun members =>
    Scan.mk
      <$> Decoder.required members "text" Decoder.string
      <*> Decoder.required members "rules" (Decoder.list Rule.decode)
      <*> Decoder.required members "verdict" Verdict.decode
      <*> Decoder.optional members "timer" none (Decoder.nullable Timer.decode)
      <*> Decoder.required members "requires_confirmation" Decoder.boolean
      <*> Decoder.required members "decision" Decision.decode

end Curbside.Scan

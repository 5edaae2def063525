import Curbside.Calendar.Record
import Curbside.Record.Scalar
import Curbside.Timer.Basic

/-! The written record of a timer. -/

namespace Curbside.Timer

def encode (timer : Timer) : Json :=
  .object [("expires_at", timer.expiresAt.encode), ("warn_at", timer.warnAt.encode),
    ("duration_minutes", .int timer.minutes), ("reason", .string timer.reason.name)]

/-- A timer from its record. It is taken as it stands. -/
def decode : Decoder Timer :=
  Decoder.record "TimerSuggestion" fun members =>
    Timer.mk
      <$> Decoder.required members "expires_at" Decoder.moment
      <*> Decoder.required members "warn_at" Decoder.moment
      <*> Decoder.required members "duration_minutes" Decoder.integer
      <*> (Reason.ofName <$> Decoder.required members "reason" Decoder.string)

end Curbside.Timer

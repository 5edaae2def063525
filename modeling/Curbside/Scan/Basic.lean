import Curbside.Decision.Basic
import Curbside.Settings.Basic
import Curbside.Sign.Extract
import Curbside.Timer.Basic

/-! A scan answers everything about one reading of a sign at once: its rules, the verdict, a
timer, whether a person should confirm the rules, and advice. -/

namespace Curbside

/-- A text and everything that follows from it at a moment. -/
structure Scan where
  text : String
  rules : List Rule
  verdict : Verdict
  timer : Option Timer
  requiresConfirmation : Bool
  decision : Decision

namespace Scan

/-- The text of a sign, how well it could be read, and the moment and zone in which somebody
stands before it. -/
structure Reading where
  text : String
  quality : Option Binary64
  moment : Moment
  zoneName : Option String

/-- Scan a reading. The warning comes some time before the end of a stay, as set if no time is
given. -/
def ofReading (settings : Settings) (bands : Fine.Bands) (lead : Option Span) (reading : Reading) :
    Except Failure Scan := do
  let moment ← reading.moment.localize reading.zoneName
  let rules ← Sign.extract reading.quality reading.text.toList
  let verdict ← Verdict.evaluate rules moment
  let lead ← match lead with
    | some lead => pure lead
    | none => Span.ofMinutes settings.warningLead
  let timer ← Timer.suggest verdict rules moment lead
  let decision ← Decision.ofVerdict bands verdict
  return ⟨reading.text, rules, verdict, timer,
    Rule.requireConfirmation rules settings.confirmationThreshold, decision⟩

end Scan

end Curbside

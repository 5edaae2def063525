import Curbside.Clock.Range

/-! The display of a meter or a receipt says until when parking is paid. A display whose time
cannot be read is still a display. -/

namespace Curbside.Sign
open Curbside.Text
open Curbside.Pattern

/-- What leads to the time on a display. -/
def meterLead : Pattern :=
  asWord (anyOf [
      spelled "EXPIRE" ++ maybe (spelled "S"),
      spelled "EXPIRY",
      spelled "PAID" ++ gap ++ anyOf [spelled "UNTIL", spelled "TO", spelled "THRU"],
      spelled "VALID" ++ gap ++ anyOf [spelled "UNTIL", spelled "TO"],
      spelled "GOOD" ++ gap ++ spelled "UNTIL"])
    ++ blanks ++ maybe ((spelled "AT" ++ .wordEdge) <|> spelled ":") ++ blanks

def meterMark : Pattern := maybe (blanks ++ Clock.halfMark blanks)

/-- The time on a display: digits and perhaps the mark of a half of the day, or a word. -/
def shownTime : Pattern := anyOf [Clock.digits ++ meterMark, spelled "NOON", spelled "MIDNIGHT"]

/-- A display in capitals. Its time, if one is printed, is held under 4. -/
def meterDisplay : Pattern :=
  meterLead ++ maybe (.held 4 shownTime) ++ .notBefore isPlainAlphanumeric

/-- Read a display. The outer option says whether there is one, the inner one whether its
time is readable. -/
def readMeter? (printed : List Char) : Option (Option Minute) :=
  (meterDisplay.search? (upper printed)).map fun place =>
    (place.part? 4).bind Clock.readToken?

end Curbside.Sign

import Curbside.Calendar.Stamp
import Curbside.Json.Basic

/-! The record of a moment is its written form, where an offset of zero is a Z. -/

namespace Curbside.Moment

def encode (moment : Moment) : Json := .text (moment.write .letter)

end Curbside.Moment

import Curbside.Calendar.Wall
import Curbside.Number.Quantity

/-! Spans of time, as microseconds. A span may be negative. One of more than 999999999 days
cannot be held. -/

namespace Curbside

/-- Microseconds from one reading of the clock to another. -/
abbrev Span : Type := Int

namespace Span

/-- The most days that a span can have, in either direction. -/
def mostDays : Int := 999999999

def checked (span : Span) : Except Failure Span :=
  let days := Int.fdiv span Wall.dayLength
  if -mostDays ≤ days && days ≤ mostDays then .ok span else .error (.spanTooLong days)

/-- The microseconds of so many units and a rest. What is left of a fraction of a unit is
rounded so that a half makes the whole span even. -/
def total (unit : Int) (quantity : Quantity) (rest : Int) : Except Failure Span :=
  match quantity with
  | .whole n => .ok (n * unit + rest)
  | .measured (.finite negative units) =>
    let whole := Binary64.signedUnits negative (units / Binary64.one)
    let fraction := (Binary64.finite negative (units % Binary64.one)).mul (Binary64.ofInt unit)
    .ok (roundHalfEvenInt ((whole * unit + rest) * Binary64.one + fraction.signed) Binary64.one)
  | .measured (.infinite _) => .error .spanInfinite
  | .measured .nan => .error .spanUndefined

/-- A span of so many units and a rest in microseconds. -/
def ofUnits (unit : Int) (quantity : Quantity) (rest : Int) : Except Failure Span := do
  checked (← total unit quantity rest)

def ofMinutes (quantity : Quantity) : Except Failure Span := ofUnits Wall.minuteLength quantity 0

def ofSeconds (quantity : Quantity) : Except Failure Span := ofUnits Wall.secondLength quantity 0

/-- The seconds of a span as a binary64 number. -/
def seconds (span : Span) : Binary64 := Binary64.ofRatio span Wall.secondLength.toNat

/-- The whole minutes of a span, counted on its seconds as a binary64 number. -/
def wholeMinutes (span : Span) : Int := Int.fdiv span.seconds.signed (60 * Binary64.one)

end Span

end Curbside

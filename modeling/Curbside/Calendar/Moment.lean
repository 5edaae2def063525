import Curbside.Calendar.Zone

/-! Moments as people state them: a reading of the wall clock and perhaps a zone. Arithmetic
and comparison work on the wall clock. The offset is looked up only to write a moment or to
carry it into another zone. -/

namespace Curbside

/-- A reading of the wall clock in a zone, or in no stated zone. `secondPass` tells the second
of two equal readings apart when a clock is put back. -/
structure Moment where
  wall : Wall
  zone : Option Zone
  secondPass : Bool
  deriving DecidableEq, Repr

namespace Moment

/-- The moment at another reading of the same clock. It is never a second pass. -/
def atWall (moment : Moment) (wall : Wall) : Moment := ⟨wall, moment.zone, false⟩

/-- A moment a span of microseconds later, or earlier if the span is negative. -/
def shift (moment : Moment) (span : Int) : Except Failure Moment :=
  (Wall.checked (moment.wall + span)).map moment.atWall

/-- The seconds by which the wall clock is ahead of universal time. -/
def offset? (moment : Moment) : Option Int :=
  moment.zone.map fun zone => zone.offsetAt moment.wall moment.secondPass

/-- A moment as the clocks of a zone show it. A moment in no zone is taken as a reading of
those clocks. -/
def inZone (moment : Moment) (zone : Zone) : Except Failure Moment :=
  match moment.offset? with
  | none => .ok { moment with zone := some zone }
  | some offset => do
    let universal ← Wall.checked (moment.wall - offset * Wall.secondLength)
    let (shift, secondPass) := zone.offsetFromUniversal universal
    let wall ← Wall.checked (universal + shift * Wall.secondLength)
    return ⟨wall, some zone, secondPass⟩

/-- A moment in the zone with a name. Without a name it stays as it is. -/
def localize (moment : Moment) : (zoneName : Option String) → Except Failure Moment
  | none => .ok moment
  | some name => do moment.inZone (← Zone.named name)

/-- The later of two moments, and the first if they are equal. -/
def latest (first second : Moment) : Moment := if first.wall < second.wall then second else first

end Moment

end Curbside

import Curbside.Calendar.Span
import Curbside.Verdict.Basic

/-! A timer for a stay: when it ends, when to warn about that, and why it ends. A time limit
comes before the time on a meter, and a restriction that starts earlier than either ends the
stay. -/

namespace Curbside

/-- Why a stay ends. A timer that is handed in may name another reason. -/
inductive Timer.Reason where
  | timeLimit
  | meterExpiry
  | restrictionStart
  | other (name : String)
  deriving DecidableEq, Repr

/-- When a stay ends and when to warn about it. -/
structure Timer where
  expiresAt : Moment
  warnAt : Moment
  minutes : Int
  reason : Timer.Reason
  deriving DecidableEq

namespace Timer

namespace Reason

def name : Reason → String
  | timeLimit => "time_limit"
  | meterExpiry => "meter_expiry"
  | restrictionStart => "restriction_start"
  | other name => name

def ofName (name : String) : Reason :=
  match [timeLimit, meterExpiry, restrictionStart].find? fun reason => reason.name == name with
  | some reason => reason
  | none => other name

end Reason

/-- The first moment after another at which the clock shows a minute. -/
def nextShowing (moment : Moment) (minute : Minute) : Except Failure Moment :=
  let today := moment.atWall (Wall.atMinute moment.wall.day minute)
  if moment.wall < today.wall then .ok today else today.shift Wall.dayLength

/-- How far ahead the start of a restriction is looked for. -/
def horizon : Span := Window.horizon * Wall.dayLength

/-- How many changes can lie within the horizon. Every change falls on a whole minute. -/
def mostChanges : Nat := 8 * 1440 + 1

/-- Go from change to change until parking is no longer allowed or the limit is passed. -/
def searchRestriction (rules : List Rule) (limit : Wall) :
    (steps : Nat) → Moment → Except Failure (Option Moment)
  | 0, _ => .ok none
  | steps + 1, moment => do
    match ← Rule.nextChange rules moment.wall with
    | none => return none
    | some change =>
      if limit < change then return none
      let later := moment.atWall change
      let verdict ← Verdict.evaluate rules later
      if verdict.allowed then searchRestriction rules limit steps later else return some later

/-- The first moment after another, within the horizon, from which a restriction holds. -/
def nextRestriction (rules : List Rule) (moment : Moment) : Except Failure (Option Moment) := do
  if !rules.any Rule.isRestrictive then return none
  let limit ← moment.shift horizon
  searchRestriction rules limit.wall mostChanges moment

/-- A timer for a stay from one moment to another. The warning comes some time before the end
and not before the start. -/
def ofStay (start finish : Moment) (lead : Span) (reason : Reason) : Except Failure Timer := do
  let warning ← finish.shift (-lead)
  return ⟨finish, warning.latest start, Span.wholeMinutes (finish.wall - start.wall), reason⟩

/-- A timer for a stay that ends at a moment, or at a restriction that starts before it. -/
def bounded (start finish : Moment) (restriction : Option Moment) (lead : Span) (reason : Reason) :
    Except Failure Timer :=
  match restriction with
  | some earlier =>
    if earlier.wall < finish.wall then ofStay start earlier lead .restrictionStart
    else ofStay start finish lead reason
  | none => ofStay start finish lead reason

/-- The length of the first time limit among rules. -/
def firstLimit? (rules : List Rule) : Option Int :=
  rules.findSome? fun rule =>
    match rule.kind with
    | .timeLimit minutes => some minutes
    | _ => none

/-- The minute until which parking is paid by the first meter among rules that shows one. -/
def firstPaid? (rules : List Rule) : Option Minute :=
  rules.findSome? fun rule =>
    match rule.kind with
    | .metered paidUntil => paidUntil
    | _ => none

/-- The timer for a stay that starts at a moment, if parking is allowed there and anything ends
the stay. -/
def suggest (verdict : Verdict) (rules : List Rule) (start : Moment) (lead : Span) :
    Except Failure (Option Timer) := do
  if !verdict.allowed then return none
  let active := Rule.active rules start.wall
  let restriction ← nextRestriction rules start
  match firstLimit? active, firstPaid? active, restriction with
  | some minutes, _, _ =>
    let finish ← start.shift (← Span.ofMinutes (.whole minutes))
    some <$> bounded start finish restriction lead .timeLimit
  | none, some minute, _ =>
    some <$> bounded start (← nextShowing start minute) restriction lead .meterExpiry
  | none, none, some finish => some <$> ofStay start finish lead .restrictionStart
  | none, none, none => return none

end Timer

end Curbside

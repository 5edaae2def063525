import Curbside.Calendar.Moment
import Curbside.Rule.Basic
import Curbside.Window.Boundaries

/-! A verdict on parking at a moment: whether it is allowed, which rules hold, which of them
binds, and when that changes next. Parking is allowed when no restriction holds. -/

namespace Curbside

/-- The outcome of looking at a set of rules at a moment. -/
structure Verdict where
  allowed : Bool
  binding : Option Rule
  nextChange : Option Moment
  active : List Rule
  deriving DecidableEq

namespace Rule

def windows (rules : List Rule) : List Window := rules.filterMap Rule.window

/-- The first reading after another at which some rule starts or ceases to hold. -/
def nextChange (rules : List Rule) (after : Wall) : Except Failure (Option Wall) :=
  Window.nextChange (windows rules) after

def active (rules : List Rule) (wall : Wall) : List Rule := rules.filter (·.activeAt wall)

/-- The restriction that binds so far, or the next rule if that one restricts more severely. -/
def heavier (binding : Option Rule) (rule : Rule) : Option Rule :=
  if !rule.isRestrictive then binding
  else
    match binding with
    | none => some rule
    | some held => if held.severity.rank < rule.severity.rank then some rule else some held

def binding (rules : List Rule) : Option Rule := rules.foldl heavier none

end Rule

namespace Verdict

/-- The verdict on parking at a moment, on the clock that the moment is read off. -/
def evaluate (rules : List Rule) (moment : Moment) : Except Failure Verdict := do
  let active := Rule.active rules moment.wall
  let binding := Rule.binding active
  let change ← Rule.nextChange rules moment.wall
  return ⟨binding.isNone, binding, change.map moment.atWall, active⟩

end Verdict

end Curbside

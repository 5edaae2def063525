import Curbside.Fine.Estimate
import Curbside.Verdict.Basic

/-! Advice to a driver. A restriction blocks parking, a condition calls for caution, and
otherwise parking is safe. -/

namespace Curbside

/-- How things stand. A decision that is handed in may name another status. -/
inductive Decision.Status where
  | safe
  | caution
  | blocked
  | other (name : String)
  deriving DecidableEq, Repr

/-- How things stand, how great the risk is out of a hundred, why, and what to do. -/
structure Decision where
  status : Decision.Status
  risk : Int
  reason : String
  action : String
  fine : Option Fine
  deriving DecidableEq

namespace Decision

namespace Status

def name : Status → String
  | safe => "safe"
  | caution => "caution"
  | blocked => "blocked"
  | other name => name

def ofName (name : String) : Status :=
  match [safe, caution, blocked].find? fun status => status.name == name with
  | some status => status
  | none => other name

end Status

/-- The risk of breaking a rule of some severity. -/
def riskOf : Severity → Int
  | .warning => 70
  | .ticket => 90
  | .towAway => 97

/-- The risk where nothing speaks against parking. -/
def leastRisk : Int := 10

/-- A condition that a rule puts on parking, with its risk. -/
def condition? (rule : Rule) : Option (String × Int) :=
  match rule.kind with
  | .unknown => some ("Sign text not recognized. Check the sign manually.", 50)
  | .timeLimit _ => some (rule.describe, 40)
  | .metered _ => some ("Meter payment required", 30)
  | .noParking | .permitRequired _ | .free | .loadingZone | .streetCleaning => none

/-- The advice where parking is forbidden by a rule. -/
def forbidden (bands : Fine.Bands) (binding : Rule) : Except Failure Decision := do
  let fine ← Fine.estimate bands binding
  return ⟨.blocked, riskOf binding.severity, binding.describe,
    "Do not park here. Move to another spot.", fine⟩

/-- The advice where parking is allowed. The first condition is the reason given, and the
greatest risk counts. -/
def permitted (active : List Rule) : Decision :=
  match active.filterMap condition? with
  | [] =>
    ⟨.safe, leastRisk, "No active restrictions detected in current rule set.",
      "Proceed to park, then verify on-street signage.", none⟩
  | (reason, risk) :: more =>
    ⟨.caution, more.foldl (fun greatest condition => max greatest condition.2) risk, reason,
      "Parking is allowed now, but conditions apply.", none⟩

def ofVerdict (bands : Fine.Bands) (verdict : Verdict) : Except Failure Decision :=
  match verdict.allowed, verdict.binding with
  | false, some binding => forbidden bands binding
  | _, _ => .ok (permitted verdict.active)

end Decision

end Curbside

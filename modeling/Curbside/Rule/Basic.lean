import Curbside.Calendar.Moment
import Curbside.Number.Binary64
import Curbside.Window.Describe

/-! Parking rules. A rule says what it allows or forbids, when it holds, what breaking it costs,
and how sure its reading is. -/

namespace Curbside

/-- How hard breaking a rule is punished. -/
inductive Severity where
  | warning
  | ticket
  | towAway
  deriving DecidableEq, Repr

namespace Severity

def rank : Severity → Nat
  | warning => 0
  | ticket => 1
  | towAway => 2

def name : Severity → String
  | warning => "warning"
  | ticket => "ticket"
  | towAway => "tow_away"

def all : List Severity := [warning, ticket, towAway]

end Severity

inductive Kind where
  | timeLimit (minutes : Int)
  | noParking
  | permitRequired (permit : Option String)
  | metered (paidUntil : Option Minute)
  | free
  | loadingZone
  | streetCleaning
  | unknown
  deriving DecidableEq

namespace Kind

/-- The name of a kind, without what it says in particular. -/
def name : Kind → String
  | timeLimit _ => "time_limit"
  | noParking => "no_parking"
  | permitRequired _ => "permit_required"
  | metered _ => "metered"
  | free => "free"
  | loadingZone => "loading_zone"
  | streetCleaning => "street_cleaning"
  | unknown => "unknown"

def names : List String :=
  ["time_limit", "no_parking", "permit_required", "metered", "free", "loading_zone",
    "street_cleaning", "unknown"]

/-- Whether a rule of this kind forbids parking while it holds. -/
def isRestrictive : Kind → Bool
  | noParking | permitRequired _ | loadingZone | streetCleaning => true
  | timeLimit _ | metered _ | free | unknown => false

/-- The severity of a rule on which none is stated. -/
def usualSeverity : Kind → Severity
  | free | unknown => .warning
  | _ => .ticket

end Kind

/-- A kind with the severity and the fine for breaking it. -/
structure Provision where
  kind : Kind
  severity : Severity
  fine : Option Decimal
  deriving DecidableEq

namespace Provision

/-- A provision as it stands without further notice. -/
def plain (kind : Kind) : Provision := ⟨kind, kind.usualSeverity, none⟩

end Provision

/-- A rule read off a sign or handed in. -/
structure Rule where
  provision : Provision
  window : Option Window
  confidence : Binary64
  rawText : String
  userConfirmed : Bool
  deriving DecidableEq

namespace Rule

def kind (rule : Rule) : Kind := rule.provision.kind

def severity (rule : Rule) : Severity := rule.provision.severity

def isRestrictive (rule : Rule) : Bool := rule.kind.isRestrictive

/-- Whether a rule holds at a reading of the wall clock. A rule without a window always does. -/
def activeAt (rule : Rule) (wall : Wall) : Bool := rule.window.all (·.activeAt wall)

/-- What a rule says about parking, without its window. Minutes are written out however many
digits they have: the service refuses more than 4300, but no record that comes as a text and no
sign states as many. -/
def label (rule : Rule) : String :=
  match rule.kind with
  | .timeLimit minutes => toString minutes ++ " minute limit"
  | .noParking => "No parking"
  | .permitRequired none => "Permit required"
  | .permitRequired (some permit) =>
    if permit = "" then "Permit required" else "Permit required (" ++ permit ++ ")"
  | .metered _ => "Metered parking"
  | .free => "Free parking"
  | .loadingZone => "Loading zone"
  | .streetCleaning => "Street cleaning"
  | .unknown => "Unrecognized sign"

def describe (rule : Rule) : String := rule.label ++ " " ++ Window.describe? rule.window

/-- Whether a person should look at a rule before anyone acts on it. -/
def isDoubtful (threshold : Binary64) (rule : Rule) : Bool :=
  rule.kind = .unknown || (rule.confidence.lt threshold && !rule.userConfirmed)

/-- Whether a person should look at some of the rules. -/
def requireConfirmation (rules : List Rule) (threshold : Binary64) : Bool :=
  rules.any (isDoubtful threshold)

end Rule

end Curbside

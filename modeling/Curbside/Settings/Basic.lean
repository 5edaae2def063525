import Curbside.Failure
import Curbside.Json.Basic
import Curbside.Number.Quantity
import Curbside.Text.Integer

/-! The settings of the service. They come from the variables of an environment, and each has a
value for when its variable is not set. -/

namespace Curbside

/-- What can be set. Leads are in minutes, and what is kept and waited for is in seconds. -/
structure Settings where
  timezone : String
  warningLead : Quantity
  confirmationThreshold : Binary64
  defaultCurrency : String
  cacheSeconds : Int
  requestTimeout : Binary64
  catalogPath : Option String

namespace Settings

/-- A number as an environment spells it: blanks around it, digits of any script, and single
underscores between digits. -/
def plainNumber? (cs : List Char) : Option (List Char) :=
  Text.joinDigits? none (Text.plainDigits (Text.trimSpaces cs))

def integer? (cs : List Char) : Option Int := (plainNumber? cs).bind Decimal.integer?

/-- How many digits open a text after its sign, underscores between them left out. Where the
underscores are misplaced no digits count. -/
def digitCount (cs : List Char) : Nat :=
  let (_, body) := Decimal.takeSign (Text.plainDigits (Text.trimSpaces cs))
  let row := body.takeWhile fun c => c = '_' || Text.isPlainDigit c
  ((Text.withoutUnderscores? row).getD []).length

def number? (cs : List Char) : Option Binary64 := (plainNumber? cs).bind Binary64.ofText?

/-- How much of an unreadable integer is shown. -/
def shownLength : Nat := 200

/-- An integer, where a text that spells none is refused. One that opens with too many digits is
not read any further. -/
def integer (spelled : String) : Except Failure Int :=
  let digits := digitCount spelled.toList
  if Failure.mostDigits < digits then .error (.integerTooLong digits)
  else
    match integer? spelled.toList with
    | some n => .ok n
    | none =>
      .error (.unreadableInteger (String.ofList ((Json.quoted spelled.toList).take shownLength)))

/-- A number, where a text that spells none is refused. -/
def number (spelled : String) : Except Failure Binary64 :=
  match number? spelled.toList with
  | some x => .ok x
  | none => .error (.unreadableNumber (String.ofList (Json.quoted spelled.toList)))

/-- The settings in an environment. The first variable that cannot be read decides the
failure. -/
def ofEnvironment (environment : List (String × String)) : Except Failure Settings := do
  let text (name usual : String) : String := (environment.lookup name).getD usual
  let lead ← integer (text "PARKGUARD_WARNING_LEAD_MINUTES" "10")
  let threshold ← number (text "PARKGUARD_CONFIRMATION_THRESHOLD" "0.8")
  let cacheSeconds ← integer (text "PARKGUARD_PRICING_CACHE_TTL" "300")
  let timeout ← number (text "PARKGUARD_REQUEST_TIMEOUT" "5")
  return ⟨text "PARKGUARD_TIMEZONE" "America/New_York", .whole lead, threshold,
    text "PARKGUARD_DEFAULT_CURRENCY" "USD", cacheSeconds, timeout,
    environment.lookup "PARKGUARD_FINE_CATALOG"⟩

def usual : Settings :=
  ⟨"America/New_York", 10, Binary64.ofPlaces 8 1, "USD", 300, Binary64.ofInt 5, none⟩

end Settings

end Curbside

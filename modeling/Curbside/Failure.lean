import Curbside.Record.Issue

/-! The ways in which a request can fail, as causes. The words for a cause are chosen in one
place. -/

namespace Curbside

/-- Why a request has no answer. -/
inductive Failure where
  /-- A record has faults. -/
  | invalid (issues : List Issue)
  /-- A date lies outside the years 1 to 9999. -/
  | outsideCalendar
  /-- A span has more days than can be held. -/
  | spanTooLong (days : Int)
  /-- A span was given as a number that is not finite. -/
  | spanInfinite
  | spanUndefined
  /-- No zone has this name. -/
  | unknownZone (name : String)
  /-- A product is too large for a decimal number. -/
  | amountTooLarge
  /-- A setting that should be an integer has too many digits. -/
  | integerTooLong (digits : Nat)
  /-- A setting that should be an integer is none. The text is shown as given. -/
  | unreadableInteger (shown : String)
  /-- A setting that should be a number is none. The text is shown as given. -/
  | unreadableNumber (shown : String)
  deriving DecidableEq, Repr

namespace Failure

/-- The failure of a record with a single fault. -/
def ofFault (path : List PathStep) (fault : Fault) : Failure := invalid [⟨path, fault⟩]

/-- Whether a number of days can be held in 32 bits. -/
def fitsWord (days : Int) : Bool := -2147483648 ≤ days && days ≤ 2147483647

/-- The most digits that a setting may have as an integer. -/
def mostDigits : Nat := 4300

def message : Failure → String
  | invalid issues => String.intercalate "\n" (issues.map Issue.message)
  | outsideCalendar => "date value out of range"
  | spanTooLong days =>
    if fitsWord days then
      "days=" ++ toString days ++ "; must have magnitude <= 999999999"
    else "Python int too large to convert to C int"
  | spanInfinite => "cannot convert float infinity to integer"
  | spanUndefined => "cannot convert float NaN to integer"
  | unknownZone name => "'No time zone found with key " ++ name ++ "'"
  | amountTooLarge => "[<class 'decimal.Overflow'>]"
  | integerTooLong digits =>
    "Exceeds the limit (" ++ toString mostDigits
      ++ " digits) for integer string conversion: value has " ++ toString digits
      ++ " digits; use sys.set_int_max_str_digits() to increase the limit"
  | unreadableInteger shown => "invalid literal for int() with base 10: " ++ shown
  | unreadableNumber shown => "could not convert string to float: " ++ shown

end Failure

end Curbside

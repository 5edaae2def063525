/-! What can be wrong with a record that someone hands in. An issue says where in the record
the fault lies and what the fault is, and the words for it are chosen in one place. -/

namespace Curbside

/-- One step into a record: a field or a place in a list. -/
inductive PathStep where
  | field (name : String)
  | index (position : Nat)
  deriving DecidableEq, Repr

/-- What is wrong with a value. -/
inductive Fault where
  | missing
  | notInteger
  | fractional
  | unreadableInteger
  | integerTooLong
  | below (least : Int)
  | above (most : Int)
  | notAbove (bound : Int)
  | notNumber
  | unreadableNumber
  | notFinite
  | notBoolean
  | unclearBoolean
  | notText
  | textShorter (least : Nat)
  | textLonger (most : Nat)
  | notDecimal
  | unreadableDecimal
  | notOneOf (choices : List String)
  | notRecord (model : String)
  | notList
  | notSet
  | noDays
  | strangeDays
  | notMoment
  | unreadableMoment (reason : String)
  | momentOutOfReach (reason : String)
  | notTagged
  | noTag (field : String)
  | strangeTag (field shown : String) (tags : List String)
  | unconfirmedCertainty
  deriving DecidableEq, Repr

/-- A fault and the way to it from the outermost record. -/
structure Issue where
  path : List PathStep
  fault : Fault
  deriving DecidableEq, Repr

namespace PathStep

def text : PathStep → String
  | field name => name
  | index position => toString position

end PathStep

namespace Fault

/-- Choices between single quotation marks, the last after "or". -/
def alternatives : List String → String
  | [] => ""
  | [only] => "'" ++ only ++ "'"
  | [first, last] => "'" ++ first ++ "' or '" ++ last ++ "'"
  | first :: rest => "'" ++ first ++ "', " ++ alternatives rest

/-- Tags between single quotation marks. -/
def listed (tags : List String) : String :=
  String.intercalate ", " (tags.map fun tag => "'" ++ tag ++ "'")

def message : Fault → String
  | missing => "Field required"
  | notInteger => "Input should be a valid integer"
  | fractional => "Input should be a valid integer, got a number with a fractional part"
  | unreadableInteger =>
    "Input should be a valid integer, unable to parse string as an integer"
  | integerTooLong => "Unable to parse input string as an integer, exceeded maximum size"
  | below least => "Input should be greater than or equal to " ++ toString least
  | above most => "Input should be less than or equal to " ++ toString most
  | notAbove bound => "Input should be greater than " ++ toString bound
  | notNumber => "Input should be a valid number"
  | unreadableNumber => "Input should be a valid number, unable to parse string as a number"
  | notFinite => "Input should be a finite number"
  | notBoolean => "Input should be a valid boolean"
  | unclearBoolean => "Input should be a valid boolean, unable to interpret input"
  | notText => "Input should be a valid string"
  | textShorter least => "String should have at least " ++ toString least ++ " characters"
  | textLonger most => "String should have at most " ++ toString most ++ " characters"
  | notDecimal => "Decimal input should be an integer, float, string or Decimal object"
  | unreadableDecimal => "Input should be a valid decimal"
  | notOneOf choices => "Input should be " ++ alternatives choices
  | notRecord model => "Input should be a valid dictionary or instance of " ++ model
  | notList => "Input should be a valid list"
  | notSet => "Input should be a valid frozenset"
  | noDays => "Value error, days must not be empty"
  | strangeDays => "Value error, days must be weekday numbers 0-6"
  | notMoment => "Input should be a valid datetime"
  | unreadableMoment reason => "Input should be a valid datetime or date, " ++ reason
  | momentOutOfReach reason => "Input should be a valid datetime, " ++ reason
  | notTagged => "Input should be a valid dictionary or object to extract fields from"
  | noTag field => "Unable to extract tag using discriminator '" ++ field ++ "'"
  | strangeTag field shown tags =>
    "Input tag '" ++ shown ++ "' found using '" ++ field
      ++ "' does not match any of the expected tags: " ++ listed tags
  | unconfirmedCertainty =>
    "Value error, confidence 1.0 is reserved for user-confirmed rules"

end Fault

namespace Issue

def message (issue : Issue) : String :=
  String.intercalate "." (issue.path.map PathStep.text) ++ ": " ++ issue.fault.message

end Issue

end Curbside

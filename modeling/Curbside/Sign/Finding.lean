import Curbside.Rule.Basic
import Curbside.Sign.Meter
import Curbside.Text.Lines

/-! The phrases by which a sign says what it is about. Each kind of rule has phrases of its own,
and a text may hold phrases of several kinds. All texts here are in capitals. -/

namespace Curbside.Sign
open Curbside.Text
open Curbside.Pattern

/-- A kind of rule that a text speaks of, and how sure that is. -/
structure Finding where
  kind : Kind
  confidence : Binary64

namespace Finding

/-- A finding whose confidence is given in hundredths. -/
def ofHundredths (kind : Kind) (hundredths : Nat) : Finding :=
  ⟨kind, Binary64.ofPlaces hundredths 2⟩

end Finding

/-- Words with blanks between neighbours, whole at both ends. -/
def words (phrase : List Pattern) : Pattern := asWord (spaced phrase)
where
  spaced : List Pattern → Pattern
    | [] => .nothing
    | [last] => last
    | first :: rest => first ++ gap ++ spaced rest

/-- A word and the blanks after it, or nothing. -/
def perhaps (word : Pattern) : Pattern := maybe (word ++ gap)

def plural : Pattern := maybe (spelled "S")

/-- An amount of time, its number of one to three digits held under 1 and its unit under 2. -/
def timeAmount : Pattern :=
  asWord (.held 1 (digit ++ maybe (digit ++ maybe digit)) ++ blanks ++ maybe (spelled "-") ++ blanks
    ++ .held 2 (anyOf [spelled "HOUR" ++ plural, spelled "HR" ++ plural, spelled "MINUTE" ++ plural,
      spelled "MIN" ++ plural]))

/-- A word that makes it plain that an amount of time is a limit. -/
def limitWord : Pattern :=
  asWord (anyOf [spelled "PARKING", spelled "LIMIT", spelled "MAX" ++ maybe (spelled "IMUM")])

def noParkingPhrase : Pattern := words [spelled "NO", spelled "PARKING"]

def noStandingPhrase : Pattern :=
  words [spelled "NO", anyOf [spelled "STANDING", spelled "STOPPING"]]

def permitPhrase : Pattern :=
  anyOf [
    words [spelled "PERMIT", perhaps (spelled "PARKING") ++ spelled "ONLY"],
    words [spelled "PERMIT", spelled "REQUIRED"],
    words [spelled "PERMIT", spelled "HOLDERS", spelled "ONLY"],
    words [spelled "RESIDENT" ++ plural, spelled "ONLY"]]

def letter : Pattern := .one isPlainCapital

/-- The zone of a permit: the word for it, held under 1, and its number or letter, held
under 2. -/
def permitZone : Pattern :=
  asWord (.held 1 (anyOf [spelled "ZONE", spelled "AREA", spelled "DISTRICT"])
    ++ blanks ++ maybe (spelled "#") ++ blanks
    ++ .held 2 ((maybe letter ++ oneOrMore digit ++ maybe letter) <|> letter))

def meteredPhrase : Pattern :=
  anyOf [
    words [spelled "METER" ++ maybe (spelled "ED"), spelled "PARKING"],
    words [spelled "PAY", perhaps (anyOf [spelled "AT", spelled "&", spelled "AND"])
      ++ anyOf [spelled "METER", spelled "STATION", spelled "KIOSK"]],
    words [spelled "PAID", spelled "PARKING"],
    words [spelled "PAY", spelled "TO", spelled "PARK"]]

def freePhrase : Pattern :=
  anyOf [
    words [spelled "FREE", spelled "PARKING"],
    words [spelled "PARKING", perhaps (spelled "IS") ++ spelled "FREE"],
    words [spelled "NO", spelled "CHARGE"]]

def loadingPhrase : Pattern :=
  anyOf [
    words [spelled "LOADING", anyOf [spelled "ZONE", spelled "ONLY"]],
    words [anyOf [spelled "COMMERCIAL", spelled "TRUCK"],
      perhaps (spelled "VEHICLE" ++ plural) ++ spelled "LOADING"]]

def cleaningPhrase : Pattern :=
  anyOf [
    words [spelled "STREET", anyOf [spelled "CLEANING", spelled "SWEEPING"]],
    words [spelled "ALTERNATE", spelled "SIDE"]]

/-- Whether a text says that parking, standing or stopping is forbidden. -/
def forbids (text : List Char) : Bool :=
  noParkingPhrase.occursIn text || noStandingPhrase.occursIn text

def statedMinutes (place : Place) : Nat :=
  let amount := digitsValue (place.part 1)
  if (place.part 2).head? = some 'H' then amount * 60 else amount

/-- The minutes of a day. -/
def wholeDay : Nat := 1440

/-- The limit on a line. A day or more beside a prohibition states when it holds and is no
limit. -/
def lineLimit? (isForbidden : Bool) (line : List Char) : Option Finding :=
  match timeAmount.search? line with
  | none => none
  | some place =>
    let minutes := statedMinutes place
    if minutes = 0 || (isForbidden && wholeDay ≤ minutes) then none
    else
      some (.ofHundredths (.timeLimit minutes) (if limitWord.occursIn line then 90 else 75))

/-- The first time limit in a text. Amounts do not run over line ends. -/
def timeLimit? (text : List Char) : Option Finding :=
  (lines text).findSome? (lineLimit? (forbids text))

def noParking? (text : List Char) : Option Finding :=
  if noParkingPhrase.occursIn text then some (.ofHundredths .noParking 95)
  else if noStandingPhrase.occursIn text then some (.ofHundredths .noParking 85)
  else none

/-- The name of the zone for which a permit is good. -/
def permitName? (text : List Char) : Option String :=
  (permitZone.search? text).map fun place =>
    String.ofList (place.part 1 ++ ' ' :: place.part 2)

def permit? (text : List Char) : Option Finding :=
  if permitPhrase.occursIn text then
    some (.ofHundredths (.permitRequired (permitName? text)) 95)
  else none

/-- What the display of a meter or a receipt shows. The text may be in letters of either case. -/
def meterFinding? (text : List Char) : Option Finding :=
  (readMeter? text).map fun paidUntil => .ofHundredths (.metered paidUntil) 85

/-- Metered parking, said in words or shown on a display. -/
def metered? (text : List Char) : Option Finding :=
  if meteredPhrase.occursIn text then
    some (.ofHundredths (.metered ((readMeter? text).getD none)) 90)
  else meterFinding? text

/-- A kind that a phrase is enough to find. -/
def byPhrase? (phrase : Pattern) (kind : Kind) (hundredths : Nat) (text : List Char) :
    Option Finding :=
  if phrase.occursIn text then some (.ofHundredths kind hundredths) else none

/-- All there is to look for, in the order in which findings are reported. -/
def finders : List (List Char → Option Finding) :=
  [timeLimit?, noParking?, permit?, metered?, byPhrase? freePhrase .free 95,
    byPhrase? loadingPhrase .loadingZone 90, byPhrase? cleaningPhrase .streetCleaning 90]

def findings (text : List Char) : List Finding := finders.filterMap fun find? => find? text

def isKindText (text : List Char) : Bool := finders.any fun find? => (find? text).isSome

end Curbside.Sign

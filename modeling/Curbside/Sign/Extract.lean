import Curbside.Sign.Clause

/-! From the text of a sign to rules. Every clause gives a rule for each kind that it speaks of
and each of its windows. A clause without a time takes the time of the only clause that has
one. What is printed for the sign as a whole, that cars are towed or how high the fine is,
goes to every restriction. -/

namespace Curbside.Sign
open Curbside.Text
open Curbside.Pattern

def towPhrase : Pattern :=
  anyOf [
    asWord (spelled "TOW" ++ .many (.one fun c => isBlank c || c == '-') ++ spelled "AWAY"),
    words [spelled "VIOLATORS", perhaps (spelled "WILL" ++ gap ++ spelled "BE") ++ spelled "TOWED"]]

def centsPart : Pattern := maybe (spelled "." ++ .held 2 (digit ++ digit))

/-- An amount of one to four digits, perhaps with two more after a point. It is held under 1,
and the two digits alone under 2. -/
def fineAmount : Pattern :=
  .held 1 (digit ++ maybe (digit ++ maybe (digit ++ maybe digit)) ++ centsPart)

/-- What stands before an amount whose word comes after it. -/
def signPart : Pattern := spelled "$" ++ blanks

/-- What stands before an amount whose word comes first. -/
def wordPart : Pattern :=
  .wordEdge ++ spelled "FINE" ++ blanks ++ maybe (spelled ":") ++ blanks ++ spelled "$" ++ blanks

/-- A fine in dollars before or after the word for it. -/
def finePhrase : Pattern :=
  (signPart ++ fineAmount ++ gap ++ spelled "FINE" ++ .wordEdge) <|> (wordPart ++ fineAmount)

/-- The number that an amount writes. The places after its point are kept. -/
def amountOf (place : Place) : Decimal :=
  ⟨false, digitsValue ((place.part 1).filter isDigit), -((place.part 2).length : Int)⟩

/-- What a sign says for all of its restrictions. -/
structure Posted where
  towAway : Bool
  fine : Option Decimal

namespace Posted

def ofText (text : List Char) : Posted :=
  ⟨towPhrase.occursIn text, (finePhrase.search? text).map amountOf⟩

/-- A kind with what is posted for it. Only restrictions are affected. -/
def provision (posted : Posted) (kind : Kind) : Provision :=
  if kind.isRestrictive then
    ⟨kind, if posted.towAway then .towAway else kind.usualSeverity, posted.fine⟩
  else .plain kind

end Posted

/-- When a rule holds: clock ranges and days, either of which may be unstated. -/
structure Schedule where
  ranges : List (Minute × Minute)
  days : DaySet

namespace Schedule

def unstated : Schedule := ⟨[], DaySet.empty⟩

/-- The windows that a schedule means. Days without a range are meant as whole days, and
nothing stated means no limit in time. -/
def windows (schedule : Schedule) : List (Option Window) :=
  if !schedule.ranges.isEmpty then
    schedule.ranges.map fun (start, finish) => some (Window.onDays start finish schedule.days)
  else if schedule.days ≠ DaySet.empty then
    [some (Window.onDays Minute.midnight Minute.midnight schedule.days)]
  else [none]

end Schedule

/-- When a clause holds by its own words. -/
def Clause.schedule (clause : Clause) : Schedule := ⟨clause.ranges, clause.days⟩

/-- The schedule of the only clause that states a time, if there is just one such clause. -/
def sharedSchedule? (clauses : List Clause) : Option Schedule :=
  match clauses.filter (·.hasTime) with
  | [clause] => some clause.schedule
  | _ => none

/-- The schedule of a clause, or the shared one if the clause states no time. -/
def scheduleOf (shared : Option Schedule) (clause : Clause) : Schedule :=
  if clause.hasTime then clause.schedule else shared.getD clause.schedule

/-- The highest confidence that a reading can have. Certainty is left to people. -/
def mostConfidence : Binary64 := Binary64.ofPlaces 99 2

/-- A confidence scaled by how well the text could be read, in ten-thousandths. -/
def scaled (quality : Option Binary64) (confidence : Binary64) : Binary64 :=
  let product := match quality with
    | none => confidence
    | some quality => confidence.mul quality
  (product.least mostConfidence).roundPlaces 4

/-- The rules that one finding in a clause gives, one for each window. -/
def rulesOf (posted : Posted) (quality : Option Binary64) (schedule : Schedule)
    (rawText : List Char) (finding : Finding) : List Rule :=
  schedule.windows.map fun window =>
    ⟨posted.provision finding.kind, window, scaled quality finding.confidence,
      String.ofList rawText, false⟩

/-- The rules that the clauses of a sign give. -/
def clauseRules (posted : Posted) (quality : Option Binary64) (clauses : List Clause) : List Rule :=
  let shared := sharedSchedule? clauses
  clauses.flatMap fun clause =>
    (findings clause.text).flatMap
      (rulesOf posted quality (scheduleOf shared clause) clause.rawText)

/-- The rule against parking that is meant when cars are towed and nothing else is forbidden. -/
def towRules (posted : Posted) (quality : Option Binary64) (clauses : List Clause)
    (text : List Char) : List Rule :=
  rulesOf posted quality ((sharedSchedule? clauses).getD .unstated) (trim text)
    (.ofHundredths .noParking 80)

/-- The rule for a sign that says nothing that is understood. -/
def unknownRule (text : List Char) : Rule :=
  ⟨.plain .unknown, none, Binary64.ofPlaces 5 1, String.ofList text, false⟩

/-- The rules of a sign before their confidence is checked. -/
def readRules (quality : Option Binary64) (text : List Char) : List Rule :=
  let posted := Posted.ofText (upper text)
  let clauses := clauses text
  let stated := clauseRules posted quality clauses
  let rules :=
    if posted.towAway && !stated.any Rule.isRestrictive then
      stated ++ towRules posted quality clauses text
    else stated
  if rules.isEmpty then [unknownRule text] else rules

/-- The rules of a sign. A confidence below zero, which a negative quality brings about, is
refused. -/
def extract (quality : Option Binary64) (text : List Char) : Except Failure (List Rule) :=
  let rules := readRules quality text
  if rules.any fun rule => rule.confidence.lt (Binary64.ofInt 0) then
    .error (.ofFault [.field "confidence"] (.below 0))
  else .ok rules

end Curbside.Sign

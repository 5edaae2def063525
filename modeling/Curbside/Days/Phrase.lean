import Curbside.Days.DaySet
import Curbside.Pattern.Search
import Curbside.Text.Capital
import Curbside.Text.Upper

/-! Day phrases name sets of weekdays: single days, ranges of days, all days, weekdays and
weekends. A list of days after EXCEPT is taken away, one after INCLUDING is added, and each such
list ends with its line or at the first word that is no day. -/

namespace Curbside.Days
open Curbside.Text
open Curbside.Pattern

/-- The name of a day in full or cut short, without the S of the plural. -/
def dayName : Pattern :=
  anyOf [
    spelled "MON" ++ maybe (spelled "DAY"),
    spelled "TUE" ++ maybe (spelled "S" ++ maybe (spelled "DAY")),
    spelled "WED" ++ maybe (spelled "S" <|> spelled "NESDAY"),
    spelled "THU" ++ maybe (spelled "R" ++ maybe (spelled "S" ++ maybe (spelled "DAY"))),
    spelled "FRI" ++ maybe (spelled "DAY"),
    spelled "SAT" ++ maybe (spelled "URDAY"),
    spelled "SUN" ++ maybe (spelled "DAY")]

def plural : Pattern := maybe (spelled "S")

def dash : Pattern := anyOf [spelled "-", spelled "–", spelled "—"]

/-- A single day, held under 1. -/
def oneDay : Pattern := asWord (.held 1 dayName ++ plural)

/-- A range of days, whose ends are held under 1 and 2. It may run over a line end. -/
def dayRange : Pattern :=
  asWord (.held 1 dayName ++ plural ++ blanks
    ++ anyOf [dash, spelled "THRU", spelled "THROUGH", spelled "TO"]
    ++ blanks ++ .held 2 dayName ++ plural)

def weekdaysWord : Pattern := asWord (spelled "WEEKDAY" ++ plural)

def weekendsWord : Pattern := asWord (spelled "WEEKEND" ++ plural)

def everyDay : Pattern :=
  asWord (anyOf [spelled "DAILY", spelled "EVERY" ++ blanks ++ spelled "DAY",
    spelled "7" ++ blanks ++ spelled "DAYS", spelled "ALL" ++ gap ++ spelled "DAYS"])

/-- What joins the two names of a range in a list. -/
def dayLink : Pattern :=
  anyOf [dash, asWord (spelled "THRU"), asWord (spelled "THROUGH"), asWord (spelled "TO")]

/-- A range in a list from its first name on. -/
def rangeRest : Pattern := spaces ++ dayLink ++ spaces ++ dayName ++ plural

/-- A name in a list, or the range that begins with it. -/
def listedName : Pattern := asWord (dayName ++ plural ++ maybe rangeRest)

/-- One entry of a list of days that stays on its line. -/
def listedDays : Pattern := anyOf [listedName, weekdaysWord, weekendsWord]

/-- What stands between the entries of a list of days. -/
def listLink : Pattern :=
  maybe (anyOf [spelled ",", spelled "&", asWord (spelled "AND"), asWord (spelled "OR")])

/-- The entries of a list of days after the first one. -/
def moreDays : Pattern := .many (spaces ++ listLink ++ spaces ++ listedDays)

/-- The word that qualifies a list of days, held under 3. -/
def qualifier : Pattern :=
  .wordEdge ++ .held 3
    (anyOf [spelled "EXCEPT", spelled "INCLUDING", spelled "INCL" ++ maybe (spelled ".")])

/-- A list of days, held under 4, right after the word that qualifies it. -/
def qualified : Pattern :=
  qualifier ++ .notBefore isPlainCapital ++ spaces ++ .held 4 (listedDays ++ moreDays)

/-- The letters with which the names of the weekdays begin. -/
def weekdayNames : List (String × Weekday) :=
  [("MON", .monday), ("TUE", .tuesday), ("WED", .wednesday), ("THU", .thursday), ("FRI", .friday),
    ("SAT", .saturday), ("SUN", .sunday)]

/-- The weekday that a name starts with. Three letters tell the names apart. -/
def weekdayOf? (name : List Char) : Option Weekday :=
  weekdayNames.findSome? fun (begins, day) =>
    if name.take 3 = begins.toList then some day else none

/-- The set of the one day that a name names. -/
def daysNamed (name : List Char) : DaySet :=
  match weekdayOf? name with
  | some day => DaySet.single day
  | none => DaySet.empty

/-- The days of a range that a match of `dayRange` holds. -/
def daysBetween (place : Place) : DaySet :=
  match weekdayOf? (place.part 1), weekdayOf? (place.part 2) with
  | some first, some last => DaySet.span first last
  | _, _ => DaySet.empty

/-- The union of the sets that the matches in a text stand for. -/
def collect (matched : List Place) (days : Place → DaySet) : DaySet :=
  matched.foldl (fun set place => set ∪ days place) DaySet.empty

/-- A set that a phrase stands for, if the phrase occurs in a text. -/
def ifPhrase (phrase : Pattern) (text : List Char) (days : DaySet) : DaySet :=
  if phrase.occursIn text then days else DaySet.empty

/-- The days named in a text in capitals, whatever qualifies them. Ranges are read first and
blotted out, so that their ends are not read again. -/
def named (text : List Char) : DaySet :=
  let rest := dayRange.blot text
  collect (dayRange.findAll text) daysBetween
    ∪ ifPhrase everyDay rest DaySet.all
    ∪ ifPhrase weekdaysWord rest DaySet.workdays
    ∪ ifPhrase weekendsWord rest DaySet.weekend
    ∪ collect (oneDay.findAll rest) (fun place => daysNamed (place.part 1))

/-- Whether the list of days in a match is to be taken away. -/
def isException (place : Place) : Bool := place.part 3 == "EXCEPT".toList

/-- The days that a printed text speaks of. An empty set means that it names none. Lists that
add or take away start from all days if nothing else is named, and a list that takes
every day away is passed over. -/
def read (printed : List Char) : DaySet :=
  let text := upper printed
  let lists := qualified.findAll text
  let excluded := collect (lists.filter isException) (fun place => named (place.part 4))
  let included := collect (lists.filter (!isException ·)) (fun place => named (place.part 4))
  let base := named (qualified.blot text)
  if included = DaySet.empty ∧ excluded = DaySet.empty then base
  else
    let days := (base.orAll ∪ included) \ excluded
    if days = DaySet.empty then base else days

end Curbside.Days

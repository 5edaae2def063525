import Curbside.Calendar.Moment
import Curbside.Number.Rounding
import Curbside.Text.Digit

/-! The written form of moments: a date, a time of day with a fraction of six digits if there is
one, and the offset from universal time if the moment has a zone. Reading also takes shorter
forms: no seconds, or no time of day. -/

namespace Curbside.Moment

/-- How an offset of zero is written. -/
inductive ZeroOffset where
  /-- As a Z, which is how records have it. -/
  | letter
  /-- As +00:00. -/
  | digits
  deriving DecidableEq

/-- An offset as hours and minutes with a sign. -/
def writeOffset (zero : ZeroOffset) (seconds : Int) : List Char :=
  if seconds = 0 ∧ zero = .letter then ['Z']
  else
    let minutes := seconds.natAbs / 60
    (if seconds < 0 then '-' else '+') :: hoursAndMinutes minutes

def writeDate (date : Date) : List Char :=
  paddedDigits 4 date.year ++ '-' :: paddedDigits 2 date.month ++ '-' :: paddedDigits 2 date.day

def write (zero : ZeroOffset) (moment : Moment) : List Char :=
  let micros := moment.wall.sinceMidnight
  let seconds := micros / Wall.secondLength
  let fraction := micros % Wall.secondLength
  writeDate moment.wall.date ++ 'T' :: hoursAndMinutes (seconds / 60)
    ++ ':' :: paddedDigits 2 (seconds % 60)
    ++ (if fraction = 0 then [] else '.' :: paddedDigits 6 fraction)
    ++ match moment.offset? with
      | none => []
      | some offset => writeOffset zero offset

/-- A number of exactly so many plain digits at the start of a text, and what follows. -/
def takeNumber? (width : Nat) (cs : List Char) : Option (Nat × List Char) :=
  let digits := cs.take width
  if digits.length = width && digits.all Text.isPlainDigit then
    some (Text.digitsValue digits, cs.drop width)
  else none

/-- What follows a mark at the start of a text. -/
def takeMark? (marks : List Char) : List Char → Option (List Char)
  | c :: rest => if marks.contains c then some rest else none
  | [] => none

/-- The fraction of a second at the start of a text in microseconds. Digits after the sixth are
cut off. -/
def takeFraction? (cs : List Char) : Option (Nat × List Char) :=
  match takeMark? ['.', ','] cs with
  | none => some (0, cs)
  | some rest =>
    let digits := rest.takeWhile Text.isPlainDigit
    if digits.isEmpty then none
    else
      let six := digits.take 6
      some (Text.digitsValue six * powerOfTen (6 - six.length), rest.dropWhile Text.isPlainDigit)

/-- Whether a character is the sign of an offset to the west. The minus sign of print counts. -/
def isMinus (c : Char) : Bool := c = '-' || c = '\u2212'

/-- An offset that ends a text, or none if the text is at its end. It has hours and minutes,
with or without a colon between them. -/
def readOffset? : List Char → Option (Option Int)
  | [] => some none
  | ['Z'] => some (some 0)
  | ['z'] => some (some 0)
  | sign :: rest =>
    if sign = '+' || isMinus sign then do
      let (hour, rest) ← takeNumber? 2 rest
      let (minute, rest) ← takeNumber? 2 ((takeMark? [':'] rest).getD rest)
      if rest.isEmpty && minute ≤ 59 && hour ≤ 23 then
        let seconds : Int := (hour * 60 + minute) * 60
        some (some (if isMinus sign then -seconds else seconds))
      else none
    else none

/-- Why a text or a count names no date. -/
inductive DateFault where
  | tooShort
  | yearDigits
  | monthDigits
  | dayDigits
  | separator
  | month
  | day
  | extra
  | yearZero
  | tooEarly
  | tooLate
  | undefined
  deriving DecidableEq

namespace DateFault

def message : DateFault → String
  | tooShort => "input is too short"
  | yearDigits => "invalid character in year"
  | monthDigits => "invalid character in month"
  | dayDigits => "invalid character in day"
  | separator => "invalid date separator, expected `-`"
  | month => "month value is outside expected range of 1-12"
  | day => "day value is outside expected range"
  | extra => "unexpected extra characters at the end of the input"
  | yearZero => "year 0 is out of range"
  | tooEarly => "dates before 0000 are not supported as unix timestamps"
  | tooLate => "dates after 9999 are not supported as unix timestamps"
  | undefined => "NaN values not permitted"

end DateFault

/-- How many bytes the shortest text with a date has. -/
def shortestDate : Nat := 10

/-- The date at the start of a text, and what follows it. A year 0 passes here. -/
def takeDate (cs : List Char) : Except DateFault (Date × List Char) := do
  if (String.ofList cs).utf8ByteSize < shortestDate then throw .tooShort
  let (year, cs) ← (takeNumber? 4 cs).getDM (throw .yearDigits)
  let cs ← (takeMark? ['-'] cs).getDM (throw .separator)
  let (month, cs) ← (takeNumber? 2 cs).getDM (throw .monthDigits)
  let cs ← (takeMark? ['-'] cs).getDM (throw .separator)
  let (day, cs) ← (takeNumber? 2 cs).getDM (throw .dayDigits)
  if month = 0 || 12 < month then throw .month
  if day = 0 || Date.monthLength year month < day then throw .day
  return (⟨year, month, day⟩, cs)

/-- The second and its microseconds at the start of a text, after a colon. A fraction stands
only behind seconds. Without a colon both are zero. -/
def takeSecond? (cs : List Char) : Option (Nat × Nat × List Char) :=
  match takeMark? [':'] cs with
  | none => some (0, 0, cs)
  | some cs => do
    let (second, cs) ← takeNumber? 2 cs
    let (fraction, cs) ← takeFraction? cs
    some (second, fraction, cs)

/-- A time of day and an offset that fill a text, after a mark. -/
def readTime? (cs : List Char) : Option (Int × Option Int) := do
  let cs ← takeMark? ['T', 't', ' ', '_'] cs
  let (hour, cs) ← takeNumber? 2 cs
  let cs ← takeMark? [':'] cs
  let (minute, cs) ← takeNumber? 2 cs
  let (second, fraction, cs) ← takeSecond? cs
  let offset ← readOffset? cs
  if hour ≤ 23 && minute ≤ 59 && second ≤ 59 then
    let seconds : Int := (hour * 60 + minute) * 60 + second
    some (seconds * Wall.secondLength + fraction, offset)
  else none

/-- The time of day and the offset that follow a date. Nothing stands for midnight in no zone. -/
def timeAfterDate (cs : List Char) : Except DateFault (Int × Option Int) :=
  if cs.isEmpty then .ok (0, none) else (readTime? cs).getDM (.error .extra)

/-- The moment that a text states with a date, alone or with a time of day. -/
def ofStamp (cs : List Char) : Except DateFault Moment := do
  let (date, rest) ← takeDate cs
  let (time, offset) ← timeAfterDate rest
  if date.year = 0 then throw .yearZero
  return ⟨Wall.ofDate date + time, offset.map Zone.fixed, false⟩

end Curbside.Moment

import Curbside.Calendar.Stamp
import Curbside.Number.Binary64

/-! Moments as counts since 1970 in universal time. A small count is one of seconds and a large
one of milliseconds. A text that states no date may spell such a count. -/

namespace Curbside.Moment

def epoch : Wall := Wall.ofDate ⟨1970, 1, 1⟩

/-- The count beyond which a number of seconds is taken as milliseconds. -/
def secondsLimit : Nat := 20000000000

/-- How long the year before the calendar is. It is a leap year. -/
def yearZeroLength : Int := 366 * Wall.dayLength

/-- The moment a count and so many microseconds after the first midnight of 1970 in universal
time. The count alone decides whether it is one of seconds. -/
def ofCount (count : Int) (micros : Nat) : Except DateFault Moment :=
  let unit := if count.natAbs ≤ secondsLimit then Wall.secondLength else Wall.secondLength / 1000
  let wall : Wall := epoch + count * unit + micros
  if Wall.inCalendar wall then .ok ⟨wall, some (Zone.fixed 0), false⟩
  else if 0 < wall then .error .tooLate
  else if -yearZeroLength ≤ wall then .error .yearZero
  else .error .tooEarly

/-- The microseconds in a part of a second, given in units. The part and its product are both
rounded to the binary64 format, and then a half goes up. -/
def microsOfUnits (units : Nat) : Nat :=
  match (Binary64.nearest false units Binary64.one).mul (Binary64.ofInt Wall.secondLength) with
  | .finite _ micros => (2 * micros + Binary64.one) / (2 * Binary64.one)
  | _ => 0

/-- A count beyond every calendar. -/
def beyondCounts : Int := 9223372036854775807

/-- The moment that a binary64 count names: the count is cut off downwards, and the
microseconds in its fraction, whatever its sign, are added. -/
def ofNumber : Binary64 → Except DateFault Moment
  | .finite negative units =>
    ofCount (Int.fdiv (Binary64.signedUnits negative units) Binary64.one)
      (microsOfUnits (units % Binary64.one))
  | .infinite negative => ofCount (if negative then -beyondCounts else beyondCounts) 0
  | .nan => .error .undefined

/-- A count as a text spells it. -/
inductive SpelledCount where
  | whole (count : Int)
  | pointed (count : Binary64)

/-- Read a count: a sign, plain digits, and perhaps a point and digits after it. What stands
before the point fits into a signed word of 64 bits. -/
def SpelledCount.read? (cs : List Char) : Option SpelledCount :=
  let (negative, body) := Decimal.takeSign cs
  let digits := body.takeWhile Text.isPlainDigit
  let count := Text.digitsValue digits
  if digits.isEmpty || beyondCounts < count then none
  else
    match body.dropWhile Text.isPlainDigit with
    | [] => some (whole (if negative then -count else count))
    | '.' :: places =>
      if places.all Text.isPlainDigit then
        some (pointed (.nearest negative (Text.digitsValue (digits ++ places))
          (powerOfTen places.length)))
      else none
    | _ => none

/-- The moment that a count with a point names. A large count is brought to seconds first, and
what is left above the second below is added as microseconds. -/
def ofPointed (x : Binary64) : Except DateFault Moment :=
  let signed := x.signed
  let seconds :=
    if secondsLimit * Binary64.one < signed.natAbs then
      (Binary64.nearest (signed < 0) signed.natAbs (1000 * Binary64.one)).signed
    else signed
  let second := Int.fdiv seconds Binary64.one
  ofCount second (microsOfUnits (seconds - second * Binary64.one).toNat)

/-- The moment that a text states, or else the one whose count it spells. A count with a point
that lies beyond the calendar leaves the text unread. -/
def ofText (cs : List Char) : Except DateFault Moment :=
  match ofStamp cs with
  | .ok moment => .ok moment
  | .error fault =>
    match SpelledCount.read? cs with
    | none => .error fault
    | some (.whole count) => ofCount count 0
    | some (.pointed count) =>
      match ofPointed count with
      | .ok moment => .ok moment
      | .error .yearZero => .error .yearZero
      | .error _ => .error fault

end Curbside.Moment

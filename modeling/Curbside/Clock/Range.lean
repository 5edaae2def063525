import Curbside.Clock.Token
import Curbside.Text.Capital

/-! Clock ranges such as 8AM-6PM. A side without a half of the day borrows the other side's,
or the opposite half when that would put the start after the end. A range whose two sides
state neither a half nor minutes is more likely an address than a time, and is passed over. -/

namespace Curbside.Clock
open Curbside.Text
open Curbside.Pattern

/-- One side of a range as it stands in running text. -/
def side : Pattern :=
  anyOf [spelled "NOON", spelled "MIDNIGHT", digits ++ maybe (spaces ++ halfMark spaces)]
    ++ .notBefore isPlainAlphanumeric

/-- What stands between the two sides of a range: a dash of any length or a word. -/
def rangeLink : Pattern :=
  anyOf [spelled "-", spelled "–", spelled "—", asWord (spelled "TO"), asWord (spelled "THRU"),
    asWord (spelled "THROUGH"), asWord (spelled "UNTIL")]

/-- A range in capitals. Its sides are held under 4 and 5. It does not begin inside a number
or after a colon. -/
def range : Pattern :=
  .notAfter (fun c => isDigit c || c == ':')
    ++ .held 4 side ++ spaces ++ rangeLink ++ spaces ++ .held 5 side

/-- Choose between a bare side's reading in the half of the other side and in the opposite
half. The first is preferred if it lies on the right side of the stated time, and a side that
has no 12-hour reading keeps its 24-hour one. -/
def borrow (same opposite bare : Option Minute) (fits : Minute → Bool) : Option Minute :=
  match same, opposite with
  | some near, some far => if fits near then some near else some far
  | some near, none => some near
  | none, some far => some far
  | none, none => bare

/-- The minutes that the two sides of a range name. -/
def resolve? (first last : List Char) : Option (Minute × Minute) :=
  let start := readToken? first
  let finish := readToken? last
  match statedHalf? first, statedHalf? last with
  | none, none =>
    if (first ++ last).contains ':' then pair start finish else none
  | some _, some _ => pair start finish
  | none, some half =>
    match finish with
    | none => none
    | some finish =>
      pair (borrow (readInHalf? first half) (readInHalf? first half.other) start (· < finish))
        (some finish)
  | some half, none =>
    match start with
    | none => none
    | some start =>
      pair (some start)
        (borrow (readInHalf? last half) (readInHalf? last half.other) finish (start < ·))
where
  /-- Both sides, if both are readable. -/
  pair : Option Minute → Option Minute → Option (Minute × Minute)
    | some start, some finish => some (start, finish)
    | _, _ => none

/-- The items of a list without repetitions, each where it stood first. -/
def firstSeen [DecidableEq α] (items : List α) : List α :=
  items.foldl (fun seen item => if item ∈ seen then seen else seen ++ [item]) []

/-- The distinct readable ranges in a text, in order. -/
def ranges (printed : List Char) : List (Minute × Minute) :=
  firstSeen ((range.findAll (upper printed)).filterMap fun place =>
    resolve? (place.part 4) (place.part 5))

end Curbside.Clock

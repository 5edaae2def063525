import Curbside.Clock.Minute
import Curbside.Pattern.Search
import Curbside.Text.Upper

/-! A clock token is one printed time of day, such as 8, 8:30 or 8 P.M., or a word for noon or
midnight. A token with a half of the day is read on a 12-hour clock, a bare one on a
24-hour clock. -/

namespace Curbside.Clock
open Curbside.Text
open Curbside.Pattern

/-- A half of the day on a 12-hour clock. -/
inductive Half where
  | morning
  | afternoon
  deriving DecidableEq, Repr

namespace Half

def other : Half → Half
  | morning => afternoon
  | afternoon => morning

/-- The letter that marks a half of the day. -/
def letter : Half → Char
  | morning => 'A'
  | afternoon => 'P'

def ofLetter? (c : Char) : Option Half :=
  if c = 'A' then some morning else if c = 'P' then some afternoon else none

/-- The hour of the day that an hour of a 12-hour clock means in this half. Twelve is the
hour before one. -/
def hourOf? (half : Half) (hour : Nat) : Option Nat :=
  if 1 ≤ hour ∧ hour ≤ 12 then
    some (hour % 12 + match half with | morning => 0 | afternoon => 12)
  else none

end Half

/-- The mark of a half of the day after a time, with or without its M, and with dots or
without. Its letter is held under 3. -/
def halfMark (between : Pattern) : Pattern :=
  .held 3 (among ['A', 'P']) ++ maybe (spelled ".") ++ between ++ maybe (spelled "M")
    ++ maybe (spelled ".")

def minutePart : Pattern := maybe (spelled ":" ++ .held 2 (digit ++ digit))

/-- Hours of one or two digits, held under 1, and perhaps minutes of two digits, held under 2. -/
def digits : Pattern := .held 1 (digit ++ maybe digit) ++ minutePart

def token : Pattern := digits ++ blanks ++ maybe (halfMark blanks) ++ .textEnd

/-- The half of the day that ends a text. -/
def endingHalf : Pattern := halfMark blanks ++ .textEnd

/-- A token in capitals and without blanks around it. -/
def plain (printed : List Char) : List Char := upper (trim printed)

def noonWord : List Char := "NOON".toList

def midnightWord : List Char := "MIDNIGHT".toList

/-- The half of the day whose mark a reading holds. -/
def heldHalf? (place : Place) : Option Half :=
  match place.part 3 with
  | c :: _ => Half.ofLetter? c
  | [] => none

/-- The minute that a token names, if it is readable. -/
def readToken? (printed : List Char) : Option Minute :=
  let written := plain printed
  if written = noonWord then some Minute.noon
  else if written = midnightWord then some Minute.midnight
  else
    match token.matchStart? written with
    | none => none
    | some place =>
      let hour := digitsValue (place.part 1)
      let minute := digitsValue (place.part 2)
      match heldHalf? place with
      | none => Minute.ofClock? hour minute
      | some half =>
        match half.hourOf? hour with
        | none => none
        | some hour => Minute.ofClock? hour minute

/-- The half of the day that a token states. Noon belongs to the afternoon and midnight to
the morning. -/
def statedHalf? (printed : List Char) : Option Half :=
  let written := plain printed
  if written = noonWord then some .afternoon
  else if written = midnightWord then some .morning
  else (endingHalf.search? written).bind heldHalf?

/-- A token read as if a half of the day were printed after it. -/
def readInHalf? (printed : List Char) (half : Half) : Option Minute :=
  readToken? (trim printed ++ [' ', half.letter, 'M'])

end Curbside.Clock

import Curbside.Text.Number

/-! Integers in loose spelling: a plus sign, zeros in front, single underscores between digits,
and a point with nothing but zeros after it do not change what is meant. A loose spelling is
first reduced to its plain form, a minus sign or none and digits, and that is then read. -/

namespace Curbside.Text

/-- A text without its underscores, none of which is at an end or beside another. -/
def withoutUnderscores? (cs : List Char) : Option (List Char) :=
  if cs.head? = some '_' || cs.getLast? = some '_' || doubled cs then none
  else some (cs.filter (· != '_'))
where
  doubled : List Char → Bool
    | '_' :: '_' :: _ => true
    | _ :: rest => doubled rest
    | [] => false

/-- A text without the plus sign that it may begin with. A minus sign cannot follow one. -/
def withoutPlus? : List Char → Option (List Char)
  | '+' :: '-' :: _ => none
  | '+' :: rest => some rest
  | cs => some cs

/-- What counts in a text after a zero. Further zeros and the underscores among them do not. A
point keeps the character before it, as does the end of the text. -/
def afterZeros? (before : Char) : List Char → Option (List Char)
  | [] => some [before]
  | c :: rest =>
    if c = '0' || c = '_' then afterZeros? c rest
    else if c = '-' || isPlainDigit c then some (c :: rest)
    else if c = '.' then some (before :: c :: rest)
    else none

/-- A text without the zeros in front. It begins with a digit or a minus sign, and a minus
sign may also come after the zeros. -/
def withoutZeros? : List Char → Option (List Char)
  | [] => none
  | c :: rest =>
    if c = '0' then afterZeros? c rest
    else if c = '-' || isPlainDigit c then some (c :: rest)
    else none

/-- A text without the point and the zeros that end it. A point that nothing follows stays. -/
def withoutPlaces (cs : List Char) : List Char :=
  let whole := cs.takeWhile (· != '.')
  let places := cs.drop (whole.length + 1)
  if !places.isEmpty && places.all (· == '0') then whole else cs

/-- The digits of a text behind a minus sign or none. -/
def digitsBehindMinus : List Char → List Char
  | '-' :: digits => digits
  | digits => digits

/-- The plain form of an integer in loose spelling. After a minus sign zeros may stay. -/
def plainInteger? (cs : List Char) : Option (List Char) := do
  let plain ← withoutUnderscores? (withoutPlaces (← withoutZeros? (← withoutPlus? cs)))
  let digits := digitsBehindMinus plain
  if digits.isEmpty || !digits.all isPlainDigit then none else some plain

def integerValue : List Char → Int
  | '-' :: digits => -(digitsValue digits)
  | digits => digitsValue digits

end Curbside.Text

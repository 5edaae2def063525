import Curbside.Number.Decimal

/-! Numbers in the binary64 format. Every finite one is a whole number of units of 2^-1074, so
it is held as its sign and that whole number, and all arithmetic is exact arithmetic on
units followed by one rounding. -/

namespace Curbside

/-- A binary64 number. Zero has a sign. -/
inductive Binary64 where
  | finite (negative : Bool) (units : Nat)
  | infinite (negative : Bool)
  | nan
  deriving DecidableEq, Repr

namespace Binary64

/-- How many units make one. -/
def one : Nat := powerOfTwo 1074

/-- The units of the first number beyond the format. -/
def limit : Nat := powerOfTwo 2098

/-- The nearest whole number with at most 53 binary digits, followed by zeros. A quotient
halfway between two of them goes to the one with the even digits. -/
def roundUnits (num den : Nat) : Nat :=
  let spacing := powerOfTwo ((num / den).log2 - 52)
  roundHalfEven num (den * spacing) * spacing

/-- The number nearest to a quotient. One that rounds beyond the format is infinite. -/
def nearest (negative : Bool) (num den : Nat) : Binary64 :=
  let units := roundUnits (num * one) den
  if units < limit then finite negative units else infinite negative

def ofRatio (num : Int) (den : Nat) : Binary64 := nearest (num < 0) num.natAbs den

def ofInt (n : Int) : Binary64 := ofRatio n 1

/-- The number nearest to a decimal number. Exponents far outside the format are not worked
out. -/
def ofDecimal (d : Decimal) : Binary64 :=
  let leading := d.exponent + d.size
  if d.coefficient = 0 || leading < -400 then finite d.negative 0
  else if 400 < leading then infinite d.negative
  else if 0 ≤ d.exponent then nearest d.negative (d.coefficient * powerOfTen d.exponent.toNat) 1
  else nearest d.negative d.coefficient (powerOfTen d.exponent.natAbs)

/-- The number nearest to a coefficient with a count of decimal places. -/
def ofPlaces (coefficient places : Nat) : Binary64 := nearest false coefficient (powerOfTen places)

/-- Read digits with a point and an exponent, or the name of an infinity or of no number in
letters of either case. -/
def ofText? (cs : List Char) : Option Binary64 :=
  match Decimal.ofPlain? cs with
  | some d => some (ofDecimal d)
  | none =>
    let (negative, body) := Decimal.takeSign cs
    let name := body.map Char.toLower
    if name = "inf".toList || name = "infinity".toList then some (infinite negative)
    else if name = "nan".toList then some nan
    else none

/-- The units of a finite number with their sign. -/
def signedUnits (negative : Bool) (units : Nat) : Int :=
  if negative then -(units : Int) else units

/-- The units of a number with their sign. What is not finite has none. -/
def signed : Binary64 → Int
  | finite negative units => signedUnits negative units
  | _ => 0

/-- Whether one number is less than another. No number compares with what is no number. -/
def lt : Binary64 → Binary64 → Bool
  | nan, _ => false
  | _, nan => false
  | infinite negative, infinite other => negative && !other
  | infinite negative, finite .. => negative
  | finite .., infinite negative => !negative
  | finite n u, finite m v => signedUnits n u < signedUnits m v

/-- The first number, unless the second is less. -/
def least (a b : Binary64) : Binary64 := if lt b a then b else a

def mul : Binary64 → Binary64 → Binary64
  | nan, _ => nan
  | _, nan => nan
  | infinite n, infinite m => infinite (n != m)
  | infinite n, finite m units => if units = 0 then nan else infinite (n != m)
  | finite n units, infinite m => if units = 0 then nan else infinite (n != m)
  | finite n u, finite m v => nearest (n != m) (u * v) (one * one)

/-- The number nearest to the exact value rounded to a count of decimal places, halves to the
even digit. The sign stays even if nothing else does. -/
def roundPlaces (places : Nat) : Binary64 → Binary64
  | finite negative units =>
    nearest negative (roundHalfEven (units * powerOfTen places) one) (powerOfTen places)
  | x => x

/-- The greatest integer that is not above a finite number. -/
def floor? : Binary64 → Option Int
  | finite negative units => some (Int.fdiv (signedUnits negative units) one)
  | _ => none

/-- The least integer that is not below a finite number. -/
def ceil? : Binary64 → Option Int
  | finite negative units => some (-Int.fdiv (-signedUnits negative units) one)
  | _ => none

/-- The integer that a number is, if it is one. -/
def toInt? : Binary64 → Option Int
  | finite negative units =>
    if units % one = 0 then some (signedUnits negative (units / one)) else none
  | _ => none

end Binary64

end Curbside

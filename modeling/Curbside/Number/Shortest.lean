import Curbside.Number.Binary64

/-! The shortest decimal text of a binary64 number: the fewest digits that read back as the
same number, and of those the ones nearest to its exact value. -/

namespace Curbside.Binary64

/-- The least power of ten, counted upwards from `power`, that reaches a whole number of ones.
The count is cut off at `steps`, which is enough for every number. -/
def firstPower (units : Nat) : (steps power : Nat) → Nat
  | 0, power => power
  | steps + 1, power =>
    if one ≤ units * powerOfTen power then power else firstPower units steps (power + 1)

/-- The power of ten that the leading digit of a positive number stands for. -/
def leadingPower (units : Nat) : Int :=
  if one ≤ units then (Decimal.digitsOf (units / one)).length - 1
  else -(firstPower units 330 1 : Int)

/-- The exact value in units of a power of ten, as a quotient. -/
def onGrid (units : Nat) (power : Int) : Nat × Nat :=
  if 0 ≤ power then (units, one * powerOfTen power.toNat) else (units * powerOfTen power.natAbs, one)

/-- Whether a decimal number reads back as a positive number of so many units. -/
def readsBack (units coefficient : Nat) (power : Int) : Bool :=
  ofDecimal ⟨false, coefficient, power⟩ == finite false units

/-- The multiple of a power of ten that reads back, the nearer one if both neighbours do. -/
def onGrid? (units : Nat) (power : Int) : Option Nat :=
  let (num, den) := onGrid units power
  let below := num / den
  match readsBack units below power, readsBack units (below + 1) power with
  | true, true => some (roundHalfEven num den)
  | true, false => some below
  | false, true => some (below + 1)
  | false, false => none

/-- Drop the zeros that a coefficient ends with, at most `count` of them. -/
def dropZeros : (count : Nat) → Nat → Int → Nat × Int
  | 0, coefficient, power => (coefficient, power)
  | count + 1, coefficient, power =>
    if coefficient % 10 = 0 then dropZeros count (coefficient / 10) (power + 1)
    else (coefficient, power)

/-- Try the grids of ever more digits. Seventeen digits tell any two numbers apart, so the
search ends. -/
def shortestFrom (units : Nat) (leading : Int) : (steps digits : Nat) → Nat × Int
  | 0, _ => (0, 0)
  | steps + 1, digits =>
    let power := leading - digits
    match onGrid? units power with
    | some coefficient => dropZeros 20 coefficient power
    | none => shortestFrom units leading steps (digits + 1)

/-- The shortest decimal number that reads back as a finite number. Zero is written as one
digit. -/
def shortest (negative : Bool) (units : Nat) : Decimal :=
  if units = 0 then ⟨negative, 0, 0⟩
  else
    let (coefficient, power) := shortestFrom units (leadingPower units) 18 0
    ⟨negative, coefficient, power⟩

/-- Numbers are positional from a ten-thousandth up to below ten to the sixteenth, a whole
number ends with a point and a zero, and an exponent has two digits at least. -/
def layout : Decimal.Layout where
  isPositional _ leading := -4 ≤ leading && leading < 16
  mark := 'e'
  exponentWidth := 2
  afterWhole := ['.', '0']

def write : Binary64 → List Char
  | finite negative units => layout.write (shortest negative units)
  | infinite negative => if negative then "-inf".toList else "inf".toList
  | nan => "nan".toList

end Curbside.Binary64

import Curbside.Number.Rounding
import Curbside.Text.Blank
import Curbside.Text.Digit

/-! Decimal numbers that remember how they were written: 2.5 and 2.50 are equal in value and
differ as numbers here, and zero has a sign. Reading is exact, and a product is rounded to 28
digits. -/

namespace Curbside

/-- A sign, a coefficient and a power of ten. -/
structure Decimal where
  negative : Bool
  coefficient : Nat
  exponent : Int
  deriving DecidableEq, Repr

namespace Decimal

def ofInt (n : Int) : Decimal := ⟨n < 0, n.natAbs, 0⟩

/-- Zero of either sign, or a number above it. -/
def isNonNegative (d : Decimal) : Bool := !d.negative || d.coefficient == 0

/-- The digits of a natural number in base ten. -/
def digitsOf (n : Nat) : List Char := Nat.toDigits 10 n

def size (d : Decimal) : Nat := (digitsOf d.coefficient).length

/-- Whether a text begins with a minus sign, and what follows the sign that it may have. -/
def takeSign : List Char → Bool × List Char
  | '-' :: rest => (true, rest)
  | '+' :: rest => (false, rest)
  | cs => (false, cs)

/-- The integer that a row of plain digits writes, perhaps with a sign before it. -/
def integer? (cs : List Char) : Option Int :=
  let (negative, digits) := takeSign cs
  if digits.isEmpty || !digits.all Text.isPlainDigit then none
  else if negative then some (-(Text.digitsValue digits : Int))
  else some (Text.digitsValue digits)

/-- Read plain digits with a point and an exponent, both optional. At least one digit stands
before the exponent. -/
def ofPlain? (cs : List Char) : Option Decimal :=
  let (negative, body) := takeSign cs
  let whole := body.takeWhile Text.isPlainDigit
  let afterWhole := body.dropWhile Text.isPlainDigit
  let fraction := match afterWhole with
    | '.' :: rest => rest.takeWhile Text.isPlainDigit
    | _ => []
  let rest := match afterWhole with
    | '.' :: rest => rest.dropWhile Text.isPlainDigit
    | rest => rest
  let digits := whole ++ fraction
  if digits.isEmpty then none
  else
    let coefficient := Text.digitsValue digits
    match rest with
    | [] => some ⟨negative, coefficient, -fraction.length⟩
    | mark :: rest =>
      if mark = 'e' || mark = 'E' then
        (integer? rest).map fun e => ⟨negative, coefficient, e - fraction.length⟩
      else none

/-- What a text stands for: a number, or an infinity or something that is no number. -/
inductive Reading where
  | number (d : Decimal)
  | notFinite
  deriving DecidableEq

/-- The largest power of ten of a leading digit that can be read. -/
def readLimit : Int := 999999999999999999

/-- Whether a number can be held without loss. -/
def isHoldable (d : Decimal) : Bool :=
  let leading := if d.coefficient = 0 then d.exponent else d.exponent + d.size - 1
  leading ≤ readLimit && -(2 * readLimit - 1) ≤ d.exponent

/-- The text without underscores and with the digits of every script made plain. Other
characters outside the plain alphabet cannot be read. -/
def plainDigits? : List Char → Option (List Char)
  | [] => some []
  | c :: rest =>
    if c = '_' then plainDigits? rest
    else if c.toNat < 128 then (plainDigits? rest).map (c :: ·)
    else
      match Text.digitValue? c with
      | some value => (plainDigits? rest).map (Char.ofNat (48 + value) :: ·)
      | none => none

/-- Whether a text in small letters names an infinity or something that is no number. -/
def isSpecialName (cs : List Char) : Bool :=
  cs == "inf".toList || cs == "infinity".toList
    || ("nan".toList.isPrefixOf cs && (cs.drop 3).all Text.isPlainDigit)
    || ("snan".toList.isPrefixOf cs && (cs.drop 4).all Text.isPlainDigit)

/-- Read a decimal number as people write it, with blanks around it. -/
def read? (cs : List Char) : Option Reading :=
  match plainDigits? (Text.trim cs) with
  | none => none
  | some plain =>
    match ofPlain? plain with
    | some d => if d.isHoldable then some (.number d) else none
    | none =>
      if isSpecialName ((takeSign plain).2.map Char.toLower) then some .notFinite else none

/-- Digits with a point after the first `left` of them. A point at the left of all digits gets
zeros after it, one at the right is not written but filled up to with zeros. -/
def pointed (digits : List Char) (left : Int) : List Char :=
  if left ≤ 0 then '0' :: '.' :: List.replicate left.natAbs '0' ++ digits
  else if digits.length ≤ left.toNat then
    digits ++ List.replicate (left.toNat - digits.length) '0'
  else digits.take left.toNat ++ '.' :: digits.drop left.toNat

/-- A power of ten with its sign. -/
def signedExponent (width : Nat) (e : Int) : List Char :=
  let digits := digitsOf e.natAbs
  (if e < 0 then '-' else '+') :: List.replicate (width - digits.length) '0' ++ digits

/-- How a number is written: when its digits stand around a point as they are, the mark and the
least number of digits of an exponent otherwise, and what follows a whole number. -/
structure Layout where
  isPositional : (exponent leading : Int) → Bool
  mark : Char
  exponentWidth : Nat
  afterWhole : List Char

/-- Write a number in a layout. Its leading digit stands for a power of ten one below the
number of digits left of the point. -/
def Layout.write (layout : Layout) (d : Decimal) : List Char :=
  let digits := digitsOf d.coefficient
  let left := d.exponent + digits.length
  let sign := if d.negative then ['-'] else []
  if layout.isPositional d.exponent (left - 1) then
    sign ++ pointed digits left ++ if digits.length ≤ left.toNat then layout.afterWhole else []
  else
    sign ++ pointed digits 1 ++ layout.mark :: signedExponent layout.exponentWidth (left - 1)

/-- Amounts are positional unless their exponent is positive or their leading digit stands
below the sixth place. -/
def amountLayout : Layout where
  isPositional exponent leading := exponent ≤ 0 && -6 ≤ leading
  mark := 'E'
  exponentWidth := 1
  afterWhole := []

/-- A number written so that reading it gives the same number. -/
def write (d : Decimal) : List Char := amountLayout.write d

/-- The digits of a coefficient shifted to the left by some places, or to the right with what is
shifted out rounded, halves to the even neighbour. A shift beyond all digits leaves nothing. -/
def shiftedDigits (coefficient : Nat) (shift : Int) : List Char :=
  let digits := digitsOf coefficient
  if coefficient = 0 then digits
  else if 0 ≤ shift then digits ++ List.replicate shift.toNat '0'
  else if digits.length < shift.natAbs then ['0']
  else digitsOf (roundHalfEven coefficient (powerOfTen shift.natAbs))

/-- A number with a fixed count of places, halves to the even neighbour and never with an
exponent. The sign of zero is kept. All digits in front of the point are written out, which no
memory holds for exponents near `readLimit`: that the service fails there is left out. -/
def fixed (places : Nat) (d : Decimal) : List Char :=
  let digits := paddedTo (places + 1) (shiftedDigits d.coefficient (d.exponent + places))
  (if d.negative then ['-'] else []) ++ pointed digits (digits.length - places)
where
  /-- Digits with zeros before them up to a width. -/
  paddedTo (width : Nat) (digits : List Char) : List Char :=
    List.replicate (width - digits.length) '0' ++ digits

/-- The number of digits that a product keeps. -/
def precision : Nat := 28

/-- The power of ten of the leading digit above which a product is too large. -/
def largestLeading : Int := 999999

/-- The least exponent that a product can have. -/
def leastExponent : Int := -1000026

/-- A product rounded to the digits it can keep, or none if it is too large. -/
def fit? (d : Decimal) : Option Decimal :=
  if d.coefficient = 0 then
    some { d with exponent := max leastExponent (min d.exponent largestLeading) }
  else
    let target := max (d.exponent + d.size - precision) leastExponent
    let rounded :=
      if target ≤ d.exponent then d
      else
        let cut := (target - d.exponent).toNat
        let kept := if d.size < cut then 0 else roundHalfEven d.coefficient (powerOfTen cut)
        if kept = powerOfTen precision then ⟨d.negative, powerOfTen (precision - 1), target + 1⟩
        else ⟨d.negative, kept, target⟩
    if largestLeading < rounded.exponent + rounded.size - 1 then none else some rounded

/-- The product of two numbers, or none if it is too large to be held. -/
def mul? (a b : Decimal) : Option Decimal :=
  fit? ⟨a.negative != b.negative, a.coefficient * b.coefficient, a.exponent + b.exponent⟩

end Decimal

end Curbside

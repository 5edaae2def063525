/-! Rounding a quotient of natural numbers to the nearest natural number, halves to the even
neighbour. Every rounding in this library goes through it. The powers that numbers are scaled
by stand beside it. -/

namespace Curbside

def powerOfTen (exponent : Nat) : Nat := Nat.pow 10 exponent

def powerOfTwo (exponent : Nat) : Nat := Nat.pow 2 exponent

/-- The natural number nearest to a quotient. A quotient halfway between two numbers goes to
the even one. -/
def roundHalfEven (num den : Nat) : Nat :=
  let whole := num / den
  let rest := 2 * (num % den)
  if rest < den then whole
  else if den < rest then whole + 1
  else whole + whole % 2

def roundHalfEvenInt (num : Int) (den : Nat) : Int :=
  if num < 0 then -(roundHalfEven num.natAbs den) else roundHalfEven num.natAbs den

end Curbside

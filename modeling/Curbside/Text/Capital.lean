import Curbside.Text.Digit

/-! The capital letters A to Z. Capitals of other alphabets are not among them. -/

namespace Curbside.Text

def isPlainCapital (c : Char) : Bool := 'A' ≤ c && c ≤ 'Z'

/-- A capital letter or a digit of the plain alphabet. -/
def isPlainAlphanumeric (c : Char) : Bool := isPlainCapital c || isPlainDigit c

end Curbside.Text

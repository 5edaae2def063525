import Curbside.Text.Blank
import Curbside.Text.Digit

/-! What may stand in a text beside the digits of a number: blanks around it, and single
underscores between digits. -/

namespace Curbside.Text

/-- A blank that may surround a number. The information separators may not. -/
def isSpace (c : Char) : Bool := isBlank c && !(28 ≤ c.toNat && c.toNat ≤ 31)

/-- A text without the blanks that may surround a number. -/
def trimSpaces (cs : List Char) : List Char :=
  ((cs.dropWhile isSpace).reverse.dropWhile isSpace).reverse

/-- A text in which the digits of every script are plain ones. -/
def plainDigits (cs : List Char) : List Char :=
  cs.map fun c =>
    match digitValue? c with
    | some value => Char.ofNat (48 + value)
    | none => c

/-- A text without its underscores, each of which stands between two plain digits. The
character before the text is given. -/
def joinDigits? (before : Option Char) : List Char → Option (List Char)
  | [] => some []
  | '_' :: rest =>
    if before.any isPlainDigit && rest.head?.any isPlainDigit then joinDigits? (some '_') rest
    else none
  | c :: rest => (joinDigits? (some c) rest).map (c :: ·)

end Curbside.Text

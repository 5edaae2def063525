/-! A text falls into lines. Ten characters end a line, a carriage return followed by a
line feed ends it once, and the end of the text ends a line only if something stands in it. -/

namespace Curbside.Text

/-- The characters that end a line. The last information separator, 1F, is not among them. -/
def isLineEnd (c : Char) : Bool :=
  let n := c.toNat
  (10 ≤ n && n ≤ 13) || (28 ≤ n && n ≤ 30) || n == 0x85 || n == 0x2028 || n == 0x2029

/-- Put a character in front of the first line, opening one if there is none. -/
private def onFirstLine (c : Char) : List (List Char) → List (List Char)
  | [] => [[c]]
  | line :: more => (c :: line) :: more

/-- The lines of a text, without the characters that end them. -/
def lines : List Char → List (List Char)
  | [] => []
  | '\r' :: '\n' :: rest => [] :: lines rest
  | c :: rest => if isLineEnd c then [] :: lines rest else onFirstLine c (lines rest)

theorem lines_cons {c : Char} (inside : isLineEnd c = false) (rest : List Char) :
    lines (c :: rest) =
      match lines rest with
      | [] => [[c]]
      | line :: more => (c :: line) :: more := by
  have whole : ∀ more, c = '\r' → rest = '\n' :: more → False := by
    intro more same
    subst same
    cases inside
  rw [lines, if_neg (by simp [inside])]
  · cases lines rest <;> rfl
  · exact whole

/-- Write lines below each other, with a line feed between neighbours. -/
def unlines : List (List Char) → List Char
  | [] => []
  | [line] => line
  | line :: more => line ++ '\n' :: unlines more

end Curbside.Text

import Curbside.Days.Phrase
import Curbside.Sign.Finding

/-! A sign may state several restrictions below each other, each with the times that belong to
it. A clause gathers the lines of one restriction. A line that speaks of a kind opens a new
clause if the current one has both a kind and a time already. -/

namespace Curbside.Sign
open Curbside.Text

/-- Lines of a sign that belong together, in order, without blanks at their ends. -/
structure Clause where
  lines : List (List Char)
  deriving DecidableEq, Repr

/-- Whether a line speaks of a kind of rule. -/
def isKindLine (line : List Char) : Bool := isKindText (upper line)

namespace Clause

/-- The lines of a clause as they are printed. -/
def rawText (clause : Clause) : List Char := unlines clause.lines

def text (clause : Clause) : List Char := unlines (clause.lines.map upper)

def ranges (clause : Clause) : List (Minute × Minute) := Clock.ranges clause.text

def days (clause : Clause) : DaySet := Days.read clause.text

def hasKind (clause : Clause) : Bool := clause.lines.any isKindLine

/-- Whether a clause says anything about when it holds. -/
def hasTime (clause : Clause) : Bool := !clause.ranges.isEmpty || clause.days != DaySet.empty

/-- Whether a line after the clause opens a new one. -/
def isClosedBy (clause : Clause) (line : List Char) : Bool :=
  isKindLine line && clause.hasKind && clause.hasTime

def add (clause : Clause) (line : List Char) : Clause := ⟨clause.lines ++ [line]⟩

def gather (current : Clause) : List (List Char) → List Clause
  | [] => [current]
  | line :: rest =>
    if current.isClosedBy line then current :: gather ⟨[line]⟩ rest
    else gather (current.add line) rest

end Clause

/-- The lines of a text that are not blank, without blanks at their ends. -/
def printedLines (text : List Char) : List (List Char) :=
  ((lines text).map trim).filter (!·.isEmpty)

def clauses (text : List Char) : List Clause :=
  match printedLines text with
  | [] => []
  | line :: rest => Clause.gather ⟨[line]⟩ rest

end Curbside.Sign

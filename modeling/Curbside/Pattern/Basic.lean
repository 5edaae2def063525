import Curbside.Text.Blank
import Curbside.Text.Digit
import Curbside.Text.Word

/-! Phrases on signs are described by patterns. Matching a pattern offers its readings in a
fixed order, the preferred one first, and the first reading that the rest of the phrase
accepts is the one that counts. -/

namespace Curbside

/-- A description of phrases. Of two alternatives the first is preferred, and a repetition
prefers to go on. -/
inductive Pattern where
  | nothing
  | one (accepts : Char → Bool)
  | letters (cs : List Char)
  | both (first second : Pattern)
  | either (first second : Pattern)
  | many (body : Pattern)
  | held (label : Nat) (body : Pattern)
  | wordEdge
  | notBefore (refuses : Char → Bool)
  | notAfter (refuses : Char → Bool)
  | textEnd

/-- A place inside a text: the character just passed, the text ahead, and the parts held so
far with their labels, the latest first. -/
structure Place where
  behind : Option Char
  ahead : List Char
  parts : List (Nat × List Char)

namespace Place

def start (cs : List Char) : Place := ⟨none, cs, []⟩

/-- A place is a word edge when exactly one of its two neighbours belongs to a word. -/
def isWordEdge (place : Place) : Bool :=
  place.behind.any Text.isWord != place.ahead.head?.any Text.isWord

/-- The text between a place and a later one. -/
def textUntil (place later : Place) : List Char :=
  place.ahead.take (place.ahead.length - later.ahead.length)

/-- The text last held under a label. -/
def part? (place : Place) (label : Nat) : Option (List Char) := place.parts.lookup label

/-- The text last held under a label, or no text. -/
def part (place : Place) (label : Nat) : List Char := (place.part? label).getD []

end Place

namespace Pattern

instance : Append Pattern := ⟨both⟩

instance : OrElse Pattern := ⟨fun first second => either first (second ())⟩

/-- The letters of a word, one after the other. -/
def spelled (word : String) : Pattern := letters word.toList

/-- The pattern or nothing, with the pattern preferred. -/
def maybe (p : Pattern) : Pattern := either p nothing

/-- A first occurrence of the pattern and more of them. -/
def oneOrMore (p : Pattern) : Pattern := p ++ many p

/-- The first of several alternatives, and so on down the list. -/
def anyOf : List Pattern → Pattern
  | [] => one fun _ => false
  | [p] => p
  | p :: more => either p (anyOf more)

def among (cs : List Char) : Pattern := one cs.contains

def digit : Pattern := one Text.isDigit

/-- Any run of blanks, line ends included. -/
def blanks : Pattern := many (one Text.isBlank)

def gap : Pattern := oneOrMore (one Text.isBlank)

/-- Any run of spaces and tabs, which stays on its line. -/
def spaces : Pattern := many (among [' ', '\t'])

def asWord (p : Pattern) : Pattern := wordEdge ++ p ++ wordEdge

/-- What remains of a text after a word, if the text starts with it. -/
def after? : List Char → List Char → Option (List Char)
  | [], rest => some rest
  | _ :: _, [] => none
  | c :: cs, d :: rest => if c = d then after? cs rest else none

/-- Repeat a step while it makes progress, at most `limit` times, and go on with `next` from the
farthest place from which that succeeds. -/
def repeated (step : Place → (Place → Option α) → Option α) :
    Nat → Place → (Place → Option α) → Option α
  | 0, place, next => next place
  | limit + 1, place, next =>
    match step place fun later =>
        if later.ahead.length < place.ahead.length then repeated step limit later next
        else none with
    | some answer => some answer
    | none => next place

/-- Match a pattern at a place and hand each reading to `next`, in order of preference, until
one is accepted. The answer is what `next` makes of that reading. -/
def run : Pattern → Place → (Place → Option α) → Option α
  | nothing, place, next => next place
  | one accepts, place, next =>
    match place.ahead with
    | [] => none
    | c :: rest => if accepts c then next ⟨some c, rest, place.parts⟩ else none
  | letters cs, place, next =>
    match after? cs place.ahead with
    | none => none
    | some rest => next ⟨cs.getLast?.or place.behind, rest, place.parts⟩
  | both first second, place, next => run first place fun later => run second later next
  | either first second, place, next =>
    match run first place next with
    | some answer => some answer
    | none => run second place next
  | many body, place, next => repeated (run body) place.ahead.length place next
  | held label body, place, next =>
    run body place fun later =>
      next { later with parts := (label, place.textUntil later) :: later.parts }
  | wordEdge, place, next => if place.isWordEdge then next place else none
  | notBefore refuses, place, next => if place.ahead.head?.any refuses then none else next place
  | notAfter refuses, place, next => if place.behind.any refuses then none else next place
  | textEnd, place, next => if place.ahead.isEmpty then next place else none

end Pattern

end Curbside

import Curbside.Pattern.Basic

/-! Patterns are looked for in a text from left to right. The leftmost match wins, matches do
not overlap, and a match always takes at least one character when a text is cut up. -/

namespace Curbside.Pattern

/-- The place after the preferred match at the very start of a text. -/
def matchStart? (p : Pattern) (cs : List Char) : Option Place := p.run (Place.start cs) some

/-- The place after the leftmost match, given the character before the text. -/
def searchFrom (p : Pattern) (behind : Option Char) : List Char → Option Place
  | [] => p.run ⟨behind, [], []⟩ some
  | c :: rest =>
    match p.run ⟨behind, c :: rest, []⟩ some with
    | some found => some found
    | none => searchFrom p (some c) rest

/-- The place after the leftmost match in a text. -/
def search? (p : Pattern) (cs : List Char) : Option Place := p.searchFrom none cs

def occursIn (p : Pattern) (cs : List Char) : Bool := (p.search? cs).isSome

/-- A text cut up by a pattern: characters that no match covers, and matches. -/
inductive Piece where
  | kept (c : Char)
  | found (place : Place)

/-- Cut a text into matches and the characters between them. The first `covered` characters
belong to the match before. -/
def cutFrom (p : Pattern) (behind : Option Char) (covered : Nat) : List Char → List Piece
  | [] => []
  | c :: rest =>
    match covered with
    | remaining + 1 => cutFrom p (some c) remaining rest
    | 0 =>
      match p.run ⟨behind, c :: rest, []⟩ some with
      | some place =>
        if place.ahead.length ≤ rest.length then
          .found place :: cutFrom p (some c) (rest.length - place.ahead.length) rest
        else
          .kept c :: cutFrom p (some c) 0 rest
      | none => .kept c :: cutFrom p (some c) 0 rest

def cut (p : Pattern) (cs : List Char) : List Piece := p.cutFrom none 0 cs

/-- The match that a piece holds, if it is one. -/
def Piece.place? : Piece → Option Place
  | .kept _ => none
  | .found place => some place

/-- A piece with its match blotted out by a space. -/
def Piece.blotted : Piece → Char
  | .kept c => c
  | .found _ => ' '

/-- All matches in a text, from left to right. -/
def findAll (p : Pattern) (cs : List Char) : List Place := (p.cut cs).filterMap Piece.place?

/-- A text in which each match is blotted out by a space. -/
def blot (p : Pattern) (cs : List Char) : List Char := (p.cut cs).map Piece.blotted

end Curbside.Pattern

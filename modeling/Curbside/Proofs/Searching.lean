import Curbside.Proofs.Seams

/-! Where a search finds its match. The match begins at the first place at which the pattern can be
read, and it is the preferred reading there. Behind a seam it is found as if the text began there. -/

namespace Curbside.Proofs.Searching
open Pattern Reading Cutting Preference Seams

/-- A text is cut in two at the first place at which a pattern is read. The preferred reading goes
on from there to a later place. -/
structure Leftmost (p : Pattern) (text front rest : List Char) (place : Place) : Prop where
  cut : text = front ++ rest
  matched : p.run ⟨front.getLast?, rest, []⟩ some = some place
  first : ∀ before after, front = before ++ after → after ≠ [] →
    p.run ⟨before.getLast?, after ++ rest, []⟩ some = none

section
variable {p : Pattern} {text front rest : List Char} {place : Place}

private theorem searchFrom_leftmost {behind : Option Char}
    (found : p.searchFrom behind text = some place) :
    ∃ front rest, text = front ++ rest ∧
      p.run ⟨front.getLast?.or behind, rest, []⟩ some = some place ∧
      ∀ before after, front = before ++ after → after ≠ [] →
        p.run ⟨before.getLast?.or behind, after ++ rest, []⟩ some = none := by
  induction text generalizing behind with
  | nil =>
    refine ⟨[], [], rfl, found, ?_⟩
    intro before after same some
    exact absurd (List.append_eq_nil_iff.mp same.symm).2 some
  | cons c more ih =>
    rw [searchFrom] at found
    cases here : p.run ⟨behind, c :: more, []⟩ some with
    | some other =>
      rw [here] at found
      cases found
      refine ⟨[], c :: more, rfl, here, ?_⟩
      intro before after same some
      exact absurd (List.append_eq_nil_iff.mp same.symm).2 some
    | none =>
      rw [here] at found
      obtain ⟨front, rest, same, matched, first⟩ := ih found
      refine ⟨c :: front, rest, by rw [same, List.cons_append], ?_, ?_⟩
      · rw [getLast?_cons_or]
        exact matched
      · intro before after split some
        cases before with
        | nil =>
          rw [← show c :: front = after from split, List.cons_append, ← same]
          exact here
        | cons d before =>
          obtain ⟨head, tail⟩ := List.cons.inj split
          rw [← head, getLast?_cons_or]
          exact first before after tail some

theorem leftmost_of_search? (found : p.search? text = some place) :
    ∃ front rest, Leftmost p text front rest place := by
  obtain ⟨front, rest, same, matched, first⟩ := searchFrom_leftmost found
  simp only [Option.or_none] at matched first
  exact ⟨front, rest, same, matched, first⟩

theorem search?_eq_none_iff : p.search? text = none ↔ ∀ front rest, text = front ++ rest →
    p.run ⟨front.getLast?, rest, []⟩ some = none := by
  constructor
  · intro nowhere front rest same
    apply Option.not_isSome_iff_eq_none.mp
    intro here
    have found : (p.searchFrom none (front ++ rest)).isSome = true := by
      apply Phrases.searchFrom_later
      rw [Option.or_none]
      exact Phrases.searchFrom_here here
    rw [← same, show p.searchFrom none text = none from nowhere] at found
    cases found
  · intro silent
    cases found : p.search? text with
    | none => rfl
    | some place =>
      obtain ⟨front, rest, leftmost⟩ := leftmost_of_search? found
      have here := leftmost.matched
      rw [silent front rest leftmost.cut] at here
      cases here

theorem leftmost_at_start (found : p.matchStart? text = some place) :
    Leftmost p text [] text place := by
  refine ⟨rfl, found, ?_⟩
  intro before after same some
  exact absurd (List.append_eq_nil_iff.mp same.symm).2 some

namespace Leftmost

theorem reads (leftmost : Leftmost p text front rest place) :
    Reads p ⟨front.getLast?, rest, []⟩ place := by
  obtain ⟨later, read, same⟩ := run_reads leftmost.matched
  cases same
  exact read

/-- A text is cut at one first place only, and one reading is preferred there. -/
theorem unique {otherFront otherRest : List Char} {other : Place}
    (leftmost : Leftmost p text front rest place)
    (another : Leftmost p text otherFront otherRest other) :
    front = otherFront ∧ rest = otherRest ∧ place = other := by
  have noLater {front rest otherFront otherRest : List Char} {place other : Place}
      (leftmost : Leftmost p text front rest place)
      (another : Leftmost p text otherFront otherRest other) {more : List Char}
      (longer : front = otherFront ++ more) : more = [] := by
    apply Classical.byContradiction
    intro some
    have silent := leftmost.first otherFront more longer some
    have whole : otherFront ++ otherRest = otherFront ++ (more ++ rest) := by
      rw [← another.cut, leftmost.cut, longer, List.append_assoc]
    have same := List.append_cancel_left whole
    rw [← same, another.matched] at silent
    cases silent
  have whole : front ++ rest = otherFront ++ otherRest := leftmost.cut.symm.trans another.cut
  have same : front = otherFront := by
    rcases List.append_eq_append_iff.mp whole with ⟨more, longer, _⟩ | ⟨more, longer, _⟩
    · rw [longer, noLater another leftmost longer, List.append_nil]
    · rw [longer, noLater leftmost another longer, List.append_nil]
  subst same
  have sameRest := List.append_cancel_left whole
  subst sameRest
  exact ⟨rfl, rfl, Option.some.inj (leftmost.matched.symm.trans another.matched)⟩

end Leftmost

theorem run_around {surroundings : Surroundings} (unnoticed : Unnoticed surroundings p)
    (place : Place) :
    p.run (surroundings.around place) some = (p.run place some).map surroundings.around := by
  rw [run_some, run_some, readings_around unnoticed, List.head?_map]

end

/-- What begins right behind a seam is found there exactly if nothing is found before the seam, and
it is read as at the start of a text. -/
theorem leftmost_behind_seam {c : Char} {p : Pattern} (seam : Seam c p) (one two : List Char)
    (place : Place) : Leftmost p (one ++ c :: two) (one ++ [c]) two place ↔
      p.search? one = none ∧
        (p.matchStart? two).map (Surroundings.around ⟨some c, [], []⟩) = some place := by
  have inFront : Unnoticed ⟨none, c :: two, []⟩ p :=
    ⟨nofun, fun d next => Option.some.inj next ▸ seam.ends⟩
  have inBack : Unnoticed ⟨some c, [], []⟩ p :=
    ⟨fun d next => Option.some.inj next ▸ seam.opens, nofun⟩
  have front (before after : List Char) : p.run ⟨before.getLast?, after ++ c :: two, []⟩ some =
      (p.run ⟨before.getLast?, after, []⟩ some).map (Surroundings.around ⟨none, c :: two, []⟩) := by
    rw [← run_around inFront, Surroundings.around, Option.or_none, List.append_nil]
  have back : p.run ⟨(one ++ [c]).getLast?, two, []⟩ some =
      (p.matchStart? two).map (Surroundings.around ⟨some c, [], []⟩) := by
    rw [matchStart?, ← run_around inBack, Surroundings.around, Place.start, List.getLast?_concat,
      Option.none_or, List.append_nil, List.append_nil]
  rw [← back]
  constructor
  · intro leftmost
    refine ⟨search?_eq_none_iff.mpr ?_, leftmost.matched⟩
    intro before after same
    have silent := leftmost.first before (after ++ [c]) (by rw [same, List.append_assoc])
      (List.concat_ne_nil _ _)
    rw [List.append_assoc, List.singleton_append, front, Option.map_eq_none_iff] at silent
    exact silent
  · rintro ⟨nowhere, matched⟩
    refine ⟨by rw [List.append_assoc, List.singleton_append], matched, ?_⟩
    intro before after same some
    obtain ⟨inside, last, split⟩ := (List.eq_nil_or_concat after).resolve_left some
    rw [List.concat_eq_append] at split
    rw [split, ← List.append_assoc] at same
    obtain ⟨earlier, final⟩ := List.append_inj' same rfl
    rw [split, ← (List.cons.inj final).1, List.append_assoc, List.singleton_append, front,
      search?_eq_none_iff.mp nowhere before inside earlier]
    rfl

theorem run_either {first second : Pattern} {place : Place} {next : Place → Option α} {answer : α}
    (found : (either first second).run place next = some answer) :
    first.run place next = some answer ∨ second.run place next = some answer := by
  rw [run] at found
  cases preferred : first.run place next with
  | some other =>
    rw [preferred] at found
    exact Or.inl found
  | none =>
    rw [preferred] at found
    exact Or.inr found

/-- The rest takes the preferred reading if it accepts it. -/
theorem run_preferred {p : Pattern} {place later : Place} (prefers : Prefers p place later)
    {next : Place → Option α} {answer : α} (accepted : next later = some answer) :
    p.run place next = some answer := by
  unfold Prefers at prefers
  rw [run_eq_findSome?]
  cases listed : readings p place with
  | nil =>
    rw [listed] at prefers
    cases prefers
  | cons first others =>
    rw [listed] at prefers
    cases prefers
    rw [List.findSome?_cons, accepted]

/-- Whether a pattern holds nothing under any label. -/
def unlabelled : Pattern → Bool
  | .both first second | .either first second => unlabelled first && unlabelled second
  | .many body => unlabelled body
  | .held _ _ => false
  | _ => true

theorem reads_unlabelled {p : Pattern} {place later : Place} (read : Reads p place later)
    (plain : unlabelled p = true) : later.parts = place.parts := by
  induction read with
  | nothing | manyDone | wordEdge _ | notBefore _ | notAfter _ | textEnd _ => rfl
  | one _ | letters _ => rfl
  | both _ _ ihHead ihTail =>
    have each := (Bool.and_eq_true ..).mp plain
    exact (ihTail each.2).trans (ihHead each.1)
  | eitherFirst _ ih => exact ih ((Bool.and_eq_true ..).mp plain).1
  | eitherSecond _ ih => exact ih ((Bool.and_eq_true ..).mp plain).2
  | manyMore _ _ ihHead ihTail => exact (ihTail plain).trans (ihHead plain)
  | held _ _ => cases plain

end Curbside.Proofs.Searching

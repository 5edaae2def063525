import Curbside.Pattern.Search

/-! What a match says about the text. Every match is a reading of its pattern: it passes over a
text that the pattern spells, and whatever it holds under a label is spelled by a part of the
pattern with that label. -/

namespace Curbside.Proofs.Reading
open Pattern

/-- A pattern may be read from one place to another. Which of its readings is preferred is left
open. -/
inductive Reads : Pattern → Place → Place → Prop where
  | nothing {place} : Reads .nothing place place
  | one {accepts : Char → Bool} {behind c rest parts} (accepted : accepts c = true) :
      Reads (.one accepts) ⟨behind, c :: rest, parts⟩ ⟨some c, rest, parts⟩
  | letters {cs rest} {place : Place} (spelled : place.ahead = cs ++ rest) :
      Reads (.letters cs) place ⟨cs.getLast?.or place.behind, rest, place.parts⟩
  | both {first second place middle later} (head : Reads first place middle)
      (tail : Reads second middle later) : Reads (.both first second) place later
  | eitherFirst {first second place later} (read : Reads first place later) :
      Reads (.either first second) place later
  | eitherSecond {first second place later} (read : Reads second place later) :
      Reads (.either first second) place later
  | manyDone {body place} : Reads (.many body) place place
  | manyMore {body place middle later} (head : Reads body place middle)
      (tail : Reads (.many body) middle later) : Reads (.many body) place later
  | held {label body place later} (read : Reads body place later) :
      Reads (.held label body) place
        { later with parts := (label, place.textUntil later) :: later.parts }
  | wordEdge {place : Place} (edge : place.isWordEdge = true) : Reads .wordEdge place place
  | notBefore {refuses : Char → Bool} {place : Place}
      (free : place.ahead.head?.any refuses = false) : Reads (.notBefore refuses) place place
  | notAfter {refuses : Char → Bool} {place : Place} (free : place.behind.any refuses = false) :
      Reads (.notAfter refuses) place place
  | textEnd {place : Place} (ended : place.ahead.isEmpty = true) : Reads .textEnd place place

private theorem after?_some {cs text rest : List Char} (found : after? cs text = some rest) :
    text = cs ++ rest := by
  induction cs generalizing text with
  | nil =>
    cases found
    rfl
  | cons c cs ih =>
    cases text with
    | nil => cases found
    | cons d text =>
      simp only [after?] at found
      split at found
      next same => rw [same, ih found, List.cons_append]
      next => cases found

private theorem repeated_reads {body : Pattern} {limit : Nat} {place : Place}
    {next : Place → Option α} {answer : α}
    (each : ∀ {place : Place} {next : Place → Option α} {answer : α},
      body.run place next = some answer → ∃ later, Reads body place later ∧ next later = some answer)
    (found : repeated body.run limit place next = some answer) :
    ∃ later, Reads (.many body) place later ∧ next later = some answer := by
  induction limit generalizing place with
  | zero => exact ⟨place, .manyDone, found⟩
  | succ limit ih =>
    simp only [repeated] at found
    split at found
    next more =>
      cases found
      obtain ⟨middle, head, onward⟩ := each more
      split at onward
      · obtain ⟨later, tail, accepted⟩ := ih onward
        exact ⟨later, .manyMore head tail, accepted⟩
      · cases onward
    next => exact ⟨place, .manyDone, found⟩

/-- An answer comes from a reading that the rest accepts. -/
theorem run_reads {p : Pattern} {place : Place} {next : Place → Option α} {answer : α}
    (found : p.run place next = some answer) :
    ∃ later, Reads p place later ∧ next later = some answer := by
  induction p generalizing place next answer with
  | nothing => exact ⟨place, .nothing, found⟩
  | one accepts =>
    obtain ⟨behind, ahead, parts⟩ := place
    cases ahead with
    | nil => cases found
    | cons c rest =>
      simp only [run] at found
      split at found
      next accepted => exact ⟨_, .one accepted, found⟩
      next => cases found
  | letters cs =>
    simp only [run] at found
    split at found
    · cases found
    next rest spelled => exact ⟨_, .letters (after?_some spelled), found⟩
  | both first second ihFirst ihSecond =>
    obtain ⟨middle, head, onward⟩ := ihFirst found
    obtain ⟨later, tail, accepted⟩ := ihSecond onward
    exact ⟨later, .both head tail, accepted⟩
  | either first second ihFirst ihSecond =>
    simp only [run] at found
    split at found
    next preferred =>
      cases found
      obtain ⟨later, read, accepted⟩ := ihFirst preferred
      exact ⟨later, .eitherFirst read, accepted⟩
    next =>
      obtain ⟨later, read, accepted⟩ := ihSecond found
      exact ⟨later, .eitherSecond read, accepted⟩
  | many body ih => exact repeated_reads ih found
  | held label body ih =>
    obtain ⟨later, read, accepted⟩ := ih found
    exact ⟨_, .held read, accepted⟩
  | wordEdge =>
    simp only [run] at found
    split at found
    next edge => exact ⟨place, .wordEdge edge, found⟩
    next => cases found
  | notBefore refuses =>
    simp only [run] at found
    split at found
    · cases found
    next free => exact ⟨place, .notBefore (Bool.not_eq_true _ ▸ free), found⟩
  | notAfter refuses =>
    simp only [run] at found
    split at found
    · cases found
    next free => exact ⟨place, .notAfter (Bool.not_eq_true _ ▸ free), found⟩
  | textEnd =>
    simp only [run] at found
    split at found
    next ended => exact ⟨place, .textEnd ended, found⟩
    next => cases found

/-- A match begins at a place at which nothing is held yet. -/
def Matched (p : Pattern) (place : Place) : Prop :=
  ∃ start : Place, start.parts = [] ∧ Reads p start place

theorem matchStart?_matched {p : Pattern} {text : List Char} {place : Place}
    (found : p.matchStart? text = some place) : Matched p place := by
  obtain ⟨later, read, same⟩ := run_reads found
  cases same
  exact ⟨_, rfl, read⟩

theorem getLast?_cons_or (c : Char) (more : List Char) (behind : Option Char) :
    (c :: more).getLast?.or behind = more.getLast?.or (some c) := by
  rw [List.getLast?_cons]
  cases more.getLast? <;> rfl

private theorem searchFrom_reads {p : Pattern} {behind : Option Char} {text : List Char}
    {place : Place} (found : p.searchFrom behind text = some place) :
    ∃ front rest, text = front ++ rest ∧ Reads p ⟨front.getLast?.or behind, rest, []⟩ place := by
  induction text generalizing behind with
  | nil =>
    obtain ⟨later, read, same⟩ := run_reads found
    cases same
    exact ⟨[], [], rfl, read⟩
  | cons c rest ih =>
    simp only [searchFrom] at found
    split at found
    next here =>
      cases found
      obtain ⟨later, read, same⟩ := run_reads here
      cases same
      exact ⟨[], c :: rest, rfl, read⟩
    next =>
      obtain ⟨front, below, same, read⟩ := ih found
      rw [← getLast?_cons_or c front behind] at read
      exact ⟨c :: front, below, by rw [same, List.cons_append], read⟩

theorem search?_reads {p : Pattern} {text : List Char} {place : Place}
    (found : p.search? text = some place) :
    ∃ front rest, text = front ++ rest ∧ Reads p ⟨front.getLast?, rest, []⟩ place := by
  obtain ⟨front, rest, same, read⟩ := searchFrom_reads found
  rw [Option.or_none] at read
  exact ⟨front, rest, same, read⟩

theorem search?_matched {p : Pattern} {text : List Char} {place : Place}
    (found : p.search? text = some place) : Matched p place := by
  obtain ⟨_, _, _, read⟩ := search?_reads found
  exact ⟨_, rfl, read⟩

/-- A match inside a text is a reading that starts with nothing held. -/
theorem cutFrom_reads {p : Pattern} {behind : Option Char} {covered : Nat} {text : List Char}
    {place : Place} (member : .found place ∈ p.cutFrom behind covered text) :
    ∃ front rest, text = front ++ rest ∧ Reads p ⟨front.getLast?.or behind, rest, []⟩ place := by
  induction text generalizing behind covered with
  | nil => cases member
  | cons c rest ih =>
    have onward {covered : Nat} (member : .found place ∈ p.cutFrom (some c) covered rest) :
        ∃ front below, c :: rest = front ++ below ∧
          Reads p ⟨front.getLast?.or behind, below, []⟩ place := by
      obtain ⟨front, below, same, read⟩ := ih member
      rw [← getLast?_cons_or c front behind] at read
      exact ⟨c :: front, below, by rw [same, List.cons_append], read⟩
    cases covered with
    | succ remaining => exact onward member
    | zero =>
      simp only [cutFrom] at member
      split at member
      next here =>
        obtain ⟨later, read, same⟩ := run_reads here
        cases same
        split at member
        · rcases List.mem_cons.mp member with same | further
          · cases same
            exact ⟨[], c :: rest, rfl, read⟩
          · exact onward further
        · rcases List.mem_cons.mp member with same | further
          · cases same
          · exact onward further
      next =>
        rcases List.mem_cons.mp member with same | further
        · cases same
        · exact onward further

theorem findAll_reads {p : Pattern} {text : List Char} {place : Place}
    (member : place ∈ p.findAll text) :
    ∃ front rest, text = front ++ rest ∧ Reads p ⟨front.getLast?, rest, []⟩ place := by
  obtain ⟨piece, cut, same⟩ := List.mem_filterMap.mp member
  cases piece with
  | kept c => cases same
  | found other =>
    cases same
    obtain ⟨front, rest, same, read⟩ := cutFrom_reads cut
    rw [Option.or_none] at read
    exact ⟨front, rest, same, read⟩

theorem findAll_matched {p : Pattern} {text : List Char} {place : Place}
    (member : place ∈ p.findAll text) : Matched p place := by
  obtain ⟨_, _, _, read⟩ := findAll_reads member
  exact ⟨_, rfl, read⟩

end Curbside.Proofs.Reading

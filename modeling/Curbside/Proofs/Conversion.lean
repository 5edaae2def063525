import Curbside.Proofs.Spelling
import Curbside.Sign.Extract

/-! What a reader takes from a match is always there and can be converted. A name of a day names
one, hours and minutes and limits are numbers, and a fine is an amount. No reader ever has to
make up a value. -/

namespace Curbside.Proofs.Conversion
open Pattern Text Days Sign Reading Spelling

/-- A row of digits of any script, at least one. -/
structure IsNumber (text : List Char) : Prop where
  written : text ≠ []
  digits : ∀ c ∈ text, isDigit c = true

/-- A number, perhaps with places after a point. -/
def IsAmount (text : List Char) : Prop :=
  ∃ whole, IsNumber whole ∧ (text = whole ∨ ∃ places, IsNumber places ∧ text = whole ++ '.' :: places)

def NamesDay (name : List Char) : Prop := (weekdayOf? name).isSome

/-- A pattern that passes over numbers only. -/
def Numeric (p : Pattern) : Prop := ∀ text, Spells p text → IsNumber text

theorem numeric_digit : Numeric digit := by
  intro text ⟨c, accepted, same⟩
  subst same
  refine ⟨List.cons_ne_nil c [], ?_⟩
  intro d member
  rw [List.mem_singleton.mp member]
  exact accepted

theorem numeric_both {first second : Pattern} (numeric : Numeric first) (other : Numeric second) :
    Numeric (first ++ second) := by
  intro text ⟨head, tail, same, spellsHead, spellsTail⟩
  subst same
  have headNumber := numeric head spellsHead
  have tailNumber := other tail spellsTail
  refine ⟨List.append_ne_nil_of_left_ne_nil headNumber.written tail, ?_⟩
  intro c member
  rcases List.mem_append.mp member with early | late
  · exact headNumber.digits c early
  · exact tailNumber.digits c late

theorem numeric_maybe {first more : Pattern} (numeric : Numeric first) (other : Numeric more) :
    Numeric (first ++ maybe more) := by
  intro text ⟨head, tail, same, spellsHead, spellsTail⟩
  rcases spellsTail with further | ended
  · exact numeric_both numeric other text ⟨head, tail, same, spellsHead, further⟩
  · rw [same, ended, List.append_nil]
    exact numeric head spellsHead

theorem numeric_two : Numeric (digit ++ digit) := numeric_both numeric_digit numeric_digit

theorem numeric_upToTwo : Numeric (digit ++ maybe digit) := numeric_maybe numeric_digit numeric_digit

theorem numeric_upToThree : Numeric (digit ++ maybe (digit ++ maybe digit)) :=
  numeric_maybe numeric_digit numeric_upToTwo

theorem numeric_upToFour : Numeric (digit ++ maybe (digit ++ maybe (digit ++ maybe digit))) :=
  numeric_maybe numeric_digit numeric_upToThree

theorem namesDay_of_begins {name : List Char} {entry : String × Weekday}
    (listed : entry ∈ weekdayNames) (begins : name.take 3 = entry.1.toList) : NamesDay name := by
  unfold NamesDay weekdayOf?
  rw [List.isSome_findSome?, List.any_eq_true]
  refine ⟨entry, listed, ?_⟩
  dsimp only
  rw [if_pos begins]
  rfl

theorem dayName_namesDay {name : List Char} (spells : Spells dayName name) : NamesDay name := by
  rcases spells with ⟨_, tail, same, begins, _⟩ | ⟨_, tail, same, begins, _⟩ |
    ⟨_, tail, same, begins, _⟩ | ⟨_, tail, same, begins, _⟩ | ⟨_, tail, same, begins, _⟩ |
    ⟨_, tail, same, begins, _⟩ | ⟨_, tail, same, begins, _⟩ <;> rw [same, begins]
  · exact @namesDay_of_begins _ ("MON", .monday) (by decide) rfl
  · exact @namesDay_of_begins _ ("TUE", .tuesday) (by decide) rfl
  · exact @namesDay_of_begins _ ("WED", .wednesday) (by decide) rfl
  · exact @namesDay_of_begins _ ("THU", .thursday) (by decide) rfl
  · exact @namesDay_of_begins _ ("FRI", .friday) (by decide) rfl
  · exact @namesDay_of_begins _ ("SAT", .saturday) (by decide) rfl
  · exact @namesDay_of_begins _ ("SUN", .sunday) (by decide) rfl

theorem amount_isAmount {text : List Char}
    (spells : Spells ((digit ++ maybe (digit ++ maybe (digit ++ maybe digit)))
      ++ maybe (spelled "." ++ .held 2 (digit ++ digit))) text) : IsAmount text := by
  obtain ⟨whole, tail, same, spellsWhole, spellsTail⟩ := spells
  refine ⟨whole, numeric_upToFour whole spellsWhole, ?_⟩
  rcases spellsTail with ⟨point, places, sameTail, pointed, spellsPlaces⟩ | ended
  · exact Or.inr ⟨places, numeric_two places spellsPlaces, by rw [same, sameTail, pointed]; rfl⟩
  · exact Or.inl (by rw [same, ended, List.append_nil])

/-- What a match holds under a filled label is spelled by the one body that the label has. -/
theorem part_spelled {p body : Pattern} {place : Place} (matched : Matched p place) {label : Nat}
    (filled : fills label p = true) (only : ∀ part ∈ bodies label p, part = body) :
    Spells body (place.part label) := by
  obtain ⟨part, inside, spells⟩ := part_spells matched filled
  rw [← only part inside]
  exact spells

/-- All that the readers of a sign take from matches in a text. What they take without asking
whether it is there is held, and what they convert can be converted. -/
structure Converts (text : List Char) : Prop where
  day : ∀ place ∈ oneDay.findAll text, NamesDay (place.part 1)
  firstDay : ∀ place ∈ dayRange.findAll text, NamesDay (place.part 1)
  lastDay : ∀ place ∈ dayRange.findAll text, NamesDay (place.part 2)
  listed : ∀ place ∈ qualified.findAll text, (place.part? 3).isSome ∧ (place.part? 4).isSome
  sides : ∀ place ∈ Clock.range.findAll text, (place.part? 4).isSome ∧ (place.part? 5).isSome
  hour : ∀ place, Clock.token.matchStart? text = some place → IsNumber (place.part 1)
  minute : ∀ place, Clock.token.matchStart? text = some place →
    ∀ minutes, place.part? 2 = some minutes → IsNumber minutes
  half : ∀ place, Clock.endingHalf.search? text = some place → (place.part? 3).isSome
  amount : ∀ place, timeAmount.search? text = some place → IsNumber (place.part 1)
  unit : ∀ place, timeAmount.search? text = some place → (place.part? 2).isSome
  zone : ∀ place, permitZone.search? text = some place →
    (place.part? 1).isSome ∧ (place.part? 2).isSome
  fine : ∀ place, finePhrase.search? text = some place → IsAmount (place.part 1)

theorem text_converts (text : List Char) : Converts text where
  day place member :=
    dayName_namesDay (part_spelled (findAll_matched member) rfl fun _ => List.mem_singleton.mp)
  firstDay place member :=
    dayName_namesDay (part_spelled (findAll_matched member) rfl fun _ => List.mem_singleton.mp)
  lastDay place member :=
    dayName_namesDay (part_spelled (findAll_matched member) rfl fun _ => List.mem_singleton.mp)
  listed place member := by
    have matched := findAll_matched member
    exact ⟨part?_isSome matched rfl, part?_isSome matched rfl⟩
  sides place member := by
    have matched := findAll_matched member
    exact ⟨part?_isSome matched rfl, part?_isSome matched rfl⟩
  hour place found := by
    apply numeric_upToTwo
    exact part_spelled (matchStart?_matched found) rfl fun _ => List.mem_singleton.mp
  minute place found minutes held := by
    obtain ⟨part, inside, spells⟩ := part?_spells (matchStart?_matched found) held
    cases List.mem_singleton.mp inside
    exact numeric_two minutes spells
  half place found := part?_isSome (search?_matched found) rfl
  amount place found := by
    apply numeric_upToThree
    exact part_spelled (search?_matched found) rfl fun _ => List.mem_singleton.mp
  unit place found := part?_isSome (search?_matched found) rfl
  zone place found := by
    have matched := search?_matched found
    exact ⟨part?_isSome matched rfl, part?_isSome matched rfl⟩
  fine place found := by
    apply amount_isAmount
    apply part_spelled (search?_matched found) rfl
    intro part inside
    -- The fine stands before or after the word for it, and is written the same way in both.
    rcases List.mem_cons.mp inside with before | after
    · exact before
    · exact List.mem_singleton.mp after

end Curbside.Proofs.Conversion

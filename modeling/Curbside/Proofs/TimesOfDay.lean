import Curbside.Clock.Range
import Curbside.Proofs.Seams

/-! Times of day as they are printed. A time is an hour of one or two digits and perhaps two digits
of minutes; read alone it names a minute of a 24-hour clock, and with a half of the day one of a
12-hour clock. -/

namespace Curbside.Proofs.TimesOfDay
open Text Pattern Clock Layout Phrases Reading Spelling Preference Seams

/-- A decimal digit of any script. -/
abbrev Digit : Type := { c : Char // isDigit c = true }

structure Time where
  tens : Option Digit
  units : Digit
  minutes : Option (Digit × Digit)

namespace Time

def hourText (time : Time) : List Char :=
  (time.tens.toList ++ [time.units]).map Subtype.val

def minuteText (time : Time) : List Char :=
  match time.minutes with
  | none => []
  | some (tens, units) => [tens.val, units.val]

def text (time : Time) : List Char :=
  time.hourText ++ if time.minutes.isSome then ':' :: time.minuteText else []

def hour (time : Time) : Nat := digitsValue time.hourText

def minute (time : Time) : Nat := digitsValue time.minuteText

/-- What a reading of a time holds. -/
def held (time : Time) : List (Nat × List Char) :=
  (if time.minutes.isSome then [(2, time.minuteText)] else []) ++ [(1, time.hourText)]

end Time

/-- The rows of digits keep apart from the letters that have capitals. -/
theorem zeros_apart :
    (caseRows.all fun row => zeros.all fun first => row.last < first || first + 10 ≤ row.first) ∧
      manyCapitals.all fun letter => zeros.all fun first =>
        letter.1 < first || first + 10 ≤ letter.1 := by
  decide +kernel

theorem digit_row {c : Char} (digit : isDigit c = true) :
    (48 ≤ c.toNat ∧ c.toNat ≤ 57) ∨
      128 ≤ c.toNat ∧ ∃ first ∈ zeros, first ≤ c.toNat ∧ c.toNat < first + 10 := by
  rw [isDigit, digitValue?] at digit
  by_cases small : c.toNat < 128
  · rw [if_pos small] at digit
    by_cases plain : isPlainDigit c = true
    · rw [isPlainDigit, Bool.and_eq_true, decide_eq_true_eq, decide_eq_true_eq] at plain
      exact Or.inl plain
    · rw [if_neg plain] at digit
      cases digit
  · rw [if_neg small, Option.isSome_map, List.find?_isSome] at digit
    obtain ⟨first, listed, row⟩ := digit
    rw [Bool.and_eq_true, decide_eq_true_eq, decide_eq_true_eq] at row
    exact Or.inr ⟨Nat.le_of_not_lt small, first, listed, row⟩

theorem digit_capitals {c : Char} (digit : isDigit c = true) : capitals c = [c] := by
  rw [capitals]
  rcases digit_row digit with plain | ⟨large, first, listed, here⟩
  · rw [if_pos (by omega), if_neg (by simp only [Bool.and_eq_true, decide_eq_true_eq]; omega)]
  · obtain ⟨rows, letters⟩ := zeros_apart
    simp only [List.all_eq_true, Bool.or_eq_true, decide_eq_true_eq] at rows letters
    have noRow : caseRows.find? (·.has c.toNat) = none := by
      rw [List.find?_eq_none]
      intro row inRows has
      simp only [CaseRow.has, Bool.and_eq_true, decide_eq_true_eq] at has
      have apart := rows row inRows first listed
      omega
    have noLetter : manyCapitals.lookup c.toNat = none := by
      rw [List.lookup_eq_none_iff]
      intro letter inLetters
      have apart := letters letter inLetters first listed
      rw [bne_iff_ne]
      omega
    rw [if_neg (by omega), noRow, noLetter]

/-- A digit has no capital, is no blank, and is none of the signs in a time. -/
theorem digit_plain {c : Char} (digit : isDigit c = true) :
    capitals c = [c] ∧ isBlank c = false ∧ Half.ofLetter? c = none ∧ c ≠ ':' := by
  have gaps : ∀ first ∈ zeros, (0xA0 < first ∧ first + 10 ≤ 0x1680) ∨
      (0x1680 < first ∧ first + 10 ≤ 0x2000) ∨ 0x3000 < first := by
    decide
  have sign (other : Char) (plain : other.toNat < 48 ∨ (57 < other.toNat ∧ other.toNat < 128)) :
      c ≠ other := by
    rintro rfl
    have row := digit_row digit
    omega
  have visible : isBlank c = false := by
    simp only [isBlank, Bool.or_eq_false_iff, Bool.and_eq_false_iff, decide_eq_false_iff_not,
      beq_eq_false_iff_ne, ne_eq]
    rcases digit_row digit with plain | ⟨large, first, listed, here⟩
    · omega
    · have apart := gaps first listed
      omega
  refine ⟨digit_capitals digit, visible, ?_, sign ':' (by decide)⟩
  rw [Half.ofLetter?, if_neg (sign 'A' (by decide)), if_neg (sign 'P' (by decide))]

theorem blanks_digitless : Takes (fun c => isDigit c = false) blanks :=
  fun _ blank => (blank_plain blank).2.2

theorem digitless (word : String) (apart : word.toList.any isDigit = false) :
    Takes (fun c => isDigit c = false) (spelled word) :=
  fun c member => Bool.eq_false_iff.mpr (List.any_eq_false.mp apart c member)

theorem spells_digit {text : List Char} (spells : Spells digit text) :
    ∃ d : Digit, text = [d.val] := by
  obtain ⟨c, accepted, same⟩ := spells
  exact ⟨⟨c, accepted⟩, same⟩

theorem spells_time {text : List Char} (spells : Spells digits text) :
    ∃ time : Time, time.text = text := by
  obtain ⟨hours, rest, same, ⟨first, more, sameHours, spellsFirst, spellsMore⟩, spellsRest⟩ :=
    spells
  obtain ⟨d, rfl⟩ := spells_digit spellsFirst
  have hour : ∃ tens units, ∀ minutes, (Time.mk tens units minutes).hourText = hours := by
    rcases spellsMore with two | one
    · obtain ⟨e, rfl⟩ := spells_digit two
      exact ⟨some d, e, fun _ => sameHours.symm⟩
    · exact ⟨none, d, fun _ => by rw [sameHours, show more = [] from one]; rfl⟩
  obtain ⟨tens, units, hour⟩ := hour
  rcases spellsRest with
    ⟨colon, minutes, sameRest, spellsColon, two, one, sameMinutes, ten, unit⟩ | none
  · obtain ⟨e, rfl⟩ := spells_digit ten
    obtain ⟨f, rfl⟩ := spells_digit unit
    refine ⟨⟨tens, units, some (e, f)⟩, ?_⟩
    rw [same, sameRest, sameMinutes, show colon = [':'] from spellsColon, Time.text, hour]
    rfl
  · refine ⟨⟨tens, units, .none⟩, ?_⟩
    rw [same, show rest = [] from none, Time.text, hour]
    rfl

theorem digit_ahead (d : Digit) (behind : Option Char) (rest : List Char)
    (parts : List (Nat × List Char)) :
    Prefers digit ⟨behind, d.val :: rest, parts⟩ ⟨some d.val, rest, parts⟩ := by
  simp [Prefers, digit, readings_one_cons, d.property]

variable {parts : List (Nat × List Char)}

theorem no_digit {c : Char} (other : isDigit c = false) (behind : Option Char) (rest : List Char)
    (parts : List (Nat × List Char)) : readings digit ⟨behind, c :: rest, parts⟩ = [] := by
  simp [digit, readings_one_cons, other]

/-- The hour is read as a whole unless a third digit follows. -/
theorem hour_prefers (time : Time) {rest : List Char}
    (ends : readings digit ⟨some time.units.val, rest, parts⟩ = []) (behind : Option Char) :
    Prefers (.held 1 (digit ++ maybe digit)) ⟨behind, time.hourText ++ rest, parts⟩
      ⟨some time.units.val, rest, (1, time.hourText) :: parts⟩ := by
  obtain ⟨tens, units, minutes⟩ := time
  apply Prefers.held
  cases tens with
  | some d => exact .both (digit_ahead d ..) (.inFirst (digit_ahead units ..))
  | none => exact .both (digit_ahead units ..) (.inSecond ends .nothing)

/-- The digits of a time with minutes are read as a whole, whatever follows. -/
theorem timed_prefers {time : Time} (timed : time.minutes.isSome = true) (rest : List Char)
    (behind : Option Char) (parts : List (Nat × List Char)) :
    ∃ last, isDigit last = true ∧ Prefers digits ⟨behind, time.text ++ rest, parts⟩
      ⟨some last, rest, time.held ++ parts⟩ := by
  obtain ⟨tens, units, minutes⟩ := time
  cases minutes with
  | none => cases timed
  | some pair =>
    obtain ⟨d, e⟩ := pair
    refine ⟨e.val, e.property, ?_⟩
    rw [Time.text, Option.isSome_some, if_pos rfl, List.append_assoc]
    refine .both (hour_prefers _ (no_digit (by decide) ..) behind) (.inFirst ?_)
    have two (parts : List (Nat × List Char)) : Prefers (.held 2 (digit ++ digit))
        ⟨some ':', [d.val, e.val] ++ rest, parts⟩
        ⟨some e.val, rest, (2, [d.val, e.val]) :: parts⟩ :=
      .held (.both (digit_ahead d ..) (digit_ahead e ..))
    exact .both (@Prefers.letters [':'] ..) (two _)

/-- The digits of a time are read as a whole, unless another digit or a colon follows. -/
theorem digits_prefer (time : Time) (rest : List Char)
    (ends : ∀ c ∈ rest.head?, isDigit c = false ∧ c ≠ ':') (behind : Option Char)
    (parts : List (Nat × List Char)) :
    ∃ last, isDigit last = true ∧ Prefers digits ⟨behind, time.text ++ rest, parts⟩
      ⟨some last, rest, time.held ++ parts⟩ := by
  cases timed : time.minutes.isSome with
  | true => exact timed_prefers timed rest behind parts
  | false =>
    obtain ⟨tens, units, minutes⟩ := time
    cases minutes with
    | some pair => cases timed
    | none =>
      refine ⟨units.val, units.property, ?_⟩
      rw [Time.text, Option.isSome_none, if_neg Bool.false_ne_true, List.append_nil]
      cases rest with
      | nil => exact .both (hour_prefers _ rfl behind) (.inSecond rfl .nothing)
      | cons c rest =>
        obtain ⟨other, apart⟩ := ends c rfl
        refine .both (hour_prefers _ (no_digit other ..) behind) (.inSecond ?_ .nothing)
        exact readings_both_silent (readings_letters_silent apart.symm ..) _

/-- A text that begins and ends with something visible is not trimmed. -/
theorem trim_solid {text : List Char} (first : ∀ c ∈ text.head?, isBlank c = false)
    (last : ∀ c ∈ text.getLast?, isBlank c = false) : trim text = text := by
  have start : trimStart text = text := by
    cases text with
    | nil => rfl
    | cons c rest => exact trimStart_visible (first c rfl) rest
  rw [trim, start]
  clear start first
  induction text with
  | nil => rfl
  | cons c rest ih =>
    rw [trimEnd_cons]
    cases rest with
    | nil => simp [trimEnd, last c rfl]
    | cons d more => rw [ih last]

namespace Time
variable (time : Time)

theorem mem_text {c : Char} (member : c ∈ time.text) : isDigit c = true ∨ c = ':' := by
  obtain ⟨tens, units, minutes⟩ := time
  have digits : ∀ ds : List Digit, c ∈ ds.map Subtype.val → isDigit c = true := by
    intro ds listed
    obtain ⟨d, _, same⟩ := List.mem_map.mp listed
    exact same ▸ d.property
  rcases List.mem_append.mp member with hour | rest
  · exact Or.inl (digits _ hour)
  · cases minutes with
    | none => cases rest
    | some pair =>
      rcases List.mem_cons.mp rest with colon | minute
      · exact Or.inr colon
      · exact Or.inl (digits [pair.1, pair.2] minute)

/-- What stands in a time has no capital, is no blank and names no half of the day. -/
theorem text_plain {c : Char} (member : c ∈ time.text) :
    capitals c = [c] ∧ isBlank c = false ∧ Half.ofLetter? c = none := by
  rcases time.mem_text member with digit | colon
  · obtain ⟨capital, visible, half, _⟩ := digit_plain digit
    exact ⟨capital, visible, half⟩
  · rw [colon]
    decide

theorem text_head : ∃ d rest, time.text = d :: rest ∧ isDigit d = true := by
  obtain ⟨tens, units, minutes⟩ := time
  cases tens with
  | none => exact ⟨units.val, _, rfl, units.property⟩
  | some d => exact ⟨d.val, _, rfl, d.property⟩

theorem held_hour : (time.held.lookup 1).getD [] = time.hourText := by
  obtain ⟨tens, units, minutes⟩ := time
  cases minutes <;> rfl

theorem held_half : time.held.lookup 3 = none := by
  obtain ⟨tens, units, minutes⟩ := time
  cases minutes <;> rfl

theorem held_minute : (time.held.lookup 2).getD [] = time.minuteText := by
  obtain ⟨tens, units, minutes⟩ := time
  cases minutes <;> rfl

end Time

/-- The minute that an hour and its minute name in a half of the day, or on a 24-hour clock. -/
def minuteIn (half : Option Half) (hour minute : Nat) : Option Minute :=
  match half with
  | none => Minute.ofClock? hour minute
  | some half => (half.hourOf? hour).bind (Minute.ofClock? · minute)

/-- What begins with a digit is no word for a time. -/
theorem digit_no_word {d : Char} (digit : isDigit d = true) (rest : List Char) :
    d :: rest ≠ noonWord ∧ d :: rest ≠ midnightWord := by
  have heads : noonWord.head?.any isDigit = false ∧ midnightWord.head?.any isDigit = false := by
    decide
  have head : (d :: rest).head?.any isDigit = true := digit
  refine ⟨fun same => ?_, fun same => ?_⟩ <;> rw [same] at head
  · exact Bool.false_ne_true (heads.1.symm.trans head)
  · exact Bool.false_ne_true (heads.2.symm.trans head)

theorem readToken?_eq {printed rest : List Char} {d : Char} (digit : isDigit d = true)
    (written : plain printed = d :: rest) :
    readToken? printed = (token.matchStart? (d :: rest)).bind fun place =>
      minuteIn (heldHalf? place) (digitsValue (place.part 1)) (digitsValue (place.part 2)) := by
  obtain ⟨noon, midnight⟩ := digit_no_word digit rest
  simp only [readToken?, written, if_neg noon, if_neg midnight]
  cases token.matchStart? (d :: rest) with
  | none => rfl
  | some place =>
    dsimp only [Option.bind_some]
    cases heldHalf? place with
    | none => rfl
    | some half =>
      dsimp only [minuteIn]
      cases half.hourOf? (digitsValue (place.part 1)) <;> rfl

theorem trim_text (time : Time) : trim time.text = time.text := by
  have visible : ∀ c ∈ time.text, isBlank c = false := fun c member => (time.text_plain member).2.1
  exact trim_solid (fun c first => visible c (List.mem_of_head? first))
    (fun c last => visible c (List.mem_of_getLast? last))

/-- A time alone is read on a 24-hour clock. -/
theorem readToken?_text (time : Time) :
    readToken? time.text = Minute.ofClock? time.hour time.minute := by
  obtain ⟨d, rest, head, digit⟩ := time.text_head
  obtain ⟨last, _, prefers⟩ := digits_prefer time [] nofun none []
  have whole : Prefers token ⟨none, time.text ++ [], []⟩ ⟨some last, [], time.held ++ []⟩ :=
    .both (.both (.both prefers (.manyDone rfl))
      (.inSecond (readings_ended rfl ..) .nothing)) rfl
  have written : plain time.text = d :: rest := by
    rw [plain, trim_text, upper_solid fun c member => (time.text_plain member).1, head]
  rw [List.append_nil, List.append_nil, head] at whole
  have bare : heldHalf? ⟨some last, [], time.held⟩ = none := by
    simp only [heldHalf?, Place.part, Place.part?, time.held_half, Option.getD_none]
  have found : token.matchStart? (d :: rest) = some ⟨some last, [], time.held⟩ := whole.run
  rw [readToken?_eq digit written, found, Option.bind_some, bare, Place.part, Place.part?,
    time.held_hour, Place.part, Place.part?, time.held_minute]
  rfl

/-- What is printed after a time to read it in a half of the day. -/
def suffix (half : Half) : List Char := [' ', half.letter, 'M']

theorem suffix_prefers (half : Half) (behind : Option Char) (parts : List (Nat × List Char)) :
    Prefers blanks ⟨behind, suffix half, parts⟩ ⟨some ' ', [half.letter, 'M'], parts⟩ ∧
      Prefers (maybe (halfMark blanks)) ⟨some ' ', [half.letter, 'M'], parts⟩
        ⟨some 'M', [], (3, [half.letter]) :: parts⟩ := by
  cases half <;> exact ⟨rfl, rfl⟩

/-- A time read in a half of the day is read on a 12-hour clock. -/
theorem readInHalf?_text (time : Time) (half : Half) :
    readInHalf? time.text half = (half.hourOf? time.hour).bind (Minute.ofClock? · time.minute) := by
  obtain ⟨d, rest, head, digit⟩ := time.text_head
  have apart : isDigit ' ' = false ∧ ' ' ≠ ':' := by decide
  obtain ⟨last, _, prefers⟩ := digits_prefer time (suffix half)
    (fun c first => Option.some.inj first ▸ apart) none []
  obtain ⟨gap, mark⟩ := suffix_prefers half (some last) (time.held ++ [])
  have whole : Prefers token ⟨none, time.text ++ suffix half, []⟩
      ⟨some 'M', [], (3, [half.letter]) :: (time.held ++ [])⟩ :=
    .both (.both (.both prefers gap) mark) rfl
  have upright : ∀ c ∈ suffix half, capitals c = [c] := by cases half <;> decide
  have written : plain (time.text ++ suffix half) = d :: (rest ++ suffix half) := by
    have trimmed : trim (time.text ++ suffix half) = time.text ++ suffix half := by
      rw [head]
      refine trim_solid (fun c first => ?_) (fun c final => ?_)
      · rw [← Option.some.inj first]
        exact (digit_plain digit).2.1
      · rw [List.getLast?_append] at final
        rw [← Option.some.inj final]
        exact (by decide : isBlank 'M' = false)
    rw [plain, trimmed, upper_solid, head, List.cons_append]
    intro c member
    rcases List.mem_append.mp member with inside | after
    · exact (time.text_plain inside).1
    · exact upright c after
  have stated : heldHalf? ⟨some 'M', [], (3, [half.letter]) :: time.held⟩ = some half := by
    cases half <;> rfl
  rw [List.append_nil, head, List.cons_append] at whole
  have found : token.matchStart? (d :: (rest ++ suffix half)) =
      some ⟨some 'M', [], (3, [half.letter]) :: time.held⟩ := whole.run
  have read := readToken?_eq digit written
  rw [found, Option.bind_some, stated] at read
  rw [readInHalf?, trim_text]
  refine read.trans ?_
  rw [Place.part, Place.part?, List.lookup_cons, Place.part, Place.part?, List.lookup_cons]
  exact congr (congrArg _ (congrArg _ time.held_hour)) (congrArg _ time.held_minute)

end Curbside.Proofs.TimesOfDay

import Curbside.Proofs.Conversion
import Curbside.Proofs.Numerals

/-! Amounts keep every digit. Reading what was written gives the same sign, the same digits and the
same exponent, as long as a reader can hold the number at all, and a fine that a sign states is
short enough for that. -/

namespace Curbside.Proofs.Amount
open Text Decimal Numerals Sign Reading Spelling Conversion

/-- A character of a written number: visible, of the plain alphabet, and no underscore. -/
def IsVisible (c : Char) : Prop := 33 ≤ c.toNat ∧ c.toNat < 128 ∧ c ≠ '_'

theorem IsVisible.not_blank {c : Char} (visible : IsVisible c) : isBlank c = false := by
  obtain ⟨least, most, _⟩ := visible
  simp only [isBlank, Bool.or_eq_false_iff, Bool.and_eq_false_iff, decide_eq_false_iff_not,
    beq_eq_false_iff_ne]
  omega

theorem visible_of_digit {c : Char} (digit : isPlainDigit c = true) : IsVisible c := by
  have bounds : 48 ≤ c.toNat ∧ c.toNat ≤ 57 := by simpa [isPlainDigit] using digit
  exact ⟨by omega, by omega, isPlainDigit_ne digit '_' (by decide)⟩

theorem trimEnd_visible {cs : List Char} (visible : ∀ c ∈ cs, IsVisible c) : trimEnd cs = cs := by
  induction cs with
  | nil => rfl
  | cons c rest ih =>
    have kept := ih fun other member => visible other (List.mem_cons_of_mem _ member)
    have solid := (visible c (List.mem_cons_self ..)).not_blank
    rw [trimEnd, kept]
    cases rest with
    | nil => simp [solid]
    | cons next rest => rfl

theorem trim_visible {cs : List Char} (visible : ∀ c ∈ cs, IsVisible c) : trim cs = cs := by
  have start : trimStart cs = cs := by
    cases cs with
    | nil => rfl
    | cons c rest =>
      have solid := (visible c (List.mem_cons_self ..)).not_blank
      simp [trimStart, solid]
  rw [trim, start, trimEnd_visible visible]

theorem plainDigits?_visible {cs : List Char} (visible : ∀ c ∈ cs, IsVisible c) :
    plainDigits? cs = some cs := by
  induction cs with
  | nil => rfl
  | cons c rest ih =>
    obtain ⟨_, ascii, joined⟩ := visible c (List.mem_cons_self ..)
    have kept := ih fun other member => visible other (List.mem_cons_of_mem _ member)
    simp [plainDigits?, joined, ascii, kept]

theorem text_visible {numeral : Numeral} (proper : numeral.Proper) :
    ∀ c ∈ numeral.text, IsVisible c := by
  have digits : ∀ cs : List Char, (∀ c ∈ cs, isPlainDigit c = true) → ∀ c ∈ cs, IsVisible c :=
    fun cs row c member => visible_of_digit (row c member)
  intro c member
  rcases List.mem_append.mp member with whole | member
  · exact digits _ proper.whole.digits c whole
  rcases List.mem_append.mp member with pointed | ending
  · rcases numeral.point_cases with ⟨_, none⟩ | ⟨_, some⟩
    · rw [none] at pointed
      cases pointed
    · rw [some] at pointed
      rcases List.mem_cons.mp pointed with same | inside
      · rw [same]
        exact ⟨by decide, by decide, by decide⟩
      · exact digits _ proper.places c inside
  · rcases Numeral.tail_cases proper with ⟨_, none⟩ | ⟨exponent, _, valid, some⟩
    · rw [none] at ending
      cases ending
    · rw [some] at ending
      rcases List.mem_cons.mp ending with same | ending
      · rcases valid.mark with mark | mark <;> rw [same, mark] <;>
          exact ⟨by decide, by decide, by decide⟩
      · rcases List.mem_cons.mp ending with same | inside
        · rw [same]
          split <;> exact ⟨by decide, by decide, by decide⟩
        · exact digits _ valid.digits.digits c inside

theorem write_visible (d : Decimal) : ∀ c ∈ d.write, IsVisible c := by
  intro c member
  rw [Decimal.write, write_eq amountLayout_plain] at member
  rcases List.mem_append.mp member with sign | body
  · split at sign
    · rw [List.mem_singleton.mp sign]
      exact ⟨by decide, by decide, by decide⟩
    · cases sign
  · exact text_visible (numeralOf_proper amountLayout_plain d) c body

/-- A written amount reads as it was, to the last zero. -/
theorem read?_write {d : Decimal} (held : d.isHoldable = true) : read? d.write = some (.number d) := by
  have exact_ : ofPlain? d.write = some d := by
    rw [Decimal.write, write_eq amountLayout_plain,
      Numeral.ofPlain?_text (numeralOf_proper amountLayout_plain d)]
    obtain ⟨count, value, shifted⟩ := numeralOf_value amountLayout_plain d
    have none : count = 0 := by
      rcases shifted with none | ⟨least, positional, same⟩
      · exact none
      · have most : d.exponent ≤ 0 := by
          simp only [amountLayout, Bool.and_eq_true, decide_eq_true_eq] at positional
          exact positional.1
        simp only [amountLayout, List.drop_nil, List.length_nil] at same
        omega
    rw [value, none]
    simp [powerOfTen]
  simp [read?, trim_visible (write_visible d), plainDigits?_visible (write_visible d), exact_, held]

theorem digitValue?_le {c : Char} {value : Nat} (digit : digitValue? c = some value) : value ≤ 9 := by
  unfold digitValue? at digit
  split at digit
  · split at digit
    next plain =>
      have bounds : 48 ≤ c.toNat ∧ c.toNat ≤ 57 := by simpa [isPlainDigit] using plain
      cases digit
      omega
    next => cases digit
  · obtain ⟨first, found, same⟩ := Option.map_eq_some_iff.mp digit
    have inside := List.find?_some found
    simp only [Bool.and_eq_true, decide_eq_true_eq] at inside
    omega

theorem digitsValue_lt (cs : List Char) : digitsValue cs < powerOfTen cs.length := by
  have steps : ∀ start, cs.foldl (fun value c => 10 * value + (digitValue? c).getD 0) start <
      (start + 1) * powerOfTen cs.length := by
    intro start
    induction cs generalizing start with
    | nil => simp [powerOfTen]
    | cons c rest ih =>
      have digit : (digitValue? c).getD 0 ≤ 9 := by
        cases found : digitValue? c with
        | none => exact Nat.zero_le 9
        | some value => exact digitValue?_le found
      calc (c :: rest).foldl (fun value c => 10 * value + (digitValue? c).getD 0) start
          < (10 * start + (digitValue? c).getD 0 + 1) * powerOfTen rest.length := ih _
        _ ≤ (10 * (start + 1)) * powerOfTen rest.length := Nat.mul_le_mul_right _ (by omega)
        _ = (start + 1) * powerOfTen (c :: rest).length := by
          rw [List.length_cons, powerOfTen, powerOfTen, Nat.pow_eq, Nat.pow_eq, Nat.pow_succ]
          ac_rfl
  have least := steps 0
  rwa [Nat.zero_add, Nat.one_mul] at least

/-- A number of few digits with few places can be held. -/
theorem isHoldable_of_short {digits : List Char} {places : Nat} (few : digits.length ≤ 20)
    (short : places ≤ 20) :
    (⟨false, digitsValue digits, -(places : Int)⟩ : Decimal).isHoldable = true := by
  have below : digitsValue digits < 10 ^ 20 :=
    Nat.lt_of_lt_of_le (digitsValue_lt digits) (Nat.pow_le_pow_right (by decide) few)
  have size : (digitsOf (digitsValue digits)).length ≤ 20 :=
    (Nat.length_toDigits_le_iff (by decide) (by decide)).mpr below
  have limit : readLimit = 999999999999999999 := rfl
  unfold isHoldable
  simp only [Bool.and_eq_true, decide_eq_true_eq, Decimal.size, limit]
  split <;> omega

/-- The length of the longest text that a pattern spells, if there is a longest one. -/
def longest? : Pattern → Option Nat
  | .one _ => some 1
  | .letters cs => some cs.length
  | .both first second => (longest? first).bind fun m => (longest? second).map (m + ·)
  | .either first second => (longest? first).bind fun m => (longest? second).map (max m ·)
  | .many _ => none
  | .held _ body => longest? body
  | .nothing | .wordEdge | .notBefore _ | .notAfter _ | .textEnd => some 0

theorem spells_length {p : Pattern} {text : List Char} {most : Nat} (spells : Spells p text)
    (bounded : longest? p = some most) : text.length ≤ most := by
  induction p generalizing text most with
  | one accepts =>
    obtain ⟨c, _, same⟩ := spells
    cases bounded
    simp [same]
  | letters cs =>
    cases bounded
    exact Nat.le_of_eq (congrArg List.length spells)
  | both first second ihFirst ihSecond =>
    obtain ⟨head, tail, same, spellsHead, spellsTail⟩ := spells
    obtain ⟨m, boundedHead, rest⟩ := Option.bind_eq_some_iff.mp bounded
    obtain ⟨n, boundedTail, total⟩ := Option.map_eq_some_iff.mp rest
    have headLength := ihFirst spellsHead boundedHead
    have tailLength := ihSecond spellsTail boundedTail
    rw [same, List.length_append]
    omega
  | either first second ihFirst ihSecond =>
    obtain ⟨m, boundedFirst, rest⟩ := Option.bind_eq_some_iff.mp bounded
    obtain ⟨n, boundedSecond, total⟩ := Option.map_eq_some_iff.mp rest
    rcases spells with preferred | other
    · have length := ihFirst preferred boundedFirst
      omega
    · have length := ihSecond other boundedSecond
      omega
  | many body ih => cases bounded
  | held label body ih => exact ih spells bounded
  | nothing | wordEdge | notBefore _ | notAfter _ | textEnd =>
    cases bounded
    simp [show text = [] from spells]

/-- No text that a match holds under a label is longer than the parts of the pattern allow. -/
theorem part_length {p : Pattern} {place : Place} (matched : Matched p place) {label most : Nat}
    (bounded : (bodies label p).all (fun body => (longest? body).any (· ≤ most)) = true) :
    (place.part label).length ≤ most := by
  unfold Place.part
  cases held : place.part? label with
  | none => exact Nat.zero_le most
  | some text =>
    obtain ⟨body, inside, spells⟩ := part?_spells matched held
    have allowed := List.all_eq_true.mp bounded body inside
    obtain ⟨length, known, least⟩ := (Option.any_eq_true ..).mp allowed
    exact Nat.le_trans (spells_length spells known) (of_decide_eq_true least)

/-- What a sign states as its fine can be held. -/
theorem fine_holdable {text : List Char} {place : Place}
    (found : finePhrase.search? text = some place) : (amountOf place).isHoldable = true := by
  have matched := search?_matched found
  have amount : (place.part 1).length ≤ 7 := part_length matched rfl
  have places : (place.part 2).length ≤ 2 := part_length matched rfl
  have digits : ((place.part 1).filter isDigit).length ≤ (place.part 1).length :=
    List.length_filter_le ..
  exact isHoldable_of_short (by omega) (by omega)

/-- No sign limits parking to more than some weeks. -/
theorem statedMinutes_lt {line : List Char} {place : Place}
    (found : timeAmount.search? line = some place) : statedMinutes place < 60000 := by
  have matched := search?_matched found
  have amount : (place.part 1).length ≤ 3 := part_length matched rfl
  have below : digitsValue (place.part 1) < 10 ^ 3 :=
    Nat.lt_of_lt_of_le (digitsValue_lt _) (Nat.pow_le_pow_right (by decide) amount)
  unfold statedMinutes
  dsimp only
  split <;> omega

end Curbside.Proofs.Amount

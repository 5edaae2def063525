import Curbside.Proofs.Searching
import Curbside.Proofs.Posting
import Curbside.Proofs.TimesOfDay

/-! The amount of a posted fine. The digits that a fine is read from are a whole amount wherever the
sign prints one of at most four digits. Behind the word for a fine the front of a longer amount is
read as if it ended there. -/

namespace Curbside.Proofs.FineAmounts
open Text Pattern Sign Reading Spelling Cutting Preference Seams Searching TimesOfDay Extraction
  Posting

def digitAnd : Nat → Pattern
  | 0 => digit
  | more + 1 => digit ++ maybe (digitAnd more)

def row (digits : List Digit) : List Char := digits.map Subtype.val

theorem row_digits (digits : List Digit) : ∀ c ∈ row digits, isDigit c = true := by
  intro c member
  obtain ⟨d, _, same⟩ := List.mem_map.mp member
  exact same ▸ d.property

theorem spells_digitAnd {more : Nat} {text : List Char} (spells : Spells (digitAnd more) text) :
    ∃ first others, others.length ≤ more ∧ text = row (first :: others) := by
  induction more generalizing text with
  | zero =>
    obtain ⟨d, same⟩ := spells_digit spells
    exact ⟨d, [], Nat.le_refl 0, same⟩
  | succ more ih =>
    obtain ⟨front, rest, same, one, further⟩ := spells
    obtain ⟨d, written⟩ := spells_digit one
    rcases further with further | ended
    · obtain ⟨e, others, few, onward⟩ := ih further
      exact ⟨d, e :: others, Nat.succ_le_succ few, by rw [same, written, onward]; rfl⟩
    · exact ⟨d, [], Nat.zero_le _, by rw [same, written, show rest = [] from ended]; rfl⟩

theorem no_digits {rest : List Char} (other : rest.head?.any isDigit = false)
    (behind : Option Char) (parts : List (Nat × List Char)) :
    readings digit ⟨behind, rest, parts⟩ = [] := by
  cases rest with
  | nil => rfl
  | cons c rest => exact no_digit other ..

theorem row_prefers {more : Nat} {first : Digit} {others : List Digit} {rest : List Char}
    (few : others.length ≤ more)
    (ends : others.length = more ∨ rest.head?.any isDigit = false) (behind : Option Char)
    (parts : List (Nat × List Char)) :
    ∃ last, Prefers (digitAnd more) ⟨behind, row (first :: others) ++ rest, parts⟩
      ⟨last, rest, parts⟩ := by
  induction more generalizing first others behind with
  | zero =>
    rw [List.eq_nil_of_length_eq_zero (Nat.le_zero.mp few)]
    exact ⟨_, digit_ahead first behind rest parts⟩
  | succ more ih =>
    cases others with
    | nil =>
      refine ⟨_, .both (digit_ahead first behind rest parts) (.inSecond ?_ .nothing)⟩
      have other := ends.resolve_left (by simp)
      have nothing := no_digits other (some first.val) parts
      cases more with
      | zero => exact nothing
      | succ more => exact readings_both_silent nothing _
    | cons second others =>
      have ends : others.length = more ∨ rest.head?.any isDigit = false :=
        ends.imp_left Nat.succ.inj
      obtain ⟨last, prefers⟩ :=
        @ih second others (Nat.le_of_succ_le_succ few) ends (some first.val)
      exact ⟨last, .both (digit_ahead first ..) (.inFirst prefers)⟩

abbrev Cents : Type := Option (Digit × Digit)

namespace Cents

def places : Cents → List Char
  | none => []
  | some (tens, units) => [tens.val, units.val]

def text : Cents → List Char
  | none => []
  | some pair => '.' :: places (some pair)

def held : Cents → List (Nat × List Char)
  | none => []
  | some pair => [(2, places (some pair))]

end Cents

theorem centsPart_reads {place later : Place} (read : Reads centsPart place later) :
    ∃ cents : Cents, place.ahead = cents.text ++ later.ahead ∧
      later.parts = cents.held ++ place.parts := by
  cases read with
  | eitherSecond none =>
    cases none with
    | nothing => exact ⟨none, rfl, rfl⟩
  | eitherFirst pointed =>
    cases pointed with
    | both point places =>
      cases point with
      | @letters _ rest _ pointed =>
        cases places with
        | @held _ _ _ last two =>
          obtain ⟨text, ⟨tens, units, sameText, ten, unit⟩, sameRest, _⟩ := reads_spells two
          obtain ⟨d, rfl⟩ := spells_digit ten
          obtain ⟨e, rfl⟩ := spells_digit unit
          have ahead : rest = text ++ last.ahead := sameRest
          refine ⟨some (d, e), ?_, ?_⟩
          · rw [pointed, ahead, sameText]
            rfl
          · rw [textUntil_eq sameRest, sameText, reads_unlabelled two rfl]
            rfl

/-- A text goes on with the number before it: with a digit, or with a comma or point and a digit. -/
def GoesOn (after : List Char) : Prop :=
  after.head?.any isDigit = true ∨
    ∃ sign ∈ [',', '.'], ∃ rest, after = sign :: rest ∧ rest.head?.any isDigit = true

theorem noDigit_of_ended {after : List Char} (ended : ¬ GoesOn after) :
    after.head?.any isDigit = false :=
  Bool.eq_false_iff.mpr fun digit => ended (Or.inl digit)

theorem centsPart_prefers (cents : Cents) {after : List Char} (ended : ¬ GoesOn after)
    (behind : Option Char) (parts : List (Nat × List Char)) :
    ∃ last, Prefers centsPart ⟨behind, cents.text ++ after, parts⟩
      ⟨last, after, cents.held ++ parts⟩ := by
  cases cents with
  | some pair =>
    obtain ⟨d, e⟩ := pair
    have two : Prefers (.held 2 (digit ++ digit)) ⟨some '.', [d.val, e.val] ++ after, parts⟩
        ⟨some e.val, after, (2, [d.val, e.val]) :: parts⟩ :=
      .held (.both (digit_ahead d ..) (digit_ahead e ..))
    exact ⟨_, .inFirst (.both (@Prefers.letters ['.'] ..) two)⟩
  | none =>
    refine ⟨behind, .inSecond ?_ .nothing⟩
    change readings (spelled "." ++ .held 2 (digit ++ digit)) ⟨behind, after, parts⟩ = []
    cases after with
    | nil => rfl
    | cons c rest =>
      by_cases point : '.' = c
      · -- A point is not read alone, and no digit follows it.
        have noDigit : rest.head?.any isDigit = false := Bool.eq_false_iff.mpr fun digit =>
          ended (Or.inr ⟨c, by rw [← point]; simp, rest, rfl, digit⟩)
        change readings (.both (.letters ['.']) (.held 2 (digit ++ digit))) _ = []
        rw [readings_both, ← point, show readings (.letters ['.']) ⟨behind, '.' :: rest, parts⟩ =
          [⟨some '.', rest, parts⟩] from rfl, List.flatMap_singleton, readings_held,
          readings_both_silent (no_digits noDigit ..), List.map_nil]
      · exact readings_both_silent (readings_letters_silent point ..) _

/-- An amount as it is printed: one to four digits, and perhaps cents. -/
structure Printed where
  first : Digit
  others : List Digit
  few : others.length ≤ 3
  cents : Cents

namespace Printed
variable (amount : Printed)

def whole : List Char := row (amount.first :: amount.others)

def text : List Char := amount.whole ++ amount.cents.text

def value : Decimal :=
  ⟨false, digitsValue (amount.whole ++ amount.cents.places),
    -(amount.cents.places.length : Int)⟩

def held : List (Nat × List Char) := (1, amount.text) :: amount.cents.held

theorem filter_text : amount.text.filter isDigit = amount.whole ++ amount.cents.places := by
  have all (digits : List Digit) : (row digits).filter isDigit = row digits :=
    List.filter_eq_self.mpr (row_digits digits)
  obtain ⟨first, others, few, cents⟩ := amount
  rw [text, List.filter_append, whole, all]
  cases cents with
  | none => rfl
  | some pair =>
    have point : isDigit '.' = false := by decide
    have places : Cents.places (some pair) = row [pair.1, pair.2] := rfl
    rw [Cents.text, List.filter_cons, point, places, all]
    rfl

theorem amountOf_held {place : Place} (holds : place.parts = amount.held) :
    place.part 1 = amount.text ∧ amountOf place = amount.value := by
  have digits : place.part 1 = amount.text := by
    rw [Place.part, Place.part?, holds]
    rfl
  have behindPoint : place.part 2 = amount.cents.places := by
    rw [Place.part, Place.part?, holds]
    obtain ⟨first, others, few, cents⟩ := amount
    cases cents <;> rfl
  refine ⟨digits, ?_⟩
  rw [amountOf, digits, behindPoint, filter_text]
  rfl

end Printed

theorem fineAmount_reads {place later : Place} (read : Reads fineAmount place later)
    (empty : place.parts = []) :
    ∃ amount : Printed, place.ahead = amount.text ++ later.ahead ∧ later.parts = amount.held := by
  cases read with
  | @held _ _ _ last read =>
    cases read with
    | both digits further =>
      obtain ⟨whole, spells, sameWhole, _⟩ := reads_spells digits
      obtain ⟨first, others, few, written⟩ := @spells_digitAnd 3 whole spells
      obtain ⟨cents, sameCents, held⟩ := centsPart_reads further
      have ahead : place.ahead = Printed.text ⟨first, others, few, cents⟩ ++ last.ahead := by
        rw [sameWhole, sameCents, written, ← List.append_assoc]
        rfl
      refine ⟨_, ahead, ?_⟩
      rw [textUntil_eq ahead, held, reads_unlabelled digits rfl, empty, List.append_nil]
      rfl

/-- An amount that does not go on is read to its end. -/
theorem fineAmount_prefers (amount : Printed) {after : List Char} (ended : ¬ GoesOn after)
    (behind : Option Char) (parts : List (Nat × List Char)) :
    ∃ last held, Prefers fineAmount ⟨behind, amount.text ++ after, parts⟩
      ⟨last, after, held⟩ := by
  obtain ⟨first, others, few, cents⟩ := amount
  have ends : (cents.text ++ after).head?.any isDigit = false := by
    cases cents with
    | none => exact noDigit_of_ended ended
    | some pair => exact (by decide : isDigit '.' = false)
  obtain ⟨middle, whole⟩ := @row_prefers 3 first others _ few (Or.inr ends) behind parts
  obtain ⟨last, places⟩ := centsPart_prefers cents ended middle parts
  rw [← List.append_assoc] at whole
  exact ⟨last, _, .held (.both whole places)⟩

/-- A text begins with an amount that does not go on. -/
def BeginsWithAmount (text : List Char) : Prop :=
  ∃ amount : Printed, ∃ after, text = amount.text ++ after ∧ ¬ GoesOn after

/-- The word behind an amount. -/
def wordBehind : Pattern := gap ++ (spelled "FINE" ++ .wordEdge)

theorem before_digitless :
    Takes (fun c => isDigit c = false) signPart ∧ Takes (fun c => isDigit c = false) wordPart := by
  have dollar := digitless "$" (by decide)
  exact ⟨⟨dollar, blanks_digitless⟩, ⟨⟨⟨⟨⟨⟨trivial, digitless "FINE" (by decide)⟩,
    blanks_digitless⟩, ⟨digitless ":" (by decide), trivial⟩⟩, blanks_digitless⟩, dollar⟩,
    blanks_digitless⟩⟩

/-- The preferred reading of a fine goes over its amount before the word for it or behind the word.
Behind the word the reading of the amount is the preferred one. -/
theorem finePhrase_run {place found : Place} (matched : finePhrase.run place some = some found) :
    (∃ middle last, Reads signPart place middle ∧ Reads fineAmount middle last ∧
      Reads wordBehind last found) ∨
    ∃ middle, Reads wordPart place middle ∧ fineAmount.run middle some = some found := by
  rcases run_either matched with before | behind
  · obtain ⟨later, read, same⟩ := run_reads before
    cases same
    cases read with
    | both read edge =>
      cases read with
      | both read word =>
        cases read with
        | both read space =>
          cases read with
          | both sign amount => exact Or.inl ⟨_, _, sign, amount, .both space (.both word edge)⟩
  · exact Or.inr (run_reads behind)

/-- A text from its first digit on. -/
def fromFirstDigit (text : List Char) : List Char := text.dropWhile (!isDigit ·)

theorem fromFirstDigit_amount {p : Pattern} {place middle : Place} {amount : Printed}
    {after : List Char} (read : Reads p place middle)
    (without : Takes (fun c => isDigit c = false) p)
    (amounts : middle.ahead = amount.text ++ after) :
    fromFirstDigit place.ahead = amount.text ++ after := by
  obtain ⟨text, spells, same, _⟩ := reads_spells read
  have passed : ∀ c ∈ text, (!isDigit c) = true := by
    intro c member
    rw [spells_takes without spells c member]
    rfl
  have digit : ¬ (!isDigit amount.first.val) = true := by
    rw [amount.first.property]
    exact Bool.false_ne_true
  rw [same, amounts, fromFirstDigit, List.dropWhile_append_of_pos passed]
  exact List.dropWhile_cons_of_neg digit

theorem not_goesOn_behind {last found : Place} (word : Reads wordBehind last found) :
    ¬ GoesOn last.ahead := by
  obtain ⟨_, ⟨gap, _, same, ⟨first, more, sameGap, ⟨c, blank, one⟩, _⟩, _⟩, ahead, _⟩ :=
    reads_spells word
  have head : last.ahead.head? = some c := by
    rw [ahead, same, sameGap, one]
    rfl
  intro goesOn
  rcases goesOn with digit | ⟨sign, listed, rest, begins, _⟩
  · rw [head] at digit
    exact Bool.false_ne_true ((Phrases.blank_plain blank).2.2.symm.trans digit)
  · rw [begins] at head
    have visible : ∀ sign ∈ [',', '.'], isBlank sign = false := by decide
    rw [← Option.some.inj head, visible sign listed] at blank
    cases blank

theorem finePhrase_amount {text before phrase : List Char} {place : Place}
    (leftmost : Leftmost finePhrase text before phrase place) :
    ∃ amount : Printed, ∃ after, fromFirstDigit phrase = amount.text ++ after ∧
      place.part 1 = amount.text ∧ amountOf place = amount.value ∧
      (¬ GoesOn after ↔ BeginsWithAmount (amount.text ++ after)) ∧
      (phrase.head? = some '$' → ¬ GoesOn after) := by
  rcases finePhrase_run leftmost.matched with
    ⟨middle, last, sign, amounts, word⟩ | ⟨middle, word, preferred⟩
  · obtain ⟨amount, ahead, held⟩ :=
      fineAmount_reads amounts (reads_unlabelled sign rfl)
    have ended := not_goesOn_behind word
    obtain ⟨digits, value⟩ := amount.amountOf_held ((reads_unlabelled word rfl).trans held)
    exact ⟨amount, last.ahead, fromFirstDigit_amount sign before_digitless.1 ahead, digits, value,
      ⟨fun _ => ⟨amount, last.ahead, rfl, ended⟩, fun _ => ended⟩, fun _ => ended⟩
  · obtain ⟨later, amounts, same⟩ := run_reads preferred
    cases same
    obtain ⟨amount, ahead, held⟩ := fineAmount_reads amounts (reads_unlabelled word rfl)
    obtain ⟨digits, value⟩ := amount.amountOf_held held
    refine ⟨amount, place.ahead, fromFirstDigit_amount word before_digitless.2 ahead, digits, value,
      ⟨fun ended => ⟨amount, place.ahead, rfl, ended⟩, ?_⟩, ?_⟩
    · rintro ⟨other, after, same, ended⟩
      obtain ⟨last, parts, prefers⟩ := fineAmount_prefers other ended middle.behind middle.parts
      rw [← same, ← ahead] at prefers
      have found := prefers.run.symm.trans preferred
      rw [← Option.some.inj found]
      exact ended
    · -- The other phrase begins with a letter.
      intro dollar
      cases phrase with
      | nil => cases dollar
      | cons c rest =>
        cases dollar
        have listed := mem_readings word rfl
        rw [readings_barred (by decide)] at listed
        cases listed

/-- The fine of a rule is the amount of the first phrase for a fine on the sign, from the first digit
of the phrase on. It is a whole amount exactly if the phrase goes on with a whole amount from there,
and always if the phrase begins with the dollars. -/
theorem fine_whole_iff {quality : Option Binary64} {text : List Char} {rules : List Rule}
    (given : extract quality text = .ok rules) {rule : Rule} (listed : rule ∈ rules)
    {fine : Decimal} (posted : rule.provision.fine = some fine) :
    ∃ before phrase place, Leftmost finePhrase (upper text) before phrase place ∧
    ∃ amount : Printed, ∃ after, fromFirstDigit phrase = amount.text ++ after ∧
      place.part 1 = amount.text ∧ fine = amount.value ∧
      (¬ GoesOn after ↔ BeginsWithAmount (amount.text ++ after)) ∧
      (phrase.head? = some '$' → ¬ GoesOn after) := by
  rw [rules_of_extract given] at listed
  have follows := readRules_follow listed
  have printed : printedFine text = some fine := by
    cases restrictive : rule.isRestrictive with
    | true => rw [← follows.fine restrictive, posted]
    | false =>
      rw [(follows.usual restrictive).2] at posted
      cases posted
  obtain ⟨place, found, same⟩ := Option.map_eq_some_iff.mp printed
  obtain ⟨before, phrase, leftmost⟩ := leftmost_of_search? found
  obtain ⟨amount, after, digits, held, value, whole⟩ := finePhrase_amount leftmost
  exact ⟨before, phrase, place, leftmost, amount, after, digits, held, same.symm.trans value, whole⟩

def wholeSign : List Char := "FINE: $65.00\nNO PARKING".toList

theorem sixty_five_read : ∃ rules, extract none wholeSign = .ok rules ∧
    ∃ rule ∈ rules, rule.provision.fine = some ⟨false, 6500, -2⟩ ∧
    ∃ before phrase place, Leftmost finePhrase (upper wholeSign) before phrase place ∧
    ∃ amount : Printed, ∃ after, fromFirstDigit phrase = amount.text ++ after ∧
      place.part 1 = amount.text ∧ amount.value = ⟨false, 6500, -2⟩ ∧ ¬ GoesOn after := by
  have given := @extract_eq none wholeSign nofun
  have found : (readRules none wholeSign).any
      (fun rule => rule.provision.fine = some ⟨false, 6500, -2⟩) = true := by
    decide +kernel
  obtain ⟨rule, listed, posted⟩ := List.any_eq_true.mp found
  have posted : rule.provision.fine = some ⟨false, 6500, -2⟩ := of_decide_eq_true posted
  obtain ⟨before, phrase, place, leftmost, amount, after, digits, held, value, whole, _⟩ :=
    fine_whole_iff given listed posted
  have atStart : Leftmost finePhrase (upper wholeSign) [] (upper wholeSign) _ :=
    leftmost_at_start rfl
  obtain ⟨_, same, _⟩ := leftmost.unique atStart
  refine ⟨_, given, rule, listed, posted, before, phrase, place, leftmost, amount, after, digits,
    held, value.symm, whole.mpr ?_⟩
  rw [← digits, same]
  refine ⟨⟨⟨'6', by decide⟩, [⟨'5', by decide⟩], by decide, some (⟨'0', by decide⟩, ⟨'0', by decide⟩)⟩,
    "\nNO PARKING".toList, by decide +kernel, ?_⟩
  rintro (digit | ⟨sign, listed, rest, same, _⟩)
  · exact absurd digit (by decide)
  · cases same
    exact absurd listed (by decide)

def longSign : List Char := "FINE: $1,500\nNO PARKING".toList

/-- One dollar is read from the front of fifteen hundred. -/
theorem thousands_cut : ∃ rules, extract none longSign = .ok rules ∧
    (∃ rule ∈ rules, rule.provision.fine = some ⟨false, 1, 0⟩) ∧
    ∃ place, Leftmost finePhrase (upper longSign) [] (upper longSign) place ∧
      place.part 1 = ['1'] ∧ amountOf place = ⟨false, 1, 0⟩ ∧
      place.ahead = ",500\nNO PARKING".toList ∧ GoesOn place.ahead := by
  have found : (readRules none longSign).any
      (fun rule => rule.provision.fine = some ⟨false, 1, 0⟩) = true := by
    decide +kernel
  obtain ⟨rule, listed, posted⟩ := List.any_eq_true.mp found
  refine ⟨_, extract_eq nofun, ⟨rule, listed, of_decide_eq_true posted⟩,
    ⟨some '1', ",500\nNO PARKING".toList, [(1, ['1'])]⟩, leftmost_at_start rfl, rfl,
    by decide +kernel, rfl, ?_⟩
  exact Or.inr ⟨',', by decide, "500\nNO PARKING".toList, rfl, by decide +kernel⟩

end Curbside.Proofs.FineAmounts

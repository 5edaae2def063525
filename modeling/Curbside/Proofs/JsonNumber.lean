import Curbside.Json.Reader
import Curbside.Json.Writer
import Curbside.Proofs.Shortest

/-! Reading a number undoes writing it. An integer is written without a point and an exponent, and
every other number with one of them, so that neither is taken for the other. -/

namespace Curbside.Proofs.JsonNumber
open Json Text Numerals Shortest

/-- What follows a value: nothing, or what ends an item or the row of items. -/
def Ends (rest : List Char) : Prop := ∀ c ∈ rest.head?, c = ',' ∨ c = ']' ∨ c = '}'

theorem Ends.stops {rest : List Char} (ends : Ends rest) : Stops rest := by
  intro c first
  rcases ends c first with same | same | same <;> rw [same] <;> decide

section
variable {numeral : Numeral} {rest : List Char}

/-- A whole part as it may stand: without a zero before another digit. -/
def Leads (numeral : Numeral) : Prop := numeral.whole = ['0'] ∨ numeral.whole.head? ≠ some '0'

theorem spanDigits_row {digits : List Char} (row : ∀ c ∈ digits, isPlainDigit c = true)
    (stops : Stops rest) : spanDigits (digits ++ rest) = (digits, rest) := by
  rw [spanDigits, takeWhile_digits row stops, dropWhile_digits row stops]

theorem tail_ends (proper : numeral.Proper) (ends : Ends rest) :
    ∀ c ∈ (numeral.tail ++ rest).head?, isPlainDigit c = false ∧ c ≠ '.' := by
  intro c first
  rcases Numeral.tail_cases proper with ⟨_, none⟩ | ⟨exponent, _, valid, some⟩
  · rw [none] at first
    rcases ends c first with same | same | same <;> rw [same] <;> decide
  · rw [some] at first
    cases first
    rcases valid.mark with same | same <;> rw [same] <;> decide

theorem spanFraction_point (proper : numeral.Proper) (ends : Ends rest) :
    spanFraction (numeral.point ++ (numeral.tail ++ rest)) =
      (numeral.point, numeral.tail ++ rest) := by
  have stops : Stops (numeral.tail ++ rest) := fun c first => (tail_ends proper ends c first).1
  rcases numeral.point_cases with ⟨_, none⟩ | ⟨some, pointed⟩
  · rw [none, List.nil_append]
    unfold spanFraction
    split
    next more same =>
      have other := (tail_ends proper ends '.' (by rw [same]; rfl)).2
      exact absurd rfl other
    next => rfl
  · obtain ⟨c, places, begins⟩ := List.exists_cons_of_ne_nil some
    rw [pointed, List.cons_append]
    unfold spanFraction
    simp only [spanDigits_row proper.places stops]

theorem spanExponent_tail (proper : numeral.Proper) (ends : Ends rest) :
    spanExponent (numeral.tail ++ rest) = (numeral.tail, rest) := by
  rcases Numeral.tail_cases proper with ⟨_, none⟩ | ⟨exponent, _, valid, some⟩
  · rw [none, List.nil_append]
    cases rest with
    | nil => rfl
    | cons c rest =>
      rcases ends c rfl with same | same | same <;> rw [same] <;> rfl
  · obtain ⟨c, digits, begins⟩ := List.exists_cons_of_ne_nil valid.digits.written
    have row := spanDigits_row valid.digits.digits ends.stops
    rw [begins, List.cons_append] at row
    rw [some, Exponent.text, begins]
    rcases valid.mark with mark | mark <;> cases sign : exponent.negative <;>
      simp [spanExponent, mark, row]

/-- A number is read in three parts, its whole digits, its fraction and its exponent. -/
theorem number?_parts (proper : numeral.Proper) (leads : Leads numeral) (ends : Ends rest)
    (negative : Bool) : number? negative (numeral.text ++ rest) =
      if numeral.point.isEmpty && numeral.tail.isEmpty then
        if longestInteger < numeral.whole.length then none
        else
          let n : Int := digitsValue numeral.whole
          some (.int (if negative then -n else n), rest)
      else
        some (.float (Binary64.ofDecimal (numeral.value negative)), rest) := by
  have stops : Stops (numeral.point ++ (numeral.tail ++ rest)) := by
    rcases numeral.point_cases with ⟨_, none⟩ | ⟨_, pointed⟩
    · rw [none]
      exact fun c first => (tail_ends proper ends c first).1
    · rw [pointed]
      intro c first
      cases first
      decide
  have read := Numeral.ofPlain?_text proper false
  simp only [Bool.false_eq_true, if_false, List.nil_append, Numeral.text] at read
  have written : numeral.whole.isEmpty = false := by simp [proper.whole.written]
  have fraction := spanFraction_point proper ends
  have exponent := spanExponent_tail proper ends
  unfold number?
  simp only [Numeral.text, List.append_assoc]
  split
  next more same =>
    have zero : numeral.whole = ['0'] := by
      refine leads.resolve_right fun first => first ?_
      obtain ⟨c, digits, begins⟩ := List.exists_cons_of_ne_nil proper.whole.written
      rw [begins] at same ⊢
      cases same
      rfl
    have cut : more = numeral.point ++ (numeral.tail ++ rest) := by
      rw [zero] at same
      exact (List.cons.inj same).2.symm
    rw [← zero, cut]
    simp only [written, fraction, exponent, read, Option.map_some,
      Bool.false_eq_true, if_false]
    rfl
  next =>
    simp only [spanDigits_row proper.whole.digits stops, written, fraction, exponent,
      read, Option.map_some, Bool.false_eq_true, if_false]
    rfl

end

def wordNames : List String := ["null", "true", "false", "NaN", "Infinity", "-Infinity"]

theorem word?_eq_none {cs : List Char}
    (unlike : ∀ name ∈ wordNames, name.toList.isPrefixOf cs = false) : word? cs = none := by
  unfold word?
  rw [List.findSome?_eq_none_iff]
  intro (name, value) member
  have listed : name ∈ wordNames := List.mem_map_of_mem (f := Prod.fst) member
  simp [unlike name listed]

/-- No word begins as a number does. -/
theorem word?_digit {c : Char} {more : List Char} (digit : isPlainDigit c = true) :
    word? (c :: more) = none ∧ word? ('-' :: c :: more) = none := by
  have differs : ∀ letter, isPlainDigit letter = false → (letter == c) = false :=
    fun letter other => beq_eq_false_iff_ne.mpr (isPlainDigit_ne digit letter other).symm
  have begins : ∀ name ∈ wordNames, ∃ letter rest, name.toList = letter :: rest ∧
      isPlainDigit letter = false := by
    simp only [wordNames, List.forall_mem_cons, List.not_mem_nil, false_imp_iff, implies_true,
      and_true]
    refine ⟨?_, ?_, ?_, ?_, ?_, ?_⟩ <;> exact ⟨_, _, rfl, by decide⟩
  constructor
  · apply word?_eq_none
    intro name listed
    obtain ⟨letter, rest, same, other⟩ := begins name listed
    rw [same, List.isPrefixOf, differs letter other, Bool.false_and]
  · have infinity : "-Infinity".toList = '-' :: 'I' :: "nfinity".toList := rfl
    apply word?_eq_none
    simp only [wordNames, List.forall_mem_cons, List.not_mem_nil, false_imp_iff, implies_true,
      and_true]
    refine ⟨rfl, rfl, rfl, rfl, rfl, ?_⟩
    rw [infinity, List.isPrefixOf, List.isPrefixOf, differs 'I' (by decide), Bool.false_and,
      Bool.and_false]

theorem value?_digit {c : Char} {more : List Char} {steps : Nat} (digit : isPlainDigit c = true)
    (negative : Bool) :
    value? (steps + 1) ((if negative then ['-'] else []) ++ c :: more) =
      number? negative (c :: more) := by
  have unlike := isPlainDigit_ne digit
  cases negative with
  | true =>
    simp only [if_true, List.cons_append, List.nil_append]
    rw [value?.eq_5, (word?_digit digit).2]
  | false =>
    simp only [Bool.false_eq_true, if_false, List.nil_append]
    rw [value?.eq_6, (word?_digit digit).1]
    · intro rest same
      exact absurd (List.cons.inj same).1 (unlike '"' (by decide))
    · intro rest same
      exact absurd (List.cons.inj same).1 (unlike '[' (by decide))
    · intro rest same
      exact absurd (List.cons.inj same).1 (unlike '\x7b' (by decide))
    · intro rest same
      exact absurd (List.cons.inj same).1 (unlike '-' (by decide))

theorem value?_text {numeral : Numeral} (proper : numeral.Proper) {rest : List Char} {steps : Nat}
    (negative : Bool) :
    value? (steps + 1) ((if negative then ['-'] else []) ++ numeral.text ++ rest) =
      number? negative (numeral.text ++ rest) := by
  obtain ⟨c, digits, begins⟩ := List.exists_cons_of_ne_nil proper.whole.written
  have digit := proper.whole.digits c (by simp [begins])
  rw [List.append_assoc, Numeral.text, begins, List.cons_append, List.cons_append]
  exact value?_digit digit negative

/-- An integer reads as itself if it is not too long. -/
theorem value?_int {n : Int} (short : (Decimal.digitsOf n.natAbs).length ≤ longestInteger)
    {rest : List Char} (ends : Ends rest) {steps : Nat} :
    value? (steps + 1) (intText n ++ rest) = some (.int n, rest) := by
  have row := digitsOf_row n.natAbs
  let numeral : Numeral := ⟨Decimal.digitsOf n.natAbs, [], none⟩
  have proper : numeral.Proper := ⟨row, nofun, nofun⟩
  have leads : Leads numeral := by
    rcases Nat.eq_zero_or_pos n.natAbs with zero | positive
    · left
      simp [numeral, zero, Decimal.digitsOf]
    · exact Or.inr (digitsOf_head positive)
  have text : intText n = (if (decide (n < 0)) then ['-'] else []) ++ numeral.text := by
    simp [intText, Numeral.text, Numeral.point, Numeral.tail, numeral]
  rw [text, value?_text proper, number?_parts proper leads ends]
  have signed : (if decide (n < 0) = true then -(n.natAbs : Int) else n.natAbs) = n := by
    simp only [decide_eq_true_eq]
    omega
  simp only [Numeral.point, Numeral.tail, numeral, digitsValue_digitsOf, Nat.not_lt.mpr short,
    signed]
  rfl

/-- A binary64 number is written with a point or an exponent. -/
theorem numeralOf_marked (d : Decimal) : ¬ ((numeralOf Binary64.layout d).point.isEmpty &&
    (numeralOf Binary64.layout d).tail.isEmpty) = true := by
  have some : 0 < (Decimal.digitsOf d.coefficient).length := Nat.length_toDigits_pos
  have ending : Binary64.layout.afterWhole = ['.', '0'] := rfl
  unfold numeralOf
  dsimp only
  split
  · split
    · simp [Numeral.point, (digitsOf_row d.coefficient).written]
    · split
      · simp [Numeral.point, ending]
      next cut =>
        have rest : ((Decimal.digitsOf d.coefficient).drop
            (d.exponent + (Decimal.digitsOf d.coefficient).length).toNat).isEmpty = false := by
          simp [List.drop_eq_nil_iff]
          omega
        simp [Numeral.point, rest]
  · simp [Numeral.tail, Exponent.text]

theorem shortest_plain {negative : Bool} {units : Nat}
    (format : InFormat (.finite negative units)) :
    (Binary64.shortest negative units).coefficient ≠ 0 ∨
      (Binary64.shortest negative units).exponent = 0 := by
  rcases Nat.eq_zero_or_pos units with zero | positive
  · right
    simp [Binary64.shortest, zero]
  · left
    intro none
    have reads := ofDecimal_shortest format
    unfold Binary64.ofDecimal at reads
    simp only [none, decide_true, Bool.true_or, if_true, Binary64.finite.injEq] at reads
    omega

/-- A number of the binary64 format reads as itself, to the last bit. -/
theorem value?_float {x : Binary64} (format : InFormat x) {rest : List Char} (ends : Ends rest)
    {steps : Nat} : value? (steps + 1) (writtenFloat x ++ rest) = some (.float x, rest) := by
  cases x with
  | nan => rfl
  | infinite negative =>
    cases negative
    · rfl
    · rfl
  | finite negative units =>
    have reads := ofDecimal_shortest format
    have plain := shortest_plain format
    have text : writtenFloat (.finite negative units) =
        Binary64.layout.write (Binary64.shortest negative units) := rfl
    rw [text, ← reads]
    generalize Binary64.shortest negative units = d at plain
    have proper := numeralOf_proper shortestLayout_plain d
    have leads : Leads (numeralOf Binary64.layout d) := numeralOf_whole plain
    obtain ⟨count, value, _⟩ := numeralOf_value shortestLayout_plain d
    rw [write_eq shortestLayout_plain, value?_text proper, number?_parts proper leads ends,
      if_neg (numeralOf_marked d), value, ofDecimal_shift]

end Curbside.Proofs.JsonNumber

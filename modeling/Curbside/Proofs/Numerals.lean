import Curbside.Number.Shortest

/-! Written numbers. A layout writes a number as digits, perhaps with a point and perhaps with an
exponent, and such a text reads as a number of the same value. A reading that has no exponent to
spare may have more digits than the number that was written. -/

namespace Curbside.Proofs.Numerals
open Text Decimal

/-- A row of plain digits, at least one. -/
structure IsRow (cs : List Char) : Prop where
  written : cs ≠ []
  digits : ∀ c ∈ cs, isPlainDigit c = true

/-- What follows a row of digits does not go on with one. -/
def Stops (rest : List Char) : Prop := ∀ c ∈ rest.head?, isPlainDigit c = false

theorem takeWhile_digits {digits rest : List Char} (row : ∀ c ∈ digits, isPlainDigit c = true)
    (stops : Stops rest) : (digits ++ rest).takeWhile isPlainDigit = digits := by
  rw [List.takeWhile_append_of_pos row]
  cases rest with
  | nil => simp
  | cons c rest =>
    have other := stops c rfl
    simp [other]

theorem dropWhile_digits {digits rest : List Char} (row : ∀ c ∈ digits, isPlainDigit c = true)
    (stops : Stops rest) : (digits ++ rest).dropWhile isPlainDigit = rest := by
  rw [List.dropWhile_append_of_pos row]
  cases rest with
  | nil => rfl
  | cons c rest =>
    have other := stops c rfl
    simp [other]

theorem isPlainDigit_ne {c : Char} (digit : isPlainDigit c = true) (other : Char)
    (differs : isPlainDigit other = false) : c ≠ other := by
  intro same
  rw [same, differs] at digit
  cases digit

theorem digitValue?_of_plain {c : Char} (digit : isPlainDigit c = true) :
    digitValue? c = some (c.toNat - 48) := by
  have bounds : 48 ≤ c.toNat ∧ c.toNat ≤ 57 := by simpa [isPlainDigit] using digit
  have ascii : c.toNat < 128 := by omega
  simp [digitValue?, ascii, digit]

theorem digitsValue_eq {cs : List Char} (row : ∀ c ∈ cs, isPlainDigit c = true) :
    digitsValue cs = Nat.ofDigitChars 10 cs 0 := by
  have steps : ∀ start, cs.foldl (fun value c => 10 * value + (digitValue? c).getD 0) start =
      Nat.ofDigitChars 10 cs start := by
    intro start
    induction cs generalizing start with
    | nil => rfl
    | cons c rest ih =>
      have digit := row c (List.mem_cons_self ..)
      simp only [List.foldl_cons, digitValue?_of_plain digit, Option.getD_some]
      exact ih (fun other member => row other (List.mem_cons_of_mem _ member)) _
  exact steps 0

theorem digitsOf_row (n : Nat) : IsRow (digitsOf n) := by
  refine ⟨Nat.toDigits_ne_nil, ?_⟩
  intro c member
  have digit : c.isDigit = true := Nat.isDigit_of_mem_toDigits (by decide) (by decide) member
  have bounds : 48 ≤ c.toNat ∧ c.toNat ≤ 57 := by
    simp only [Char.isDigit, Bool.and_eq_true, decide_eq_true_eq, ge_iff_le,
      UInt32.le_iff_toNat_le] at digit
    exact digit
  simpa [isPlainDigit] using bounds

theorem digitsValue_digitsOf (n : Nat) : digitsValue (digitsOf n) = n := by
  rw [digitsValue_eq (digitsOf_row n).digits]
  exact Nat.ofDigitChars_ten_toDigits

theorem zeros_row (count : Nat) : ∀ c ∈ List.replicate count '0', isPlainDigit c = true := by
  intro c member
  rw [List.eq_of_mem_replicate member]
  decide

theorem append_row {first second : List Char} (row : ∀ c ∈ first, isPlainDigit c = true)
    (other : ∀ c ∈ second, isPlainDigit c = true) : ∀ c ∈ first ++ second, isPlainDigit c = true := by
  intro c member
  rcases List.mem_append.mp member with early | late
  · exact row c early
  · exact other c late

theorem digitsValue_zeros_append {cs : List Char} (row : ∀ c ∈ cs, isPlainDigit c = true)
    (count : Nat) : digitsValue (List.replicate count '0' ++ cs) = digitsValue cs := by
  rw [digitsValue_eq (append_row (zeros_row count) row), digitsValue_eq row,
    Nat.ofDigitChars_append, Nat.ofDigitChars_replicate_zero, Nat.mul_zero]

theorem digitsValue_append_zeros {cs : List Char} (row : ∀ c ∈ cs, isPlainDigit c = true)
    (count : Nat) :
    digitsValue (cs ++ List.replicate count '0') = digitsValue cs * powerOfTen count := by
  rw [digitsValue_eq (append_row row (zeros_row count)), digitsValue_eq row,
    Nat.ofDigitChars_append, Nat.ofDigitChars_replicate_zero, Nat.mul_comm]
  rfl

/-- No positive number begins with a zero. -/
theorem digitsOf_head {n : Nat} (positive : 0 < n) : (digitsOf n).head? ≠ some '0' := by
  induction n using Nat.strongRecOn with
  | ind n ih =>
    unfold digitsOf at *
    by_cases small : n < 10
    · rw [Nat.toDigits_of_lt_base small]
      intro zero
      have same : n.digitChar = '0' := Option.some.inj zero
      have cases : n = 1 ∨ n = 2 ∨ n = 3 ∨ n = 4 ∨ n = 5 ∨ n = 6 ∨ n = 7 ∨ n = 8 ∨ n = 9 := by
        omega
      rcases cases with rfl | rfl | rfl | rfl | rfl | rfl | rfl | rfl | rfl <;>
        exact absurd same (by decide)
    · have first := ih (n / 10) (by omega) (by omega)
      obtain ⟨c, rest, begins⟩ := List.exists_cons_of_ne_nil
        (Nat.toDigits_ne_nil : Nat.toDigits 10 (n / 10) ≠ [])
      rw [begins] at first
      rw [Nat.toDigits_of_base_le (by decide) (by omega), begins]
      exact first

structure Exponent where
  mark : Char
  negative : Bool
  digits : List Char

namespace Exponent

def text (exponent : Exponent) : List Char :=
  exponent.mark :: (if exponent.negative then '-' else '+') :: exponent.digits

def value (exponent : Exponent) : Int :=
  if exponent.negative then -(digitsValue exponent.digits : Int) else digitsValue exponent.digits

structure Proper (exponent : Exponent) : Prop where
  mark : exponent.mark = 'e' ∨ exponent.mark = 'E'
  digits : IsRow exponent.digits

theorem Proper.mark_stops {exponent : Exponent} (proper : exponent.Proper) :
    isPlainDigit exponent.mark = false := by
  rcases proper.mark with same | same <;> rw [same] <;> decide

theorem integer?_signed {negative : Bool} {digits : List Char} (row : IsRow digits) :
    integer? ((if negative then '-' else '+') :: digits) =
      some (if negative then -(digitsValue digits : Int) else digitsValue digits) := by
  have some : digits.isEmpty = false := by
    rw [Bool.eq_false_iff]
    intro none
    exact row.written (List.isEmpty_iff.mp none)
  have all : digits.all isPlainDigit = true := List.all_eq_true.mpr row.digits
  cases negative <;> simp [integer?, takeSign, some, all]

end Exponent

/-- The parts of a number as it is written, without a sign before it. -/
structure Numeral where
  whole : List Char
  places : List Char
  exponent : Option Exponent

namespace Numeral

def point (numeral : Numeral) : List Char :=
  if numeral.places.isEmpty then [] else '.' :: numeral.places

def tail (numeral : Numeral) : List Char := (numeral.exponent.map Exponent.text).getD []

def text (numeral : Numeral) : List Char := numeral.whole ++ (numeral.point ++ numeral.tail)

/-- The number that a numeral stands for behind a sign. -/
def value (numeral : Numeral) (negative : Bool) : Decimal :=
  ⟨negative, digitsValue (numeral.whole ++ numeral.places),
    (numeral.exponent.map Exponent.value).getD 0 - numeral.places.length⟩

structure Proper (numeral : Numeral) : Prop where
  whole : IsRow numeral.whole
  places : ∀ c ∈ numeral.places, isPlainDigit c = true
  exponent : ∀ exponent ∈ numeral.exponent, exponent.Proper

variable {numeral : Numeral}

theorem point_cases (numeral : Numeral) :
    numeral.places = [] ∧ numeral.point = [] ∨
      numeral.places ≠ [] ∧ numeral.point = '.' :: numeral.places := by
  unfold point
  cases numeral.places with
  | nil => exact Or.inl ⟨rfl, rfl⟩
  | cons c rest => exact Or.inr ⟨List.cons_ne_nil c rest, rfl⟩

theorem tail_stops (proper : numeral.Proper) : Stops numeral.tail := by
  unfold tail
  cases given : numeral.exponent with
  | none => exact nofun
  | some exponent =>
    intro c first
    cases first
    exact (proper.exponent exponent (Option.mem_def.mpr given)).mark_stops

theorem point_stops (proper : numeral.Proper) : Stops (numeral.point ++ numeral.tail) := by
  rcases numeral.point_cases with ⟨_, none⟩ | ⟨_, some⟩
  · rw [none]
    exact tail_stops proper
  · rw [some]
    intro c first
    cases first
    decide

theorem takeSign_text (proper : numeral.Proper) (negative : Bool) :
    takeSign ((if negative then ['-'] else []) ++ numeral.text) = (negative, numeral.text) := by
  cases negative with
  | true => rfl
  | false =>
    obtain ⟨c, rest, begins⟩ := List.exists_cons_of_ne_nil proper.whole.written
    have digit := proper.whole.digits c (by simp [begins])
    have noMinus := isPlainDigit_ne digit '-' (by decide)
    have noPlus := isPlainDigit_ne digit '+' (by decide)
    simp only [text, begins, List.cons_append, Bool.false_eq_true, if_false, List.nil_append]
    unfold takeSign
    split
    next same => exact absurd (List.cons.inj same).1 noMinus
    next same => exact absurd (List.cons.inj same).1 noPlus
    next => rfl

theorem tail_cases (proper : numeral.Proper) :
    numeral.exponent = none ∧ numeral.tail = [] ∨
      ∃ exponent, numeral.exponent = some exponent ∧ exponent.Proper ∧
        numeral.tail = exponent.text := by
  unfold tail
  cases given : numeral.exponent with
  | none => exact Or.inl ⟨rfl, rfl⟩
  | some exponent =>
    exact Or.inr ⟨exponent, rfl, proper.exponent exponent (Option.mem_def.mpr given), rfl⟩

/-- The text of a numeral reads as its value. -/
theorem ofPlain?_text (proper : numeral.Proper) (negative : Bool) :
    ofPlain? ((if negative then ['-'] else []) ++ numeral.text) = some (numeral.value negative) := by
  have written : numeral.whole ≠ [] := proper.whole.written
  unfold ofPlain?
  rw [takeSign_text proper]
  simp only [text, takeWhile_digits proper.whole.digits (point_stops proper),
    dropWhile_digits proper.whole.digits (point_stops proper)]
  rcases numeral.point_cases with ⟨noPlaces, unpointed⟩ | ⟨_, pointed⟩
  · rcases tail_cases proper with ⟨given, ended⟩ | ⟨exponent, given, valid, marked⟩
    · simp [unpointed, ended, noPlaces, value, given, written]
    · rcases valid.mark with mark | mark <;>
        simp [unpointed, marked, Exponent.text, mark, noPlaces, value, given, written,
          Exponent.value, Exponent.integer?_signed valid.digits]
  · simp only [pointed, List.cons_append, takeWhile_digits proper.places (tail_stops proper),
      dropWhile_digits proper.places (tail_stops proper)]
    rcases tail_cases proper with ⟨given, ended⟩ | ⟨exponent, given, valid, marked⟩
    · simp [ended, value, given, written]
    · rcases valid.mark with mark | mark <;>
        simp [marked, Exponent.text, mark, value, given, written,
          Exponent.value, Exponent.integer?_signed valid.digits]

end Numeral

/-- The parts of a number as a layout writes it. -/
def numeralOf (layout : Layout) (d : Decimal) : Numeral :=
  let digits := digitsOf d.coefficient
  let left := d.exponent + digits.length
  if layout.isPositional d.exponent (left - 1) then
    if left ≤ 0 then ⟨['0'], List.replicate left.natAbs '0' ++ digits, none⟩
    else if digits.length ≤ left.toNat then
      ⟨digits ++ List.replicate (left.toNat - digits.length) '0', layout.afterWhole.drop 1, none⟩
    else ⟨digits.take left.toNat, digits.drop left.toNat, none⟩
  else
    let power := digitsOf (left - 1).natAbs
    ⟨digits.take 1, digits.drop 1,
      some ⟨layout.mark, decide (left - 1 < 0),
        List.replicate (layout.exponentWidth - power.length) '0' ++ power⟩⟩

/-- A layout marks an exponent as readers expect it, and ends a whole number with a zero after the
point if with anything. -/
structure Plain (layout : Layout) : Prop where
  mark : layout.mark = 'e' ∨ layout.mark = 'E'
  afterWhole : layout.afterWhole = [] ∨ layout.afterWhole = ['.', '0']

theorem amountLayout_plain : Plain amountLayout := ⟨Or.inr rfl, Or.inl rfl⟩

theorem shortestLayout_plain : Plain Binary64.layout := ⟨Or.inl rfl, Or.inr rfl⟩

section
variable {layout : Layout} (plain : Plain layout) (d : Decimal)
include plain

theorem numeralOf_proper : (numeralOf layout d).Proper := by
  have digits := digitsOf_row d.coefficient
  have firstOf : ∀ count, 0 < count → IsRow ((digitsOf d.coefficient).take count) := by
    intro count some
    refine ⟨?_, fun c member => digits.digits c (List.mem_of_mem_take member)⟩
    rw [Ne, List.take_eq_nil_iff]
    rintro (none | none)
    · omega
    · exact digits.written none
  have restOf : ∀ count, ∀ c ∈ (digitsOf d.coefficient).drop count, isPlainDigit c = true :=
    fun count c member => digits.digits c (List.mem_of_mem_drop member)
  have ending : ∀ c ∈ layout.afterWhole.drop 1, isPlainDigit c = true := by
    intro c member
    rcases plain.afterWhole with same | same <;> rw [same] at member
    · cases member
    · rw [List.mem_singleton.mp member]
      decide
  unfold numeralOf
  dsimp only
  split
  · split
    · exact ⟨⟨List.cons_ne_nil _ _, zeros_row 1⟩, append_row (zeros_row _) digits.digits, nofun⟩
    · split
      · exact ⟨⟨List.append_ne_nil_of_left_ne_nil digits.written _,
          append_row digits.digits (zeros_row _)⟩, ending, nofun⟩
      · exact ⟨firstOf _ (by omega), restOf _, nofun⟩
  · refine ⟨firstOf 1 (by decide), restOf 1, ?_⟩
    intro exponent given
    cases given
    have power := digitsOf_row (d.exponent + (digitsOf d.coefficient).length - 1).natAbs
    exact ⟨plain.mark, List.append_ne_nil_of_right_ne_nil _ power.written,
      append_row (zeros_row _) power.digits⟩

theorem write_eq : layout.write d =
    (if d.negative then ['-'] else []) ++ (numeralOf layout d).text := by
  have some : digitsOf d.coefficient ≠ [] := (digitsOf_row d.coefficient).written
  unfold Layout.write numeralOf
  generalize digitsOf d.coefficient = digits at some
  generalize (if d.negative then ['-'] else []) = sign
  have long : 0 < digits.length := List.length_pos_iff.mpr some
  unfold pointed
  dsimp only
  split
  · split
    · have short : ¬ digits.length ≤ (d.exponent + digits.length).toNat := by omega
      simp [short, Numeral.text, Numeral.point, Numeral.tail, some]
    · split
      · rcases plain.afterWhole with same | same <;>
          simp [same, Numeral.text, Numeral.point, Numeral.tail]
      next cut =>
        have rest : ¬ digits.length ≤ (d.exponent + digits.length).toNat := cut
        simp [rest, Numeral.text, Numeral.point, Numeral.tail]
  · obtain ⟨c, rest, begins⟩ := List.exists_cons_of_ne_nil some
    subst begins
    cases rest with
    | nil => simp [Numeral.text, Numeral.point, Numeral.tail, Exponent.text, signedExponent]
    | cons next rest =>
      simp [Numeral.text, Numeral.point, Numeral.tail, Exponent.text, signedExponent]

/-- What is written has the value of the number. Only a number without a negative exponent that is
written without an exponent gets more digits, zeros that its exponent stands for. -/
theorem numeralOf_value : ∃ count : Nat, (numeralOf layout d).value d.negative =
      ⟨d.negative, d.coefficient * powerOfTen count, d.exponent - count⟩ ∧
    (count = 0 ∨ 0 ≤ d.exponent ∧
      layout.isPositional d.exponent (d.exponent + (digitsOf d.coefficient).length - 1) = true ∧
      count = d.exponent.toNat + (layout.afterWhole.drop 1).length) := by
  have row := digitsOf_row d.coefficient
  have whole : digitsValue (digitsOf d.coefficient) = d.coefficient := digitsValue_digitsOf _
  have some : 0 < (digitsOf d.coefficient).length := List.length_pos_iff.mpr row.written
  unfold numeralOf Numeral.value
  dsimp only
  split
  next positional =>
    split
    next left =>
      refine ⟨0, ?_, Or.inl rfl⟩
      have zeros := digitsValue_zeros_append row.digits
        ((d.exponent + (digitsOf d.coefficient).length).natAbs + 1)
      rw [List.replicate_succ, List.cons_append, whole] at zeros
      have places : ((List.replicate (d.exponent + (digitsOf d.coefficient).length).natAbs '0' ++
          digitsOf d.coefficient).length : Int) = -d.exponent := by
        rw [List.length_append, List.length_replicate]
        omega
      simp only [List.cons_append, List.nil_append, zeros, places, Option.map_none,
        Option.getD_none, powerOfTen, Nat.pow_eq, Nat.pow_zero, Nat.mul_one, Decimal.mk.injEq,
        true_and]
      omega
    next =>
      split
      next filled =>
        have ending : ∃ count, layout.afterWhole.drop 1 = List.replicate count '0' := by
          rcases plain.afterWhole with same | same <;> rw [same]
          · exact ⟨0, rfl⟩
          · exact ⟨1, rfl⟩
        obtain ⟨count, ending⟩ := ending
        have zeros := digitsValue_append_zeros row.digits (d.exponent.toNat + count)
        have exponent : (d.exponent + (digitsOf d.coefficient).length).toNat -
            (digitsOf d.coefficient).length = d.exponent.toNat := by omega
        refine ⟨d.exponent.toNat + count, ?_, Or.inr ⟨by omega, positional, by simp [ending]⟩⟩
        rw [whole] at zeros
        simp [exponent, ending, zeros, List.append_assoc, List.replicate_append_replicate]
        omega
      next cut =>
        refine ⟨0, ?_, Or.inl rfl⟩
        simp [powerOfTen, whole]
        omega
  next =>
    refine ⟨0, ?_, Or.inl rfl⟩
    have power := digitsOf_row (d.exponent + (digitsOf d.coefficient).length - 1).natAbs
    simp only [List.take_append_drop, whole, Option.map_some, Option.getD_some, Exponent.value,
      digitsValue_zeros_append power.digits, digitsValue_digitsOf, powerOfTen, Nat.pow_eq,
      Nat.pow_zero, Nat.mul_one, Decimal.mk.injEq, true_and, List.length_drop, decide_eq_true_eq]
    split <;> omega

end

/-- A number begins with no zero before another digit, unless it is a zero with an exponent. -/
theorem numeralOf_whole {layout : Layout} {d : Decimal} (plain : d.coefficient ≠ 0 ∨ d.exponent = 0) :
    (numeralOf layout d).whole = ['0'] ∨ (numeralOf layout d).whole.head? ≠ some '0' := by
  rcases Nat.eq_zero_or_pos d.coefficient with zero | positive
  · have exponent : d.exponent = 0 := plain.resolve_left (fun some => some zero)
    have digits : digitsOf 0 = ['0'] := rfl
    left
    unfold numeralOf
    simp only [zero, exponent, digits]
    split <;> rfl
  · have first := digitsOf_head positive
    obtain ⟨c, rest, begins⟩ := List.exists_cons_of_ne_nil (digitsOf_row d.coefficient).written
    rw [begins] at first
    unfold numeralOf
    simp only [begins]
    split
    · split
      · exact Or.inl rfl
      · right
        split
        · exact first
        next left _ =>
          obtain ⟨count, same⟩ := Nat.exists_eq_succ_of_ne_zero
            (show (d.exponent + (c :: rest).length).toNat ≠ 0 by omega)
          rw [same]
          exact first
    · exact Or.inr first

end Curbside.Proofs.Numerals

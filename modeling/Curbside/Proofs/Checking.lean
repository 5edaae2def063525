import Curbside.Record.Scalar

/-! Checks that pass. A record passes if all of its parts do, and its value is made of theirs. A
list whose items are all read as they were is read as it was. -/

namespace Curbside.Proofs.Checking
open Checked

theorem map_passed_iff {f : α → β} {first : Checked α} {result : β} :
    f <$> first = .passed result ↔ ∃ value, first = .passed value ∧ f value = result := by
  cases first with
  | failed issues => simp [Functor.map, Checked.map]
  | passed value => simp [Functor.map, Checked.map]

theorem both_passed_iff {f : Checked (α → β)} {first : Checked α} {result : β} :
    f <*> first = .passed result ↔
      ∃ make value, f = .passed make ∧ first = .passed value ∧ make value = result := by
  cases f with
  | failed issues => cases first <;> simp [Seq.seq, both]
  | passed make => cases first <;> simp [Seq.seq, both]

theorem andThen_passed_iff {next : α → Checked β} {first : Checked α} {result : β} :
    first.andThen next = .passed result ↔
      ∃ value, first = .passed value ∧ next value = .passed result := by
  cases first <;> simp [andThen]

theorem under_passed_iff {step : PathStep} {first : Checked α} {result : α} :
    first.under step = .passed result ↔ first = .passed result := by
  cases first <;> simp [under]

theorem required_passed_iff {members : List (String × Json)} {name : String} {decode : Decoder α}
    {result : α} : Decoder.required members name decode = .passed result ↔
      ∃ value, members.lookup name = some value ∧ decode value = .passed result := by
  unfold Decoder.required
  cases members.lookup name <;> simp [under_passed_iff]

theorem optional_passed_iff {members : List (String × Json)} {name : String} {usual : α}
    {decode : Decoder α} {result : α} :
    Decoder.optional members name usual decode = .passed result ↔
      members.lookup name = none ∧ usual = result ∨
        ∃ value, members.lookup name = some value ∧ decode value = .passed result := by
  unfold Decoder.optional
  cases members.lookup name <;> simp [under_passed_iff]

theorem nullable_passed_iff {decode : Decoder α} {value : Json} {result : Option α} :
    Decoder.nullable decode value = .passed result ↔
      value = .null ∧ result = none ∨
        value ≠ .null ∧ ∃ inner, decode value = .passed inner ∧ result = some inner := by
  unfold Decoder.nullable
  split
  · simp [eq_comm]
  next other =>
    have present : value ≠ .null := fun same => other same
    cases decode value with
    | failed issues => simp [Checked.map, present]
    | passed inner => simp [Checked.map, present, eq_comm]

/-- What may be missing is read as it was if what is there is. -/
theorem nullable_orNull {decode : Decoder α} {encode : α → Json} {value : Option α}
    (present : ∀ inner, encode inner ≠ .null)
    (each : ∀ inner ∈ value, decode (encode inner) = .passed inner) :
    Decoder.nullable decode (Json.orNull encode value) = .passed value := by
  cases value with
  | none => rfl
  | some inner =>
    have read := each inner rfl
    rw [nullable_passed_iff]
    exact Or.inr ⟨present inner, inner, read, rfl⟩

theorem itemsFrom_map {decode : Decoder α} {encode : α → Json} {items : List α}
    (each : ∀ item ∈ items, decode (encode item) = .passed item) (position : Nat) :
    Decoder.itemsFrom decode position (items.map encode) = .passed items := by
  induction items generalizing position with
  | nil => rfl
  | cons item items ih =>
    have head := each item (List.mem_cons_self ..)
    have tail := ih (fun other member => each other (List.mem_cons_of_mem _ member)) (position + 1)
    simp [Decoder.itemsFrom, head, tail, under, both]

end Curbside.Proofs.Checking

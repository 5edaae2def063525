import Curbside.Failure

/-! Steps that may fail. A chain of steps has a result exactly if every step has one, and the
results of a row of steps are the results of its members. -/

namespace Curbside.Proofs.Attempt

theorem bind_ok_iff {first : Except ε α} {next : α → Except ε β} {result : β} :
    first >>= next = .ok result ↔ ∃ value, first = .ok value ∧ next value = .ok result := by
  cases first with
  | error fault =>
    constructor
    · intro impossible
      cases impossible
    · intro ⟨_, impossible, _⟩
      cases impossible
  | ok value =>
    constructor
    · exact fun reached => ⟨value, rfl, reached⟩
    · intro ⟨_, same, reached⟩
      cases same
      exact reached

theorem ok_of_toOption {attempt : Except ε α} {value : α} (found : attempt.toOption = some value) :
    attempt = .ok value := by
  cases attempt with
  | error fault => cases found
  | ok result =>
    cases found
    rfl

theorem map_ok_iff {first : Except ε α} {f : α → β} {result : β} :
    first.map f = .ok result ↔ ∃ value, first = .ok value ∧ f value = result := by
  cases first with
  | error fault => simp [Except.map]
  | ok value => simp [Except.map]

theorem mapM_cons_ok_iff {step : α → Except ε β} {item : α} {items : List α} {results : List β} :
    (item :: items).mapM step = .ok results ↔
      ∃ result rest, step item = .ok result ∧ items.mapM step = .ok rest ∧
        results = result :: rest := by
  rw [List.mapM_cons, bind_ok_iff]
  constructor
  · intro ⟨result, first, reached⟩
    obtain ⟨rest, others, same⟩ := bind_ok_iff.mp reached
    cases same
    exact ⟨result, rest, first, others, rfl⟩
  · intro ⟨result, rest, first, others, same⟩
    subst same
    exact ⟨result, first, bind_ok_iff.mpr ⟨rest, others, rfl⟩⟩

theorem mem_of_mapM {step : α → Except ε β} {items : List α} {results : List β}
    (reached : items.mapM step = .ok results) (result : β) :
    result ∈ results ↔ ∃ item ∈ items, step item = .ok result := by
  induction items generalizing results with
  | nil =>
    cases reached
    simp
  | cons item items ih =>
    obtain ⟨first, rest, head, tail, rfl⟩ := mapM_cons_ok_iff.mp reached
    simp only [List.mem_cons, ih tail, exists_eq_or_imp, head, Except.ok.injEq]
    constructor
    · intro member
      cases member with
      | inl same => exact Or.inl same.symm
      | inr later => exact Or.inr later
    · intro member
      cases member with
      | inl same => exact Or.inl same.symm
      | inr later => exact Or.inr later

theorem mapM_succeeds {step : α → Except ε β} {items : List α}
    (each : ∀ item ∈ items, ∃ result, step item = .ok result) :
    ∃ results, items.mapM step = .ok results := by
  induction items with
  | nil => exact ⟨[], rfl⟩
  | cons item items ih =>
    obtain ⟨result, head⟩ := each item (List.mem_cons_self ..)
    obtain ⟨rest, tail⟩ := ih fun other member => each other (List.mem_cons_of_mem _ member)
    exact ⟨result :: rest, mapM_cons_ok_iff.mpr ⟨result, rest, head, tail, rfl⟩⟩

theorem step_of_mapM {step : α → Except ε β} {items : List α} {results : List β}
    (reached : items.mapM step = .ok results) :
    ∀ item ∈ items, ∃ result, step item = .ok result := by
  induction items generalizing results with
  | nil => simp
  | cons item items ih =>
    obtain ⟨first, rest, head, tail, rfl⟩ := mapM_cons_ok_iff.mp reached
    intro other member
    rcases List.mem_cons.mp member with rfl | later
    · exact ⟨first, head⟩
    · exact ih tail other later

/-- A chain of steps that fails no later than at its first step fails with it. -/
theorem error_of_bind {first : Except ε α} {next : α → Except ε β} {fault : ε}
    (failed : first >>= next = .error fault) (onward : ∀ value, next value ≠ .error fault) :
    first = .error fault := by
  cases first with
  | error other =>
    cases failed
    rfl
  | ok value => exact absurd failed (onward value)

theorem error_of_mapM {step : α → Except ε β} {items : List α} {fault : ε}
    (failed : items.mapM step = .error fault) : ∃ item ∈ items, step item = .error fault := by
  induction items with
  | nil => cases failed
  | cons item items ih =>
    rw [List.mapM_cons] at failed
    cases head : step item with
    | error other =>
      rw [head] at failed
      cases failed
      exact ⟨item, List.mem_cons_self, head⟩
    | ok result =>
      rw [head] at failed
      have tail : items.mapM step = .error fault := error_of_bind failed fun rest => nofun
      obtain ⟨other, member, fails⟩ := ih tail
      exact ⟨other, List.mem_cons_of_mem item member, fails⟩

end Curbside.Proofs.Attempt

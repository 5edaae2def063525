import Curbside.Proofs.Amount
import Curbside.Proofs.JsonText

/-! What can be read is what can be written. Whatever a text is, the value that it holds is proper:
a name that is written twice ends up once, an integer that is too long is not read, and other
numbers are rounded into the binary64 format. -/

namespace Curbside.Proofs.JsonProper
open Json Text Numerals Shortest JsonText Amount

/-- A row of digits stands for a number that needs no more of them. -/
theorem digits_length {digits : List Char} {most : Nat} (some : 0 < most)
    (short : digits.length ≤ most) : (Decimal.digitsOf (digitsValue digits)).length ≤ most := by
  have below : digitsValue digits < 10 ^ most :=
    Nat.lt_of_lt_of_le (digitsValue_lt digits) (Nat.pow_le_pow_right (by omega) short)
  exact (Nat.length_toDigits_le_iff (by omega) some).mpr below

theorem number?_proper {negative : Bool} {cs rest : List Char} {value : Json}
    (read : number? negative cs = some (value, rest)) : Proper value := by
  revert read
  fun_cases number? negative cs with
  | case1 => exact nofun
  | case2 => exact nofun
  | case3 whole _ _ _ _ _ _ _ _ _ _ n short =>
    intro read
    cases read
    have size : (if negative then -n else n).natAbs = digitsValue whole := by
      cases negative
      · rfl
      · exact Int.natAbs_neg _
    refine .int ?_
    rw [size]
    exact digits_length (Nat.zero_lt_succ _) (Nat.not_lt.mp short)
  | case4 =>
    intro read
    obtain ⟨d, _, same⟩ := Option.map_eq_some_iff.mp read
    cases same
    exact .float (ofDecimal_inFormat _)

theorem word?_proper {cs rest : List Char} {value : Json}
    (read : word? cs = some (value, rest)) : Proper value := by
  obtain ⟨⟨name, stated⟩, member, found⟩ := List.exists_of_findSome?_eq_some read
  have stands : stated = value := by
    dsimp only at found
    split at found
    · exact congrArg Prod.fst (Option.some.inj found)
    · cases found
  rw [← stands]
  simp only [List.mem_cons, Prod.mk.injEq, List.not_mem_nil, or_false] at member
  rcases member with ⟨_, rfl⟩ | ⟨_, rfl⟩ | ⟨_, rfl⟩ | ⟨_, rfl⟩ | ⟨_, rfl⟩ | ⟨_, rfl⟩
  · exact .null
  · exact .bool
  · exact .bool
  · exact .float .nan
  · exact .float .infinite
  · exact .float .infinite

/-- Members with different names and proper values. -/
structure ProperMembers (members : List (String × Json)) : Prop where
  distinct : (members.map Prod.fst).Nodup
  each : ∀ member ∈ members, Proper member.2

theorem setMember_names {members : List (String × Json)} {name : String} {value : Json}
    (known : name ∈ members.map Prod.fst) :
    (setMember members name value).map Prod.fst = members.map Prod.fst := by
  induction members with
  | nil => cases known
  | cons first members ih =>
    rw [setMember]
    split
    next same => simp [← same]
    next other =>
      rw [List.map_cons, List.mem_cons] at known
      simp [ih (known.resolve_left fun same => other same.symm)]

theorem mem_setMember {members : List (String × Json)} {name : String} {value : Json}
    {member : String × Json} (inside : member ∈ setMember members name value) :
    member = (name, value) ∨ member ∈ members := by
  induction members with
  | nil => exact Or.inl (List.mem_singleton.mp inside)
  | cons first members ih =>
    rw [setMember] at inside
    split at inside
    · rcases List.mem_cons.mp inside with new | later
      · exact Or.inl new
      · exact Or.inr (List.mem_cons_of_mem _ later)
    · rcases List.mem_cons.mp inside with here | later
      · exact Or.inr (here ▸ List.mem_cons_self ..)
      · exact (ih later).imp_right (List.mem_cons_of_mem _)

theorem setMember_proper {members : List (String × Json)} {value : Json}
    (before : ProperMembers members) (proper : Proper value) (name : String) :
    ProperMembers (setMember members name value) := by
  constructor
  · by_cases new : name ∈ members.map Prod.fst
    · have names : (setMember members name value).map Prod.fst = members.map Prod.fst :=
        setMember_names new
      rw [names]
      exact before.distinct
    · rw [setMember_new new, List.map_append, List.nodup_append]
      refine ⟨before.distinct, by simp, ?_⟩
      intro first old last member same
      rw [same, List.mem_singleton.mp member] at old
      exact new old
  · intro member inside
    rcases mem_setMember inside with same | old
    · exact same ▸ proper
    · exact before.each member old

/-- What is read in so many steps is proper. -/
structure Sound (steps : Nat) : Prop where
  value : ∀ {cs value rest}, value? steps cs = some (value, rest) → Proper value
  items : ∀ {cs items rest}, items? steps cs = some (items, rest) → ∀ item ∈ items, Proper item
  members : ∀ {before cs members rest}, ProperMembers before →
    members? steps before cs = some (members, rest) → ProperMembers members

section
variable {steps : Nat} {cs rest : List Char}

theorem value?_sound (sound : Sound steps) {value : Json}
    (read : value? (steps + 1) cs = some (value, rest)) : Proper value := by
  unfold value? at read
  split at read
  · obtain ⟨body, _, same⟩ := Option.map_eq_some_iff.mp read
    cases same
    exact .string
  · split at read
    · cases read
      exact .array (by simp)
    · obtain ⟨row, items, same⟩ := Option.map_eq_some_iff.mp read
      cases same
      exact .array (sound.items items)
  · split at read
    · cases read
      exact .object List.nodup_nil (by simp)
    · obtain ⟨row, members, same⟩ := Option.map_eq_some_iff.mp read
      cases same
      have none : ProperMembers [] := ⟨List.nodup_nil, by simp⟩
      have proper := sound.members none members
      exact .object proper.distinct proper.each
  · split at read
    next found word =>
      cases read
      exact word?_proper word
    next =>
      split at read
      · exact number?_proper read
      · exact number?_proper read

theorem items?_sound (sound : Sound steps) {items : List Json}
    (read : items? (steps + 1) cs = some (items, rest)) : ∀ item ∈ items, Proper item := by
  unfold items? at read
  split at read
  · cases read
  next item _ first =>
    have head : Proper item := sound.value first
    split at read
    · cases read
      simpa using head
    · obtain ⟨row, later, same⟩ := Option.map_eq_some_iff.mp read
      cases same
      exact List.forall_mem_cons.mpr ⟨head, sound.items later⟩
    · cases read

theorem members?_sound (sound : Sound steps) {before members : List (String × Json)}
    (proper : ProperMembers before)
    (read : members? (steps + 1) before cs = some (members, rest)) : ProperMembers members := by
  unfold members? at read
  split at read
  · split at read
    · cases read
    · split at read
      · split at read
        · cases read
        next value _ stated =>
          have further := setMember_proper proper (sound.value stated)
          split at read
          · cases read
            exact further _
          · exact sound.members (further _) read
          · cases read
      · cases read
  · cases read

end

/-- A single induction on the steps carries values, items and members, which are read in terms of
each other. -/
theorem sound (steps : Nat) : Sound steps := by
  induction steps with
  | zero => exact ⟨nofun, nofun, fun _ read => nomatch read⟩
  | succ steps ih => exact ⟨value?_sound ih, items?_sound ih, members?_sound ih⟩

theorem read?_proper {cs : List Char} {value : Json} (read : read? cs = some value) :
    Proper value := by
  unfold read? at read
  split at read
  next value _ begins =>
    split at read
    · cases read
      exact (sound _).value begins
    · cases read
  next => cases read

theorem member?_proper {value member : Json} {name : String} (proper : Proper value)
    (found : value.member? name = some member) : Proper member := by
  cases proper with
  | object _ each =>
    obtain ⟨before, after, same, _⟩ := List.lookup_eq_some_iff.mp found
    exact each (name, member) (by simp [same])
  | _ => cases found

/-- The values that texts hold are the proper ones. -/
theorem exists_text_iff {value : Json} : (∃ cs, read? cs = some value) ↔ Proper value :=
  ⟨fun readable => readable.elim fun _ read => read?_proper read,
    fun proper => ⟨(render value).toList, read?_render proper⟩⟩

end Curbside.Proofs.JsonProper

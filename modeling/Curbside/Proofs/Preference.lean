import Curbside.Proofs.Cutting

/-! The readings of a pattern in the order in which they are preferred. Matching hands them on one
after the other, so that the reading that counts is the first that the rest accepts, and the
preferred reading of a pattern is put together from those of its parts. -/

namespace Curbside.Proofs.Preference
open Pattern Reading Spelling Cutting

/-- The places that a repeated step reaches, those of more steps before those of fewer. -/
def repeatedReadings (step : Place → List Place) : Nat → Place → List Place
  | 0, place => [place]
  | limit + 1, place =>
    ((step place).filter fun later => later.ahead.length < place.ahead.length).flatMap
      (repeatedReadings step limit) ++ [place]

/-- The places that a pattern can be read to from a place, the preferred one first. -/
def readings : Pattern → Place → List Place
  | .nothing, place => [place]
  | .one accepts, place =>
    match place.ahead with
    | [] => []
    | c :: rest => if accepts c then [⟨some c, rest, place.parts⟩] else []
  | .letters cs, place =>
    match after? cs place.ahead with
    | none => []
    | some rest => [⟨cs.getLast?.or place.behind, rest, place.parts⟩]
  | .both first second, place => (readings first place).flatMap (readings second)
  | .either first second, place => readings first place ++ readings second place
  | .many body, place => repeatedReadings (readings body) place.ahead.length place
  | .held label body, place =>
    (readings body place).map fun later =>
      { later with parts := (label, place.textUntil later) :: later.parts }
  | .wordEdge, place => if place.isWordEdge then [place] else []
  | .notBefore refuses, place => if place.ahead.head?.any refuses then [] else [place]
  | .notAfter refuses, place => if place.behind.any refuses then [] else [place]
  | .textEnd, place => if place.ahead.isEmpty then [place] else []

section
variable (place : Place)

theorem readings_nothing : readings .nothing place = [place] := rfl

theorem readings_one_nil (accepts : Char → Bool) (behind : Option Char)
    (parts : List (Nat × List Char)) : readings (.one accepts) ⟨behind, [], parts⟩ = [] := rfl

theorem readings_one_cons (accepts : Char → Bool) (behind : Option Char) (c : Char)
    (rest : List Char) (parts : List (Nat × List Char)) :
    readings (.one accepts) ⟨behind, c :: rest, parts⟩ =
      if accepts c then [⟨some c, rest, parts⟩] else [] := rfl

theorem readings_letters (cs : List Char) : readings (.letters cs) place =
    match after? cs place.ahead with
    | none => []
    | some rest => [⟨cs.getLast?.or place.behind, rest, place.parts⟩] := rfl

theorem readings_both (first second : Pattern) : readings (.both first second) place =
    (readings first place).flatMap (readings second) := rfl

theorem readings_either (first second : Pattern) : readings (.either first second) place =
    readings first place ++ readings second place := rfl

theorem readings_held (label : Nat) (body : Pattern) : readings (.held label body) place =
    (readings body place).map fun later =>
      { later with parts := (label, place.textUntil later) :: later.parts } := rfl

theorem readings_wordEdge :
    readings .wordEdge place = if place.isWordEdge then [place] else [] := rfl

theorem readings_notBefore (refuses : Char → Bool) : readings (.notBefore refuses) place =
    if place.ahead.head?.any refuses then [] else [place] := rfl

theorem readings_notAfter (refuses : Char → Bool) : readings (.notAfter refuses) place =
    if place.behind.any refuses then [] else [place] := rfl

theorem readings_textEnd :
    readings .textEnd place = if place.ahead.isEmpty then [place] else [] := rfl

end

theorem findSome?_flatMap (items : List α) (f : α → List β) (next : β → Option γ) :
    (items.flatMap f).findSome? next = items.findSome? fun item => (f item).findSome? next := by
  induction items with
  | nil => rfl
  | cons item more ih =>
    rw [List.flatMap_cons, List.findSome?_append, ih, List.findSome?_cons]
    cases (f item).findSome? next <;> rfl

theorem findSome?_filter (items : List α) (keeps : α → Bool) (next : α → Option β) :
    (items.filter keeps).findSome? next =
      items.findSome? fun item => if keeps item then next item else none := by
  induction items with
  | nil => rfl
  | cons item more ih =>
    rw [List.findSome?_cons, ← ih, List.filter_cons]
    cases keeps item <;> rfl

theorem findSome?_some (items : List α) : items.findSome? some = items.head? := by
  cases items <;> rfl

private theorem repeated_eq_findSome? {body : Pattern}
    (each : ∀ {place : Place} {next : Place → Option α},
      body.run place next = (readings body place).findSome? next)
    (limit : Nat) (place : Place) (next : Place → Option α) :
    repeated body.run limit place next =
      (repeatedReadings (readings body) limit place).findSome? next := by
  induction limit generalizing place with
  | zero =>
    rw [repeated, repeatedReadings, List.findSome?_singleton]
  | succ limit ih =>
    rw [repeated, repeatedReadings, List.findSome?_append, findSome?_flatMap, findSome?_filter,
      List.findSome?_singleton, each]
    simp only [ih, decide_eq_true_eq]
    cases (readings body place).findSome? fun later =>
      if later.ahead.length < place.ahead.length then
        (repeatedReadings (readings body) limit later).findSome? next
      else none <;> rfl

/-- Matching tries the readings in order until the rest accepts one. -/
theorem run_eq_findSome? (p : Pattern) (place : Place) (next : Place → Option α) :
    p.run place next = (readings p place).findSome? next := by
  induction p generalizing place next with
  | nothing => rw [run, readings_nothing, List.findSome?_singleton]
  | one accepts =>
    obtain ⟨behind, ahead, parts⟩ := place
    cases ahead with
    | nil => rfl
    | cons c rest =>
      rw [run, readings_one_cons]
      dsimp only
      split
      · rw [List.findSome?_singleton]
      · rfl
  | letters cs =>
    rw [run, readings_letters]
    cases after? cs place.ahead with
    | none => rfl
    | some rest => rw [List.findSome?_singleton]
  | both first second ihFirst ihSecond =>
    rw [run, readings_both, findSome?_flatMap, ihFirst]
    simp only [ihSecond]
  | either first second ihFirst ihSecond =>
    rw [run, readings_either, List.findSome?_append, ihFirst, ihSecond]
    cases (readings first place).findSome? next <;> rfl
  | many body ih => exact repeated_eq_findSome? (ih _ _) _ place next
  | held label body ih =>
    rw [run, readings_held, List.findSome?_map, ih]
    rfl
  | wordEdge =>
    rw [run, readings_wordEdge]
    split
    · rw [List.findSome?_singleton]
    · rfl
  | textEnd =>
    rw [run, readings_textEnd]
    split
    · rw [List.findSome?_singleton]
    · rfl
  | notBefore _ =>
    rw [run, readings_notBefore]
    split
    · rfl
    · rw [List.findSome?_singleton]
  | notAfter _ =>
    rw [run, readings_notAfter]
    split
    · rfl
    · rw [List.findSome?_singleton]

theorem run_some (p : Pattern) (place : Place) : p.run place some = (readings p place).head? := by
  rw [run_eq_findSome?, findSome?_some]

private theorem repeatedReadings_ended {step : Place → List Place} {place : Place}
    (ended : place.ahead.length = 0) (limit : Nat) :
    repeatedReadings step limit place = [place] := by
  cases limit with
  | zero => rfl
  | succ limit =>
    have still : (step place).filter (fun later => later.ahead.length < place.ahead.length) =
        [] := by
      simp [ended]
    rw [repeatedReadings, still]
    rfl

/-- As many steps as there are characters ahead are enough. -/
private theorem repeatedReadings_enough {step : Place → List Place} {limit other : Nat}
    {place : Place} (enough : place.ahead.length ≤ limit) (also : place.ahead.length ≤ other) :
    repeatedReadings step limit place = repeatedReadings step other place := by
  induction limit generalizing other place with
  | zero => rw [repeatedReadings_ended (by omega), repeatedReadings_ended (by omega)]
  | succ limit ih =>
    cases other with
    | zero => rw [repeatedReadings_ended (by omega), repeatedReadings_ended (by omega)]
    | succ other =>
      rw [repeatedReadings, repeatedReadings, List.flatMap_def, List.flatMap_def]
      congr 2
      apply List.map_congr_left
      intro later listed
      have shorter := of_decide_eq_true (List.mem_filter.mp listed).2
      exact ih (by omega) (by omega)

/-- A repetition prefers to go on after each reading of its body that takes something. -/
theorem readings_many (body : Pattern) (place : Place) :
    readings (.many body) place =
      ((readings body place).filter fun later => later.ahead.length < place.ahead.length).flatMap
        (readings (.many body)) ++ [place] := by
  have one : readings (.many body) place =
      repeatedReadings (readings body) (place.ahead.length + 1) place :=
    repeatedReadings_enough (Nat.le_refl _) (Nat.le_succ _)
  rw [one, repeatedReadings, List.flatMap_def, List.flatMap_def]
  congr 2
  apply List.map_congr_left
  intro later listed
  have shorter := of_decide_eq_true (List.mem_filter.mp listed).2
  exact repeatedReadings_enough (by omega) (Nat.le_refl _)

theorem readings_many_done {body : Pattern} {place : Place} (silent : readings body place = []) :
    readings (.many body) place = [place] := by
  rw [readings_many, silent]
  rfl

theorem readings_many_step {body : Pattern} {place later : Place}
    (one : readings body place = [later]) (shorter : later.ahead.length < place.ahead.length) :
    readings (.many body) place = readings (.many body) later ++ [place] := by
  rw [readings_many, one, List.filter_cons, if_pos (decide_eq_true shorter), List.filter_nil,
    List.flatMap_singleton]

theorem reads_of_mem_readings {p : Pattern} {place later : Place}
    (listed : later ∈ readings p place) : Reads p place later := by
  classical
  have found : (p.run place fun other => if other = later then some () else none).isSome := by
    rw [run_eq_findSome?, List.isSome_findSome?, List.any_eq_true]
    exact ⟨later, listed, by simp⟩
  obtain ⟨_, answer⟩ := Option.isSome_iff_exists.mp found
  obtain ⟨other, read, accepted⟩ := run_reads answer
  split at accepted
  next same => exact same ▸ read
  next => cases accepted

/-- What always takes something is not read at the end of a text. -/
theorem readings_ended {p : Pattern} (moving : advances p = true) (behind : Option Char)
    (parts : List (Nat × List Char)) : readings p ⟨behind, [], parts⟩ = [] := by
  rw [List.eq_nil_iff_forall_not_mem]
  intro later listed
  exact Nat.not_lt_zero _ (reads_advances (reads_of_mem_readings listed) moving)

/-- Whether what a pattern repeats takes at least one character each time. -/
def steady : Pattern → Bool
  | .both first second | .either first second => steady first && steady second
  | .many body => advances body && steady body
  | .held _ body => steady body
  | _ => true

/-- Every way to read a steady pattern is among its readings. -/
theorem mem_readings {p : Pattern} {place later : Place} (read : Reads p place later)
    (regular : steady p = true) : later ∈ readings p place := by
  induction read with
  | nothing => exact List.mem_singleton_self _
  | one accepted =>
    rw [readings_one_cons, if_pos accepted]
    exact List.mem_singleton_self _
  | letters spelled =>
    rw [readings_letters, spelled, Phrases.after?_append]
    exact List.mem_singleton_self _
  | both _ _ ihHead ihTail =>
    have each := (Bool.and_eq_true ..).mp regular
    exact List.mem_flatMap.mpr ⟨_, ihHead each.1, ihTail each.2⟩
  | eitherFirst _ ih =>
    exact List.mem_append_left _ (ih ((Bool.and_eq_true ..).mp regular).1)
  | eitherSecond _ ih =>
    exact List.mem_append_right _ (ih ((Bool.and_eq_true ..).mp regular).2)
  | manyDone =>
    rw [readings_many]
    exact List.mem_append_right _ (List.mem_singleton_self _)
  | manyMore head _ ihHead ihTail =>
    have each := (Bool.and_eq_true ..).mp regular
    have shorter := decide_eq_true (reads_advances head each.1)
    rw [readings_many]
    apply List.mem_append_left
    exact List.mem_flatMap.mpr ⟨_, List.mem_filter.mpr ⟨ihHead each.2, shorter⟩, ihTail regular⟩
  | held _ ih => exact List.mem_map.mpr ⟨_, ih regular, rfl⟩
  | wordEdge edge =>
    rw [readings_wordEdge, if_pos edge]
    exact List.mem_singleton_self _
  | notBefore free =>
    rw [readings_notBefore, if_neg (Bool.eq_false_iff.mp free)]
    exact List.mem_singleton_self _
  | notAfter free =>
    rw [readings_notAfter, if_neg (Bool.eq_false_iff.mp free)]
    exact List.mem_singleton_self _
  | textEnd ended =>
    rw [readings_textEnd, if_pos ended]
    exact List.mem_singleton_self _

theorem readings_both_silent {first : Pattern} {place : Place}
    (silent : readings first place = []) (second : Pattern) :
    readings (first ++ second) place = [] := by
  change readings (.both first second) place = []
  rw [readings_both, silent]
  rfl

theorem readings_letters_silent {c d : Char} (apart : c ≠ d) (cs : List Char)
    (behind : Option Char) (rest : List Char) (parts : List (Nat × List Char)) :
    readings (.letters (c :: cs)) ⟨behind, d :: rest, parts⟩ = [] := by
  rw [readings_letters, after?, if_neg apart]

/-- What is read somewhere in a text occurs in it. -/
theorem occursIn_of_mem {p : Pattern} {front rest : List Char} {later : Place}
    (listed : later ∈ readings p ⟨front.getLast?, rest, []⟩) :
    p.occursIn (front ++ rest) = true := by
  have here : (p.run ⟨front.getLast?, rest, []⟩ some).isSome = true := by
    rw [run_some, List.isSome_head?]
    exact List.ne_nil_of_mem listed
  apply Phrases.searchFrom_later
  rw [Option.or_none]
  exact Phrases.searchFrom_here here

/-- The preferred reading of a pattern goes from one place to another. -/
def Prefers (p : Pattern) (place later : Place) : Prop :=
  (readings p place).head? = some later

namespace Prefers
variable {first second body : Pattern} {place middle later : Place}

theorem run {p : Pattern} (prefers : Prefers p place later) : p.run place some = some later :=
  (run_some p place).trans prefers

theorem both (head : Prefers first place middle) (tail : Prefers second middle later) :
    Prefers (first ++ second) place later := by
  unfold Prefers at head
  change (readings (.both first second) place).head? = some later
  rw [readings_both]
  cases listed : readings first place with
  | nil =>
    rw [listed] at head
    cases head
  | cons place more =>
    rw [listed] at head
    cases head
    rw [List.head?_flatMap, List.findSome?_cons, tail]

/-- Three patterns in a row are read alike however they are grouped. -/
theorem regroup {third : Pattern} (grouped : Prefers (first ++ (second ++ third)) place later) :
    Prefers (first ++ second ++ third) place later := by
  have same : readings (first ++ second ++ third) place =
      readings (first ++ (second ++ third)) place := List.flatMap_assoc
  unfold Prefers at grouped ⊢
  rw [same, grouped]

theorem inFirst (here : Prefers first place later) :
    Prefers (.either first second) place later := by
  unfold Prefers at here ⊢
  rw [readings_either, List.head?_append, here]
  rfl

theorem inSecond (silent : readings first place = []) (there : Prefers second place later) :
    Prefers (.either first second) place later := by
  unfold Prefers at there ⊢
  rw [readings_either, silent]
  exact there

theorem manyDone (silent : readings body place = []) : Prefers (.many body) place place := by
  unfold Prefers
  rw [readings_many, silent]
  rfl

theorem manyMore (head : Prefers body place middle)
    (shorter : middle.ahead.length < place.ahead.length)
    (tail : Prefers (.many body) middle later) : Prefers (.many body) place later := by
  unfold Prefers at head tail ⊢
  cases listed : readings body place with
  | nil =>
    rw [listed] at head
    cases head
  | cons place more =>
    rw [listed] at head
    cases head
    rw [readings_many, listed, List.filter_cons, if_pos (decide_eq_true shorter),
      List.flatMap_cons, List.append_assoc, List.head?_append, tail]
    rfl

theorem held {label : Nat} {behind last : Option Char} {text rest : List Char}
    {parts inner : List (Nat × List Char)}
    (inside : Prefers body ⟨behind, text ++ rest, parts⟩ ⟨last, rest, inner⟩) :
    Prefers (.held label body) ⟨behind, text ++ rest, parts⟩
      ⟨last, rest, (label, text) :: inner⟩ := by
  have passed : (Place.mk behind (text ++ rest) parts).textUntil ⟨last, rest, inner⟩ = text :=
    textUntil_eq rfl
  unfold Prefers at inside ⊢
  rw [readings_held, List.head?_map, inside, Option.map_some, passed]

theorem nothing : Prefers .nothing place place := rfl

theorem wordEdge (edge : place.isWordEdge = true) : Prefers .wordEdge place place := by
  unfold Prefers
  rw [readings_wordEdge, if_pos edge]
  rfl

theorem asWord (starts : place.isWordEdge = true) (inside : Prefers body place later)
    (ends : later.isWordEdge = true) : Prefers (asWord body) place later :=
  .both (.both (.wordEdge starts) inside) (.wordEdge ends)

theorem letters {cs rest : List Char} {behind : Option Char} {parts : List (Nat × List Char)} :
    Prefers (.letters cs) ⟨behind, cs ++ rest, parts⟩ ⟨cs.getLast?.or behind, rest, parts⟩ := by
  unfold Prefers
  rw [readings_letters, Phrases.after?_append]
  rfl

/-- A repetition takes all characters that it accepts, up to one that it does not. -/
theorem row {accepts : Char → Bool} {text rest : List Char} (taken : ∀ c ∈ text, accepts c = true)
    (ends : ∀ c ∈ rest.head?, accepts c = false) (behind : Option Char)
    (parts : List (Nat × List Char)) :
    Prefers (.many (.one accepts)) ⟨behind, text ++ rest, parts⟩
      ⟨text.getLast?.or behind, rest, parts⟩ := by
  induction text generalizing behind with
  | nil =>
    apply manyDone
    cases rest with
    | nil => rfl
    | cons c rest =>
      rw [List.nil_append, readings_one_cons, ends c rfl, if_neg Bool.false_ne_true]
  | cons c text ih =>
    have first : Prefers (.one accepts) ⟨behind, c :: (text ++ rest), parts⟩
        ⟨some c, text ++ rest, parts⟩ := by
      unfold Prefers
      rw [readings_one_cons, taken c List.mem_cons_self, if_pos rfl, List.head?_cons]
    rw [getLast?_cons_or]
    exact manyMore first (Nat.lt_succ_self _)
      (ih (fun d member => taken d (List.mem_cons_of_mem c member)) (some c))

end Prefers

end Curbside.Proofs.Preference

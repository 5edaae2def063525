import Curbside.Proofs.Reading

/-! The texts that a pattern spells, whatever stands around them, and the texts that a match holds.
A label that every reading fills is filled by a text that its part of the pattern spells. -/

namespace Curbside.Proofs.Spelling
open Pattern Reading

/-- The texts that a pattern can pass over. What it asks of the neighbours is left out. -/
def Spells : Pattern → List Char → Prop
  | .nothing, text => text = []
  | .one accepts, text => ∃ c, accepts c = true ∧ text = [c]
  | .letters cs, text => text = cs
  | .both first second, text =>
    ∃ head tail, text = head ++ tail ∧ Spells first head ∧ Spells second tail
  | .either first second, text => Spells first text ∨ Spells second text
  | .many body, text => ∃ pieces : List (List Char), text = pieces.flatten ∧
    ∀ piece ∈ pieces, Spells body piece
  | .held _ body, text => Spells body text
  | .wordEdge, text => text = []
  | .notBefore _, text => text = []
  | .notAfter _, text => text = []
  | .textEnd, text => text = []

/-- A reading goes from one place to another over a text that its pattern spells. -/
theorem reads_spells {p : Pattern} {place later : Place} (read : Reads p place later) :
    ∃ text, Spells p text ∧ place.ahead = text ++ later.ahead ∧
      later.behind = text.getLast?.or place.behind := by
  induction read with
  | nothing => exact ⟨[], rfl, rfl, rfl⟩
  | one accepted => exact ⟨_, ⟨_, accepted, rfl⟩, rfl, rfl⟩
  | letters spelled => exact ⟨_, rfl, spelled, rfl⟩
  | both _ _ ihHead ihTail =>
    obtain ⟨head, spellsHead, sameHead, passedHead⟩ := ihHead
    obtain ⟨tail, spellsTail, sameTail, passedTail⟩ := ihTail
    refine ⟨head ++ tail, ⟨head, tail, rfl, spellsHead, spellsTail⟩, ?_, ?_⟩
    · rw [sameHead, sameTail, List.append_assoc]
    · rw [passedTail, passedHead, List.getLast?_append, Option.or_assoc]
  | eitherFirst _ ih =>
    obtain ⟨text, spells, same⟩ := ih
    exact ⟨text, Or.inl spells, same⟩
  | eitherSecond _ ih =>
    obtain ⟨text, spells, same⟩ := ih
    exact ⟨text, Or.inr spells, same⟩
  | manyDone => exact ⟨[], ⟨[], rfl, fun _ impossible => nomatch impossible⟩, rfl, rfl⟩
  | manyMore _ _ ihHead ihTail =>
    obtain ⟨head, spellsHead, sameHead, passedHead⟩ := ihHead
    obtain ⟨_, ⟨pieces, rfl, each⟩, sameTail, passedTail⟩ := ihTail
    refine ⟨head ++ pieces.flatten, ⟨head :: pieces, rfl, ?_⟩, ?_, ?_⟩
    · intro piece member
      rcases List.mem_cons.mp member with rfl | further
      · exact spellsHead
      · exact each piece further
    · rw [sameHead, sameTail, List.append_assoc]
    · rw [passedTail, passedHead, List.getLast?_append, Option.or_assoc]
  | held _ ih => exact ih
  | wordEdge _ | notBefore _ | notAfter _ | textEnd _ => exact ⟨[], rfl, rfl, rfl⟩

theorem textUntil_eq {place later : Place} {text : List Char}
    (same : place.ahead = text ++ later.ahead) : place.textUntil later = text := by
  simp [Place.textUntil, same]

def bodies (label : Nat) : Pattern → List Pattern
  | .both first second => bodies label first ++ bodies label second
  | .either first second => bodies label first ++ bodies label second
  | .many body => bodies label body
  | .held own body => (if own = label then [body] else []) ++ bodies label body
  | _ => []

/-- Whether every reading of a pattern holds something under a label. -/
def fills (label : Nat) : Pattern → Bool
  | .both first second => fills label first || fills label second
  | .either first second => fills label first && fills label second
  | .held own body => own == label || fills label body
  | _ => false

/-- What a reading holds was held before, or is spelled by a part of the pattern. -/
theorem reads_parts {p : Pattern} {place later : Place} (read : Reads p place later)
    {label : Nat} {text : List Char} (member : (label, text) ∈ later.parts) :
    (label, text) ∈ place.parts ∨ ∃ body ∈ bodies label p, Spells body text := by
  induction read with
  | nothing | manyDone | wordEdge _ | notBefore _ | notAfter _ | textEnd _ => exact Or.inl member
  | one _ => exact Or.inl member
  | letters _ => exact Or.inl member
  | both _ _ ihHead ihTail =>
    rcases ihTail member with before | ⟨body, inside, spells⟩
    · rcases ihHead before with before | ⟨body, inside, spells⟩
      · exact Or.inl before
      · exact Or.inr ⟨body, List.mem_append_left _ inside, spells⟩
    · exact Or.inr ⟨body, List.mem_append_right _ inside, spells⟩
  | eitherFirst _ ih =>
    rcases ih member with before | ⟨body, inside, spells⟩
    · exact Or.inl before
    · exact Or.inr ⟨body, List.mem_append_left _ inside, spells⟩
  | eitherSecond _ ih =>
    rcases ih member with before | ⟨body, inside, spells⟩
    · exact Or.inl before
    · exact Or.inr ⟨body, List.mem_append_right _ inside, spells⟩
  | manyMore _ _ ihHead ihTail =>
    rcases ihTail member with before | found
    · exact ihHead before
    · exact Or.inr found
  | held read ih =>
    rcases List.mem_cons.mp member with same | before
    · cases same
      obtain ⟨text, spells, ahead, _⟩ := reads_spells read
      rw [textUntil_eq ahead]
      exact Or.inr ⟨_, List.mem_append_left _ (by simp), spells⟩
    · rcases ih before with earlier | ⟨body, inside, spells⟩
      · exact Or.inl earlier
      · exact Or.inr ⟨body, List.mem_append_right _ inside, spells⟩

theorem reads_keeps {p : Pattern} {place later : Place} (read : Reads p place later)
    {part : Nat × List Char} (member : part ∈ place.parts) : part ∈ later.parts := by
  induction read with
  | nothing | manyDone | wordEdge _ | notBefore _ | notAfter _ | textEnd _ => exact member
  | one _ => exact member
  | letters _ => exact member
  | both _ _ ihHead ihTail => exact ihTail (ihHead member)
  | eitherFirst _ ih => exact ih member
  | eitherSecond _ ih => exact ih member
  | manyMore _ _ ihHead ihTail => exact ihTail (ihHead member)
  | held _ ih => exact List.mem_cons_of_mem _ (ih member)

theorem reads_fills {p : Pattern} {place later : Place} (read : Reads p place later) {label : Nat}
    (filled : fills label p = true) : ∃ text, (label, text) ∈ later.parts := by
  induction read with
  | nothing | manyDone | wordEdge _ | notBefore _ | notAfter _ | textEnd _ => cases filled
  | one _ => cases filled
  | letters _ => cases filled
  | both _ tail ihHead ihTail =>
    rcases (Bool.or_eq_true ..).mp filled with first | second
    · obtain ⟨text, member⟩ := ihHead first
      exact ⟨text, reads_keeps tail member⟩
    · exact ihTail second
  | eitherFirst _ ih => exact ih ((Bool.and_eq_true ..).mp filled).1
  | eitherSecond _ ih => exact ih ((Bool.and_eq_true ..).mp filled).2
  | manyMore _ _ _ _ => cases filled
  | held _ ih =>
    rcases (Bool.or_eq_true ..).mp filled with same | inner
    · exact ⟨_, List.mem_cons.mpr (Or.inl (by rw [beq_iff_eq.mp same]))⟩
    · obtain ⟨text, member⟩ := ih inner
      exact ⟨text, List.mem_cons_of_mem _ member⟩

private theorem mem_of_lookup {parts : List (Nat × List Char)} {label : Nat} {text : List Char}
    (found : parts.lookup label = some text) : (label, text) ∈ parts := by
  induction parts with
  | nil => cases found
  | cons part parts ih =>
    obtain ⟨own, held⟩ := part
    rw [List.lookup_cons] at found
    split at found
    next same =>
      cases found
      rw [beq_iff_eq.mp same]
      exact List.mem_cons_self ..
    next => exact List.mem_cons_of_mem _ (ih found)

/-- What a match holds under a label is spelled by a part of the pattern with that label. -/
theorem part?_spells {p : Pattern} {place : Place} (matched : Matched p place) {label : Nat}
    {text : List Char} (held : place.part? label = some text) :
    ∃ body ∈ bodies label p, Spells body text := by
  obtain ⟨start, empty, read⟩ := matched
  rcases reads_parts read (mem_of_lookup held) with before | found
  · rw [empty] at before
    cases before
  · exact found

theorem part?_isSome {p : Pattern} {place : Place} (matched : Matched p place) {label : Nat}
    (filled : fills label p = true) : (place.part? label).isSome := by
  obtain ⟨_, _, read⟩ := matched
  obtain ⟨text, member⟩ := reads_fills read filled
  cases held : place.part? label with
  | some _ => rfl
  | none =>
    have absent := List.lookup_eq_none_iff.mp held (label, text) member
    simp at absent

theorem part_spells {p : Pattern} {place : Place} (matched : Matched p place) {label : Nat}
    (filled : fills label p = true) : ∃ body ∈ bodies label p, Spells body (place.part label) := by
  obtain ⟨text, held⟩ := Option.isSome_iff_exists.mp (part?_isSome matched filled)
  rw [Place.part, held]
  exact part?_spells matched held

/-- Whether a pattern asks nothing of what stands around the text that it passes over. -/
def free : Pattern → Bool
  | .both first second | .either first second => free first && free second
  | .many body | .held _ body => free body
  | .wordEdge | .notBefore _ | .notAfter _ | .textEnd => false
  | _ => true

/-- What a free pattern spells is read wherever it stands. -/
theorem reads_of_spells {p : Pattern} (anywhere : free p = true) {text : List Char}
    (spells : Spells p text) (behind : Option Char) (rest : List Char)
    (parts : List (Nat × List Char)) :
    ∃ held, Reads p ⟨behind, text ++ rest, parts⟩ ⟨text.getLast?.or behind, rest, held⟩ := by
  induction p generalizing text behind rest parts with
  | nothing =>
    rw [show text = [] from spells]
    exact ⟨parts, .nothing⟩
  | one accepts =>
    obtain ⟨c, accepted, same⟩ := spells
    rw [same]
    exact ⟨parts, .one accepted⟩
  | letters cs =>
    rw [show text = cs from spells]
    exact ⟨parts, .letters rfl⟩
  | both first second ihFirst ihSecond =>
    have each := (Bool.and_eq_true ..).mp anywhere
    obtain ⟨head, tail, same, spellsHead, spellsTail⟩ := spells
    obtain ⟨held, readsHead⟩ := ihFirst each.1 spellsHead behind (tail ++ rest) parts
    obtain ⟨further, readsTail⟩ := ihSecond each.2 spellsTail (head.getLast?.or behind) rest held
    rw [← Option.or_assoc, ← List.getLast?_append, ← same] at readsTail
    rw [← List.append_assoc, ← same] at readsHead
    exact ⟨further, .both readsHead readsTail⟩
  | either first second ihFirst ihSecond =>
    have each := (Bool.and_eq_true ..).mp anywhere
    rcases spells with here | there
    · obtain ⟨held, read⟩ := ihFirst each.1 here behind rest parts
      exact ⟨held, .eitherFirst read⟩
    · obtain ⟨held, read⟩ := ihSecond each.2 there behind rest parts
      exact ⟨held, .eitherSecond read⟩
  | many body ih =>
    obtain ⟨pieces, same, each⟩ := spells
    induction pieces generalizing text behind parts with
    | nil =>
      rw [same]
      exact ⟨parts, .manyDone⟩
    | cons piece more further =>
      have others := fun other member => each other (List.mem_cons_of_mem piece member)
      obtain ⟨held, head⟩ := ih anywhere (each piece List.mem_cons_self) behind
        (more.flatten ++ rest) parts
      obtain ⟨last, tail⟩ := further (piece.getLast?.or behind) held rfl others
      rw [← Option.or_assoc, ← List.getLast?_append, ← List.flatten_cons, ← same] at tail
      rw [← List.append_assoc, ← List.flatten_cons, ← same] at head
      exact ⟨last, .manyMore head tail⟩
  | held label body ih =>
    obtain ⟨held, read⟩ := ih anywhere spells behind rest parts
    exact ⟨_, .held read⟩
  | wordEdge | notBefore _ | notAfter _ | textEnd => cases anywhere

/-- Every character that a pattern takes passes a test. -/
def Takes (test : Char → Prop) : Pattern → Prop
  | .one accepts => ∀ c, accepts c = true → test c
  | .letters cs => ∀ c ∈ cs, test c
  | .both first second | .either first second => Takes test first ∧ Takes test second
  | .many body | .held _ body => Takes test body
  | _ => True

theorem spells_takes {test : Char → Prop} {p : Pattern} (takes : Takes test p) {text : List Char}
    (spells : Spells p text) : ∀ c ∈ text, test c := by
  induction p generalizing text with
  | nothing | wordEdge | notBefore _ | notAfter _ | textEnd =>
    rw [show text = [] from spells]
    exact fun _ impossible => nomatch impossible
  | one accepts =>
    obtain ⟨c, accepted, same⟩ := spells
    intro d member
    rw [same, List.mem_singleton] at member
    exact member ▸ takes c accepted
  | letters cs =>
    rw [show text = cs from spells]
    exact takes
  | both first second ihFirst ihSecond =>
    obtain ⟨head, tail, same, spellsHead, spellsTail⟩ := spells
    intro c member
    rw [same] at member
    rcases List.mem_append.mp member with early | late
    · exact ihFirst takes.1 spellsHead c early
    · exact ihSecond takes.2 spellsTail c late
  | either first second ihFirst ihSecond =>
    exact spells.elim (ihFirst takes.1) (ihSecond takes.2)
  | many body ih =>
    obtain ⟨pieces, same, each⟩ := spells
    intro c member
    rw [same] at member
    obtain ⟨piece, listed, inside⟩ := List.mem_flatten.mp member
    exact ih takes (each piece listed) c inside
  | held label body ih => exact ih takes spells

/-- What a reading holds was held before, or is a part of the text ahead. -/
theorem reads_infix {p : Pattern} {place later : Place} (read : Reads p place later)
    {label : Nat} {text : List Char} (member : (label, text) ∈ later.parts) :
    (label, text) ∈ place.parts ∨ text <:+: place.ahead := by
  have inside {p : Pattern} {place middle : Place} (head : Reads p place middle)
      (within : text <:+: middle.ahead) : text <:+: place.ahead := by
    obtain ⟨passed, _, same, _⟩ := reads_spells head
    exact within.trans (same ▸ (List.suffix_append passed middle.ahead).isInfix)
  induction read with
  | nothing | manyDone | wordEdge _ | notBefore _ | notAfter _ | textEnd _ => exact Or.inl member
  | one _ | letters _ => exact Or.inl member
  | both head _ ihHead ihTail | manyMore head _ ihHead ihTail =>
    rcases ihTail member with before | within
    · exact ihHead before
    · exact Or.inr (inside head within)
  | eitherFirst _ ih | eitherSecond _ ih => exact ih member
  | held read ih =>
    rcases List.mem_cons.mp member with same | before
    · cases same
      exact Or.inr (List.take_prefix ..).isInfix
    · exact ih before

end Curbside.Proofs.Spelling

import Curbside.Proofs.Phrases
import Curbside.Proofs.Spelling

/-! Cutting a text by a pattern. A pattern that always takes something occurs in a text exactly if
cutting finds it there, and what is read inside a text is also read in any part of it that does not
break off a word. -/

namespace Curbside.Proofs.Cutting
open Pattern Text Reading Spelling Phrases

/-- Whether every reading of a pattern takes at least one character. -/
def advances : Pattern → Bool
  | .one _ => true
  | .letters cs => !cs.isEmpty
  | .both first second => advances first || advances second
  | .either first second => advances first && advances second
  | .held _ body => advances body
  | _ => false

/-- Whether a pattern is made of letters and word edges. -/
def lettered : Pattern → Bool
  | .nothing | .wordEdge => true
  | .letters cs => cs.all isWord
  | .both first second => lettered first && lettered second
  | .either first second => lettered first && lettered second
  | .held _ body => lettered body
  | _ => false

theorem spells_advances {p : Pattern} (moving : advances p = true) {text : List Char}
    (spells : Spells p text) : text ≠ [] := by
  induction p generalizing text with
  | nothing | many _ _ | wordEdge | notBefore _ | notAfter _ | textEnd => cases moving
  | one accepts =>
    obtain ⟨c, _, same⟩ := spells
    rw [same]
    exact List.cons_ne_nil c []
  | letters cs =>
    intro none
    rw [none] at spells
    rw [← (show [] = cs from spells)] at moving
    cases moving
  | both first second ihFirst ihSecond =>
    obtain ⟨head, tail, same, spellsHead, spellsTail⟩ := spells
    rw [same]
    rcases (Bool.or_eq_true ..).mp moving with first | second
    · exact List.append_ne_nil_of_left_ne_nil (ihFirst first spellsHead) tail
    · exact List.append_ne_nil_of_right_ne_nil head (ihSecond second spellsTail)
  | either first second ihFirst ihSecond =>
    have each := (Bool.and_eq_true ..).mp moving
    exact spells.elim (ihFirst each.1) (ihSecond each.2)
  | held label body ih => exact ih moving spells

theorem spells_lettered {p : Pattern} (plain : lettered p = true) {text : List Char}
    (spells : Spells p text) : ∀ c ∈ text, isWord c = true := by
  induction p generalizing text with
  | nothing | wordEdge =>
    rw [show text = [] from spells]
    exact fun _ impossible => nomatch impossible
  | one _ | many _ _ | notBefore _ | notAfter _ | textEnd => cases plain
  | letters cs =>
    rw [show text = cs from spells]
    exact List.all_eq_true.mp plain
  | both first second ihFirst ihSecond =>
    obtain ⟨head, tail, same, spellsHead, spellsTail⟩ := spells
    have each := (Bool.and_eq_true ..).mp plain
    intro c member
    rw [same] at member
    rcases List.mem_append.mp member with early | late
    · exact ihFirst each.1 spellsHead c early
    · exact ihSecond each.2 spellsTail c late
  | either first second ihFirst ihSecond =>
    have each := (Bool.and_eq_true ..).mp plain
    exact spells.elim (ihFirst each.1) (ihSecond each.2)
  | held label body ih => exact ih plain spells

theorem lettered_loose {p : Pattern} (plain : lettered p = true) : Loose p := by
  induction p with
  | nothing => exact .nothing
  | wordEdge => exact .wordEdge
  | one _ | many _ _ | notBefore _ | notAfter _ | textEnd => cases plain
  | letters cs =>
    refine .letters fun c member => ?_
    have word : isWord c = true := List.all_eq_true.mp plain c member
    apply Bool.eq_false_iff.mpr
    intro blank
    rw [(blank_plain blank).2.1] at word
    cases word
  | both first second ihFirst ihSecond =>
    have each := (Bool.and_eq_true ..).mp plain
    exact .both (ihFirst each.1) (ihSecond each.2)
  | either first second ihFirst ihSecond =>
    have each := (Bool.and_eq_true ..).mp plain
    exact .either (ihFirst each.1) (ihSecond each.2)
  | held label body ih => exact .held (ih plain)

theorem anyOf_reads {patterns : List Pattern} {place later : Place}
    (read : Reads (anyOf patterns) place later) : ∃ p ∈ patterns, Reads p place later := by
  induction patterns with
  | nil =>
    cases read with
    | one impossible => cases impossible
  | cons p more ih =>
    cases more with
    | nil => exact ⟨p, List.mem_cons_self, read⟩
    | cons q others =>
      cases read with
      | eitherFirst first => exact ⟨p, List.mem_cons_self, first⟩
      | eitherSecond second =>
        obtain ⟨r, listed, found⟩ := ih second
        exact ⟨r, List.mem_cons_of_mem p listed, found⟩

theorem asWord_reads {p : Pattern} {place later : Place} (read : Reads (asWord p) place later) :
    place.isWordEdge = true ∧ Reads p place later ∧ later.isWordEdge = true := by
  cases read with
  | both first last =>
    cases first with
    | both before inside =>
      cases before with
      | wordEdge before =>
        cases last with
        | wordEdge after => exact ⟨before, inside, after⟩

theorem edge_after {place : Place} (word : place.behind.any isWord = true) :
    place.isWordEdge = true ↔ place.ahead.head?.any isWord = false := by
  rw [Place.isWordEdge, word]
  cases place.ahead.head?.any isWord <;> simp

theorem edge_before {place : Place} (word : place.ahead.head?.any isWord = true) :
    place.isWordEdge = true ↔ place.behind.any isWord = false := by
  rw [Place.isWordEdge, word]
  cases place.behind.any isWord <;> simp

section
variable {p : Pattern} {place later : Place} (read : Reads p place later)
include read

theorem reads_advances (moving : advances p = true) :
    later.ahead.length < place.ahead.length := by
  obtain ⟨text, spells, same, _⟩ := reads_spells read
  have taken := List.length_pos_iff.mpr (spells_advances moving spells)
  rw [same, List.length_append]
  omega

/-- A word is read from a word character to a word character. -/
theorem reads_word (moving : advances p = true) (plain : lettered p = true) :
    place.ahead.head?.any isWord = true ∧ later.behind.any isWord = true := by
  obtain ⟨text, spells, same, passed⟩ := reads_spells read
  have some := spells_advances moving spells
  have letters := spells_lettered plain spells
  rw [same, passed, List.head?_append, List.head?_eq_some_head some,
    List.getLast?_eq_some_getLast some]
  exact ⟨letters _ (List.head_mem some), letters _ (List.getLast_mem some)⟩

end

section
variable {p : Pattern} (moving : advances p = true)
include moving

/-- Cutting goes past a place exactly if nothing is read there. -/
theorem cutFrom_cons (behind : Option Char) (c : Char) (rest : List Char) :
    p.cutFrom behind 0 (c :: rest) =
      match p.run ⟨behind, c :: rest, []⟩ some with
      | some place => .found place :: p.cutFrom (some c) (rest.length - place.ahead.length) rest
      | none => .kept c :: p.cutFrom (some c) 0 rest := by
  rw [cutFrom]
  cases found : p.run ⟨behind, c :: rest, []⟩ some with
  | none => rfl
  | some place =>
    obtain ⟨later, read, same⟩ := run_reads found
    cases same
    have shorter := reads_advances read moving
    dsimp only
    rw [if_pos (Nat.le_of_lt_succ shorter)]

theorem cutFrom_filterMap_eq_nil (behind : Option Char) (text : List Char) :
    (p.cutFrom behind 0 text).filterMap Piece.place? = [] ↔ p.searchFrom behind text = none := by
  induction text generalizing behind with
  | nil =>
    have nowhere : p.run ⟨behind, [], []⟩ some = none := by
      cases found : p.run ⟨behind, [], []⟩ some with
      | none => rfl
      | some place =>
        obtain ⟨later, read, _⟩ := run_reads found
        exact absurd (reads_advances read moving) (Nat.not_lt_zero _)
    rw [searchFrom, nowhere]
    exact ⟨fun _ => rfl, fun _ => rfl⟩
  | cons c rest ih =>
    rw [cutFrom_cons moving, searchFrom]
    cases p.run ⟨behind, c :: rest, []⟩ some with
    | some place =>
      constructor
      · intro impossible
        cases impossible
      · intro impossible
        cases impossible
    | none => exact ih (some c)

theorem findAll_eq_nil_iff {text : List Char} :
    p.findAll text = [] ↔ p.occursIn text = false := by
  unfold occursIn
  rw [Option.isSome_eq_false_iff, Option.isNone_iff_eq_none]
  exact cutFrom_filterMap_eq_nil moving none text

theorem cutFrom_blotted {behind : Option Char} {text : List Char}
    (nowhere : p.searchFrom behind text = none) :
    (p.cutFrom behind 0 text).map Piece.blotted = text := by
  induction text generalizing behind with
  | nil => rfl
  | cons c rest ih =>
    rw [searchFrom] at nowhere
    rw [cutFrom_cons moving]
    cases found : p.run ⟨behind, c :: rest, []⟩ some with
    | some place =>
      rw [found] at nowhere
      cases nowhere
    | none =>
      rw [found] at nowhere
      rw [List.map_cons, ih nowhere]
      rfl

theorem blot_eq_self {text : List Char} (absent : p.occursIn text = false) :
    p.blot text = text := by
  apply cutFrom_blotted moving
  exact Option.isNone_iff_eq_none.mp (Option.isSome_eq_false_iff.mp absent)

end

/-- A phrase that is read somewhere in a text occurs in it. -/
theorem occursIn_of_reads {p : Pattern} (loose : Loose p) {front rest : List Char} {later : Place}
    (read : Reads p ⟨front.getLast?, rest, []⟩ later) : p.occursIn (front ++ rest) = true := by
  apply searchFrom_later
  rw [Option.or_none]
  exact searchFrom_here (run_isSome_of_reads loose read rfl)

theorem head?_any_append {tail : List Char} (ends : tail.head?.any isWord = false)
    (text : List Char) : (text ++ tail).head?.any isWord = text.head?.any isWord := by
  cases text with
  | nil => exact ends
  | cons c rest => rfl

/-- What is read in a text is read in a part of it, if what follows the part begins no word. -/
theorem reads_part {p : Pattern} {place later : Place} (read : Reads p place later)
    {tail : List Char} (ends : tail.head?.any isWord = false) {text remaining : List Char}
    (here : place.ahead = text ++ tail) (there : later.ahead = remaining ++ tail)
    (parts : List (Nat × List Char)) :
    ∃ held, Reads p ⟨place.behind, text, parts⟩ ⟨later.behind, remaining, held⟩ := by
  induction read generalizing text remaining parts with
  | nothing =>
    rw [List.append_cancel_right (here.symm.trans there)]
    exact ⟨parts, .nothing⟩
  | @one accepts behind c rest _ accepted =>
    have same : text = c :: remaining := by
      apply List.append_cancel_right
      rw [← here, List.cons_append, ← there]
    rw [same]
    exact ⟨parts, .one accepted⟩
  | @letters cs rest place spelled =>
    have same : text = cs ++ remaining := by
      apply List.append_cancel_right
      rw [← here, spelled, List.append_assoc, ← there]
    rw [same]
    exact ⟨parts, .letters rfl⟩
  | both _ second ihHead ihTail =>
    obtain ⟨passed, _, same, _⟩ := reads_spells second
    rw [there, ← List.append_assoc] at same
    obtain ⟨held, head⟩ := ihHead here same parts
    obtain ⟨further, rest⟩ := ihTail same there held
    exact ⟨further, .both head rest⟩
  | eitherFirst _ ih =>
    obtain ⟨held, read⟩ := ih here there parts
    exact ⟨held, .eitherFirst read⟩
  | eitherSecond _ ih =>
    obtain ⟨held, read⟩ := ih here there parts
    exact ⟨held, .eitherSecond read⟩
  | manyDone =>
    rw [List.append_cancel_right (here.symm.trans there)]
    exact ⟨parts, .manyDone⟩
  | manyMore _ more ihHead ihTail =>
    obtain ⟨passed, _, same, _⟩ := reads_spells more
    rw [there, ← List.append_assoc] at same
    obtain ⟨held, head⟩ := ihHead here same parts
    obtain ⟨further, rest⟩ := ihTail same there held
    exact ⟨further, .manyMore head rest⟩
  | held _ ih =>
    obtain ⟨held, read⟩ := ih here there parts
    exact ⟨_, .held read⟩
  | wordEdge edge =>
    rw [← List.append_cancel_right (here.symm.trans there)]
    refine ⟨parts, .wordEdge ?_⟩
    rw [Place.isWordEdge, here, head?_any_append ends] at edge
    exact edge
  | @notBefore refuses place free =>
    rw [← List.append_cancel_right (here.symm.trans there)]
    refine ⟨parts, .notBefore ?_⟩
    rw [here] at free
    cases text with
    | nil => rfl
    | cons c rest => exact free
  | notAfter free =>
    rw [← List.append_cancel_right (here.symm.trans there)]
    exact ⟨parts, .notAfter free⟩
  | textEnd ended =>
    rw [← List.append_cancel_right (here.symm.trans there)]
    refine ⟨parts, .textEnd ?_⟩
    rw [here, List.isEmpty_iff, List.append_eq_nil_iff] at ended
    exact List.isEmpty_iff.mpr ended.1

end Curbside.Proofs.Cutting

import Curbside.Proofs.Preference

/-! Cutting a text at a seam. A character that a pattern neither takes nor tells from an end of the
text parts the text in two, and the matches in the whole are those in the first part followed by
those in the second. -/

namespace Curbside.Proofs.Seams
open Pattern Reading Spelling Cutting Preference

/-- What surrounds a text: the character before it, the text after it, and what is held already. -/
structure Surroundings where
  before : Option Char
  after : List Char
  held : List (Nat × List Char)

def Surroundings.around (surroundings : Surroundings) (place : Place) : Place :=
  ⟨place.behind.or surroundings.before, place.ahead ++ surroundings.after,
    place.parts ++ surroundings.held⟩

/-- Whether a pattern sees a character behind a place as it sees the start of a text. -/
def opensAfter (c : Char) : Pattern → Bool
  | .both first second | .either first second => opensAfter c first && opensAfter c second
  | .many body | .held _ body => opensAfter c body
  | .wordEdge => !Text.isWord c
  | .notAfter refuses => !refuses c
  | _ => true

/-- Whether a pattern sees a character ahead as it sees the end of a text. -/
def endsBefore (c : Char) : Pattern → Bool
  | .one accepts => !accepts c
  | .letters cs => !cs.contains c
  | .both first second | .either first second => endsBefore c first && endsBefore c second
  | .many body | .held _ body => endsBefore c body
  | .wordEdge => !Text.isWord c
  | .notBefore refuses => !refuses c
  | .textEnd => false
  | _ => true

/-- A pattern does not notice what surrounds a text. -/
structure Unnoticed (surroundings : Surroundings) (p : Pattern) : Prop where
  opens : ∀ c ∈ surroundings.before, opensAfter c p = true
  ends : ∀ c ∈ surroundings.after.head?, endsBefore c p = true

section
variable {surroundings : Surroundings}

theorem Unnoticed.first {first second : Pattern}
    (unnoticed : Unnoticed surroundings (.both first second)) : Unnoticed surroundings first :=
  ⟨fun c before => ((Bool.and_eq_true ..).mp (unnoticed.opens c before)).1,
    fun c after => ((Bool.and_eq_true ..).mp (unnoticed.ends c after)).1⟩

theorem Unnoticed.second {first second : Pattern}
    (unnoticed : Unnoticed surroundings (.both first second)) : Unnoticed surroundings second :=
  ⟨fun c before => ((Bool.and_eq_true ..).mp (unnoticed.opens c before)).2,
    fun c after => ((Bool.and_eq_true ..).mp (unnoticed.ends c after)).2⟩

theorem after?_around {cs text after : List Char}
    (apart : ∀ c ∈ after.head?, cs.contains c = false) :
    after? cs (text ++ after) = (after? cs text).map (· ++ after) := by
  induction cs generalizing text with
  | nil => rfl
  | cons d cs ih =>
    have others : ∀ c ∈ after.head?, cs.contains c = false := by
      intro c next
      have both := apart c next
      rw [List.contains_cons, Bool.or_eq_false_iff] at both
      exact both.2
    cases text with
    | nil =>
      cases after with
      | nil => rfl
      | cons c rest =>
        have differs := apart c rfl
        rw [List.contains_cons, Bool.or_eq_false_iff, beq_eq_false_iff_ne] at differs
        rw [List.nil_append, after?, after?, if_neg differs.1.symm]
        rfl
    | cons c text =>
      rw [List.cons_append, after?, after?]
      split
      · exact ih others
      · rfl

theorem textUntil_around (place later : Place) :
    (surroundings.around place).textUntil (surroundings.around later) =
      place.textUntil later := by
  simp only [Place.textUntil, Surroundings.around, List.length_append, Nat.add_sub_add_right]
  exact List.take_append_of_le_length (Nat.sub_le ..)

theorem head?_any_around {test : Char → Bool}
    (unseen : ∀ c ∈ surroundings.after.head?, test c = false) (place : Place) :
    (surroundings.around place).ahead.head?.any test = place.ahead.head?.any test := by
  rw [Surroundings.around]
  cases place.ahead with
  | nil =>
    rw [List.nil_append]
    cases first : surroundings.after.head? with
    | none => rfl
    | some c => exact unseen c first
  | cons c rest => rfl

theorem behind_any_around {test : Char → Bool}
    (unseen : ∀ c ∈ surroundings.before, test c = false) (place : Place) :
    (surroundings.around place).behind.any test = place.behind.any test := by
  rw [Surroundings.around]
  cases place.behind with
  | none =>
    rw [Option.none_or]
    cases before : surroundings.before with
    | none => rfl
    | some c => exact unseen c before
  | some c => rfl

theorem isWordEdge_around (unnoticed : Unnoticed surroundings .wordEdge) (place : Place) :
    (surroundings.around place).isWordEdge = place.isWordEdge := by
  have behind := behind_any_around (fun c before => (Bool.not_eq_true' _).mp
    (unnoticed.opens c before)) place
  have ahead := head?_any_around (fun c after => (Bool.not_eq_true' _).mp
    (unnoticed.ends c after)) place
  rw [Place.isWordEdge, behind, ahead, Place.isWordEdge]

theorem readings_one_around {accepts : Char → Bool}
    (unnoticed : Unnoticed surroundings (.one accepts)) (place : Place) :
    readings (.one accepts) (surroundings.around place) =
      (readings (.one accepts) place).map surroundings.around := by
  obtain ⟨behind, ahead, parts⟩ := place
  cases ahead with
  | nil =>
    simp only [readings_one_nil, Surroundings.around, List.nil_append]
    cases after : surroundings.after with
    | nil => rfl
    | cons c rest =>
      have refused := unnoticed.ends c (by rw [after]; rfl)
      rw [endsBefore, Bool.not_eq_true'] at refused
      simp [readings_one_cons, refused]
  | cons c rest =>
    simp only [readings_one_cons, Surroundings.around, List.cons_append]
    split
    · rfl
    · rfl

theorem readings_many_around {body : Pattern}
    (inside : ∀ place, readings body (surroundings.around place) =
      (readings body place).map surroundings.around) (place : Place) :
    readings (.many body) (surroundings.around place) =
      (readings (.many body) place).map surroundings.around := by
  induction remaining : place.ahead.length using Nat.strongRecOn generalizing place with
  | ind remaining further =>
    have shorter (later : Place) :
        decide ((surroundings.around later).ahead.length <
            (surroundings.around place).ahead.length) =
          decide (later.ahead.length < place.ahead.length) := by
      simp [Surroundings.around]
    rw [readings_many, readings_many body place, inside, List.filter_map, List.flatMap_map,
      List.map_append, List.map_flatMap, List.map_singleton, List.flatMap_def, List.flatMap_def]
    simp only [Function.comp_def, shorter]
    congr 2
    apply List.map_congr_left
    intro later listed
    have fewer := of_decide_eq_true (List.mem_filter.mp listed).2
    exact further later.ahead.length (remaining ▸ fewer) later rfl

/-- What is read in a text is read in the same order where the pattern does not notice what
surrounds the text. -/
theorem readings_around {p : Pattern} (unnoticed : Unnoticed surroundings p) (place : Place) :
    readings p (surroundings.around place) = (readings p place).map surroundings.around := by
  induction p generalizing place with
  | nothing => rfl
  | one accepts => exact readings_one_around unnoticed place
  | letters cs =>
    have apart : ∀ c ∈ surroundings.after.head?, cs.contains c = false :=
      fun c after => (Bool.not_eq_true' _).mp (unnoticed.ends c after)
    simp only [readings_letters, Surroundings.around, after?_around apart]
    cases after? cs place.ahead with
    | none => rfl
    | some rest => simp [Surroundings.around, Option.or_assoc]
  | both first second ihFirst ihSecond =>
    simp only [readings_both, ihFirst unnoticed.first, ihSecond unnoticed.second,
      List.flatMap_map, List.map_flatMap]
  | either first second ihFirst ihSecond =>
    -- The conditions on the two alternatives are those on two patterns in a row.
    have row : Unnoticed surroundings (.both first second) := ⟨unnoticed.opens, unnoticed.ends⟩
    simp only [readings_either, ihFirst row.first, ihSecond row.second, List.map_append]
  | many body ih =>
    have inside : Unnoticed surroundings body := ⟨unnoticed.opens, unnoticed.ends⟩
    exact readings_many_around (ih inside) place
  | held label body ih =>
    have inside : Unnoticed surroundings body := ⟨unnoticed.opens, unnoticed.ends⟩
    simp only [readings_held, ih inside, List.map_map, Function.comp_def, textUntil_around]
    rfl
  | wordEdge =>
    rw [readings_wordEdge, readings_wordEdge, isWordEdge_around unnoticed]
    split
    · rfl
    · rfl
  | notBefore refuses =>
    have ahead := head?_any_around (fun c after => (Bool.not_eq_true' _).mp
      (unnoticed.ends c after)) place
    rw [readings_notBefore, readings_notBefore, ahead]
    split
    · rfl
    · rfl
  | notAfter refuses =>
    have behind := behind_any_around (fun c before => (Bool.not_eq_true' _).mp
      (unnoticed.opens c before)) place
    rw [readings_notAfter, readings_notAfter, behind]
    split
    · rfl
    · rfl
  | textEnd =>
    have nothing : surroundings.after = [] := by
      cases after : surroundings.after with
      | nil => rfl
      | cons c rest =>
        have impossible := unnoticed.ends c (by rw [after]; rfl)
        cases impossible
    simp only [readings_textEnd, Surroundings.around, nothing, List.append_nil]
    split
    · simp [Surroundings.around, nothing]
    · rfl

end

theorem prefers_around {surroundings : Surroundings} {p : Pattern}
    (unnoticed : Unnoticed surroundings p) {place later : Place}
    (prefers : Prefers p place later) :
    Prefers p (surroundings.around place) (surroundings.around later) := by
  unfold Prefers at prefers ⊢
  rw [readings_around unnoticed, List.head?_map, prefers]
  rfl

theorem readings_apart {p : Pattern} (moving : advances p = true) {rest : List Char}
    (ends : ∀ c ∈ rest.head?, endsBefore c p = true) (behind : Option Char)
    (parts : List (Nat × List Char)) : readings p ⟨behind, rest, parts⟩ = [] := by
  have here := @readings_around ⟨none, rest, []⟩ p ⟨nofun, ends⟩ ⟨behind, [], parts⟩
  rw [readings_ended moving, Surroundings.around, Option.or_none, List.append_nil] at here
  exact here

theorem endsBefore_lettered {p : Pattern} (plain : lettered p = true) {c : Char}
    (apart : Text.isWord c = false) : endsBefore c p = true := by
  induction p with
  | nothing => rfl
  | wordEdge => rw [endsBefore, apart]; rfl
  | one _ | many _ _ | notBefore _ | notAfter _ | textEnd => cases plain
  | letters cs =>
    have missing : cs.contains c = false := by
      apply Bool.eq_false_iff.mpr
      intro member
      have word : Text.isWord c = true :=
        List.all_eq_true.mp plain c (List.contains_iff_mem.mp member)
      rw [apart] at word
      cases word
    rw [endsBefore, missing]
    rfl
  | both first second ihFirst ihSecond =>
    have each := (Bool.and_eq_true ..).mp plain
    exact (Bool.and_eq_true ..).mpr ⟨ihFirst each.1, ihSecond each.2⟩
  | either first second ihFirst ihSecond =>
    have each := (Bool.and_eq_true ..).mp plain
    exact (Bool.and_eq_true ..).mpr ⟨ihFirst each.1, ihSecond each.2⟩
  | held label body ih => exact ih plain

/-- Whether a pattern only asks for something of its neighbours. -/
def isEdge : Pattern → Bool
  | .wordEdge | .notBefore _ | .notAfter _ => true
  | _ => false

theorem readings_edge {p : Pattern} (edge : isEdge p = true) (place : Place) :
    readings p place = [] ∨ readings p place = [place] := by
  cases p with
  | wordEdge =>
    rw [readings_wordEdge]
    split
    · exact Or.inr rfl
    · exact Or.inl rfl
  | notBefore _ =>
    rw [readings_notBefore]
    split
    · exact Or.inl rfl
    · exact Or.inr rfl
  | notAfter _ =>
    rw [readings_notAfter]
    split
    · exact Or.inl rfl
    · exact Or.inr rfl
  | _ => cases edge

theorem readings_behind_edge {first second : Pattern} (edge : isEdge first = true) {place : Place}
    (silent : readings second place = []) : readings (first ++ second) place = [] := by
  change readings (.both first second) place = []
  rw [readings_both]
  rcases readings_edge edge place with none | same
  · rw [none, List.flatMap_nil]
  · rw [same, List.flatMap_singleton, silent]

theorem asWord_silent {p : Pattern} {place : Place} (silent : readings p place = []) :
    readings (asWord p) place = [] :=
  readings_both_silent (readings_behind_edge rfl silent) _

/-- Whether nothing that a pattern takes begins with a character. -/
def barred (c : Char) : Pattern → Bool
  | .one accepts => !accepts c
  | .letters (d :: _) => d != c
  | .both first second => barred c first || isEdge first && barred c second
  | .either first second => barred c first && barred c second
  | .held _ body => barred c body
  | _ => false

theorem readings_barred {p : Pattern} {c : Char} (bars : barred c p = true)
    (behind : Option Char) (rest : List Char) (parts : List (Nat × List Char)) :
    readings p ⟨behind, c :: rest, parts⟩ = [] := by
  induction p with
  | nothing | many _ _ | wordEdge | notBefore _ | notAfter _ | textEnd => cases bars
  | one accepts =>
    have refused : accepts c = false := (Bool.not_eq_true' _).mp bars
    simp [readings_one_cons, refused]
  | letters cs =>
    cases cs with
    | nil => cases bars
    | cons d cs => exact readings_letters_silent (bne_iff_ne.mp bars) ..
  | both first second ihFirst ihSecond =>
    rcases (Bool.or_eq_true ..).mp bars with early | late
    · exact readings_both_silent (ihFirst early) second
    · obtain ⟨edge, bars⟩ := (Bool.and_eq_true ..).mp late
      exact readings_behind_edge edge (ihSecond bars)
  | either first second ihFirst ihSecond =>
    obtain ⟨here, there⟩ := (Bool.and_eq_true ..).mp bars
    rw [readings_either, ihFirst here, ihSecond there]
    rfl
  | held label body ih =>
    rw [readings_held, ih bars]
    rfl

/-- Whether all that a pattern spells has a character in it. -/
def requires (c : Char) : Pattern → Bool
  | .letters cs => cs.contains c
  | .both first second => requires c first || requires c second
  | .either first second => requires c first && requires c second
  | .held _ body => requires c body
  | _ => false

theorem spells_requires {c : Char} {p : Pattern} (needs : requires c p = true) {text : List Char}
    (spells : Spells p text) : c ∈ text := by
  induction p generalizing text with
  | nothing | one _ | many _ _ | wordEdge | notBefore _ | notAfter _ | textEnd => cases needs
  | letters cs =>
    rw [show text = cs from spells]
    exact List.contains_iff_mem.mp needs
  | both first second ihFirst ihSecond =>
    obtain ⟨head, tail, same, spellsHead, spellsTail⟩ := spells
    rw [same]
    rcases (Bool.or_eq_true ..).mp needs with early | late
    · exact List.mem_append_left _ (ihFirst early spellsHead)
    · exact List.mem_append_right _ (ihSecond late spellsTail)
  | either first second ihFirst ihSecond =>
    have each := (Bool.and_eq_true ..).mp needs
    exact spells.elim (ihFirst each.1) (ihSecond each.2)
  | held label body ih => exact ih needs spells

theorem searchFrom_silent {p : Pattern} {behind : Option Char} {c : Char} {rest : List Char}
    (silent : readings p ⟨behind, c :: rest, []⟩ = []) :
    p.searchFrom behind (c :: rest) = p.searchFrom (some c) rest := by
  rw [searchFrom, run_some, silent]
  rfl

section
variable {c : Char} {p : Pattern} (needs : requires c p = true)
include needs

theorem readings_without {place : Place} (absent : c ∉ place.ahead) : readings p place = [] := by
  rw [List.eq_nil_iff_forall_not_mem]
  intro later listed
  obtain ⟨text, spells, same, _⟩ := reads_spells (reads_of_mem_readings listed)
  exact absent (same ▸ List.mem_append_left _ (spells_requires needs spells))

theorem readings_lacking {text rest : List Char} (absent : c ∉ text)
    (ends : ∀ d ∈ rest.head?, endsBefore d p = true) (behind : Option Char)
    (parts : List (Nat × List Char)) : readings p ⟨behind, text ++ rest, parts⟩ = [] := by
  have alone : readings p ⟨behind, text, parts⟩ = [] := readings_without needs absent
  have here := @readings_around ⟨none, rest, []⟩ p ⟨nofun, ends⟩ ⟨behind, text, parts⟩
  rw [alone, Surroundings.around, Option.or_none, List.append_nil] at here
  exact here

theorem searchFrom_without {text : List Char} (absent : c ∉ text) (behind : Option Char) :
    p.searchFrom behind text = none := by
  induction text generalizing behind with
  | nil => rw [searchFrom, run_some, readings_without needs absent, List.head?_nil]
  | cons d rest ih =>
    rw [searchFrom_silent (readings_without needs absent)]
    exact ih (fun member => absent (List.mem_cons_of_mem d member)) (some d)

theorem occursIn_without {text : List Char} (absent : c ∉ text) : p.occursIn text = false := by
  rw [occursIn, search?, searchFrom_without needs absent]
  rfl

end

/-- A character that no match of a pattern goes over, and that a pattern sees from either side as it
sees an end of the text. -/
structure Seam (c : Char) (p : Pattern) : Prop where
  moving : advances p = true
  opens : opensAfter c p = true
  ends : endsBefore c p = true

/-- A piece of a text as it is when the text is surrounded. -/
def pieceAround (surroundings : Surroundings) : Piece → Piece
  | .kept c => .kept c
  | .found place => .found (surroundings.around place)

section
variable {p : Pattern} (moving : advances p = true)
include moving

theorem cutFrom_kept {behind : Option Char} {c : Char} {rest : List Char}
    (silent : readings p ⟨behind, c :: rest, []⟩ = []) :
    p.cutFrom behind 0 (c :: rest) = .kept c :: p.cutFrom (some c) 0 rest := by
  rw [cutFrom_cons moving, run_some, silent]
  rfl

theorem cutFrom_found {behind : Option Char} {c : Char} {rest : List Char} {place : Place}
    (preferred : (readings p ⟨behind, c :: rest, []⟩).head? = some place) :
    p.cutFrom behind 0 (c :: rest) =
      .found place :: p.cutFrom (some c) (rest.length - place.ahead.length) rest := by
  rw [cutFrom_cons moving, run_some, preferred]

theorem cutFrom_matched {behind last : Option Char} {text rest : List Char}
    {parts : List (Nat × List Char)}
    (preferred : Prefers p ⟨behind, text ++ rest, []⟩ ⟨last, rest, parts⟩) :
    p.cutFrom behind 0 (text ++ rest) =
      .found ⟨last, rest, parts⟩ :: p.cutFrom (text.getLast?.or behind) 0 rest := by
  have covered (text : List Char) (behind : Option Char) :
      p.cutFrom behind text.length (text ++ rest) =
        p.cutFrom (text.getLast?.or behind) 0 rest := by
    induction text generalizing behind with
    | nil => rfl
    | cons c more ih =>
      rw [getLast?_cons_or]
      exact ih (some c)
  cases text with
  | nil =>
    have read := reads_of_mem_readings (List.mem_of_head? preferred)
    exact absurd (reads_advances read moving) (Nat.lt_irrefl _)
  | cons c more =>
    have length : (more ++ rest).length - rest.length = more.length := by
      rw [List.length_append, Nat.add_sub_cancel]
    rw [List.cons_append] at preferred ⊢
    rw [cutFrom_found moving preferred, length, covered, getLast?_cons_or]

theorem cutFrom_silent {front rest : List Char}
    (silent : ∀ passed c more, front = passed ++ c :: more →
      ∀ behind, readings p ⟨behind, c :: (more ++ rest), []⟩ = []) (behind : Option Char) :
    p.cutFrom behind 0 (front ++ rest) =
      front.map .kept ++ p.cutFrom (front.getLast?.or behind) 0 rest := by
  induction front generalizing behind with
  | nil => rfl
  | cons c more ih =>
    have onward := ih (fun passed d later same => silent (c :: passed) d later (by rw [same]; rfl))
    rw [List.cons_append, cutFrom_kept moving (silent [] c more rfl behind), onward,
      getLast?_cons_or]
    rfl

theorem cutFrom_around {before : Option Char} {after : List Char}
    (unnoticed : Unnoticed ⟨before, after, []⟩ p) {text : List Char} {covered : Nat}
    (inside : covered ≤ text.length) (behind : Option Char) :
    p.cutFrom (behind.or before) covered (text ++ after) =
      (p.cutFrom behind covered text).map (pieceAround ⟨before, after, []⟩) ++
        p.cutFrom ((text.getLast?.or behind).or before) 0 after := by
  induction text generalizing behind covered with
  | nil =>
    rw [Nat.le_zero.mp inside]
    rfl
  | cons c rest ih =>
    have onward {covered : Nat} (inside : covered ≤ rest.length) :
        p.cutFrom (some c) covered (rest ++ after) =
          (p.cutFrom (some c) covered rest).map (pieceAround ⟨before, after, []⟩) ++
            p.cutFrom (((c :: rest).getLast?.or behind).or before) 0 after := by
      rw [getLast?_cons_or]
      exact ih inside (some c)
    cases covered with
    | succ remaining => exact onward (Nat.le_of_succ_le_succ inside)
    | zero =>
      have here := readings_around unnoticed ⟨behind, c :: rest, []⟩
      rw [List.cons_append, cutFrom_cons moving, cutFrom_cons moving, run_some, run_some]
      rw [Surroundings.around, List.append_nil, List.cons_append] at here
      rw [here, List.head?_map]
      cases (readings p ⟨behind, c :: rest, []⟩).head? with
      | none => rw [Option.map_none, onward (Nat.zero_le _)]; rfl
      | some place =>
        have same : (rest ++ after).length - (place.ahead ++ after).length =
            rest.length - place.ahead.length := by
          rw [List.length_append, List.length_append, Nat.add_sub_add_right]
        dsimp only [Option.map_some, Surroundings.around]
        rw [same, onward (Nat.sub_le ..)]
        rfl

theorem cutFrom_behind {before : Option Char} (opens : ∀ c ∈ before, opensAfter c p = true)
    (text : List Char) :
    p.cutFrom before 0 text = (p.cut text).map (pieceAround ⟨before, [], []⟩) := by
  have unnoticed : Unnoticed ⟨before, [], []⟩ p := ⟨opens, nofun⟩
  have alone := cutFrom_around moving unnoticed (Nat.zero_le text.length) none
  rwa [List.append_nil, Option.none_or, show p.cutFrom _ 0 [] = [] from rfl,
    List.append_nil] at alone

end

theorem blotted_around (surroundings : Surroundings) :
    Piece.blotted ∘ pieceAround surroundings = Piece.blotted := by
  funext piece
  cases piece <;> rfl

theorem parts_around (before : Option Char) (after : List Char) (pieces : List Piece) :
    ((pieces.map (pieceAround ⟨before, after, []⟩)).filterMap Piece.place?).map Place.parts =
      (pieces.filterMap Piece.place?).map Place.parts := by
  induction pieces with
  | nil => rfl
  | cons piece more ih =>
    cases piece with
    | kept d => exact ih
    | found place =>
      simp only [List.map_cons, pieceAround, List.filterMap_cons, Piece.place?, ih,
        Surroundings.around, List.append_nil]

theorem kept_mem {p : Pattern} {behind : Option Char} {covered : Nat} {text : List Char} {c : Char}
    (listed : Piece.kept c ∈ p.cutFrom behind covered text) : c ∈ text := by
  induction text generalizing behind covered with
  | nil => cases listed
  | cons d rest ih =>
    have onward {more : Nat} (kept : Piece.kept c ∈ .kept d :: p.cutFrom (some d) more rest) :
        c ∈ d :: rest := by
      rcases List.mem_cons.mp kept with same | later
      · exact List.mem_cons.mpr (Or.inl (Piece.kept.inj same))
      · exact List.mem_cons_of_mem d (ih later)
    cases covered with
    | succ remaining => exact List.mem_cons_of_mem d (ih listed)
    | zero =>
      rw [cutFrom] at listed
      split at listed
      next =>
        split at listed
        next =>
          rcases List.mem_cons.mp listed with impossible | later
          · cases impossible
          · exact List.mem_cons_of_mem d (ih later)
        next => exact onward listed
      next => exact onward listed

theorem mem_blot {p : Pattern} {text : List Char} {c : Char} (member : c ∈ p.blot text) :
    c = ' ' ∨ c ∈ text := by
  obtain ⟨piece, listed, same⟩ := List.mem_map.mp member
  cases piece with
  | kept d => exact Or.inr (same ▸ kept_mem listed)
  | found place => exact Or.inl same.symm

theorem cut_one {p : Pattern} {text front tail : List Char} {place : Place}
    (cut : p.cut text = front.map .kept ++ .found place :: tail.map .kept) :
    p.findAll text = [place] ∧ p.blot text = front ++ ' ' :: tail := by
  have none (kept : List Char) : (kept.map Piece.kept).filterMap Piece.place? = [] := by
    simp [Piece.place?]
  have same (kept : List Char) : (kept.map Piece.kept).map Piece.blotted = kept := by
    rw [List.map_map]
    exact List.map_id' kept
  constructor
  · rw [findAll, cut, List.filterMap_append, none, List.filterMap_cons, none]
    rfl
  · rw [blot, cut, List.map_append, same, List.map_cons, same]
    rfl

theorem occursIn_iff_parts {p : Pattern} (moving : advances p = true) {text : List Char} :
    p.occursIn text = true ↔ (p.findAll text).map Place.parts ≠ [] := by
  rw [← Bool.not_eq_false, Ne, List.map_eq_nil_iff, findAll_eq_nil_iff moving]

section
variable {c : Char} {p : Pattern} (seam : Seam c p)
include seam

/-- The parts of a text on both sides of a seam are cut on their own. -/
theorem cut_seam (one two : List Char) :
    p.cut (one ++ c :: two) =
      (p.cut one).map (pieceAround ⟨none, c :: two, []⟩) ++
        .kept c :: (p.cut two).map (pieceAround ⟨some c, [], []⟩) := by
  have front : Unnoticed ⟨none, c :: two, []⟩ p := by
    refine ⟨nofun, fun d first => ?_⟩
    cases first
    exact seam.ends
  have opens : ∀ d ∈ some c, opensAfter d p = true := by
    intro d before
    cases before
    exact seam.opens
  have silent (behind : Option Char) := readings_apart seam.moving front.ends behind []
  have first := cutFrom_around seam.moving front (Nat.zero_le one.length) none
  rw [Option.or_none, Option.or_none, cutFrom_kept seam.moving (silent _),
    cutFrom_behind seam.moving opens] at first
  exact first

theorem blot_seam (one two : List Char) :
    p.blot (one ++ c :: two) = p.blot one ++ c :: p.blot two := by
  rw [blot, cut_seam seam, List.map_append, List.map_cons, List.map_map, List.map_map,
    blotted_around, blotted_around]
  rfl

/-- What the matches hold on both sides of a seam is what they hold in the whole. -/
theorem findAll_seam (one two : List Char) :
    (p.findAll (one ++ c :: two)).map Place.parts =
      (p.findAll one).map Place.parts ++ (p.findAll two).map Place.parts := by
  rw [findAll, cut_seam seam, List.filterMap_append, List.map_append, List.filterMap_cons,
    parts_around]
  simp only [Piece.place?, parts_around]
  rfl

theorem occursIn_seam (one two : List Char) :
    p.occursIn (one ++ c :: two) = (p.occursIn one || p.occursIn two) := by
  rw [Bool.eq_iff_iff, Bool.or_eq_true, occursIn_iff_parts seam.moving,
    occursIn_iff_parts seam.moving, occursIn_iff_parts seam.moving, findAll_seam seam, Ne,
    List.append_eq_nil_iff, Decidable.not_and_iff_not_or_not]

end

/-- A text in front of another one. No match of a pattern begins in it, and behind it a pattern is
read as at the start of a text. -/
structure Lead (front : List Char) (p : Pattern) : Prop where
  moving : advances p = true
  bars : ∀ c ∈ front, barred c p = true
  opens : ∀ c ∈ front.getLast?, opensAfter c p = true

section
variable {front : List Char} {p : Pattern} (lead : Lead front p)
include lead

theorem cut_lead (text : List Char) :
    p.cut (front ++ text) =
      front.map .kept ++ (p.cut text).map (pieceAround ⟨front.getLast?, [], []⟩) := by
  have silent : ∀ passed c more, front = passed ++ c :: more →
      ∀ behind, readings p ⟨behind, c :: (more ++ text), []⟩ = [] := by
    intro passed c more same behind
    exact readings_barred (lead.bars c (by simp [same])) behind _ []
  rw [cut, cutFrom_silent lead.moving silent, Option.or_none,
    cutFrom_behind lead.moving lead.opens]

theorem blot_lead (text : List Char) : p.blot (front ++ text) = front ++ p.blot text := by
  rw [blot, cut_lead lead, List.map_append, List.map_map, List.map_map, blotted_around]
  congr 1
  exact List.map_id' front

theorem findAll_lead (text : List Char) :
    (p.findAll (front ++ text)).map Place.parts = (p.findAll text).map Place.parts := by
  have kept : (front.map Piece.kept).filterMap Piece.place? = [] := by
    simp [Piece.place?]
  rw [findAll, cut_lead lead, List.filterMap_append, kept, List.nil_append, parts_around]
  rfl

theorem occursIn_lead (text : List Char) : p.occursIn (front ++ text) = p.occursIn text := by
  rw [Bool.eq_iff_iff, occursIn_iff_parts lead.moving, occursIn_iff_parts lead.moving,
    findAll_lead lead]

end

end Curbside.Proofs.Seams

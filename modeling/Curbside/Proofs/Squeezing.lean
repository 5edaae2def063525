import Curbside.Proofs.Seams

/-! Searches that do not see how wide a gap is. In a squeezed text each run of blanks is one line
feed and none stands at the end. A phrase that asks for blanks takes all there are, for what comes
after it in the phrase begins with something that can be seen, so that it is found in a text where
it is found in the squeezed text and holds the same parts. -/

namespace Curbside.Proofs.Squeezing
open Text Sign Pattern Layout Phrases Reading Spelling Cutting Preference Seams

theorem lineFeed_blank : isBlank '\n' = true := by decide

/-- A text in which each run of blanks is one line feed, without blanks at its end. -/
def squeeze : List Char → List Char
  | [] => []
  | c :: rest =>
    if !isBlank c then c :: squeeze rest
    else if (squeeze rest).head?.all isBlank then squeeze rest
    else '\n' :: squeeze rest

theorem squeeze_visible {c : Char} (visible : isBlank c = false) (rest : List Char) :
    squeeze (c :: rest) = c :: squeeze rest := by
  rw [squeeze, visible]
  rfl

theorem squeeze_blank {c : Char} (blank : isBlank c = true) (rest : List Char) :
    squeeze (c :: rest) =
      if (squeeze rest).head?.all isBlank then squeeze rest else '\n' :: squeeze rest := by
  rw [squeeze, blank]
  rfl

/-- What begins with a blank is squeezed to nothing, or to what begins with a line feed. -/
theorem squeeze_gap {c : Char} (blank : isBlank c = true) (rest : List Char) :
    squeeze (c :: rest) = [] ∨ ∃ more, squeeze (c :: rest) = '\n' :: more := by
  rw [squeeze_blank blank]
  induction rest generalizing c with
  | nil => exact Or.inl rfl
  | cons d below ih =>
    split
    next stays =>
      cases seen : isBlank d with
      | true =>
        rw [squeeze_blank seen]
        exact ih seen
      | false =>
        rw [squeeze_visible seen, List.head?_cons, Option.all_some, seen] at stays
        cases stays
    · exact Or.inr ⟨_, rfl⟩

theorem squeeze_append {text : List Char} (visible : ∀ c ∈ text, isBlank c = false)
    (rest : List Char) : squeeze (text ++ rest) = text ++ squeeze rest := by
  induction text with
  | nil => rfl
  | cons c more ih =>
    rw [List.cons_append, squeeze_visible (visible c List.mem_cons_self),
      ih fun d member => visible d (List.mem_cons_of_mem c member), List.cons_append]

/-- A place in the squeezed text. A blank behind it is as good as the start of the text. -/
def squeezed (place : Place) : Place :=
  ⟨place.behind.filter (!isBlank ·), squeeze place.ahead, place.parts⟩

theorem kept_behind {c : Char} (visible : isBlank c = false) :
    (some c).filter (!isBlank ·) = some c := by
  rw [Option.filter_some, visible]
  rfl

theorem dropped_behind {c : Char} (blank : isBlank c = true) :
    (some c).filter (!isBlank ·) = none := by
  rw [Option.filter_some, blank]
  rfl

/-- A function of places that does not see how wide the gaps are. -/
def Blind (next : Place → Option α) : Prop := ∀ place, next (squeezed place) = next place

theorem Blind.behind {next : Place → Option α} (blind : Blind next) {c : Char}
    (blank : isBlank c = true) (ahead : List Char) (parts : List (Nat × List Char)) :
    next ⟨some c, ahead, parts⟩ = next ⟨none, ahead, parts⟩ := by
  have same : squeezed ⟨some c, ahead, parts⟩ = squeezed ⟨none, ahead, parts⟩ := by
    rw [squeezed, squeezed, dropped_behind blank]
    rfl
  rw [← blind, same, blind]

/-- A function that goes through a text: blanks are passed over, and at any other character it
depends on what is found there and on what the function finds behind that character. -/
structure Passes (choose : Char → Option α → Option α → Option α) (next f : Place → Option α) :
    Prop where
  ended : ∀ behind parts, f ⟨behind, [], parts⟩ = none
  blank : ∀ {c}, isBlank c = true → ∀ behind rest parts,
    f ⟨behind, c :: rest, parts⟩ = f ⟨some c, rest, parts⟩
  visible : ∀ {c}, isBlank c = false → ∀ behind rest parts,
    f ⟨behind, c :: rest, parts⟩ =
      choose c (next ⟨behind, c :: rest, parts⟩) (f ⟨some c, rest, parts⟩)

theorem Passes.blind {choose : Char → Option α → Option α → Option α} {next f : Place → Option α}
    (passes : Passes choose next f) (blind : Blind next) : Blind f := by
  intro ⟨behind, ahead, parts⟩
  induction ahead generalizing behind with
  | nil => exact (passes.ended _ parts).trans (passes.ended behind parts).symm
  | cons c rest ih =>
    have onward := ih (some c)
    cases seen : isBlank c with
    | false =>
      have here := blind ⟨behind, c :: rest, parts⟩
      simp only [squeezed, squeeze_visible seen, kept_behind seen] at here onward ⊢
      rw [passes.visible seen, passes.visible seen, here, onward]
    | true =>
      -- The blank joins the gap below it, or it is a gap of its own.
      simp only [squeezed, squeeze_blank seen, dropped_behind seen] at onward ⊢
      rw [passes.blank seen, ← onward]
      generalize squeeze rest = below
      split
      next gap =>
        cases below with
        | nil => exact (passes.ended _ parts).trans (passes.ended none parts).symm
        | cons d more =>
          rw [List.head?_cons, Option.all_some] at gap
          rw [passes.blank gap, passes.blank gap]
      next shown =>
        cases below with
        | nil => exact absurd rfl shown
        | cons d more =>
          rw [List.head?_cons, Option.all_some, Bool.not_eq_true] at shown
          rw [passes.blank lineFeed_blank, passes.visible shown, passes.visible shown,
            blind.behind lineFeed_blank]

/-- What can follow a run of characters: nothing at the end of the text, and at a character of the
run not more than behind it. -/
structure Patient (accepts : Char → Bool) (next : Place → Option α) : Prop where
  ended : ∀ behind parts, next ⟨behind, [], parts⟩ = none
  onward : ∀ {c}, accepts c = true → ∀ {behind rest parts},
    (next ⟨behind, c :: rest, parts⟩).isSome = true → (next ⟨some c, rest, parts⟩).isSome = true

section
variable {accepts : Char → Bool} {next : Place → Option α}

theorem run_many_refused {place : Place} (silent : readings (.one accepts) place = []) :
    (Pattern.many (.one accepts)).run place next = next place := by
  rw [run_eq_findSome?, readings_many_done silent, List.findSome?_singleton]

/-- A run is taken whole. -/
theorem run_many_taken (patient : Patient accepts next) {c : Char} (fits : accepts c = true)
    (behind : Option Char) (rest : List Char) (parts : List (Nat × List Char)) :
    (Pattern.many (.one accepts)).run ⟨behind, c :: rest, parts⟩ next =
      (Pattern.many (.one accepts)).run ⟨some c, rest, parts⟩ next := by
  have one : readings (.one accepts) ⟨behind, c :: rest, parts⟩ = [⟨some c, rest, parts⟩] := by
    rw [readings_one_cons, if_pos fits]
  rw [run_eq_findSome?, readings_many_step one (Nat.lt_succ_self _), List.findSome?_append,
    List.findSome?_singleton, ← run_eq_findSome?]
  cases further : (Pattern.many (.one accepts)).run ⟨some c, rest, parts⟩ next with
  | some answer => rfl
  | none =>
    rw [Option.none_or]
    have last : next ⟨some c, rest, parts⟩ = none := by
      rw [run_eq_findSome?, readings_many, List.findSome?_append, List.findSome?_singleton,
        Option.or_eq_none_iff] at further
      exact further.2
    cases here : next ⟨behind, c :: rest, parts⟩ with
    | none => rfl
    | some answer =>
      have found := patient.onward fits (Option.isSome_iff_exists.mpr ⟨answer, here⟩)
      rw [last] at found
      cases found

theorem many_ended (patient : Patient accepts next) (behind : Option Char)
    (parts : List (Nat × List Char)) :
    (Pattern.many (.one accepts)).run ⟨behind, [], parts⟩ next = none := by
  rw [run_many_refused (readings_one_nil ..), patient.ended]

theorem many_patient (patient : Patient accepts next) :
    Patient accepts fun place => (Pattern.many (.one accepts)).run place next where
  ended := many_ended patient
  onward fits _ _ _ found := by rwa [run_many_taken patient fits] at found

theorem many_blind (blanks : ∀ c, isBlank c = true → accepts c = true) (blind : Blind next)
    (patient : Patient accepts next) :
    Blind fun place => (Pattern.many (.one accepts)).run place next := by
  have passes : Passes (fun c here onward => if accepts c then onward else here) next
      fun place => (Pattern.many (.one accepts)).run place next := by
    constructor
    · exact many_ended patient
    · intro c blank behind rest parts
      exact run_many_taken patient (blanks c blank) behind rest parts
    · intro c _ behind rest parts
      split
      next fits => exact run_many_taken patient fits behind rest parts
      next refused =>
        apply run_many_refused
        rw [readings_one_cons, if_neg refused]
  exact passes.blind blind

/-- A gap is any run of blanks, if there is a blank. -/
theorem gap_eq (patient : Patient isBlank next) (place : Place) :
    gap.run place next =
      if place.ahead.head?.any isBlank then blanks.run place next else none := by
  change ((Pattern.one isBlank).run place fun later => blanks.run later next) = _
  obtain ⟨behind, ahead, parts⟩ := place
  cases ahead with
  | nil => rfl
  | cons c rest =>
    cases seen : isBlank c with
    | false => simp [run, seen]
    | true =>
      rw [run_one seen, List.head?_cons, Option.any_some, if_pos seen, blanks,
        run_many_taken patient seen]

theorem gap_blind (blind : Blind next) (patient : Patient isBlank next) :
    Blind fun place => gap.run place next := by
  have onward : Blind fun place => blanks.run place next :=
    many_blind (fun _ blank => blank) blind patient
  intro ⟨behind, ahead, parts⟩
  have same := onward ⟨behind, ahead, parts⟩
  dsimp only at same ⊢
  rw [gap_eq patient, gap_eq patient, same]
  cases ahead with
  | nil => rfl
  | cons c rest =>
    cases seen : isBlank c with
    | false => simp [squeezed, squeeze_visible seen, seen]
    | true =>
      rcases squeeze_gap seen rest with ended | ⟨more, feed⟩
      · -- Nothing can follow blanks at the end of the text.
        have none := many_ended patient (behind.filter (!isBlank ·)) parts
        rw [squeezed, ended] at same
        rw [← same, blanks, none]
        split <;> split <;> rfl
      · simp [squeezed, feed, seen, lineFeed_blank]

theorem silent_at_blank {p : Pattern} (blind : Blind fun place => p.run place next)
    (moving : advances p = true) (bars : barred '\n' p = true) {c : Char}
    (blank : isBlank c = true) (behind : Option Char) (rest : List Char)
    (parts : List (Nat × List Char)) : p.run ⟨behind, c :: rest, parts⟩ next = none := by
  have here := blind ⟨behind, c :: rest, parts⟩
  dsimp only [squeezed] at here
  rw [← here, run_eq_findSome?]
  rcases squeeze_gap blank rest with ended | ⟨more, feed⟩
  · rw [ended, readings_ended moving, List.findSome?_nil]
  · rw [feed, readings_barred bars, List.findSome?_nil]

/-- A phrase that begins with none of the characters of a run can follow it. -/
theorem patient_of_barred {p : Pattern} (blind : Blind fun place => p.run place next)
    (moving : advances p = true) (bars : barred '\n' p = true)
    (others : ∀ c, accepts c = true → isBlank c = true ∨ barred c p = true) :
    Patient accepts fun place => p.run place next where
  ended behind parts := by
    rw [run_eq_findSome?, readings_ended moving, List.findSome?_nil]
  onward fits behind rest parts found := by
    rcases others _ fits with blank | barred
    · rw [silent_at_blank blind moving bars blank] at found
      cases found
    · rw [run_eq_findSome?, readings_barred barred] at found
      cases found

end

/-- Whether a pattern repeats anything. -/
def repeats : Pattern → Bool
  | .both first second | .either first second => repeats first || repeats second
  | .many _ => true
  | .held _ body => repeats body
  | _ => false

/-- A loose pattern that repeats nothing takes no blank. -/
theorem loose_takes {p : Pattern} (loose : Loose p) (single : repeats p = false) :
    Takes (isBlank · = false) p := by
  induction loose with
  | nothing | wordEdge => trivial
  | one visible =>
    intro c accepted
    cases seen : isBlank c with
    | false => rfl
    | true =>
      rw [visible c seen] at accepted
      cases accepted
  | letters visible => exact visible
  | both _ _ ihHead ihTail =>
    have each := (Bool.or_eq_false_iff).mp single
    exact ⟨ihHead each.1, ihTail each.2⟩
  | either _ _ ihHere ihThere =>
    have each := (Bool.or_eq_false_iff).mp single
    exact ⟨ihHere each.1, ihThere each.2⟩
  | anyBlanks _ | someBlanks => cases single
  | held _ ih => exact ih single

theorem head?_squeeze_word (text : List Char) :
    (squeeze text).head?.any isWord = text.head?.any isWord := by
  cases text with
  | nil => rfl
  | cons c rest =>
    cases seen : isBlank c with
    | false => rw [squeeze_visible seen, List.head?_cons, List.head?_cons]
    | true =>
      rw [List.head?_cons, Option.any_some, (blank_plain seen).2.1]
      rcases squeeze_gap seen rest with ended | ⟨more, feed⟩
      · rw [ended]
        rfl
      · rw [feed, List.head?_cons, Option.any_some, lineFeed_noWord]

theorem isWordEdge_squeezed (place : Place) : (squeezed place).isWordEdge = place.isWordEdge := by
  have behind : (place.behind.filter (!isBlank ·)).any isWord = place.behind.any isWord := by
    cases place.behind with
    | none => rfl
    | some c =>
      cases seen : isBlank c with
      | false => simp [seen]
      | true => simp [seen, (blank_plain seen).2.1]
  rw [Place.isWordEdge, squeezed, behind, head?_squeeze_word, Place.isWordEdge]

theorem after?_squeeze {cs : List Char} (visible : ∀ c ∈ cs, isBlank c = false)
    (text : List Char) : after? cs (squeeze text) = (after? cs text).map squeeze := by
  induction cs generalizing text with
  | nil => rfl
  | cons c more ih =>
    have shown := visible c List.mem_cons_self
    cases text with
    | nil => rfl
    | cons d rest =>
      cases seen : isBlank d with
      | false =>
        rw [squeeze_visible seen, after?, after?, ih fun e member =>
          visible e (List.mem_cons_of_mem c member)]
        split <;> rfl
      | true =>
        have apart {e : Char} (blank : isBlank e = true) : c ≠ e := by
          intro same
          rw [same, blank] at shown
          cases shown
        rw [after?, if_neg (apart seen)]
        rcases squeeze_gap seen rest with ended | ⟨below, feed⟩
        · rw [ended]
          rfl
        · rw [feed, after?, if_neg (apart lineFeed_blank)]
          rfl

/-- What a reading holds is the same in the squeezed text, if no blank is taken. -/
theorem textUntil_squeezed {p : Pattern} (loose : Loose p) (single : repeats p = false)
    {place later : Place} (read : Reads p place later) :
    (squeezed place).textUntil (squeezed later) = place.textUntil later := by
  obtain ⟨text, spells, same, _⟩ := reads_spells read
  have visible := spells_takes (loose_takes loose single) spells
  have closer : (squeezed place).ahead = text ++ (squeezed later).ahead := by
    rw [squeezed, same, squeeze_append visible, squeezed]
  rw [textUntil_eq same, textUntil_eq closer]

/-- Where no blank is taken, the same is read in the squeezed text. -/
theorem readings_squeezed {p : Pattern} (loose : Loose p) (single : repeats p = false)
    (place : Place) : readings p (squeezed place) = (readings p place).map squeezed := by
  induction loose generalizing place with
  | nothing => rfl
  | @one accepts visible =>
    obtain ⟨behind, ahead, parts⟩ := place
    cases ahead with
    | nil => rfl
    | cons c rest =>
      rw [readings_one_cons, squeezed]
      cases seen : isBlank c with
      | false =>
        dsimp only
        rw [squeeze_visible seen, readings_one_cons]
        split
        · rw [List.map_singleton, squeezed, kept_behind seen]
        · rfl
      | true =>
        rw [visible c seen, if_neg Bool.false_ne_true]
        rcases squeeze_gap seen rest with ended | ⟨below, feed⟩
        · rw [ended]
          rfl
        · have refused : accepts '\n' = false := visible '\n' lineFeed_blank
          rw [feed, readings_one_cons, refused]
          rfl
  | @letters cs visible =>
    rw [readings_letters, readings_letters, squeezed]
    dsimp only
    rw [after?_squeeze visible]
    cases after? cs place.ahead with
    | none => rfl
    | some rest =>
      have passed : cs.getLast?.or (place.behind.filter (!isBlank ·)) =
          (cs.getLast?.or place.behind).filter (!isBlank ·) := by
        cases last : cs.getLast? with
        | none => rfl
        | some c => exact (kept_behind (visible c (List.mem_of_getLast? last))).symm
      simp [squeezed, passed]
  | @both first second _ _ ihHead ihTail =>
    have each := (Bool.or_eq_false_iff).mp single
    have tail : (fun later => readings second (squeezed later)) =
        fun later => (readings second later).map squeezed := funext (ihTail each.2)
    rw [readings_both, ihHead each.1, List.flatMap_map, tail, readings_both, List.map_flatMap]
  | either _ _ ihHere ihThere =>
    have each := (Bool.or_eq_false_iff).mp single
    rw [readings_either, ihHere each.1, ihThere each.2, readings_either, List.map_append]
  | anyBlanks _ | someBlanks => cases single
  | held inside ih =>
    rw [readings_held, ih single, readings_held, List.map_map, List.map_map]
    apply List.map_congr_left
    intro later listed
    have same := textUntil_squeezed inside single (reads_of_mem_readings listed)
    simp only [Function.comp, same]
    rfl
  | wordEdge =>
    rw [readings_wordEdge, isWordEdge_squeezed, readings_wordEdge]
    split <;> rfl

theorem run_or (first second : Pattern) (place : Place) (next : Place → Option α) :
    (Pattern.either first second).run place next =
      (first.run place next).or (second.run place next) := by
  rw [run]
  cases first.run place next <;> rfl

/-- A pattern of a phrase that does not see how wide the gaps are, if what comes after it does not.
That has to be patient at blanks if `after` is true, and the pattern is so before it if `before`
is. -/
structure Airy (before after : Bool) (p : Pattern) : Prop where
  blind : ∀ {next : Place → Option (List (Nat × List Char))}, Blind next →
    (after = true → Patient isBlank next) → Blind fun place => p.run place next
  patient : ∀ {next : Place → Option (List (Nat × List Char))}, Blind next →
    (after = true → Patient isBlank next) → before = true →
      Patient isBlank fun place => p.run place next

namespace Airy
variable {before middle after : Bool}

theorem whole {p : Pattern} (airy : Airy false false p)
    {next : Place → Option (List (Nat × List Char))} (blind : Blind next) :
    Blind fun place => p.run place next :=
  airy.blind blind fun asked => absurd asked Bool.false_ne_true

theorem nothing : Airy after after .nothing := ⟨fun blind _ => blind, fun _ patient => patient⟩

theorem single {p : Pattern} (loose : Loose p) (single : repeats p = false) :
    Airy false after p := by
  constructor
  · intro next blind _ place
    have same : next ∘ squeezed = next := funext blind
    dsimp only
    rw [run_eq_findSome?, readings_squeezed loose single, List.findSome?_map, same,
      run_eq_findSome?]
  · nofun

theorem opening {p : Pattern} (airy : Airy false after p) (moving : advances p = true)
    (bars : barred '\n' p = true) : Airy before after p := by
  refine ⟨airy.blind, ?_⟩
  intro next blind patient _
  exact patient_of_barred (airy.blind blind patient) moving bars fun _ blank => Or.inl blank

theorem blanks : Airy true true blanks where
  blind blind patient := many_blind (fun _ blank => blank) blind (patient rfl)
  patient _ patient _ := many_patient (patient rfl)

theorem gap : Airy false true gap where
  blind blind patient := gap_blind blind (patient rfl)
  patient := nofun

theorem both {first second : Pattern} (head : Airy before middle first)
    (tail : Airy middle after second) : Airy before after (first ++ second) where
  blind blind patient := head.blind (tail.blind blind patient) (tail.patient blind patient)
  patient blind patient := head.patient (tail.blind blind patient) (tail.patient blind patient)

theorem either {first second : Pattern} (here : Airy before after first)
    (there : Airy before after second) : Airy before after (.either first second) := by
  constructor
  · intro next blind patient place
    have firstly := here.blind blind patient place
    have secondly := there.blind blind patient place
    dsimp only at firstly secondly ⊢
    rw [run_or, firstly, secondly, run_or]
  · intro next blind patient asked
    have firstly := here.patient blind patient asked
    have secondly := there.patient blind patient asked
    simp only [run_or]
    constructor
    · intro behind parts
      rw [firstly.ended, secondly.ended, Option.or_none]
    · intro c blank behind rest parts found
      rw [Option.isSome_or, Bool.or_eq_true] at found ⊢
      exact found.imp (firstly.onward blank) (secondly.onward blank)

theorem maybe {p : Pattern} (inside : Airy after after p) : Airy after after (maybe p) :=
  .either inside .nothing

/-- It makes no difference how a row of patterns is grouped. -/
theorem regroup {first second third : Pattern}
    (airy : Airy before after (first ++ (second ++ third))) :
    Airy before after (first ++ second ++ third) := ⟨airy.blind, airy.patient⟩

theorem asWord {p : Pattern} (inside : Airy false false p) : Airy false false (asWord p) :=
  .both (.both (.single .wordEdge rfl) inside) (.single .wordEdge rfl)

theorem spelled (word : String) (visible : word.toList.any isBlank = false)
    (moving : advances (spelled word) = true) (bars : barred '\n' (spelled word) = true) :
    Airy before after (spelled word) :=
  .opening (.single (spelled_loose word visible) rfl) moving bars

/-- A run that may hold other characters than blanks, and what comes after it. -/
theorem behindRun {accepts : Char → Bool} {p : Pattern}
    (blanks : ∀ c, isBlank c = true → accepts c = true) (airy : Airy false after p)
    (moving : advances p = true) (bars : barred '\n' p = true)
    (others : ∀ c, accepts c = true → isBlank c = true ∨ barred c p = true) :
    Airy false after (.many (.one accepts) ++ p) := by
  refine ⟨?_, nofun⟩
  intro next blind patient
  have onward := airy.blind blind patient
  exact many_blind blanks onward (patient_of_barred onward moving bars others)

end Airy

theorem towPhrase_airy : Airy false false towPhrase := by
  have between : Airy false false
      (.many (.one fun c => isBlank c || c == '-') ++ spelled "AWAY") := by
    apply Airy.behindRun
    · intro c blank
      rw [blank, Bool.true_or]
    · exact .spelled "AWAY" (by decide) rfl rfl
    · rfl
    · rfl
    · intro c accepted
      rw [Bool.or_eq_true, beq_iff_eq] at accepted
      apply accepted.imp_right
      intro same
      rw [same]
      rfl
  have tow : Airy false false (spelled "TOW" ++ .many (.one fun c => isBlank c || c == '-')
      ++ spelled "AWAY") := .regroup (.both (.spelled "TOW" (by decide) rfl rfl) between)
  have willBe : Airy true true (spelled "WILL" ++ gap ++ spelled "BE" ++ gap) :=
    .both (.both (.both (.spelled "WILL" (by decide) rfl rfl) .gap)
      (.spelled "BE" (by decide) rfl rfl)) .gap
  have towed : Airy true false (spelled "TOWED") := .spelled "TOWED" (by decide) rfl rfl
  have violators : Airy false false (spelled "VIOLATORS" ++ gap
      ++ (perhaps (spelled "WILL" ++ gap ++ spelled "BE") ++ spelled "TOWED")) :=
    .both (.both (.spelled "VIOLATORS" (by decide) rfl rfl) .gap)
      (.both (.maybe willBe) towed)
  exact .either (.asWord tow) (.asWord violators)

theorem finePhrase_airy : Airy false false finePhrase := by
  have dollar {before after : Bool} : Airy before after (spelled "$") :=
    .spelled "$" (by decide) rfl rfl
  have word {before after : Bool} : Airy before after (spelled "FINE") :=
    .spelled "FINE" (by decide) rfl rfl
  have colon : Airy true true (maybe (spelled ":")) := .maybe (.spelled ":" (by decide) rfl rfl)
  have amount {before after : Bool} : Airy before after fineAmount :=
    .opening (.single fineAmount_loose rfl) rfl rfl
  have edge : Airy false false .wordEdge := .single .wordEdge rfl
  have first : Airy false false
      (spelled "$" ++ blanks ++ fineAmount ++ gap ++ spelled "FINE" ++ .wordEdge) :=
    .both (.both (.both (.both (.both dollar .blanks) amount) .gap) word) edge
  have last : Airy false false (.wordEdge ++ spelled "FINE" ++ blanks ++ maybe (spelled ":")
      ++ blanks ++ spelled "$" ++ blanks ++ fineAmount) :=
    .both (.both (.both (.both (.both (.both (.both edge word) .blanks) colon) .blanks) dollar)
      .blanks) amount
  exact .either first last

/-- The parts that a search finds, and nothing else of the place at which it ends. -/
def foundParts (p : Pattern) (text : List Char) : Option (List (Nat × List Char)) :=
  (p.search? text).map (·.parts)

theorem run_parts (p : Pattern) (place : Place) :
    (p.run place some).map (·.parts) = p.run place fun later => some later.parts := by
  rw [run_eq_findSome?, run_eq_findSome?, List.map_findSome?]
  rfl

section
variable {p : Pattern} (airy : Airy false false p) (moving : advances p = true)
  (bars : barred '\n' p = true)
include airy moving bars

/-- A search passes over blanks, and at any other character it finds what is read there or goes
on. -/
theorem search_passes :
    Passes (fun _ here onward => here.or onward)
      (fun place => p.run ⟨place.behind, place.ahead, []⟩ fun later => some later.parts)
      fun place => (p.searchFrom place.behind place.ahead).map (·.parts) := by
  have step (behind : Option Char) (c : Char) (rest : List Char) :
      (p.searchFrom behind (c :: rest)).map (·.parts) =
        (p.run ⟨behind, c :: rest, []⟩ fun later => some later.parts).or
          ((p.searchFrom (some c) rest).map (·.parts)) := by
    rw [searchFrom, ← run_parts]
    cases p.run ⟨behind, c :: rest, []⟩ some <;> rfl
  constructor
  · intro behind _
    dsimp only
    rw [searchFrom, run_parts, run_eq_findSome?, readings_ended moving, List.findSome?_nil]
  · intro c blank behind rest _
    have silent : p.run ⟨behind, c :: rest, []⟩ (fun later => some later.parts) = none :=
      silent_at_blank (airy.whole fun _ => rfl) moving bars blank behind rest []
    dsimp only
    rw [step, silent, Option.none_or]
  · intro c _ behind rest _
    exact step behind c rest

theorem search_blind :
    Blind fun place => (p.searchFrom place.behind place.ahead).map (·.parts) := by
  apply (search_passes airy moving bars).blind
  intro place
  have read : Blind fun place => p.run place fun later => some later.parts :=
    airy.whole fun _ => rfl
  exact read ⟨place.behind, place.ahead, []⟩

theorem foundParts_squeezed {one two : List Char} (same : squeeze one = squeeze two) :
    foundParts p one = foundParts p two := by
  have blind := search_blind airy moving bars
  have first := blind ⟨none, one, []⟩
  have second := blind ⟨none, two, []⟩
  dsimp only [squeezed] at first second
  rw [same] at first
  exact first.symm.trans second

theorem foundParts_gap {gap : List Char} (blank : Blank gap) (text : List Char) :
    foundParts p (gap ++ text) = foundParts p text := by
  induction gap with
  | nil => rfl
  | cons c more ih =>
    have isBlank := blank c List.mem_cons_self
    have passes := search_passes airy moving bars
    have blind := search_blind airy moving bars
    rw [← ih fun d member => blank d (List.mem_cons_of_mem c member)]
    exact (passes.blank isBlank none (more ++ text) []).trans
      (blind.behind isBlank (more ++ text) [])

end

theorem squeeze_nothing {gap : List Char} (blank : Blank gap) : squeeze gap = [] := by
  induction gap with
  | nil => rfl
  | cons c more ih =>
    have below := ih fun d member => blank d (List.mem_cons_of_mem c member)
    rw [squeeze_blank (blank c List.mem_cons_self), below]
    rfl

/-- Any run of blanks is squeezed to one. -/
theorem squeeze_run {gap : List Char} (some : gap ≠ []) (blank : Blank gap) (rest : List Char) :
    squeeze (gap ++ rest) = squeeze ('\n' :: rest) := by
  induction gap with
  | nil => exact absurd rfl some
  | cons c more ih =>
    have isBlank := blank c List.mem_cons_self
    cases more with
    | nil => rw [List.singleton_append, squeeze_blank isBlank, squeeze_blank lineFeed_blank]
    | cons d others =>
      have below := ih (List.cons_ne_nil d others) fun e member =>
        blank e (List.mem_cons_of_mem c member)
      rw [List.cons_append, squeeze_blank isBlank, below]
      rcases squeeze_gap lineFeed_blank rest with ended | ⟨after, more⟩
      · rw [ended]
        rfl
      · rw [more, List.head?_cons, Option.all_some, if_pos lineFeed_blank]

theorem spread_squeezed {tail short long : List Char} (blank : Blank tail)
    (spread : Spread tail short long) : squeeze long = squeeze short := by
  induction spread with
  | done => exact squeeze_nothing blank
  | keep _ ih => rw [squeeze, ih, squeeze]
  | run some gap _ ih =>
    rw [squeeze_run some gap, squeeze_blank lineFeed_blank, ih, squeeze_blank lineFeed_blank]

section
variable {p : Pattern} (airy : Airy false false p) (moving : advances p = true)
  (bars : barred '\n' p = true)
include airy moving bars

/-- A search in a text finds what it finds in the printed lines of the text. -/
theorem foundParts_printed (text : List Char) :
    foundParts p (upper text) = foundParts p (upper (unlines (printedLines text))) := by
  obtain ⟨gap, rest, tail, cut, blankGap, blankTail, spread⟩ := joined_spread (joined_lines text)
  have blank : Blank (upper tail) := by rwa [upper_blank blankTail]
  rw [cut, upper_append, upper_blank blankGap, foundParts_gap airy moving bars blankGap, ← cut]
  apply foundParts_squeezed airy moving bars
  exact spread_squeezed blank (spread_upper spread)

theorem foundParts_eq {one two : List Char} (same : printedLines one = printedLines two) :
    foundParts p (upper one) = foundParts p (upper two) := by
  rw [foundParts_printed airy moving bars one, same, ← foundParts_printed airy moving bars two]

end

/-- What a sign says for all of its restrictions hangs on its printed lines alone. -/
theorem posted_printed {one two : List Char} (same : printedLines one = printedLines two) :
    Posted.ofText (upper one) = Posted.ofText (upper two) := by
  have tow := foundParts_eq towPhrase_airy rfl rfl same
  have fine := foundParts_eq finePhrase_airy rfl rfl same
  have byParts (text : List Char) : Posted.ofText text =
      ⟨(foundParts towPhrase text).isSome,
        (foundParts finePhrase text).map fun parts => amountOf ⟨none, [], parts⟩⟩ := by
    rw [Posted.ofText, occursIn, foundParts, foundParts, Option.isSome_map, Option.map_map]
    rfl
  rw [byParts, tow, fine, byParts]

end Curbside.Proofs.Squeezing

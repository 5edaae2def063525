import Curbside.Proofs.Conversion
import Curbside.Proofs.TimesOfDay

/-! Ranges with AM or PM on one side. The bare side is read in the half of the day that makes the
range run forward, for at most twelve hours. A time that can be read in one half can be read in the
other, at twelve hours from there, so that exactly one of the two readings does. -/

namespace Curbside.Proofs.Borrowing
open Text Pattern Clock Layout Phrases Reading Spelling Conversion Preference TimesOfDay

/-- A side of a range that names a half of the day: a time followed by AM or PM in one of their
spellings, or a word. -/
inductive States : Half → List Char → Prop where
  | noon : States .afternoon noonWord
  | midnight : States .morning midnightWord
  | marked {half : Half} {gap mark : List Char} (time : Time) (between : Spells spaces gap)
      (spelled : Spells (halfMark spaces) (half.letter :: mark)) :
      States half (time.text ++ (gap ++ half.letter :: mark))

theorem letter_accepted {c : Char} (accepted : ['A', 'P'].contains c = true) :
    ∃ half : Half, c = half.letter := by
  have either : c = 'A' ∨ c = 'P' := by simpa using accepted
  exact either.elim (⟨.morning, ·⟩) (⟨.afternoon, ·⟩)

theorem ofLetter?_letter (half : Half) : Half.ofLetter? half.letter = some half := by
  cases half <;> rfl

theorem letter_injective {one two : Half} (same : one.letter = two.letter) : one = two := by
  rw [← Option.some.injEq, ← ofLetter?_letter, same, ofLetter?_letter]

theorem letter_plain (half : Half) :
    capitals half.letter = [half.letter] ∧ isBlank half.letter = false := by
  cases half <;> decide

/-- The halves of the day whose letters stand in a text. -/
def halves (text : List Char) : List Half := text.filterMap Half.ofLetter?

theorem halves_append (one two : List Char) : halves (one ++ two) = halves one ++ halves two :=
  List.filterMap_append

/-- A character that is no letter of a half of the day. -/
def Quiet (c : Char) : Prop := Half.ofLetter? c = none

theorem halves_quiet {text : List Char} (quiet : ∀ c ∈ text, Quiet c) : halves text = [] :=
  List.filterMap_eq_nil_iff.mpr quiet

theorem blank_quiet {c : Char} (blank : isBlank c = true) : Quiet c := by
  unfold Quiet Half.ofLetter?
  split
  next same => rw [same] at blank; cases blank
  next =>
    split
    next same => rw [same] at blank; cases blank
    next => rfl

theorem spaces_blank {gap : List Char} (spells : Spells spaces gap) : Blank gap := by
  have takes : Takes (isBlank · = true) spaces := fun _ accepted => space_blank accepted
  exact spells_takes takes spells

theorem spaces_blanks {gap : List Char} (spells : Spells spaces gap) : Spells blanks gap := by
  have blank := spaces_blank spells
  obtain ⟨pieces, same, each⟩ := spells
  refine ⟨pieces, same, fun piece listed => ?_⟩
  obtain ⟨c, _, single⟩ := each piece listed
  refine ⟨c, blank c ?_, single⟩
  rw [same, List.mem_flatten]
  exact ⟨piece, listed, by rw [single]; exact List.mem_singleton_self c⟩

theorem maybe_quiet {word : String} (quiet : halves word.toList = []) :
    Takes Quiet (maybe (spelled word)) :=
  ⟨List.filterMap_eq_nil_iff.mp quiet, trivial⟩

theorem halves_mark {between : Pattern} (quiet : Takes Quiet between) {text : List Char}
    (spells : Spells (halfMark between) text) :
    ∃ half mark, text = half.letter :: mark ∧ halves text = [half] := by
  obtain ⟨_, last, rfl, ⟨_, m, rfl, ⟨_, gap, rfl, ⟨_, dot, rfl, ⟨c, letter, rfl⟩, spellsDot⟩,
    spellsGap⟩, spellsM⟩, spellsLast⟩ := spells
  have quietDot := halves_quiet (spells_takes (maybe_quiet (by decide)) spellsDot)
  have quietGap := halves_quiet (spells_takes quiet spellsGap)
  have quietM := halves_quiet (spells_takes (maybe_quiet (by decide)) spellsM)
  have quietLast := halves_quiet (spells_takes (maybe_quiet (by decide)) spellsLast)
  obtain ⟨half, same⟩ := letter_accepted letter
  refine ⟨half, dot ++ gap ++ m ++ last, by rw [same]; simp, ?_⟩
  simp only [halves_append, quietDot, quietGap, quietM, quietLast, List.append_nil]
  rw [same]
  cases half <;> rfl

theorem spaces_quiet : Takes Quiet spaces := fun _ accepted => blank_quiet (space_blank accepted)

theorem blanks_quiet : Takes Quiet blanks := fun _ blank => blank_quiet blank

theorem text_quiet (time : Time) : halves time.text = [] :=
  halves_quiet fun _ member => (time.text_plain member).2.2

theorem side_cases {text : List Char} (spells : Spells side text) :
    (∃ time : Time, time.text = text) ∨ ∃ half, States half text := by
  obtain ⟨head, tail, same, spellsHead, spellsTail⟩ := spells
  rw [show tail = [] from spellsTail, List.append_nil] at same
  rw [same]
  rcases spellsHead with noon | midnight | ⟨digits, rest, cut, spellsDigits, spellsRest⟩
  · rw [show head = noonWord from noon]
    exact Or.inr ⟨_, .noon⟩
  · rw [show head = midnightWord from midnight]
    exact Or.inr ⟨_, .midnight⟩
  · obtain ⟨time, rfl⟩ := spells_time spellsDigits
    rcases spellsRest with ⟨gap, mark, sameRest, between, spelled⟩ | none
    · obtain ⟨half, more, begins, _⟩ := halves_mark spaces_quiet spelled
      rw [cut, sameRest, begins]
      rw [begins] at spelled
      exact Or.inr ⟨half, .marked time between spelled⟩
    · rw [cut, show rest = [] from none, List.append_nil]
      exact Or.inl ⟨time, rfl⟩

theorem heldHalf?_mem {p : Pattern} {behind : Option Char} {text mark : List Char} {place : Place}
    (read : Reads p ⟨behind, text, []⟩ place)
    (marks : ∀ body ∈ bodies 3 p, body = among ['A', 'P']) (held : place.part? 3 = some mark) :
    ∃ half ∈ halves text, heldHalf? place = some half := by
  obtain ⟨body, inside, spells⟩ := part?_spells ⟨_, rfl, read⟩ held
  rw [marks body inside] at spells
  obtain ⟨c, letter, single⟩ := spells
  have listed : (3, mark) ∈ place.parts := by
    obtain ⟨before, after, same, _⟩ := List.lookup_eq_some_iff.mp held
    rw [same]
    simp
  have member : c ∈ text := by
    rcases reads_infix read listed with before | within
    · cases before
    · exact within.subset (by rw [single]; exact List.mem_singleton_self c)
  obtain ⟨half, same⟩ := letter_accepted letter
  have names : Half.ofLetter? c = some half := same ▸ ofLetter?_letter half
  refine ⟨half, List.mem_filterMap.mpr ⟨c, member, names⟩, ?_⟩
  rw [heldHalf?, Place.part, held, single]
  exact names

theorem mark_trimmed {text : List Char} (spells : Spells (halfMark spaces) text) :
    ∃ kept back, text = kept ++ back ∧ Blank back ∧ Spells (halfMark blanks) kept ∧
      ∀ c ∈ kept.getLast?, isBlank c = false := by
  have ends {front : List Char} {d : Char} (visible : isBlank d = false) :
      ∀ c ∈ (front ++ [d]).getLast?, isBlank c = false := by
    intro c last
    rw [List.getLast?_concat] at last
    exact Option.some.inj last ▸ visible
  obtain ⟨_, last, rfl, ⟨_, m, rfl, ⟨_, gap, rfl, first, spellsGap⟩, spellsM⟩, spellsLast⟩ := spells
  have whole : Spells (halfMark blanks) (_ ++ gap ++ m ++ last) :=
    ⟨_, last, rfl, ⟨_, m, rfl, ⟨_, gap, rfl, first, spaces_blanks spellsGap⟩, spellsM⟩, spellsLast⟩
  rcases spellsLast with dot | noDot
  · rw [show last = ['.'] from dot] at whole ⊢
    exact ⟨_, [], (List.append_nil _).symm, nofun, whole, ends (by decide)⟩
  rw [show last = [] from noDot, List.append_nil] at whole ⊢
  rcases spellsM with letter | none
  · rw [show m = ['M'] from letter] at whole ⊢
    exact ⟨_, [], (List.append_nil _).symm, nofun, whole, ends (by decide)⟩
  -- Nothing follows the gap, so that all of it is trimmed.
  · rw [show m = [] from none, List.append_nil]
    obtain ⟨_, dot, rfl, ⟨c, letter, rfl⟩, spellsDot⟩ := first
    refine ⟨[c] ++ dot, gap, rfl, spaces_blank spellsGap, ?_, ?_⟩
    · have bare {text : List Char} : text = text ++ [] := (List.append_nil text).symm
      exact ⟨_, [], bare, ⟨_, [], bare, ⟨_, [], bare, ⟨_, dot, rfl, ⟨c, letter, rfl⟩, spellsDot⟩,
        [], rfl, nofun⟩, Or.inr rfl⟩, Or.inr rfl⟩
    · rcases spellsDot with dotted | plain
      · rw [show dot = ['.'] from dotted]
        exact ends (by decide)
      · rw [show dot = [] from plain]
        obtain ⟨half, same⟩ := letter_accepted letter
        exact @ends [] c (same ▸ (letter_plain half).2)

theorem mark_upright {text : List Char} (spells : Spells (halfMark blanks) text) :
    ∀ c ∈ text, capitals c = [c] := by
  have word (w : String) (upright : ∀ c ∈ w.toList, capitals c = [c]) :
      Takes (fun c => capitals c = [c]) (maybe (spelled w)) := ⟨upright, trivial⟩
  have letter : Takes (fun c => capitals c = [c]) (among ['A', 'P']) := by
    intro c accepted
    obtain ⟨half, same⟩ := letter_accepted accepted
    exact same ▸ (letter_plain half).1
  have whole : Takes (fun c => capitals c = [c]) (halfMark blanks) :=
    ⟨⟨⟨⟨letter, word "." (by decide)⟩, fun _ blank => (blank_plain blank).1⟩,
      word "M" (by decide)⟩, word "." (by decide)⟩
  exact spells_takes whole spells

theorem plain_marked (time : Time) {half : Half} {gap mark : List Char}
    (between : Spells spaces gap) (spells : Spells (halfMark spaces) (half.letter :: mark)) :
    ∃ kept, Spells (halfMark blanks) kept ∧ halves kept = [half] ∧
      plain (time.text ++ (gap ++ half.letter :: mark)) = time.text ++ (gap ++ kept) := by
  obtain ⟨kept, back, same, blank, spelled, last⟩ := mark_trimmed spells
  obtain ⟨stated, rest, begins, single⟩ := halves_mark blanks_quiet spelled
  obtain ⟨d, _, head, digit⟩ := time.text_head
  have own : stated = half := by
    rw [begins, List.cons_append] at same
    exact letter_injective (List.cons.inj same).1.symm
  have start (more : List Char) : trimStart (time.text ++ more) = time.text ++ more := by
    rw [head]
    exact trimStart_visible (digit_plain digit).2.1 _
  have solid : trim (time.text ++ (gap ++ kept)) = time.text ++ (gap ++ kept) := by
    refine trim_solid (fun c first => ?_) (fun c final => ?_)
    · rw [head] at first
      rw [← Option.some.inj first]
      exact (digit_plain digit).2.1
    · rw [← List.append_assoc, List.getLast?_append, begins, List.getLast?_cons, Option.some_or,
        ← List.getLast?_cons, ← begins] at final
      exact last c final
  have cut : time.text ++ (gap ++ half.letter :: mark) = time.text ++ (gap ++ kept) ++ back := by
    rw [same, List.append_assoc, List.append_assoc]
  have trimmed : trim (time.text ++ (gap ++ half.letter :: mark)) =
      time.text ++ (gap ++ kept) := by
    rw [← solid, trim, trim, start, start, cut, trimEnd_append_blank blank]
  refine ⟨kept, spelled, own ▸ single, ?_⟩
  rw [plain, trimmed, upper_solid]
  intro c member
  rcases List.mem_append.mp member with inside | after
  · exact (time.text_plain inside).1
  · rcases List.mem_append.mp after with early | late
    · exact (blank_plain (spaces_blank between c early)).1
    · exact mark_upright spelled c late

theorem statedHalf?_eq {printed rest : List Char} {d : Char} (digit : isDigit d = true)
    (written : plain printed = d :: rest) :
    statedHalf? printed = (endingHalf.search? (d :: rest)).bind heldHalf? := by
  obtain ⟨noon, midnight⟩ := digit_no_word digit rest
  simp only [statedHalf?, written, if_neg noon, if_neg midnight]

theorem endingHalf_mem {text : List Char} {place : Place}
    (found : endingHalf.search? text = some place) :
    ∃ half ∈ halves text, heldHalf? place = some half := by
  obtain ⟨front, rest, same, read⟩ := search?_reads found
  have filled : (place.part? 3).isSome := part?_isSome ⟨_, rfl, read⟩ rfl
  obtain ⟨mark, held⟩ := Option.isSome_iff_exists.mp filled
  obtain ⟨half, listed, stated⟩ :=
    heldHalf?_mem read (fun _ inside => List.mem_singleton.mp inside) held
  refine ⟨half, ?_, stated⟩
  rw [same, halves_append]
  exact List.mem_append_right _ listed

theorem endingHalf_found {front mark : List Char} (spells : Spells (halfMark blanks) mark) :
    (endingHalf.search? (front ++ mark)).isSome = true := by
  obtain ⟨held, read⟩ := reads_of_spells (by rfl) spells front.getLast? [] []
  rw [List.append_nil] at read
  exact occursIn_of_mem (mem_readings (.both read (.textEnd rfl) : Reads endingHalf _ _) (by rfl))

theorem statedHalf?_text (time : Time) : statedHalf? time.text = none := by
  obtain ⟨d, rest, head, digit⟩ := time.text_head
  have written : plain time.text = d :: rest := by
    rw [plain, trim_text, upper_solid fun c member => (time.text_plain member).1, head]
  rw [statedHalf?_eq digit written, ← head]
  cases found : endingHalf.search? time.text with
  | none => rfl
  | some place =>
    obtain ⟨half, listed, _⟩ := endingHalf_mem found
    rw [text_quiet] at listed
    cases listed

/-- A time with a mark begins with a digit and has the letter of one half of the day in it, when it
is in capitals and without blanks at its end. -/
theorem marked_written (time : Time) {half : Half} {gap mark : List Char}
    (between : Spells spaces gap) (spells : Spells (halfMark spaces) (half.letter :: mark)) :
    ∃ d rest, isDigit d = true ∧ plain (time.text ++ (gap ++ half.letter :: mark)) = d :: rest ∧
      halves (d :: rest) = [half] ∧ (endingHalf.search? (d :: rest)).isSome = true := by
  obtain ⟨kept, spelled, single, written⟩ := plain_marked time between spells
  obtain ⟨d, rest, head, digit⟩ := time.text_head
  have same : d :: (rest ++ (gap ++ kept)) = time.text ++ gap ++ kept := by
    rw [head, List.append_assoc]
    rfl
  refine ⟨d, rest ++ (gap ++ kept), digit, ?_, ?_, ?_⟩
  · rw [written, head, List.cons_append]
  · rw [same, halves_append, halves_append, text_quiet, single,
      halves_quiet fun c member => blank_quiet (spaces_blank between c member)]
    rfl
  · rw [same]
    exact endingHalf_found spelled

theorem statedHalf?_states {half : Half} {text : List Char} (states : States half text) :
    statedHalf? text = some half := by
  cases states with
  | noon => decide
  | midnight => decide
  | marked time between spelled =>
    obtain ⟨d, rest, digit, written, single, found⟩ := marked_written time between spelled
    obtain ⟨place, here⟩ := Option.isSome_iff_exists.mp found
    obtain ⟨other, listed, stated⟩ := endingHalf_mem here
    rw [single] at listed
    rw [statedHalf?_eq digit written, here, Option.bind_some, stated, List.mem_singleton.mp listed]

theorem unmarked_quiet : Takes Quiet (digits ++ blanks) := by
  have digit : Takes Quiet digit := fun _ digit => (digit_plain digit).2.2.1
  have colon : Takes Quiet (spelled ":") := List.filterMap_eq_nil_iff.mp (by decide)
  exact ⟨⟨⟨digit, digit, trivial⟩, ⟨colon, digit, digit⟩, trivial⟩, blanks_quiet⟩

theorem token_states {text : List Char} {place : Place} {half : Half}
    (found : token.matchStart? text = some place) (single : halves text = [half]) :
    heldHalf? place = some half := by
  obtain ⟨last, read, same⟩ := run_reads found
  cases same
  have filled : (place.part? 3).isSome := by
    cases read with
    | both inside ending =>
      cases inside with
      | both bare mark =>
        cases mark with
        | eitherFirst mark =>
          have marked : Reads (digits ++ blanks ++ halfMark blanks ++ .textEnd) _ place :=
            .both (.both bare mark) ending
          exact part?_isSome ⟨_, rfl, marked⟩ rfl
        | eitherSecond nothing =>
          -- Without a mark there is no letter in the text.
          cases nothing
          cases ending with
          | textEnd ended =>
            obtain ⟨passed, spells, same, _⟩ := reads_spells bare
            rw [List.isEmpty_iff.mp ended, List.append_nil] at same
            have quiet := halves_quiet (spells_takes unmarked_quiet spells)
            rw [show text = passed from same, quiet] at single
            cases single
  obtain ⟨mark, held⟩ := Option.isSome_iff_exists.mp filled
  obtain ⟨other, listed, stated⟩ :=
    heldHalf?_mem read (fun _ inside => List.mem_singleton.mp inside) held
  rw [single] at listed
  rw [stated, List.mem_singleton.mp listed]

def startOf : Half → Nat
  | .morning => 0
  | .afternoon => 720

/-- How far a time is into its half of the day, on a 12-hour clock. -/
def sinceStart (hour minute : Nat) : Nat := hour % 12 * 60 + minute

theorem sinceStart_lt (hour : Nat) {minute : Nat} (within : minute ≤ 59) :
    sinceStart hour minute < 720 := by
  unfold sinceStart
  omega

theorem minuteIn_half (half : Half) (hour minute : Nat) :
    (minuteIn (some half) hour minute).map Fin.val =
      if (1 ≤ hour ∧ hour ≤ 12) ∧ minute ≤ 59 then some (startOf half + sinceStart hour minute)
      else none := by
  unfold minuteIn Half.hourOf? Minute.ofClock?
  dsimp only
  by_cases onFace : 1 ≤ hour ∧ hour ≤ 12
  case neg => rw [if_neg onFace, if_neg fun both => onFace both.1]; rfl
  case pos =>
    rw [if_pos onFace, Option.bind_some]
    by_cases within : minute ≤ 59
    case neg => rw [dif_neg fun both => within both.2, if_neg fun both => within both.2]; rfl
    case pos =>
      have inDay (since : Nat) (early : since ≤ 12) : hour % 12 + since ≤ 23 := by omega
      have both : (1 ≤ hour ∧ hour ≤ 12) ∧ minute ≤ 59 := ⟨onFace, within⟩
      cases half with
      | morning =>
        rw [if_pos both, dif_pos ⟨inDay 0 (by omega), within⟩, Option.map_some]
        simp [startOf, sinceStart]
      | afternoon =>
        rw [if_pos both, dif_pos ⟨inDay 12 (by omega), within⟩, Option.map_some]
        simp only [startOf, sinceStart]
        congr 1
        omega

def Inside (half : Half) (minute : Minute) : Prop :=
  startOf half ≤ minute.val ∧ minute.val < startOf half + 720

theorem states_inside {half : Half} {text : List Char} (states : States half text) {m : Minute}
    (read : readToken? text = some m) : Inside half m := by
  cases states with
  | noon =>
    have same : readToken? noonWord = some Minute.noon := by decide
    rw [same] at read
    cases read
    exact ⟨by decide, by decide⟩
  | midnight =>
    have same : readToken? midnightWord = some Minute.midnight := by decide
    rw [same] at read
    cases read
    exact ⟨by decide, by decide⟩
  | marked time between spelled =>
    obtain ⟨d, rest, digit, written, single, _⟩ := marked_written time between spelled
    rw [readToken?_eq digit written] at read
    cases found : token.matchStart? (d :: rest) with
    | none =>
      rw [found] at read
      cases read
    | some place =>
      rw [found, Option.bind_some, token_states found single] at read
      have value := minuteIn_half half (digitsValue (place.part 1)) (digitsValue (place.part 2))
      rw [read, Option.map_some] at value
      split at value
      case isTrue onClock =>
        have early := sinceStart_lt (digitsValue (place.part 1)) onClock.2
        have same := Option.some.inj value
        exact ⟨by omega, by omega⟩
      case isFalse => cases value

/-- A side is readable on a 12-hour clock. -/
def OnFace (text : List Char) : Prop := ∃ half, (readInHalf? text half).isSome = true

def Opposite (near far : Minute) : Prop := far.val = near.val + 720 ∨ near.val = far.val + 720

/-- The minutes from a start to a finish. A finish that is no later than the start on the same day
is one of the next day. -/
def minutesUntil (start finish : Minute) : Int := ((finish.val : Int) - start.val) % 1440

/-- A range runs forward, for at most twelve hours. -/
def Forward (start finish : Minute) : Prop :=
  1 ≤ minutesUntil start finish ∧ minutesUntil start finish ≤ 720

/-- Of the readings of a bare side in the two halves of the day, the chosen one fits and the other
one does not. -/
def OnlyFit (text : List Char) (fits : Minute → Prop) (chosen : Minute) : Prop :=
  ∃ half missed, readInHalf? text half = some chosen ∧ fits chosen ∧
    readInHalf? text half.other = some missed ∧ ¬ fits missed

/-- A bare time that is readable in one half of the day is readable in both, at twelve hours from
each other. -/
theorem bare_readings {time : Time} (readable : OnFace time.text) (half : Half) :
    ∃ near far, readInHalf? time.text half = some near ∧
      readInHalf? time.text half.other = some far ∧ Inside half near ∧ Opposite near far := by
  have value (half : Half) := minuteIn_half half time.hour time.minute
  have onClock : (1 ≤ time.hour ∧ time.hour ≤ 12) ∧ time.minute ≤ 59 := by
    obtain ⟨half, found⟩ := readable
    apply Decidable.byContradiction
    intro off
    have none := value half
    rw [if_neg off, Option.map_eq_none_iff, minuteIn, ← readInHalf?_text] at none
    rw [none] at found
    cases found
  have early := sinceStart_lt time.hour onClock.2
  have readings (half : Half) : ∃ m, readInHalf? time.text half = some m ∧
      m.val = startOf half + sinceStart time.hour time.minute := by
    have there := value half
    rw [if_pos onClock, Option.map_eq_some_iff] at there
    obtain ⟨m, read, same⟩ := there
    exact ⟨m, (readInHalf?_text time half).trans read, same⟩
  obtain ⟨near, readNear, sameNear⟩ := readings half
  obtain ⟨far, readFar, sameFar⟩ := readings half.other
  refine ⟨near, far, readNear, readFar, ⟨by omega, by omega⟩, ?_⟩
  cases half with
  | morning => exact Or.inl (by rw [sameNear, sameFar]; simp only [startOf, Half.other]; omega)
  | afternoon => exact Or.inr (by rw [sameNear, sameFar]; simp only [startOf, Half.other]; omega)

theorem forward_iff_lt {half : Half} {start finish : Minute} (starts : Inside half start)
    (ends : Inside half finish) : Forward start finish ↔ start < finish := by
  obtain ⟨startsIn, startsBefore⟩ := starts
  obtain ⟨endsIn, endsBefore⟩ := ends
  rw [Forward, minutesUntil, Fin.lt_def]
  omega

theorem forward_from_opposite {near far : Minute} (opposite : Opposite near far)
    (finish : Minute) : Forward far finish ↔ ¬ Forward near finish := by
  unfold Forward minutesUntil
  rcases opposite with later | earlier <;> omega

theorem forward_to_opposite {near far : Minute} (opposite : Opposite near far)
    (start : Minute) : Forward start far ↔ ¬ Forward start near := by
  unfold Forward minutesUntil
  rcases opposite with later | earlier <;> omega

/-- A bare side is read in the half of the other side if that fits, and else in the other half. -/
theorem bare_borrows {time : Time} (readable : OnFace time.text) (half : Half)
    (fits : Minute → Bool) {Forward : Minute → Prop}
    (agrees : ∀ near, Inside half near → (Forward near ↔ fits near = true))
    (exchanges : ∀ near far, Opposite near far → (Forward far ↔ ¬ Forward near))
    (bare : Option Minute) :
    ∃ chosen, borrow (readInHalf? time.text half) (readInHalf? time.text half.other) bare fits =
      some chosen ∧ OnlyFit time.text Forward chosen := by
  obtain ⟨near, far, readNear, readFar, inside, opposite⟩ := bare_readings readable half
  have back : half.other.other = half := by cases half <;> rfl
  have farFits := exchanges near far opposite
  cases fit : fits near with
  | true =>
    have nearFits := (agrees near inside).mpr fit
    refine ⟨near, by simp [borrow, readNear, readFar, fit], half, far, readNear, nearFits, readFar,
      fun both => farFits.mp both nearFits⟩
  | false =>
    have nearMissed : ¬ Forward near := fun forward => by
      rw [(agrees near inside).mp forward] at fit
      cases fit
    refine ⟨far, by simp [borrow, readNear, readFar, fit], half.other, near, readFar,
      farFits.mpr nearMissed, ?_, nearMissed⟩
    rw [back]
    exact readNear

theorem sides_cases {text : List Char} {place : Place} (found : place ∈ range.findAll text)
    {label : Nat} (sides : label = 4 ∨ label = 5) :
    (∃ time : Time, time.text = place.part label) ∨ ∃ half, States half (place.part label) := by
  apply side_cases
  rcases sides with first | last
  · rw [first]
    exact part_spelled (findAll_matched found) rfl fun _ => List.mem_singleton.mp
  · rw [last]
    exact part_spelled (findAll_matched found) rfl fun _ => List.mem_singleton.mp

/-- Where one side of a range states a half of the day and is readable and the other one, which
states none, is readable on a 12-hour clock, the range starts or ends with the reading of the stated
side. The other side is the one of its two readings with which the range runs forward, for at most
twelve hours. -/
theorem half_borrowed {printed : List Char} {place : Place}
    (found : place ∈ range.findAll (upper printed)) :
    (∀ half finish, (¬ ∃ other, States other (place.part 4)) → States half (place.part 5) →
      readToken? (place.part 5) = some finish → OnFace (place.part 4) →
      ∃ start, resolve? (place.part 4) (place.part 5) = some (start, finish) ∧
        OnlyFit (place.part 4) (Forward · finish) start) ∧
    (∀ half start, States half (place.part 4) → (¬ ∃ other, States other (place.part 5)) →
      readToken? (place.part 4) = some start → OnFace (place.part 5) →
      ∃ finish, resolve? (place.part 4) (place.part 5) = some (start, finish) ∧
        OnlyFit (place.part 5) (Forward start ·) finish) := by
  constructor
  · intro half finish unstated states read readable
    obtain ⟨time, bare⟩ := (sides_cases found (Or.inl rfl)).resolve_right unstated
    rw [← bare] at readable ⊢
    have inside := states_inside states read
    obtain ⟨start, borrowed, only⟩ := bare_borrows readable half (· < finish)
      (fun near within => (forward_iff_lt within inside).trans decide_eq_true_iff.symm)
      (fun _ _ opposite => forward_from_opposite opposite finish) (readToken? time.text)
    refine ⟨start, ?_, only⟩
    simp only [resolve?, statedHalf?_text, statedHalf?_states states, read, borrowed]
    rfl
  · intro half start states unstated read readable
    obtain ⟨time, bare⟩ := (sides_cases found (Or.inr rfl)).resolve_right unstated
    rw [← bare] at readable ⊢
    have inside := states_inside states read
    obtain ⟨finish, borrowed, only⟩ := bare_borrows readable half (start < ·)
      (fun near within => (forward_iff_lt inside within).trans decide_eq_true_iff.symm)
      (fun _ _ opposite => forward_to_opposite opposite start) (readToken? time.text)
    refine ⟨finish, ?_, only⟩
    simp only [resolve?, statedHalf?_text, statedHalf?_states states, read, borrowed]
    rfl

def eveningHours : List Char := "8-6pm".toList

def six : Time := ⟨none, ⟨'6', by decide⟩, none⟩

theorem six_states : States .afternoon "6PM".toList := by
  have mark : Spells (halfMark spaces) ['P', 'M'] := by
    refine ⟨['P', 'M'], [], rfl, ⟨['P'], ['M'], rfl, ⟨['P'], [], rfl, ?_, ⟨[], rfl, nofun⟩⟩,
      Or.inl rfl⟩, Or.inr rfl⟩
    exact ⟨['P'], [], rfl, ⟨'P', rfl, rfl⟩, Or.inr rfl⟩
  exact @States.marked .afternoon [] ['M'] six ⟨[], rfl, nofun⟩ mark

/-- A time up to 6 in the evening, from 8, begins in the morning. -/
theorem evening_borrowed :
    ∃ place ∈ range.findAll (upper eveningHours), ∃ start finish,
      resolve? (place.part 4) (place.part 5) = some (start, finish) ∧
      (start.val, finish.val) = (480, 1080) ∧
      OnlyFit (place.part 4) (Forward · finish) start := by
  have sides : (range.findAll (upper eveningHours)).map
      (fun place => (place.part 4, place.part 5)) = [("8".toList, "6PM".toList)] := by
    decide
  obtain ⟨place, found, same⟩ := List.mem_map.mp (sides ▸ List.mem_singleton_self _)
  obtain ⟨first, last⟩ := Prod.mk.inj same
  have minutes : (resolve? "8".toList "6PM".toList).map (fun range => (range.1.val, range.2.val)) =
      some (480, 1080) := by
    decide
  have unstated : ¬ ∃ other, States other (place.part 4) := by
    rintro ⟨other, states⟩
    have none : statedHalf? "8".toList = none := by decide
    rw [first] at states
    rw [statedHalf?_states states] at none
    cases none
  obtain ⟨finish, read⟩ : ∃ finish, readToken? (place.part 5) = some finish := by
    rw [last]
    exact Option.isSome_iff_exists.mp (by decide)
  have states : States .afternoon (place.part 5) := last ▸ six_states
  have readable : OnFace (place.part 4) := ⟨.morning, by rw [first]; decide⟩
  obtain ⟨start, resolved, only⟩ :=
    (half_borrowed found).1 .afternoon finish unstated states read readable
  refine ⟨place, found, start, finish, resolved, ?_, only⟩
  rw [← first, ← last, resolved] at minutes
  exact Option.some.inj minutes

end Curbside.Proofs.Borrowing

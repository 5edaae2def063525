import Curbside.Proofs.Borrowing
import Curbside.Proofs.Searching
import Curbside.Sign.Finding

/-! The time that a display shows. It is read up to a place where no letter or digit follows, which
may be in front of a colon, so that a display with seconds is read without them and without the half
of the day behind them. -/

namespace Curbside.Proofs.PaidTimes
open Text Pattern Clock Sign Layout Phrases Reading Spelling Cutting Preference Seams Searching
  TimesOfDay Borrowing

/-- The end of the time on a display, with the time held, if no letter or digit follows. -/
def accept (start last : Place) : Option Place :=
  if last.ahead.head?.any isPlainAlphanumeric then none
  else some { last with parts := (4, start.textUntil last) :: last.parts }

theorem meterDisplay_run {start place : Place} {token : List Char} (empty : start.parts = [])
    (matched : meterDisplay.run start some = some place) (held : place.part? 4 = some token) :
    ∃ middle, Reads meterLead start middle ∧ shownTime.run middle (accept middle) = some place := by
  obtain ⟨middle, lead, found⟩ := @run_reads _ meterLead start (fun middle =>
    (maybe (.held 4 shownTime)).run middle fun last =>
      (Pattern.notBefore isPlainAlphanumeric).run last some) place matched
  refine ⟨middle, lead, ?_⟩
  rcases run_either found with timed | bare
  · exact timed
  · obtain ⟨last, read, same⟩ := run_reads bare
    cases read with
    | nothing =>
      obtain ⟨_, edge, same⟩ := run_reads same
      cases same
      cases edge with
      | notBefore free =>
        rw [Place.part?, reads_unlabelled lead rfl, empty] at held
        cases held

theorem accept_eq {start last place : Place} (accepted : accept start last = some place) :
    place = { last with parts := (4, start.textUntil last) :: last.parts } ∧
      last.ahead.head?.any isPlainAlphanumeric = false := by
  unfold accept at accepted
  split at accepted
  · cases accepted
  next free => exact ⟨(Option.some.inj accepted).symm, Bool.eq_false_iff.mpr free⟩

theorem accept_some {start last place : Place} (accepted : accept start last = some place)
    {token : List Char} (same : start.ahead = token ++ last.ahead) :
    place.part? 4 = some token ∧ place.ahead = last.ahead ∧
      last.ahead.head?.any isPlainAlphanumeric = false := by
  obtain ⟨rfl, free⟩ := accept_eq accepted
  refine ⟨?_, rfl, free⟩
  rw [Place.part?, textUntil_eq same]
  rfl

theorem accept_colon {start last : Place} {rest : List Char} (colon : last.ahead = ':' :: rest) :
    ∃ place, accept start last = some place ∧ place.ahead = ':' :: rest := by
  have apart : isPlainAlphanumeric ':' = false := by decide
  have free : ¬ last.ahead.head?.any isPlainAlphanumeric = true := by
    rw [colon]
    exact Bool.eq_false_iff.mp apart
  exact ⟨_, if_neg free, colon⟩

/-- A text goes on with a colon and a digit. -/
def ColonFollows (after : List Char) : Prop :=
  ∃ d : Digit, ∃ rest, after = ':' :: d.val :: rest

/-- What may stand behind the digits of a time on a display. -/
def timeEnd : Pattern := meterMark ++ .notBefore isPlainAlphanumeric

/-- The text from a time on in which the time that is read ends before a colon and a digit. -/
inductive Overruns : List Char → Prop where
  /-- Digits follow the minutes. -/
  | seconds (time : Time) (timed : time.minutes.isSome = true) (d : Digit) (rest : List Char) :
    Overruns (time.text ++ ':' :: d.val :: rest)
  /-- What follows the hour are no two digits that may end a time. -/
  | minutes (time : Time) (bare : time.minutes = none) (d : Digit) (rest : List Char)
    (broken : ∀ (e : Digit) more, rest = e.val :: more → timeEnd.matchStart? more = none) :
    Overruns (time.text ++ ':' :: d.val :: rest)
  /-- Digits follow the mark of a half of the day. -/
  | mark (time : Time) {gap mark : List Char} (blank : Blank gap)
    (spells : Spells (halfMark blanks) mark) (d : Digit) (rest : List Char) :
    Overruns (time.text ++ (gap ++ (mark ++ ':' :: d.val :: rest)))
  /-- Digits follow a word for a time. -/
  | word {word : List Char} (named : word ∈ [noonWord, midnightWord]) (d : Digit)
    (rest : List Char) : Overruns (word ++ ':' :: d.val :: rest)

theorem shownTime_cases {token : List Char} (spells : Spells shownTime token) :
    (∃ time : Time, token = time.text) ∨
    (∃ time : Time, ∃ gap mark, token = time.text ++ (gap ++ mark) ∧ Blank gap ∧
      Spells (halfMark blanks) mark) ∨
    token ∈ [noonWord, midnightWord] := by
  rcases spells with ⟨figures, rest, same, spellsDigits, spellsRest⟩ | noon | midnight
  · obtain ⟨time, written⟩ := spells_time spellsDigits
    rcases spellsRest with ⟨gap, mark, sameRest, between, spelled⟩ | none
    · have blank : Takes (isBlank · = true) blanks := fun _ accepted => accepted
      exact Or.inr (Or.inl ⟨time, gap, mark, by rw [same, sameRest, written],
        spells_takes blank between, spelled⟩)
    · exact Or.inl ⟨time, by rw [same, show rest = [] from none, List.append_nil, written]⟩
  · exact Or.inr (Or.inr (by rw [show token = noonWord from noon]; simp))
  · exact Or.inr (Or.inr (by rw [show token = midnightWord from midnight]; simp))

theorem no_mark_at_colon (behind : Option Char) (rest : List Char)
    (parts : List (Nat × List Char)) :
    Prefers meterMark ⟨behind, ':' :: rest, parts⟩ ⟨behind, ':' :: rest, parts⟩ := by
  refine .inSecond (readings_apart (by rfl) ?_ behind parts) .nothing
  intro c colon
  rw [← Option.some.inj colon]
  decide +kernel

theorem optional_prefers {letter : Char} {text rest : List Char}
    (spells : Spells (maybe (.letters [letter])) text)
    (ends : text = [] → rest.head? ≠ some letter) (behind : Option Char)
    (parts : List (Nat × List Char)) :
    ∃ last, Prefers (maybe (.letters [letter])) ⟨behind, text ++ rest, parts⟩
      ⟨last, rest, parts⟩ := by
  rcases spells with taken | none
  · rw [show text = [letter] from taken]
    exact ⟨_, .inFirst .letters⟩
  · rw [show text = [] from none]
    refine ⟨behind, .inSecond ?_ .nothing⟩
    cases rest with
    | nil => rfl
    | cons c rest =>
      have apart : letter ≠ c := fun same => ends none (by rw [same]; rfl)
      exact readings_letters_silent apart ..

/-- The pieces of a mark, with its point before its blanks if there is nothing but a point. -/
theorem mark_pieces {mark : List Char} (spells : Spells (halfMark blanks) mark) :
    ∃ half : Half, ∃ point gap m last, mark = half.letter :: (point ++ (gap ++ (m ++ last))) ∧
      Spells (maybe (spelled ".")) point ∧ Blank gap ∧ Spells (maybe (spelled "M")) m ∧
      Spells (maybe (spelled ".")) last ∧
      (point = [] → (gap ++ (m ++ last)).head? ≠ some '.') := by
  obtain ⟨_, last, rfl, ⟨_, m, rfl, ⟨_, gap, rfl, ⟨_, point, rfl, ⟨c, letter, rfl⟩, spellsPoint⟩,
    spellsGap⟩, spellsM⟩, spellsLast⟩ := spells
  obtain ⟨half, same⟩ := letter_accepted letter
  have takes : Takes (isBlank · = true) blanks := fun _ accepted => accepted
  have blank : Blank gap := spells_takes takes spellsGap
  have nothing : Spells (maybe (spelled "M")) [] := Or.inr rfl
  rw [same]
  cases gap with
  | cons b gap =>
    refine ⟨half, point, b :: gap, m, last, by simp, spellsPoint, blank, spellsM, spellsLast, ?_⟩
    intro _ same
    have visible : isBlank '.' = false := by decide
    rw [← Option.some.inj same, blank b List.mem_cons_self] at visible
    cases visible
  | nil =>
    rcases spellsM with written | none
    · rw [show m = ['M'] from written]
      refine ⟨half, point, [], ['M'], last, by simp, spellsPoint, blank, Or.inl rfl, spellsLast, ?_⟩
      intro _ same
      exact absurd (Option.some.inj same) (by decide)
    · rw [show m = [] from none]
      rcases spellsPoint with written | absent
      · rw [show point = ['.'] from written]
        exact ⟨half, ['.'], [], [], last, by simp, Or.inl rfl, blank, nothing, spellsLast, nofun⟩
      · rw [show point = [] from absent]
        exact ⟨half, last, [], [], [], by simp, spellsLast, blank, nothing, Or.inr rfl, nofun⟩

theorem mark_prefers {mark : List Char} (spells : Spells (halfMark blanks) mark)
    (rest : List Char) (behind : Option Char) (parts : List (Nat × List Char)) :
    ∃ last held, Prefers (halfMark blanks) ⟨behind, mark ++ ':' :: rest, parts⟩
      ⟨last, ':' :: rest, held⟩ := by
  obtain ⟨half, point, gap, m, last, same, spellsPoint, blank, spellsM, spellsLast, pointed⟩ :=
    mark_pieces spells
  have written : mark ++ ':' :: rest =
      [half.letter] ++ (point ++ (gap ++ (m ++ (last ++ ':' :: rest)))) := by
    rw [same]
    simp
  have lastOnward : ∀ c ∈ (last ++ ':' :: rest).head?, c = '.' ∨ c = ':' := by
    intro c first
    rcases spellsLast with stop | none
    · rw [show last = ['.'] from stop] at first
      exact Or.inl (Option.some.inj first).symm
    · rw [show last = [] from none] at first
      exact Or.inr (Option.some.inj first).symm
  have mOnward : ∀ c ∈ (m ++ (last ++ ':' :: rest)).head?, c = 'M' ∨ c = '.' ∨ c = ':' := by
    intro c first
    rcases spellsM with letter | none
    · rw [show m = ['M'] from letter] at first
      exact Or.inl (Option.some.inj first).symm
    · rw [show m = [] from none] at first
      exact Or.inr (lastOnward c first)
  rw [written]
  have letter : Prefers (.held 3 (among ['A', 'P']))
      ⟨behind, [half.letter] ++ (point ++ (gap ++ (m ++ (last ++ ':' :: rest)))), parts⟩
      ⟨some half.letter, point ++ (gap ++ (m ++ (last ++ ':' :: rest))),
        (3, [half.letter]) :: parts⟩ := by
    apply Prefers.held
    cases half <;> rfl
  generalize (3, [half.letter]) :: parts = held at letter
  have noPoint : point = [] → (gap ++ (m ++ (last ++ ':' :: rest))).head? ≠ some '.' := by
    intro none first
    have whole : (gap ++ (m ++ last)).head?.or (some ':') = some '.' := by
      rw [← first]
      simp
    cases begins : (gap ++ (m ++ last)).head? with
    | none =>
      rw [begins] at whole
      exact absurd (Option.some.inj whole) (by decide)
    | some c =>
      rw [begins] at whole
      exact pointed none (begins.trans whole)
  have visible : ∀ c ∈ (m ++ (last ++ ':' :: rest)).head?, isBlank c = false := by
    intro c first
    rcases mOnward c first with same | same | same <;> rw [same] <;> decide
  have noM : m = [] → (last ++ ':' :: rest).head? ≠ some 'M' := by
    intro _ first
    rcases lastOnward 'M' first with same | same <;> exact absurd same (by decide)
  have noStop : last = [] → (':' :: rest).head? ≠ some '.' := by
    intro _ first
    exact absurd (Option.some.inj first) (by decide)
  obtain ⟨a, first⟩ := optional_prefers spellsPoint noPoint (some half.letter) held
  have second : Prefers blanks _ _ := .row blank visible a held
  obtain ⟨b, third⟩ := optional_prefers spellsM noM (gap.getLast?.or a) held
  obtain ⟨d, fourth⟩ := optional_prefers spellsLast noStop b held
  exact ⟨d, held, .both (.both (.both (.both letter first) second) third) fourth⟩

theorem meterMark_accepted (start last : Place) :
    (meterMark.run last (accept start)).isSome = (timeEnd.matchStart? last.ahead).isSome := by
  have unnoticed : Unnoticed ⟨last.behind, [], last.parts⟩ meterMark := ⟨fun _ _ => rfl, nofun⟩
  have same := readings_around unnoticed (Place.start last.ahead)
  rw [Surroundings.around, Place.start, Option.none_or, List.append_nil, List.nil_append] at same
  have apart : timeEnd.matchStart? last.ahead = meterMark.run (Place.start last.ahead) fun middle =>
      (Pattern.notBefore isPlainAlphanumeric).run middle some := rfl
  rw [apart, run_eq_findSome?, run_eq_findSome?, same, List.findSome?_map, List.isSome_findSome?,
    List.isSome_findSome?]
  congr 1
  funext middle
  simp only [Function.comp_apply, accept, run, Surroundings.around, List.append_nil]
  split <;> rfl

theorem shownTime_timed {start place : Place}
    (timed : (digits ++ meterMark).run start (accept start) = some place) :
    shownTime.run start (accept start) = some place := by
  change (Pattern.either (digits ++ meterMark) _).run start (accept start) = some place
  rw [run, timed]

theorem hour_run (time : Time) (d : Digit) {rest : List Char}
    (broken : ∀ (e : Digit) more, rest = e.val :: more → timeEnd.matchStart? more = none)
    (start : Place) (same : start.ahead = time.hourText ++ ':' :: d.val :: rest) :
    ∃ place, shownTime.run start (accept start) = some place ∧
      place.ahead = ':' :: d.val :: rest := by
  obtain ⟨behind, ahead, parts⟩ := start
  dsimp only at same
  subst same
  have apart : isDigit ':' = false := by decide
  have hour := @hour_prefers parts time (':' :: d.val :: rest) (no_digit apart ..) behind
  generalize starts : Place.mk behind (time.hourText ++ ':' :: d.val :: rest) parts = start at hour ⊢
  generalize ends : Place.mk (some time.units.val) (':' :: d.val :: rest)
    ((1, time.hourText) :: parts) = last at hour
  have colon : last.ahead = ':' :: d.val :: rest := by rw [← ends]
  obtain ⟨place, accepted, ahead⟩ := @accept_colon start last _ colon
  have unmarked : meterMark.run last (accept start) = some place := by
    rw [← ends]
    exact run_preferred (no_mark_at_colon ..) (ends ▸ accepted)
  have noMinutes : (spelled ":" ++ .held 2 (digit ++ digit)).run last
      (fun later => meterMark.run later (accept start)) = none := by
    cases found : (spelled ":" ++ .held 2 (digit ++ digit)).run last
        (fun later => meterMark.run later (accept start)) with
    | none => rfl
    | some other =>
      obtain ⟨later, read, onward⟩ := run_reads found
      obtain ⟨_, ⟨_, _, rfl, sign, _, _, rfl, ten, unit⟩, cut, _⟩ := reads_spells read
      obtain ⟨e, rfl⟩ := spells_digit ten
      obtain ⟨f, rfl⟩ := spells_digit unit
      rw [show _ = [':'] from sign, colon] at cut
      have follows : rest = f.val :: later.ahead := (List.cons.inj (List.cons.inj cut).2).2
      have accepts := meterMark_accepted start later
      rw [onward, broken f later.ahead follows] at accepts
      cases accepts
  have onward : minutePart.run last (fun later => meterMark.run later (accept start)) =
      some place := by
    change (Pattern.either _ .nothing).run last _ = some place
    rw [run, noMinutes]
    exact unmarked
  exact ⟨place, shownTime_timed (@run_preferred _ _ start last hour (fun middle =>
    minutePart.run middle fun later => meterMark.run later (accept start)) place onward), ahead⟩

theorem ends_at_colon {start last : Place} (prefers : Prefers shownTime start last)
    {rest : List Char} (colon : last.ahead = ':' :: rest) :
    ∃ place, shownTime.run start (accept start) = some place ∧ place.ahead = ':' :: rest := by
  obtain ⟨place, accepted, ahead⟩ := @accept_colon start last _ colon
  exact ⟨place, run_preferred prefers accepted, ahead⟩

theorem seconds_run {time : Time} (timed : time.minutes.isSome = true) (start : Place)
    {rest : List Char} (same : start.ahead = time.text ++ ':' :: rest) :
    ∃ place, shownTime.run start (accept start) = some place ∧ place.ahead = ':' :: rest := by
  obtain ⟨behind, ahead, parts⟩ := start
  dsimp only at same
  subst same
  obtain ⟨last, _, whole⟩ := timed_prefers timed (':' :: rest) behind parts
  exact ends_at_colon (.inFirst (.both whole (no_mark_at_colon ..))) rfl

theorem mark_run (time : Time) {gap mark : List Char} (blank : Blank gap)
    (spells : Spells (halfMark blanks) mark) (start : Place) {rest : List Char}
    (same : start.ahead = time.text ++ (gap ++ (mark ++ ':' :: rest))) :
    ∃ place, shownTime.run start (accept start) = some place ∧ place.ahead = ':' :: rest := by
  obtain ⟨behind, ahead, parts⟩ := start
  dsimp only at same
  subst same
  obtain ⟨half, point, _, _, _, begins, _⟩ := mark_pieces spells
  have letter : ∀ half : Half, isBlank half.letter = false ∧ isDigit half.letter = false ∧
      half.letter ≠ ':' := by
    intro half
    cases half <;> decide
  have visible : ∀ c ∈ (mark ++ ':' :: rest).head?, isBlank c = false := by
    intro c first
    rw [begins] at first
    rw [← Option.some.inj first]
    exact (letter half).1
  have ends : ∀ c ∈ (gap ++ (mark ++ ':' :: rest)).head?, isDigit c = false ∧ c ≠ ':' := by
    intro c first
    cases gap with
    | nil =>
      rw [begins] at first
      rw [← Option.some.inj first]
      exact (letter half).2
    | cons b gap =>
      have plain := blank_plain (blank b List.mem_cons_self)
      rw [← Option.some.inj first]
      refine ⟨plain.2.2, fun colon => ?_⟩
      have solid : isBlank ':' = false := by decide
      rw [← colon, blank b List.mem_cons_self] at solid
      cases solid
  obtain ⟨last, _, whole⟩ := digits_prefer time _ ends behind parts
  have between : Prefers blanks _ _ := .row blank visible (some last) (time.held ++ parts)
  obtain ⟨final, held, marked⟩ := mark_prefers spells rest (gap.getLast?.or (some last))
    (time.held ++ parts)
  exact ends_at_colon (.inFirst (.both whole (.inFirst (.both between marked)))) rfl

theorem word_run {word : List Char} (named : word ∈ [noonWord, midnightWord]) (start : Place)
    {rest : List Char} (same : start.ahead = word ++ ':' :: rest) :
    ∃ place, shownTime.run start (accept start) = some place ∧ place.ahead = ':' :: rest := by
  obtain ⟨behind, ahead, parts⟩ := start
  dsimp only at same
  subst same
  rcases List.mem_cons.mp named with noon | listed
  · rw [noon]
    have first : Prefers (spelled "NOON") ⟨behind, noonWord ++ ':' :: rest, parts⟩ _ := .letters
    exact ends_at_colon (.inSecond (readings_barred (by decide) ..) (.inFirst first)) rfl
  · rw [List.mem_singleton.mp listed]
    have second : Prefers (spelled "MIDNIGHT") ⟨behind, midnightWord ++ ':' :: rest, parts⟩ _ :=
      .letters
    exact ends_at_colon (.inSecond (readings_barred (by decide) ..)
      (.inSecond (readings_barred (by decide) ..) second)) rfl

theorem overruns_run {tail : List Char} (overruns : Overruns tail) {start : Place}
    (same : start.ahead = tail) :
    ∃ place, shownTime.run start (accept start) = some place ∧ ColonFollows place.ahead := by
  cases overruns with
  | seconds time timed d rest =>
    obtain ⟨place, found, ahead⟩ := seconds_run timed start same
    exact ⟨place, found, d, rest, ahead⟩
  | minutes time bare d rest broken =>
    have hour : time.text = time.hourText := by
      rw [Time.text, bare, Option.isSome_none, if_neg Bool.false_ne_true, List.append_nil]
    obtain ⟨place, found, ahead⟩ := hour_run time d broken start (hour ▸ same)
    exact ⟨place, found, d, rest, ahead⟩
  | @mark time gap mark blank spells d rest =>
    obtain ⟨place, found, ahead⟩ := mark_run time blank spells start same
    exact ⟨place, found, d, rest, ahead⟩
  | @word word named d rest =>
    obtain ⟨place, found, ahead⟩ := word_run named start same
    exact ⟨place, found, d, rest, ahead⟩

theorem minutes_run {time : Time} (timed : time.minutes.isSome = true) (start : Place)
    {more : List Char} (same : start.ahead = time.text ++ more)
    (ending : (timeEnd.matchStart? more).isSome = true) :
    ∃ place, shownTime.run start (accept start) = some place ∧
      place.ahead.length ≤ more.length := by
  obtain ⟨behind, ahead, parts⟩ := start
  dsimp only at same
  subst same
  obtain ⟨last, _, whole⟩ := timed_prefers timed more behind parts
  generalize Place.mk behind (time.text ++ more) parts = start at whole ⊢
  have accepts := meterMark_accepted start ⟨some last, more, time.held ++ parts⟩
  rw [ending] at accepts
  obtain ⟨place, accepted⟩ := Option.isSome_iff_exists.mp accepts
  refine ⟨place, shownTime_timed (run_preferred whole accepted), ?_⟩
  obtain ⟨final, mark, ended⟩ := run_reads accepted
  obtain ⟨text, _, cut, _⟩ := reads_spells mark
  have length : more.length = text.length + final.ahead.length := by
    rw [← List.length_append, ← cut]
  rw [(accept_eq ended).1, length]
  exact Nat.le_add_left ..

theorem colon_overruns {start place : Place} {token : List Char}
    (found : shownTime.run start (accept start) = some place)
    (same : start.ahead = token ++ place.ahead) (follows : ColonFollows place.ahead) :
    Overruns (token ++ place.ahead) := by
  obtain ⟨d, rest, colon⟩ := follows
  obtain ⟨last, read, accepted⟩ := run_reads found
  obtain ⟨text, spells, cut, _⟩ := reads_spells read
  obtain ⟨_, ahead, _⟩ := accept_some accepted cut
  have own : text = token := by
    apply List.append_cancel_right
    rw [← cut, same, ahead]
  rw [own] at spells
  rw [colon] at same ⊢
  rcases shownTime_cases spells with ⟨time, written⟩ | ⟨time, gap, mark, written, blank, marked⟩ | word
  · rw [written] at same ⊢
    cases timed : time.minutes with
    | some pair => exact .seconds time (by rw [timed]; rfl) d rest
    | none =>
      refine .minutes time timed d rest fun e more onward => ?_
      have longer : start.ahead = Time.text ⟨time.tens, time.units, some (d, e)⟩ ++ more := by
        rw [same, onward, Time.text, timed, Time.text]
        simp [Time.hourText, Time.minuteText]
      apply Option.not_isSome_iff_eq_none.mp
      intro ending
      -- Minutes that may end the time would have been read.
      obtain ⟨other, there, shorter⟩ := minutes_run (by rfl) start longer ending
      cases there.symm.trans found
      rw [colon, onward, List.length_cons, List.length_cons, List.length_cons] at shorter
      omega
  · rw [written, List.append_assoc, List.append_assoc]
    exact .mark time blank marked d rest
  · exact .word word d rest

/-- The hours that mean the same in a half of the day as on a 24-hour clock. -/
def SameHour : Half → Nat → Prop
  | .morning, hour => 1 ≤ hour ∧ hour < 12
  | .afternoon, hour => hour = 12

theorem half_agrees_iff {hour minute : Nat} {m : Minute}
    (read : Minute.ofClock? hour minute = some m) (half : Half) :
    minuteIn (some half) hour minute = some m ↔ SameHour half hour := by
  unfold Minute.ofClock? at read
  split at read
  next onClock =>
    have own : m.val = hour * 60 + minute := by rw [← Option.some.inj read]
    constructor
    · intro agrees
      obtain ⟨meant, inHalf, onFace⟩ := Option.bind_eq_some_iff.mp agrees
      unfold Minute.ofClock? at onFace
      split at onFace
      · have other : m.val = meant * 60 + minute := by rw [← Option.some.inj onFace]
        unfold Half.hourOf? at inHalf
        split at inHalf
        · cases half <;> simp only [SameHour, Option.some.injEq] at * <;> omega
        · cases inHalf
      · cases onFace
    · intro sameHour
      have inHalf : half.hourOf? hour = some hour := by
        unfold Half.hourOf?
        cases half <;> simp only [SameHour] at sameHour
        · rw [if_pos (by omega), Nat.mod_eq_of_lt sameHour.2]
          rfl
        · rw [sameHour]
          rfl
      rw [minuteIn, inHalf, Option.bind_some, Minute.ofClock?, dif_pos onClock]
      exact read
  · cases read

/-- The time until which parking is paid is what a token on the display says, up to where no letter
or digit follows. A colon and a digit follow exactly where the display goes on so behind a time that
ends there. Where seconds follow the minutes, the time is read on a 24-hour clock whatever half of
the day is printed behind them. -/
theorem paid_time_read {printed : List Char} {minute : Minute}
    (paid : readMeter? printed = some (some minute)) :
    ∃ before phrase place lead token, Leftmost meterDisplay (upper printed) before phrase place ∧
      phrase = lead ++ (token ++ place.ahead) ∧ place.part? 4 = some token ∧
      readToken? token = some minute ∧ place.ahead.head?.any isPlainAlphanumeric = false ∧
      (ColonFollows place.ahead ↔ Overruns (token ++ place.ahead)) ∧
      ∀ (time : Time) (d : Digit) (rest : List Char), time.minutes.isSome = true →
        token ++ place.ahead = time.text ++ ':' :: d.val :: rest →
        token = time.text ∧ minuteIn none time.hour time.minute = some minute ∧
        ∀ half, minuteIn (some half) time.hour time.minute = some minute ↔
          SameHour half time.hour := by
  obtain ⟨place, found, answer⟩ := Option.map_eq_some_iff.mp paid
  obtain ⟨token, held, read⟩ := Option.bind_eq_some_iff.mp answer
  obtain ⟨before, phrase, leftmost⟩ := leftmost_of_search? found
  obtain ⟨start, leads, timed⟩ := meterDisplay_run rfl leftmost.matched held
  obtain ⟨lead, _, cutLead, _⟩ := reads_spells leads
  obtain ⟨last, reads, accepted⟩ := run_reads timed
  obtain ⟨text, _, cut, _⟩ := reads_spells reads
  obtain ⟨own, ahead, ended⟩ := accept_some accepted cut
  cases Option.some.inj (own.symm.trans held)
  rw [← ahead] at cut ended
  refine ⟨before, phrase, place, lead, token, leftmost, cutLead.trans (by rw [cut]), held, read,
    ended, ⟨colon_overruns timed cut, ?_⟩, ?_⟩
  · intro overruns
    obtain ⟨other, there, follows⟩ := overruns_run overruns cut
    cases there.symm.trans timed
    exact follows
  · intro time d rest minutes same
    obtain ⟨other, there, onward⟩ := seconds_run minutes start (cut.trans same)
    cases there.symm.trans timed
    rw [onward] at same
    have whole : token = time.text := List.append_cancel_right same
    rw [whole, readToken?_text] at read
    exact ⟨whole, read, half_agrees_iff read⟩

def eveningDisplay : List Char := "EXPIRES AT 8:30 PM".toList

def evening : Minute := ⟨1230, by decide⟩

theorem evening_shown : readMeter? eveningDisplay = some (some evening) ∧
    ∃ before phrase place lead token,
      Leftmost meterDisplay (upper eveningDisplay) before phrase place ∧
      phrase = lead ++ (token ++ place.ahead) ∧ place.part? 4 = some token ∧
      readToken? token = some evening ∧ ¬ ColonFollows place.ahead := by
  have paid : readMeter? eveningDisplay = some (some evening) := by decide +kernel
  obtain ⟨before, phrase, place, lead, token, leftmost, same, held, read, _⟩ := paid_time_read paid
  have atStart : Leftmost meterDisplay (upper eveningDisplay) [] (upper eveningDisplay)
      ⟨some 'M', [], _⟩ := leftmost_at_start rfl
  refine ⟨paid, before, phrase, place, lead, token, leftmost, same, held, read, ?_⟩
  rintro ⟨d, rest, follows⟩
  rw [(leftmost.unique atStart).2.2] at follows
  cases follows

/-- With seconds, half past eight in the evening is read as half past eight in the morning. -/
theorem seconds_lose_evening : readMeter? eveningDisplay = some (some evening) ∧
    readMeter? "EXPIRES AT 8:30:45 PM".toList = some (some ⟨510, by decide⟩) ∧
    ∃ place, Leftmost meterDisplay (upper "EXPIRES AT 8:30:45 PM".toList) []
        (upper "EXPIRES AT 8:30:45 PM".toList) place ∧
      place.part? 4 = some "8:30".toList ∧ place.ahead = ":45 PM".toList ∧
      ColonFollows place.ahead := by
  refine ⟨by decide +kernel, by decide +kernel, ⟨some '0', ":45 PM".toList, _⟩,
    leftmost_at_start rfl, rfl, rfl, ⟨'4', by decide⟩, "5 PM".toList, rfl⟩

end Curbside.Proofs.PaidTimes

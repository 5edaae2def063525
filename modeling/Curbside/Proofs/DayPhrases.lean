import Curbside.Proofs.Cutting
import Curbside.Proofs.Extraction

/-! When no days are read off a text. That is so if no phrase in it names a day, and, though nobody
who reads the text can tell the two apart, if lists of exceptions take away every day and nothing
else is named. Otherwise an excepted day stays away as long as another one is left. -/

namespace Curbside.Proofs.DayPhrases
open Text Pattern Days Reading Spelling Conversion Layout Phrases Cutting Extraction

/-- The phrases that name days. -/
def phrases : List Pattern := [dayRange, everyDay, weekdaysWord, weekendsWord, oneDay]

/-- Nothing in a text names a day. -/
def NamesNone (text : List Char) : Prop := ∀ phrase ∈ phrases, phrase.occursIn text = false

instance (text : List Char) : Decidable (NamesNone text) :=
  inferInstanceAs (Decidable (∀ phrase ∈ phrases, phrase.occursIn text = false))

theorem mem_union {first second : DaySet} {day : Weekday} :
    day ∈ first ∪ second ↔ day ∈ first ∨ day ∈ second := by
  rw [DaySet.mem_iff, DaySet.has_union, Bool.or_eq_true]
  exact Iff.rfl

theorem mem_without {first second : DaySet} {day : Weekday} :
    day ∈ first \ second ↔ day ∈ first ∧ ¬ day ∈ second := by
  rw [DaySet.mem_iff, DaySet.has_without, Bool.and_eq_true, Bool.not_eq_true', ← Bool.not_eq_true]
  exact Iff.rfl

theorem eq_empty_iff {days : DaySet} : days = DaySet.empty ↔ ∀ day, ¬ day ∈ days := by
  constructor
  · intro same
    rw [same]
    exact DaySet.not_mem_empty
  · intro none
    apply Classical.byContradiction
    intro some
    obtain ⟨day, inside⟩ := exists_mem_of_ne_empty some
    exact none day inside

theorem mem_collect {matched : List Place} {days : Place → DaySet} {day : Weekday} :
    day ∈ collect matched days ↔ ∃ place ∈ matched, day ∈ days place := by
  have gathered (set : DaySet) : day ∈ matched.foldl (fun set place => set ∪ days place) set ↔
      day ∈ set ∨ ∃ place ∈ matched, day ∈ days place := by
    induction matched generalizing set with
    | nil => simp
    | cons place more ih =>
      simp only [List.foldl_cons, ih, mem_union, List.mem_cons, exists_eq_or_imp, or_assoc]
  exact (gathered DaySet.empty).trans (or_iff_right (DaySet.not_mem_empty day))

theorem mem_ifPhrase {phrase : Pattern} {text : List Char} {days : DaySet} {day : Weekday} :
    day ∈ ifPhrase phrase text days ↔ phrase.occursIn text = true ∧ day ∈ days := by
  unfold ifPhrase
  split
  next found => exact (and_iff_right found).symm
  next absent => exact iff_of_false (DaySet.not_mem_empty day) fun found => absent found.1

theorem mem_named {text : List Char} {day : Weekday} : day ∈ named text ↔
    (∃ place ∈ dayRange.findAll text, day ∈ daysBetween place) ∨
    (everyDay.occursIn (dayRange.blot text) = true ∧ day ∈ DaySet.all) ∨
    (weekdaysWord.occursIn (dayRange.blot text) = true ∧ day ∈ DaySet.workdays) ∨
    (weekendsWord.occursIn (dayRange.blot text) = true ∧ day ∈ DaySet.weekend) ∨
    ∃ place ∈ oneDay.findAll (dayRange.blot text), day ∈ daysNamed (place.part 1) := by
  unfold named
  simp only [mem_union, mem_collect, mem_ifPhrase, or_assoc]

theorem daysNamed_some {name : List Char} (names : NamesDay name) :
    ∃ day, day ∈ daysNamed name := by
  have single : ∀ day, day ∈ DaySet.single day := by decide
  obtain ⟨day, same⟩ := Option.isSome_iff_exists.mp names
  refine ⟨day, ?_⟩
  rw [daysNamed, same]
  exact single day

theorem daysBetween_some {place : Place} (first : NamesDay (place.part 1))
    (last : NamesDay (place.part 2)) : ∃ day, day ∈ daysBetween place := by
  have starts : ∀ day other, day ∈ DaySet.span day other := by decide
  obtain ⟨day, same⟩ := Option.isSome_iff_exists.mp first
  obtain ⟨other, otherSame⟩ := Option.isSome_iff_exists.mp last
  refine ⟨day, ?_⟩
  rw [daysBetween, same, otherSame]
  exact starts day other

/-- The days of a text are empty exactly if no phrase in it names a day. -/
theorem named_eq_empty_iff {text : List Char} : named text = DaySet.empty ↔ NamesNone text := by
  rw [eq_empty_iff]
  constructor
  · intro none
    have noRange : dayRange.occursIn text = false := by
      rw [← findAll_eq_nil_iff rfl, List.eq_nil_iff_forall_not_mem]
      intro place member
      obtain ⟨day, inside⟩ := daysBetween_some ((text_converts text).firstDay place member)
        ((text_converts text).lastDay place member)
      exact none day (mem_named.mpr (Or.inl ⟨place, member, inside⟩))
    have rest : dayRange.blot text = text := blot_eq_self rfl noRange
    simp only [mem_named, rest] at none
    have noName : oneDay.occursIn text = false := by
      rw [← findAll_eq_nil_iff rfl, List.eq_nil_iff_forall_not_mem]
      intro place member
      obtain ⟨day, inside⟩ := daysNamed_some ((text_converts text).day place member)
      exact none day (Or.inr (Or.inr (Or.inr (Or.inr ⟨place, member, inside⟩))))
    have noWord : everyDay.occursIn text = false ∧ weekdaysWord.occursIn text = false ∧
        weekendsWord.occursIn text = false := by
      refine ⟨?_, ?_, ?_⟩ <;> rw [← Bool.not_eq_true] <;> intro found
      · exact none .monday (Or.inr (Or.inl ⟨found, by decide⟩))
      · exact none .monday (Or.inr (Or.inr (Or.inl ⟨found, by decide⟩)))
      · exact none .sunday (Or.inr (Or.inr (Or.inr (Or.inl ⟨found, by decide⟩))))
    intro phrase listed
    simp only [phrases, List.mem_cons, List.not_mem_nil, or_false] at listed
    rcases listed with same | same | same | same | same <;> rw [same]
    · exact noRange
    · exact noWord.1
    · exact noWord.2.1
    · exact noWord.2.2
    · exact noName
  · intro none day inside
    have noRange := none dayRange (by simp [phrases])
    rw [mem_named, blot_eq_self rfl noRange, (findAll_eq_nil_iff rfl).mpr noRange,
      (findAll_eq_nil_iff rfl).mpr (none oneDay (by simp [phrases]))] at inside
    simp [none everyDay (by simp [phrases]), none weekdaysWord (by simp [phrases]),
      none weekendsWord (by simp [phrases])] at inside

theorem name_word {place middle later : Place} (name : Reads dayName place middle)
    (ending : Reads Days.plural middle later) :
    place.ahead.head?.any isWord = true ∧ later.behind.any isWord = true :=
  reads_word (.both name ending) (by decide) (by decide)

theorem dash_apart {place later : Place} (read : Reads dash place later) :
    place.ahead.head?.any isWord = false := by
  have signs : ∀ sign ∈ ["-", "–", "—"], sign.toList ≠ [] ∧
      sign.toList.head?.any isWord = false := by decide +kernel
  obtain ⟨_, listed, read⟩ := @anyOf_reads (["-", "–", "—"].map spelled) place later read
  obtain ⟨sign, member, same⟩ := List.mem_map.mp listed
  subst same
  obtain ⟨some, apart⟩ := signs sign member
  cases read with
  | letters spelled =>
    rw [List.head?_eq_some_head some] at apart
    rw [spelled, List.head?_append, List.head?_eq_some_head some]
    exact apart

theorem space_apart {place later : Place} (read : Reads (among [' ', '\t']) place later) :
    place.ahead.head?.any isWord = false := by
  cases read with
  | one accepted => exact (blank_plain (space_blank accepted)).2.1

/-- The name before a range goes on is a whole word, whatever joins the two names. -/
theorem link_edge {place middle later : Place} (between : Reads spaces place middle)
    (link : Reads dayLink middle later) (word : place.behind.any isWord = true) :
    place.isWordEdge = true := by
  cases between with
  | manyMore head _ => exact (edge_after word).mpr (space_apart head)
  | manyDone =>
    obtain ⟨joint, listed, read⟩ := anyOf_reads link
    simp only [List.mem_cons, List.not_mem_nil, or_false] at listed
    rcases listed with same | same | same | same <;> subst same
    · exact (edge_after word).mpr (dash_apart read)
    · exact (asWord_reads read).1
    · exact (asWord_reads read).1
    · exact (asWord_reads read).1

/-- A phrase that names days begins at a place and ends before another one. -/
def Names (place later : Place) : Prop :=
  ∃ phrase ∈ phrases, lettered phrase = true ∧
    ∃ last remaining, Reads phrase place last ∧ last.ahead = remaining ++ later.ahead

/-- The ends of an entry in a list of days lie between words. -/
structure Apart (place later : Place) : Prop where
  start : place.behind.any isWord = false
  finish : later.ahead.head?.any isWord = false

theorem oneDay_reads {place middle later : Place} (before : place.isWordEdge = true)
    (name : Reads dayName place middle) (ending : Reads Days.plural middle later)
    (after : later.isWordEdge = true) :
    ∃ last, Reads oneDay place last ∧ last.ahead = later.ahead := by
  obtain ⟨held, ending⟩ := reads_part ending (by rfl) (List.append_nil _).symm
    (List.append_nil _).symm ((1, place.textUntil middle) :: middle.parts)
  exact ⟨_, .both (.both (.wordEdge before) (.both (.held name) ending)) (.wordEdge after), rfl⟩

theorem listedName_reads {place later : Place} (read : Reads listedName place later) :
    Apart place later ∧ Names place later := by
  obtain ⟨before, inside, after⟩ := asWord_reads read
  cases inside with
  | @both _ _ _ middle _ first range =>
    cases first with
    | both name ending =>
      have word := name_word name ending
      -- Whether or not a range goes on, the first name stands alone.
      have ends : middle.isWordEdge = true ∧ later.behind.any isWord = true ∧
          ∃ remaining, middle.ahead = remaining ++ later.ahead := by
        obtain ⟨remaining, _, same, _⟩ := reads_spells range
        cases range with
        | eitherSecond nothing =>
          cases nothing
          exact ⟨after, word.2, remaining, same⟩
        | eitherFirst more =>
          cases more with
          | both more lastEnding =>
            cases more with
            | both more lastName =>
              cases more with
              | both more _ =>
                cases more with
                | both between link =>
                  have lastWord := (name_word lastName lastEnding).2
                  exact ⟨link_edge between link word.2, lastWord, remaining, same⟩
      obtain ⟨edge, lastWord, remaining, same⟩ := ends
      obtain ⟨last, day, stops⟩ := oneDay_reads before name ending edge
      refine ⟨⟨(edge_before word.1).mp before, (edge_after lastWord).mp after⟩, ?_⟩
      exact ⟨oneDay, by simp [phrases], by decide, last, remaining, day, stops.trans same⟩

theorem listedWord_reads {p : Pattern} (listed : asWord p ∈ phrases) (moving : advances p = true)
    (plain : lettered p = true) {place later : Place} (read : Reads (asWord p) place later) :
    Apart place later ∧ Names place later := by
  obtain ⟨before, inside, after⟩ := asWord_reads read
  have word := reads_word inside moving plain
  have whole : lettered (asWord p) = (true && lettered p && true) := rfl
  rw [plain] at whole
  refine ⟨⟨(edge_before word.1).mp before, (edge_after word.2).mp after⟩, ?_⟩
  exact ⟨asWord p, listed, whole, later, [], read, rfl⟩

/-- Every entry of a list of days stands alone and names a day. -/
theorem listedDays_reads {place later : Place} (read : Reads listedDays place later) :
    Apart place later ∧ Names place later := by
  obtain ⟨entry, listed, read⟩ := anyOf_reads read
  simp only [List.mem_cons, List.not_mem_nil, or_false] at listed
  rcases listed with same | same | same <;> subst same
  · exact listedName_reads read
  · exact listedWord_reads (by simp [phrases, weekdaysWord]) (by decide) (by decide) read
  · exact listedWord_reads (by simp [phrases, weekendsWord]) (by decide) (by decide) read

/-- However many entries follow, a list of days ends between words. -/
theorem moreDays_apart {place later : Place} (read : Reads moreDays place later)
    (apart : place.ahead.head?.any isWord = false) : later.ahead.head?.any isWord = false := by
  unfold moreDays at read
  generalize same : Pattern.many (spaces ++ listLink ++ spaces ++ listedDays) = p at read
  induction read with
  | manyDone => exact apart
  | manyMore head _ _ ih =>
    cases same
    cases head with
    | both _ entry => exact ih (listedDays_reads entry).1.finish rfl
  | _ => cases same

theorem list_reads {place later : Place} (read : Reads (listedDays ++ moreDays) place later) :
    Apart place later ∧ Names place later := by
  cases read with
  | both first more =>
    obtain ⟨⟨start, finish⟩, phrase, listed, plain, last, remaining, read, stops⟩ :=
      listedDays_reads first
    obtain ⟨passed, _, same, _⟩ := reads_spells more
    refine ⟨⟨start, moreDays_apart more finish⟩, phrase, listed, plain, last, remaining ++ passed,
      read, ?_⟩
    rw [stops, same, List.append_assoc]

/-- A list of days names one also if it stands by itself. -/
theorem Names.alone {place later : Place} (names : Names place later) (apart : Apart place later)
    {text : List Char} (same : place.ahead = text ++ later.ahead) : ¬ NamesNone text := by
  obtain ⟨phrase, listed, plain, last, remaining, read, stops⟩ := names
  obtain ⟨held, read⟩ := reads_part read apart.finish same stops []
  have spread : Spread [] text text := by simpa using spread_refl text []
  have spaced : Spaced [] ⟨place.behind, text, []⟩ ⟨none, text, []⟩ := ⟨spread, apart.start.symm⟩
  obtain ⟨_, read, _⟩ := (lettered_loose plain).reads .nothing read spaced
  have found : phrase.occursIn ([] ++ text) = true := occursIn_of_reads (lettered_loose plain) read
  exact fun none => absurd found (Bool.eq_false_iff.mp (none phrase listed))

/-- A list of days names one in the whole text. -/
theorem Names.within {place later : Place} (names : Names place later) {front : List Char}
    (behind : place.behind = front.getLast?) : ¬ NamesNone (front ++ place.ahead) := by
  obtain ⟨phrase, listed, plain, last, remaining, read, stops⟩ := names
  obtain ⟨held, read⟩ := reads_part read (by rfl) (List.append_nil _).symm
    (List.append_nil _).symm []
  rw [behind] at read
  have found : phrase.occursIn (front ++ place.ahead) = true :=
    occursIn_of_reads (lettered_loose plain) read
  exact fun none => absurd found (Bool.eq_false_iff.mp (none phrase listed))

/-- A match of a qualified list goes over the qualifying word to a list of days, which it holds. -/
theorem qualified_reads {start place : Place} (read : Reads qualified start place) :
    ∃ middle last passed, start.ahead = passed ++ middle.ahead ∧
      middle.behind = passed.getLast?.or start.behind ∧
      Reads (listedDays ++ moreDays) middle last ∧
      place.part 4 = middle.textUntil last := by
  cases read with
  | @both _ _ _ middle _ word list =>
    obtain ⟨passed, _, same, behind⟩ := reads_spells word
    cases list with
    | held list => exact ⟨middle, _, passed, same, behind, list, rfl⟩

theorem qualified_named {text : List Char} {place : Place}
    (member : place ∈ qualified.findAll text) :
    ¬ NamesNone text ∧ ¬ NamesNone (place.part 4) := by
  obtain ⟨front, rest, cut, read⟩ := findAll_reads member
  obtain ⟨middle, last, passed, same, behind, list, held⟩ := qualified_reads read
  obtain ⟨apart, names⟩ := list_reads list
  obtain ⟨_, _, listSame, _⟩ := reads_spells list
  constructor
  · rw [cut, show rest = passed ++ middle.ahead from same, ← List.append_assoc]
    apply names.within
    rw [behind, List.getLast?_append]
  · rw [held, textUntil_eq listSame]
    exact names.alone apart listSame

/-- A day is in a list of exceptions. -/
def Excepted (text : List Char) (day : Weekday) : Prop :=
  ∃ place ∈ qualified.findAll text, isException place = true ∧ day ∈ named (place.part 4)

def Included (text : List Char) (day : Weekday) : Prop :=
  ∃ place ∈ qualified.findAll text, isException place = false ∧ day ∈ named (place.part 4)

/-- A day is left when the exceptions are taken away. Where no day is named besides the lists, they
are taken from all days. -/
structure Remains (text : List Char) (day : Weekday) : Prop where
  stated : day ∈ (named (qualified.blot text)).orAll ∨ Included text day
  kept : ¬ Excepted text day

def excludedDays (text : List Char) : DaySet :=
  collect ((qualified.findAll text).filter isException) fun place => named (place.part 4)

def includedDays (text : List Char) : DaySet :=
  collect ((qualified.findAll text).filter (!isException ·)) fun place => named (place.part 4)

def daysLeft (text : List Char) : DaySet :=
  ((named (qualified.blot text)).orAll ∪ includedDays text) \ excludedDays text

theorem read_eq (printed : List Char) : Days.read printed =
    if includedDays (upper printed) = DaySet.empty ∧
        excludedDays (upper printed) = DaySet.empty then
      named (qualified.blot (upper printed))
    else if daysLeft (upper printed) = DaySet.empty then named (qualified.blot (upper printed))
    else daysLeft (upper printed) := rfl

theorem mem_excludedDays {text : List Char} {day : Weekday} :
    day ∈ excludedDays text ↔ Excepted text day := by
  rw [excludedDays, mem_collect]
  simp only [List.mem_filter, and_assoc]
  exact Iff.rfl

theorem mem_includedDays {text : List Char} {day : Weekday} :
    day ∈ includedDays text ↔ Included text day := by
  rw [includedDays, mem_collect]
  simp only [List.mem_filter, and_assoc, Bool.not_eq_true']
  exact Iff.rfl

theorem mem_daysLeft {text : List Char} {day : Weekday} :
    day ∈ daysLeft text ↔ Remains text day := by
  rw [daysLeft, mem_without, mem_union, mem_includedDays, mem_excludedDays]
  exact ⟨fun left => ⟨left.1, left.2⟩, fun remains => ⟨remains.stated, remains.kept⟩⟩

theorem list_qualifies {text : List Char} {place : Place}
    (member : place ∈ qualified.findAll text) :
    ∃ day, Excepted text day ∨ Included text day := by
  have some : named (place.part 4) ≠ DaySet.empty :=
    fun none => (qualified_named member).2 (named_eq_empty_iff.mp none)
  obtain ⟨day, inside⟩ := exists_mem_of_ne_empty some
  refine ⟨day, ?_⟩
  cases exception : isException place with
  | true => exact Or.inl ⟨place, member, exception, inside⟩
  | false => exact Or.inr ⟨place, member, exception, inside⟩

section
variable {printed : List Char}

theorem read_unqualified (none : qualified.findAll (upper printed) = []) :
    Days.read printed = named (upper printed) := by
  have nothing : includedDays (upper printed) = DaySet.empty ∧
      excludedDays (upper printed) = DaySet.empty := by
    rw [includedDays, excludedDays, none]
    exact ⟨rfl, rfl⟩
  rw [read_eq, if_pos nothing, blot_eq_self rfl ((findAll_eq_nil_iff rfl).mp none)]

/-- Exceptions that leave no day are passed over. -/
theorem read_base (none : ∀ day, ¬ Remains (upper printed) day) :
    Days.read printed = named (qualified.blot (upper printed)) := by
  have nothing : daysLeft (upper printed) = DaySet.empty := by
    rw [eq_empty_iff]
    intro day left
    exact none day (mem_daysLeft.mp left)
  rw [read_eq, if_pos nothing, ite_self]

/-- Exceptions that leave some day are taken away. -/
theorem mem_read {day other : Weekday}
    (qualifies : Excepted (upper printed) day ∨ Included (upper printed) day)
    (remains : Remains (upper printed) other) (any : Weekday) :
    any ∈ Days.read printed ↔ Remains (upper printed) any := by
  have listed : ¬ (includedDays (upper printed) = DaySet.empty ∧
      excludedDays (upper printed) = DaySet.empty) := by
    intro empty
    rcases qualifies with excepted | included
    · exact eq_empty_iff.mp empty.2 day (mem_excludedDays.mpr excepted)
    · exact eq_empty_iff.mp empty.1 day (mem_includedDays.mpr included)
  have some : daysLeft (upper printed) ≠ DaySet.empty :=
    fun empty => eq_empty_iff.mp empty other (mem_daysLeft.mpr remains)
  rw [read_eq, if_neg listed, if_neg some, mem_daysLeft]

end

/-- Nothing is read exactly if no phrase names a day or if exceptions take away every day while the
rest names none. An excepted day is not read as long as another one remains, and that one is. -/
theorem read_nothing_iff (printed : List Char) :
    (Days.read printed = DaySet.empty ↔
      NamesNone (upper printed) ∨
        (NamesNone (qualified.blot (upper printed)) ∧ ∀ day, Excepted (upper printed) day)) ∧
    ∀ day other, Excepted (upper printed) day → Remains (upper printed) other →
      ¬ day ∈ Days.read printed ∧ other ∈ Days.read printed := by
  have every : ∀ day, day ∈ DaySet.all := by decide
  refine ⟨⟨?_, ?_⟩, ?_⟩
  · intro empty
    cases lists : qualified.findAll (upper printed) with
    | nil =>
      rw [read_unqualified lists, named_eq_empty_iff] at empty
      exact Or.inl empty
    | cons place more =>
      obtain ⟨day, qualifies⟩ := @list_qualifies _ place (by rw [lists]; exact .head more)
      have gone : ∀ other, ¬ Remains (upper printed) other := by
        intro other remains
        exact eq_empty_iff.mp empty other ((mem_read qualifies remains other).mpr remains)
      rw [read_base gone] at empty
      refine Or.inr ⟨named_eq_empty_iff.mp empty, fun other => ?_⟩
      apply Classical.byContradiction
      intro kept
      have stated : other ∈ (named (qualified.blot (upper printed))).orAll := by
        rw [empty]
        exact every other
      exact gone other ⟨Or.inl stated, kept⟩
  · rintro (none | ⟨none, all⟩)
    · have unqualified : qualified.findAll (upper printed) = [] := by
        rw [List.eq_nil_iff_forall_not_mem]
        intro place member
        exact (qualified_named member).1 none
      rw [read_unqualified unqualified, named_eq_empty_iff]
      exact none
    · rw [read_base fun day remains => remains.kept (all day), named_eq_empty_iff]
      exact none
  · intro day other excepted remains
    rw [mem_read (Or.inl excepted) remains, mem_read (Or.inl excepted) remains]
    exact ⟨fun gone => gone.kept excepted, remains⟩

def wednesdayFree : List Char := "Mon-Fri except Wed".toList

/-- A sign for the working days that leaves out Wednesday holds on Monday and not on Wednesday. -/
theorem wednesday_left_out : Excepted (upper wednesdayFree) .wednesday ∧
    Remains (upper wednesdayFree) .monday ∧ ¬ .wednesday ∈ Days.read wednesdayFree ∧
    .monday ∈ Days.read wednesdayFree := by
  have excepted : Excepted (upper wednesdayFree) .wednesday := by
    unfold Excepted
    decide +kernel
  have remains : Remains (upper wednesdayFree) .monday := by
    constructor
    · exact Or.inl (by decide +kernel)
    · unfold Excepted
      decide +kernel
  have days := (read_nothing_iff wednesdayFree).2 .wednesday .monday excepted remains
  exact ⟨excepted, remains, days.1, days.2⟩

/-- Nothing is read where a range names all days and all of them are excepted. -/
theorem whole_week_excepted : Days.read "EXCEPT MON-SUN".toList = DaySet.empty ∧
    ¬ NamesNone (upper "EXCEPT MON-SUN".toList) := by
  decide +kernel

end Curbside.Proofs.DayPhrases

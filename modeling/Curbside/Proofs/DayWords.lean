import Curbside.Proofs.DayLists
import Curbside.Proofs.RuleRecord
import Curbside.Window.Describe

/-! Sets of days in words. Behind a heading that names no days, the words for a set of days are read
as that set. -/

namespace Curbside.Proofs.DayWords
open Text Pattern Days Reading Spelling Phrases Cutting DayPhrases Preference Seams
open DayItems DayLists
open RuleRecord (days_ext)

def shortEntry (day : Weekday) : String × Weekday :=
  match day with
  | 0 => ("MON", .monday)
  | 1 => ("TUE", .tuesday)
  | 2 => ("WED", .wednesday)
  | 3 => ("THU", .thursday)
  | 4 => ("FRI", .friday)
  | 5 => ("SAT", .saturday)
  | 6 => ("SUN", .sunday)

theorem shortEntry_listed : ∀ day, shortEntry day ∈ names := by decide

/-- The name of a day in words for a set. -/
def short (day : Weekday) : Name := ⟨shortEntry day, shortEntry_listed day, false⟩

/-- The words for a set that does not hold all days, as a list of days. -/
def items (days : DaySet) : List Item :=
  if days = DaySet.workdays then [.range (short .monday) .dash (short .friday)]
  else if days = DaySet.weekend then [.range (short .saturday) .dash (short .sunday)]
  else days.toList.map fun day => .single (short day)

theorem upper_intercalate (texts : List (List Char)) :
    upper ([',', ' '].intercalate texts) = [',', ' '].intercalate (texts.map upper) := by
  have comma : upper [',', ' '] = [',', ' '] := by decide
  induction texts with
  | nil => rfl
  | cons text more ih =>
    cases more with
    | nil => simp
    | cons next others =>
      rw [List.intercalate_cons_cons, upper_append, upper_append, comma, ih]
      simp only [List.map_cons, List.intercalate_cons_cons]

theorem describe_items {days : DaySet} (some : days ≠ DaySet.all) :
    upper days.describe.toList = listText (items days) := by
  have names : ∀ day, upper (DaySet.shortName day).toList = (short day).text := by decide
  unfold DaySet.describe items
  rw [if_neg some]
  split
  · decide
  · split
    · decide
    · rw [String.toList_intercalate, listText, List.map_map, List.map_map]
      refine (upper_intercalate _).trans ?_
      rw [List.map_map]
      congr 1
      exact List.map_congr_left fun day _ => names day

theorem items_listed (days : DaySet) (day : Weekday) : Listed (items days) day ↔ day ∈ days := by
  unfold items
  split
  next workdays =>
    have range : ∀ day, Listed [.range (short .monday) .dash (short .friday)] day ↔
        day ∈ DaySet.workdays := by
      decide
    exact workdays ▸ range day
  next =>
    split
    next weekend =>
      have range : ∀ day, Listed [.range (short .saturday) .dash (short .sunday)] day ↔
          day ∈ DaySet.weekend := by
        decide
      exact weekend ▸ range day
    next =>
      have own : ∀ day, (short day).day = day := by decide
      have member : day ∈ days.toList ↔ day ∈ days := by
        rw [DaySet.toList, List.mem_filter]
        exact and_iff_right (List.mem_finRange day)
      rw [← member]
      constructor
      · rintro ⟨item, listed, covers⟩
        obtain ⟨other, inside, same⟩ := List.mem_map.mp listed
        rw [← same] at covers
        rw [show day = (short other).day from covers, own]
        exact inside
      · intro inside
        exact ⟨.single (short day), List.mem_map_of_mem inside, (own day).symm⟩

theorem items_some {days : DaySet} (some : days ≠ DaySet.empty) : items days ≠ [] := by
  obtain ⟨day, inside⟩ := Extraction.exists_mem_of_ne_empty some
  obtain ⟨item, listed, _⟩ := (items_listed days day).mpr inside
  exact List.ne_nil_of_mem listed

/-- What holds of the items of words for a set holds of its names and of two ranges. -/
theorem items_each {P : Item → Prop} (names : ∀ day, P (.single (short day)))
    (ranges : P (.range (short .monday) .dash (short .friday)) ∧
      P (.range (short .saturday) .dash (short .sunday))) (days : DaySet) :
    ∀ item ∈ items days, P item := by
  intro item listed
  unfold items at listed
  split at listed
  · exact List.mem_singleton.mp listed ▸ ranges.1
  · split at listed
    · exact List.mem_singleton.mp listed ▸ ranges.2
    · obtain ⟨day, _, same⟩ := List.mem_map.mp listed
      exact same ▸ names day

/-- The words for a set of some days have no Y, which all words for every day have. -/
theorem words_short (days : DaySet) : 'Y' ∉ listText (items days) := by
  have each := @items_each (fun item => 'Y' ∉ item.text) (by decide) (by decide) days
  intro member
  rcases mem_listText member with comma | blank | ⟨item, listed, inside⟩
  · cases comma
  · cases blank
  · exact each item listed inside

/-- The letters with which words for a set of days begin. -/
def firstLetters : List Char := "DMTWFS".toList

theorem words_begin {days : DaySet} (some : days ≠ DaySet.empty) :
    ∃ c more, upper days.describe.toList = c :: more ∧ c ∈ firstLetters := by
  have begins {text rest : List Char} (first : text.head?.any firstLetters.contains = true) :
      ∃ c more, text ++ rest = c :: more ∧ c ∈ firstLetters := by
    cases text with
    | nil => cases first
    | cons c more => exact ⟨c, more ++ rest, rfl, List.contains_iff_mem.mp first⟩
  by_cases all : days = DaySet.all
  · have words : upper DaySet.all.describe.toList = "DAILY".toList := by decide
    rw [all, words]
    exact ⟨'D', "AILY".toList, by decide, by decide⟩
  · have each := @items_each (fun item => item.text.head?.any firstLetters.contains = true)
      (by decide) (by decide) days
    obtain ⟨item, more, same⟩ := List.exists_cons_of_ne_nil (items_some some)
    rw [describe_items all, same, listText_eq]
    exact begins (each item (same ▸ List.mem_cons_self))

/-- A text before the words for a set of days that names none itself. -/
structure Heading (front : List Char) : Prop where
  leads : ∀ phrase ∈ [dayRange, weekdaysWord, weekendsWord, oneDay], Lead front phrase
  every : ∀ text, 'Y' ∉ text → everyDay.occursIn (front ++ text) = false
  last : front.getLast? = some ' '
  plain : ∀ c ∈ front, c ≠ 'C'

section
variable {front : List Char} (heading : Heading front)
include heading

/-- The word for all days is read behind a heading. -/
theorem daily_named (day : Weekday) : day ∈ named (front ++ "DAILY".toList) := by
  have every : ∀ day, day ∈ DaySet.all := by decide
  have alone : dayRange.blot "DAILY".toList = "DAILY".toList := by decide
  have listed : ∃ later, later ∈ readings everyDay ⟨some ' ', "DAILY".toList, []⟩ :=
    ⟨_, List.mem_of_head? (by rfl)⟩
  obtain ⟨later, listed⟩ := listed
  rw [← heading.last] at listed
  refine mem_named.mpr (Or.inr (Or.inl ⟨?_, every day⟩))
  rw [blot_lead (heading.leads dayRange (by simp)), alone]
  exact occursIn_of_mem listed

theorem list_behind (days : DaySet) (some : days ≠ DaySet.empty) (day : Weekday) :
    day ∈ named (front ++ listText (items days)) ↔ day ∈ days := by
  have short : 'Y' ∉ dayRange.blot (listText (items days)) := fun member =>
    (mem_blot member).elim nofun (words_short days)
  have every : everyDay.occursIn (front ++ dayRange.blot (listText (items days))) =
      everyDay.occursIn (dayRange.blot (listText (items days))) :=
    (heading.every _ short).trans
      (occursIn_without (by rfl : requires 'Y' everyDay = true) short).symm
  rw [named_lead heading.leads every, named_listed (items_some some), items_listed]

/-- Words for a set of days are read as that set. -/
theorem read_behind {days : DaySet} (some : days ≠ DaySet.empty) {printed : List Char}
    (same : upper printed = front ++ upper days.describe.toList) : Days.read printed = days := by
  have unqualified {words : List Char} (plain : ∀ c ∈ words, c ≠ 'C')
      (same : upper printed = front ++ words) : Days.read printed = named (front ++ words) := by
    have absent : 'C' ∉ front ++ words := fun member =>
      (List.mem_append.mp member).elim (fun early => heading.plain _ early rfl)
        fun late => plain _ late rfl
    have none : qualified.findAll (upper printed) = [] := by
      rw [same]
      exact (findAll_eq_nil_iff rfl).mpr
        (occursIn_without (by rfl : requires 'C' qualified = true) absent)
    rw [read_unqualified none, same]
  apply days_ext
  intro day
  apply Bool.eq_iff_iff.mpr
  by_cases all : days = DaySet.all
  · have every : ∀ day, DaySet.all.has day = true := by decide
    have words : upper days.describe.toList = "DAILY".toList := by
      rw [all]
      decide
    rw [words] at same
    rw [unqualified (by decide) same, all]
    exact iff_of_true (daily_named heading day) (every day)
  · rw [describe_items all] at same
    rw [unqualified (fun c member => (list_plain _ c member).2) same]
    exact list_behind heading days some day

end

/-- What a heading is made of. No name of a day and no word for some days begins with any of it. -/
def headingChars : List Char := "0123456789:- ALDY".toList

theorem heading_leads {front : List Char} (made : ∀ c ∈ front, c ∈ headingChars)
    (last : front.getLast? = some ' ') :
    ∀ phrase ∈ [dayRange, weekdaysWord, weekendsWord, oneDay], Lead front phrase := by
  have each : ∀ phrase ∈ [dayRange, weekdaysWord, weekendsWord, oneDay],
      advances phrase = true ∧ opensAfter ' ' phrase = true ∧
        ∀ c ∈ headingChars, barred c phrase = true := by
    decide
  intro phrase listed
  obtain ⟨moving, opens, bars⟩ := each phrase listed
  refine ⟨moving, fun c member => bars c (made c member), fun c final => ?_⟩
  rw [last] at final
  exact Option.some.inj final ▸ opens

theorem heading_plain {front : List Char} (made : ∀ c ∈ front, c ∈ headingChars) :
    ∀ c ∈ front, c ≠ 'C' := by
  have each : ∀ c ∈ headingChars, c ≠ 'C' := by decide
  exact fun c member => each c (made c member)

def allDayText : List Char := "ALL DAY ".toList

/-- ALL DAY is no word for all days, as the S of the plural is missing. -/
theorem allDay_silent (text : List Char) :
    readings everyDay ⟨none, allDayText ++ text, []⟩ = [] := by
  have gap (rest : List Char) : readings gap ⟨some 'L', ' ' :: 'D' :: rest, []⟩ =
      [⟨some ' ', 'D' :: rest, []⟩] := by
    have one : readings (.one isBlank) ⟨some 'L', ' ' :: 'D' :: rest, []⟩ =
        [⟨some ' ', 'D' :: rest, []⟩] := rfl
    have many : readings (.many (.one isBlank)) ⟨some ' ', 'D' :: rest, []⟩ =
        [⟨some ' ', 'D' :: rest, []⟩] :=
      readings_many_done (readings_barred (by decide) ..)
    change (readings (.one isBlank) _).flatMap (readings (.many (.one isBlank))) = _
    rw [one, List.flatMap_singleton, many]
  have word : readings (spelled "ALL" ++ Pattern.gap)
        ⟨none, 'A' :: 'L' :: 'L' :: ' ' :: 'D' :: 'A' :: 'Y' :: ' ' :: text, []⟩ =
      readings Pattern.gap ⟨some 'L', ' ' :: 'D' :: 'A' :: 'Y' :: ' ' :: text, []⟩ :=
    List.append_nil _
  have all : readings (spelled "ALL" ++ Pattern.gap ++ spelled "DAYS")
      ⟨none, 'A' :: 'L' :: 'L' :: ' ' :: 'D' :: 'A' :: 'Y' :: ' ' :: text, []⟩ = [] := by
    change (readings (spelled "ALL" ++ Pattern.gap) _).flatMap (readings (spelled "DAYS")) = []
    rw [word, gap]
    rfl
  exact asWord_silent all

theorem allDay_every {text : List Char} (short : 'Y' ∉ text) :
    everyDay.occursIn (allDayText ++ text) = false := by
  have start := allDay_silent text
  have day : readings everyDay ⟨some ' ', 'D' :: 'A' :: 'Y' :: ' ' :: text, []⟩ = [] :=
    asWord_silent rfl
  have tail : readings everyDay ⟨some 'D', 'A' :: 'Y' :: ' ' :: text, []⟩ = [] :=
    asWord_silent rfl
  have bars : barred 'L' everyDay = true ∧ barred ' ' everyDay = true ∧
      barred 'Y' everyDay = true := by
    decide
  have other {c : Char} (bars : barred c everyDay = true) (behind : Option Char)
      (rest : List Char) :
      everyDay.searchFrom behind (c :: rest) = everyDay.searchFrom (some c) rest :=
    searchFrom_silent (readings_barred bars ..)
  have last : everyDay.searchFrom (some ' ') text = none :=
    searchFrom_without (by rfl : requires 'Y' everyDay = true) short _
  have out : allDayText ++ text =
      'A' :: 'L' :: 'L' :: ' ' :: 'D' :: 'A' :: 'Y' :: ' ' :: text := rfl
  rw [out] at start
  rw [occursIn, search?, out, searchFrom_silent start, other bars.1, other bars.1, other bars.2.1,
    searchFrom_silent day, searchFrom_silent tail, other bars.2.2, other bars.2.1, last]
  rfl

theorem allDay_heading : Heading allDayText where
  leads := heading_leads (by decide) rfl
  every _ short := allDay_every short
  last := rfl
  plain := heading_plain (by decide)

end Curbside.Proofs.DayWords

import Curbside.Proofs.Borrowing
import Curbside.Proofs.DayWords

/-! Windows in words. What is said of a window is read back as a window that holds at the same
times, and as the same window unless it covers whole days. -/

namespace Curbside.Proofs.Wording
open Text Pattern Clock Days Sign Layout Phrases Reading Spelling Cutting Preference Seams
open TimesOfDay Borrowing DayPhrases DayItems DayLists DayWords

def plainDigits : List Char := "0123456789".toList

theorem plain_digit : ∀ c ∈ plainDigits, isDigit c = true ∧ c ∈ headingChars := by decide

/-- A number below 60 is printed in two digits. -/
theorem padded_pair : ∀ n < 60, ∃ tens ∈ plainDigits, ∃ units ∈ plainDigits,
    paddedDigits 2 (n : Nat) = [tens, units] ∧ digitsValue [tens, units] = n := by
  decide

/-- A minute of the day is printed as a time that names it. -/
theorem printed_time (minute : Minute) : ∃ time : Time, time.text = hoursAndMinutes minute.val ∧
    time.hour = minute.val / 60 ∧ time.minute = minute.val % 60 ∧
    ':' ∈ time.text ∧ ∀ c ∈ time.text, c ∈ headingChars := by
  obtain ⟨a, listedA, b, listedB, hours, hour⟩ := padded_pair (minute.val / 60) (by omega)
  obtain ⟨c, listedC, d, listedD, minutes, value⟩ := padded_pair (minute.val % 60) (by omega)
  have whole : Int.fdiv (minute.val : Int) 60 = ((minute.val / 60 : Nat) : Int) := by
    rw [Int.fdiv_eq_ediv_of_nonneg _ (by decide)]
    rfl
  have rest : Int.fmod (minute.val : Int) 60 = ((minute.val % 60 : Nat) : Int) := by
    rw [Int.fmod_eq_emod_of_nonneg _ (by decide)]
    rfl
  refine ⟨⟨some ⟨a, (plain_digit a listedA).1⟩, ⟨b, (plain_digit b listedB).1⟩,
    some (⟨c, (plain_digit c listedC).1⟩, ⟨d, (plain_digit d listedD).1⟩)⟩, ?_, hour, value, ?_, ?_⟩
  · rw [hoursAndMinutes, whole, rest, hours, minutes]
    rfl
  · exact List.mem_append_right _ List.mem_cons_self
  · intro e member
    change e ∈ [a, b, ':', c, d] at member
    simp only [List.mem_cons, List.not_mem_nil, or_false] at member
    rcases member with same | same | same | same | same <;> rw [same]
    · exact (plain_digit a listedA).2
    · exact (plain_digit b listedB).2
    · decide
    · exact (plain_digit c listedC).2
    · exact (plain_digit d listedD).2

/-- A printed minute is read as that minute. -/
theorem time_read {time : Time} {minute : Minute} (hour : time.hour = minute.val / 60)
    (rest : time.minute = minute.val % 60) : readToken? time.text = some minute := by
  have inside : minute.val / 60 ≤ 23 ∧ minute.val % 60 ≤ 59 := by omega
  rw [readToken?_text, hour, rest, Minute.ofClock?, dif_pos inside]
  congr 1
  apply Fin.ext
  dsimp only
  omega

section
variable (time : Time) {rest : List Char}

theorem word_silent {word : Char} (letter : isDigit word = false) (more : List Char)
    (behind : Option Char) (parts : List (Nat × List Char)) :
    readings (.letters (word :: more)) ⟨behind, time.text ++ rest, parts⟩ = [] := by
  obtain ⟨d, others, head, digit⟩ := time.text_head
  rw [head]
  apply readings_letters_silent
  intro same
  rw [same, digit] at letter
  cases letter

/-- A time is read as a side of a range, if neither more digits nor a mark follow. -/
theorem side_prefers (ends : ∀ c ∈ rest.head?, isDigit c = false ∧ c ≠ ':')
    (free : rest.head?.any isPlainAlphanumeric = false)
    (unmarked : ∀ behind parts, readings (spaces ++ halfMark spaces) ⟨behind, rest, parts⟩ = [])
    (behind : Option Char) (parts : List (Nat × List Char)) :
    ∃ last, Prefers side ⟨behind, time.text ++ rest, parts⟩
      ⟨some last, rest, time.held ++ parts⟩ := by
  obtain ⟨last, _, taken⟩ := digits_prefer time rest ends behind parts
  have whole : Prefers (digits ++ maybe (spaces ++ halfMark spaces))
      ⟨behind, time.text ++ rest, parts⟩ ⟨some last, rest, time.held ++ parts⟩ :=
    .both taken (.inSecond (unmarked ..) .nothing)
  have words : Prefers (anyOf [spelled "NOON", spelled "MIDNIGHT",
      digits ++ maybe (spaces ++ halfMark spaces)])
      ⟨behind, time.text ++ rest, parts⟩ ⟨some last, rest, time.held ++ parts⟩ :=
    .inSecond (word_silent time (by decide) ..) (.inSecond (word_silent time (by decide) ..) whole)
  have alone : Prefers (.notBefore isPlainAlphanumeric) ⟨some last, rest, time.held ++ parts⟩
      ⟨some last, rest, time.held ++ parts⟩ := by
    unfold Prefers
    rw [readings_notBefore, free]
    rfl
  exact ⟨last, .both words alone⟩

end

/-- A dash is no mark of a half of the day. -/
theorem dash_unmarked (rest : List Char) (behind : Option Char) (parts : List (Nat × List Char)) :
    readings (spaces ++ halfMark spaces) ⟨behind, '-' :: rest, parts⟩ = [] :=
  readings_apart rfl (fun _ first => Option.some.inj first ▸ rfl) behind parts

/-- Neither is what begins no mark behind a blank. -/
theorem blank_unmarked {c : Char} (visible : barred c (among [' ', '\t']) = true)
    (bars : barred c (halfMark spaces) = true) (rest : List Char) (behind : Option Char)
    (parts : List (Nat × List Char)) :
    readings (spaces ++ halfMark spaces) ⟨behind, ' ' :: c :: rest, parts⟩ = [] := by
  have one : readings (among [' ', '\t']) ⟨behind, ' ' :: c :: rest, parts⟩ =
      [⟨some ' ', c :: rest, parts⟩] := rfl
  have done : readings spaces ⟨some ' ', c :: rest, parts⟩ = [⟨some ' ', c :: rest, parts⟩] :=
    readings_many_done (readings_barred visible ..)
  have both : readings spaces ⟨behind, ' ' :: c :: rest, parts⟩ =
      [⟨some ' ', c :: rest, parts⟩] ++ [⟨behind, ' ' :: c :: rest, parts⟩] :=
    done ▸ readings_many_step one (Nat.lt_succ_self _)
  have blank : barred ' ' (halfMark spaces) = true := by rfl
  change (readings spaces _).flatMap (readings (halfMark spaces)) = []
  rw [both, List.flatMap_append, List.flatMap_singleton, List.flatMap_singleton,
    readings_barred bars, readings_barred blank]
  rfl

/-- Two times with a dash between them. -/
def hours (start finish : Time) : List Char := start.text ++ '-' :: finish.text

/-- Hours of 24 are read as a range where a blank follows and no mark behind it. -/
theorem range_prefers (start finish : Time) {c : Char}
    (visible : barred c (among [' ', '\t']) = true)
    (bars : barred c (halfMark spaces) = true) (more : List Char) :
    ∃ last parts, Prefers range ⟨none, hours start finish ++ ' ' :: c :: more, []⟩
        ⟨last, ' ' :: c :: more, parts⟩ ∧
      parts.lookup 4 = some start.text ∧ parts.lookup 5 = some finish.text := by
  have dash : isDigit '-' = false ∧ '-' ≠ ':' := by decide
  have blank : isDigit ' ' = false ∧ ' ' ≠ ':' := by decide
  obtain ⟨last, first⟩ := @side_prefers start ('-' :: (finish.text ++ ' ' :: c :: more))
    (fun _ first => Option.some.inj first ▸ dash) rfl (dash_unmarked _) none []
  obtain ⟨final, second⟩ := @side_prefers finish (' ' :: c :: more)
    (fun _ first => Option.some.inj first ▸ blank) rfl (blank_unmarked visible bars more)
    (some '-') ((4, start.text) :: (start.held ++ []))
  have fresh : Prefers (.notAfter fun c => isDigit c || c == ':')
      ⟨none, start.text ++ '-' :: (finish.text ++ ' ' :: c :: more), []⟩
      ⟨none, start.text ++ '-' :: (finish.text ++ ' ' :: c :: more), []⟩ := rfl
  have gap : readings (among [' ', '\t']) ⟨some '-', finish.text ++ ' ' :: c :: more,
      (4, start.text) :: (start.held ++ [])⟩ = [] := by
    obtain ⟨d, others, head, digit⟩ := finish.text_head
    rw [head]
    apply readings_barred
    exact (Bool.not_eq_true' _).mpr (Bool.eq_false_iff.mpr fun space => by
      rw [(blank_plain (space_blank space)).2.2] at digit
      cases digit)
  refine ⟨some final, (5, finish.text) :: (finish.held ++ (4, start.text) :: (start.held ++ [])),
    ?_, ?_, rfl⟩
  · rw [hours, List.append_assoc, List.cons_append]
    exact .both (.both (.both (.both (.both fresh (.held first)) (.manyDone rfl)) (.inFirst rfl))
      (.manyDone gap)) (.held second)
  · obtain ⟨tens, units, minutes⟩ := finish
    cases minutes <;> rfl

theorem range_comma : Seam ',' range := ⟨rfl, rfl, rfl⟩

/-- No range begins in a heading, or behind its blank as if the heading were part of it. -/
theorem range_leads : Lead allDayText range ∧ Lead [' '] range := by
  have opens : opensAfter ' ' range = true := rfl
  have bars : (∀ c ∈ allDayText, barred c range = true) ∧ ∀ c ∈ [' '], barred c range = true := by
    decide
  exact ⟨⟨rfl, bars.1, fun c last => Option.some.inj last ▸ opens⟩,
    rfl, bars.2, fun c last => Option.some.inj last ▸ opens⟩

theorem list_no_range {listed : List Item}
    (each : ∀ item ∈ listed, range.occursIn item.text = false) :
    range.occursIn (listText listed) = false := by
  induction listed with
  | nil => decide
  | cons item more ih =>
    have own := each item List.mem_cons_self
    cases more with
    | nil => rw [listText_single, own]
    | cons next others =>
      have rest := ih fun other later => each other (List.mem_cons_of_mem item later)
      have lead := occursIn_lead range_leads.2 (listText (next :: others))
      rw [List.singleton_append] at lead
      rw [listText_cons, occursIn_seam range_comma, own, lead, rest]
      rfl

/-- Words for a set of days hold no range of times. -/
theorem words_no_range (days : DaySet) : range.occursIn (upper days.describe.toList) = false := by
  by_cases all : days = DaySet.all
  · rw [all]
    decide
  · have each := @items_each (fun item => range.occursIn item.text = false)
      (by decide) (by decide) days
    rw [describe_items all]
    exact list_no_range each

theorem describe_allDay {window : Window} (allDay : window.isAllDay = true) :
    upper window.describe.toList = allDayText ++ upper window.days.describe.toList := by
  have heading : upper "all day ".toList = allDayText := by decide
  rw [Window.describe, if_pos allDay, String.toList_append, upper_append, heading]

/-- A window of whole days is read back as one. -/
theorem allDay_read {window : Window} (allDay : window.isAllDay = true) :
    Clock.ranges window.describe.toList = [] ∧ Days.read window.describe.toList = window.days := by
  have same := describe_allDay allDay
  refine ⟨?_, read_behind allDay_heading window.hasDays same⟩
  have none : range.findAll (upper window.describe.toList) = [] := by
    rw [same, findAll_eq_nil_iff rfl, occursIn_lead range_leads.1]
    exact words_no_range window.days
  rw [Clock.ranges, none]
  rfl

theorem hours_heading {start finish : Time} (made : ∀ c ∈ start.text, c ∈ headingChars)
    (others : ∀ c ∈ finish.text, c ∈ headingChars) : Heading (hours start finish ++ [' ']) := by
  have signs : '-' ∈ headingChars ∧ ' ' ∈ headingChars := by decide
  have digits (time : Time) : 'Y' ∉ time.text := by
    intro member
    have sign := time.mem_text member
    revert sign
    decide
  have whole : ∀ c ∈ hours start finish ++ [' '], c ∈ headingChars := by
    intro c member
    rcases List.mem_append.mp member with early | blank
    · rcases List.mem_append.mp early with first | later
      · exact made c first
      · exact (List.mem_cons.mp later).elim (fun dash => dash ▸ signs.1) (others c)
    · exact List.mem_singleton.mp blank ▸ signs.2
  have last : (hours start finish ++ [' ']).getLast? = some ' ' := List.getLast?_concat
  refine ⟨heading_leads whole last, fun text short => ?_, last, heading_plain whole⟩
  apply occursIn_without (by rfl : requires 'Y' everyDay = true)
  simp [hours, digits, short]

theorem time_upright (time : Time) : upper time.text = time.text :=
  upper_solid fun _ member => (time.text_plain member).1

theorem describe_timed {window : Window} (timed : window.isAllDay = false) {start finish : Time}
    (starts : start.text = hoursAndMinutes window.start.val)
    (ends : finish.text = hoursAndMinutes window.finish.val) :
    upper window.describe.toList =
      hours start finish ++ ' ' :: upper window.days.describe.toList := by
  have signs : upper ['-'] = ['-'] ∧ upper " ".toList = [' '] := by decide
  rw [Window.describe, if_neg (by rw [timed]; exact Bool.false_ne_true), String.toList_append,
    String.toList_append, String.toList_ofList, ← starts, ← ends, upper_append, upper_append,
    upper_append, ← List.singleton_append, upper_append, time_upright, time_upright, signs.1,
    signs.2, hours, List.append_assoc]
  rfl

/-- Hours before words for a set of days are the one range in the text. -/
theorem hours_read {start finish : Time} {opens closes : Minute}
    (first : readToken? start.text = some opens) (last : readToken? finish.text = some closes)
    (colon : ':' ∈ start.text) {days : DaySet} (some : days ≠ DaySet.empty) {printed : List Char}
    (same : upper printed = hours start finish ++ ' ' :: upper days.describe.toList) :
    Clock.ranges printed = [(opens, closes)] := by
  have letters : ∀ c ∈ firstLetters, barred c (among [' ', '\t']) = true ∧
      barred c (halfMark spaces) = true := by
    decide
  obtain ⟨c, more, words, letter⟩ := words_begin some
  have none : range.findAll (upper days.describe.toList) = [] :=
    (findAll_eq_nil_iff rfl).mpr (words_no_range days)
  rw [words] at same none
  obtain ⟨behind, parts, prefers, four, five⟩ :=
    range_prefers start finish (letters c letter).1 (letters c letter).2 more
  have found : range.findAll (upper printed) = [⟨behind, ' ' :: c :: more, parts⟩] := by
    have rest := parts_around (Option.some ' ') [] (range.cut (c :: more))
    rw [← findAll, none, List.map_nil, List.map_eq_nil_iff] at rest
    have blank : ∀ d ∈ Option.some ' ', opensAfter d range = true := range_leads.2.opens
    rw [same, findAll, cut, cutFrom_matched rfl prefers, cutFrom_kept rfl (readings_barred rfl ..),
      cutFrom_behind rfl blank, List.filterMap_cons, List.filterMap_cons]
    exact congrArg _ rest
  have colons : (start.text ++ finish.text).contains ':' = true :=
    List.contains_iff_mem.mpr (List.mem_append_left _ colon)
  have resolved : resolve? start.text finish.text = Option.some (opens, closes) := by
    simp only [resolve?, statedHalf?_text, colons, first, last]
    rfl
  rw [Clock.ranges, found, List.filterMap_cons, Place.part, Place.part?, Place.part, Place.part?,
    four, five, Option.getD_some, Option.getD_some, resolved]
  rfl

/-- A window of hours is read back as it is. -/
theorem timed_read {window : Window} (timed : window.isAllDay = false) :
    Clock.ranges window.describe.toList = [(window.start, window.finish)] ∧
      Days.read window.describe.toList = window.days := by
  obtain ⟨start, starts, hour, minute, colon, made⟩ := printed_time window.start
  obtain ⟨finish, ends, lastHour, lastMinute, _, others⟩ := printed_time window.finish
  have same := describe_timed timed starts ends
  refine ⟨hours_read (time_read hour minute) (time_read lastHour lastMinute) colon window.hasDays
    same, read_behind (hours_heading made others) window.hasDays ?_⟩
  rw [same, List.append_assoc, List.singleton_append]

/-- The windows that are read off the words for a window. -/
def readBack (window : Window) : List (Option Window) :=
  Schedule.windows ⟨Clock.ranges window.describe.toList, Days.read window.describe.toList⟩

/-- Two windows hold at the same readings of the wall clock. -/
def Alike (window other : Window) : Prop := ∀ wall, other.activeAt wall = window.activeAt wall

theorem timed_readBack {window : Window} (timed : window.isAllDay = false) :
    readBack window = [some window] := by
  obtain ⟨ranges, days⟩ := timed_read timed
  have same : Window.onDays window.start window.finish window.days = window := by
    obtain ⟨start, finish, days, hasDays⟩ := window
    simp only [Window.onDays, orAll_eq hasDays]
  rw [readBack, ranges, days, Schedule.windows]
  exact congrArg (fun window => [some window]) same

/-- A window of whole days, from midnight. -/
def wholeDays (days : DaySet) : Window := Window.onDays Minute.midnight Minute.midnight days

theorem allDay_readBack {window : Window} (allDay : window.isAllDay = true) :
    readBack window = [some (wholeDays window.days)] := by
  obtain ⟨ranges, days⟩ := allDay_read allDay
  rw [readBack, ranges, days, Schedule.windows]
  exact (if_neg Bool.false_ne_true).trans (if_pos window.hasDays)

theorem wholeDays_alike {window : Window} (allDay : window.isAllDay = true) :
    Alike window (wholeDays window.days) := by
  intro wall
  have days : (wholeDays window.days).days = window.days := orAll_eq window.hasDays
  have whole : (wholeDays window.days).isAllDay = true := rfl
  rw [Window.activeAt, Window.activeAt, if_pos allDay, if_pos whole, days]

/-- Off the words for a window, one window is read. It has the same days and holds at the same
times, and it is the window itself unless that covers whole days. -/
theorem readBack_window (window : Window) : ∃ read, readBack window = [some read] ∧
    read.days = window.days ∧ Alike window read ∧
    (window.start ≠ window.finish → read = window) := by
  cases whole : window.isAllDay with
  | true =>
    have equal : window.start = window.finish := of_decide_eq_true whole
    exact ⟨_, allDay_readBack whole, orAll_eq window.hasDays, wholeDays_alike whole,
      fun apart => absurd equal apart⟩
  | false => exact ⟨window, timed_readBack whole, rfl, fun _ => rfl, fun _ => rfl⟩

/-- The words for a window are read back, so that windows in the same words hold at the same
times. -/
theorem description_read_back (window : Window) :
    (∃ read, readBack window = [some read] ∧ read.days = window.days ∧ Alike window read ∧
      (window.start ≠ window.finish → read = window)) ∧
    ∀ other : Window, other.describe = window.describe → Alike window other := by
  refine ⟨readBack_window window, fun other same => ?_⟩
  obtain ⟨read, back, _, alike, _⟩ := readBack_window window
  obtain ⟨again, otherBack, _, otherAlike, _⟩ := readBack_window other
  have one : again = read := by
    rw [readBack, same, ← readBack, back] at otherBack
    exact (Option.some.inj (List.cons.inj otherBack).1).symm
  intro wall
  rw [← otherAlike wall, one, alike wall]

def nights (opens closes : Minute) : Window :=
  ⟨opens, closes, DaySet.ofList [.friday, .saturday], by decide⟩

def mondays (edge : Minute) : Window := ⟨edge, edge, DaySet.single .monday, by decide⟩

/-- The nights of a weekend are read back as they are, and whole Mondays are the same from whatever
minute on. -/
theorem nights_read_back :
    (nights ⟨1320, by decide⟩ ⟨120, by decide⟩).describe.toList = "22:00-02:00 Fri, Sat".toList ∧
      readBack (nights ⟨1320, by decide⟩ ⟨120, by decide⟩) =
        [some (nights ⟨1320, by decide⟩ ⟨120, by decide⟩)] ∧
      Alike (mondays ⟨480, by decide⟩) (mondays ⟨720, by decide⟩) := by
  obtain ⟨⟨read, back, _, _, same⟩, _⟩ :=
    description_read_back (nights ⟨1320, by decide⟩ ⟨120, by decide⟩)
  have alike := (description_read_back (mondays ⟨480, by decide⟩)).2
    (mondays ⟨720, by decide⟩) (by decide)
  rw [same (by decide)] at back
  exact ⟨by decide, back, alike⟩

end Curbside.Proofs.Wording

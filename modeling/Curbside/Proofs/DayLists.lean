import Curbside.Proofs.DayItems

/-! Lists of days with exceptions. EXCEPT takes the list after it as a whole, however long it is,
and nothing of the list before it. -/

namespace Curbside.Proofs.DayLists
open Text Pattern Days Reading Spelling Phrases Cutting DayPhrases Preference Seams DayItems

/-- The sign of a range that stays on its line. -/
theorem link_prefers (link : Link) (behind : Option Char) (rest : List Char)
    (parts : List (Nat × List Char)) :
    Prefers dayLink ⟨link.gap.getLast?.or behind, link.sign ++ (link.gap ++ rest), parts⟩
      ⟨link.sign.getLast?, link.gap ++ rest, parts⟩ := by
  cases link <;> rfl

theorem spaces_prefers (link : Link) {text : List Char}
    (visible : ∀ c ∈ text.head?, isBlank c = false) (behind : Option Char)
    (parts : List (Nat × List Char)) :
    Prefers spaces ⟨behind, link.gap ++ text, parts⟩
      ⟨link.gap.getLast?.or behind, text, parts⟩ := by
  refine gap_prefers link (by decide) (fun c first => ?_) behind parts
  apply Bool.eq_false_iff.mpr
  intro space
  exact Bool.false_ne_true ((visible c first).symm.trans (space_blank space))

/-- What follows an item of a list: its end or a comma. -/
def Stops (rest : List Char) : Prop := ∀ c ∈ rest.head?, c = ','

theorem Stops.apart {rest : List Char} (stops : Stops rest) : rest.head?.any isWord = false := by
  cases first : rest.head? with
  | none => rfl
  | some c =>
    rw [stops c first]
    decide

theorem rangeRest_silent {rest : List Char} (stops : Stops rest) (behind : Option Char)
    (parts : List (Nat × List Char)) : readings rangeRest ⟨behind, rest, parts⟩ = [] := by
  refine readings_apart rfl (fun c first => ?_) behind parts
  rw [stops c first]
  rfl

theorem rangeRest_prefers (link : Link) (last : Name) {rest : List Char} (stops : Stops rest)
    (behind : Option Char) (parts : List (Nat × List Char)) :
    ∃ final, isWord final = true ∧
      Prefers rangeRest
        ⟨behind, link.gap ++ (link.sign ++ (link.gap ++ (last.text ++ rest))), parts⟩
        ⟨some final, rest, parts⟩ := by
  obtain ⟨final, word, taken⟩ := name_taken last stops.apart
    (link.gap.getLast?.or link.sign.getLast?) parts
  have joined := Prefers.both (Prefers.both
    (spaces_prefers link (sign_visible link _) behind parts) (link_prefers link behind _ parts))
    (spaces_prefers link (name_visible last rest) _ parts)
  exact ⟨final, word, .regroup (.both joined taken)⟩

theorem listedDays_prefers (item : Item) {rest : List Char} (stops : Stops rest)
    (parts : List (Nat × List Char)) :
    ∃ last, Prefers listedDays ⟨some ' ', item.text ++ rest, parts⟩ ⟨last, rest, parts⟩ := by
  have edge {c : Char} (word : isWord c = true) :
      Place.isWordEdge ⟨some c, rest, parts⟩ = true := by
    refine (edge_after ?_).mpr stops.apart
    exact word
  have blank : (some ' ').any isWord = false := by decide
  cases item with
  | single name =>
    obtain ⟨last, word, taken⟩ := name_taken name stops.apart (some ' ') parts
    have alone : Prefers listedName _ _ := Prefers.asWord (name_starts name blank rest parts)
      (.both taken (.inSecond (rangeRest_silent stops _ parts) .nothing)) (edge word)
    exact ⟨some last, .inFirst alone⟩
  | weekdays =>
    have word : Prefers weekdaysWord ⟨some ' ', Item.weekdays.text ++ rest, parts⟩
        ⟨some 'S', rest, parts⟩ :=
      .asWord rfl rfl (edge (by decide))
    exact ⟨some 'S', .inSecond rfl (.inFirst word)⟩
  | weekends =>
    have word : Prefers weekendsWord ⟨some ' ', Item.weekends.text ++ rest, parts⟩
        ⟨some 'S', rest, parts⟩ :=
      .asWord rfl rfl (edge (by decide))
    exact ⟨some 'S', .inSecond rfl (.inSecond rfl word)⟩
  | range first link last =>
    rw [range_append]
    obtain ⟨_, _, taken⟩ := name_taken first
      (link_apart link (link.gap ++ (last.text ++ rest))) (some ' ') parts
    obtain ⟨final, word, more⟩ := rangeRest_prefers link last stops _ parts
    have whole : Prefers listedName _ _ := Prefers.asWord (name_starts first blank _ parts)
      (.both taken (.inFirst more)) (edge word)
    exact ⟨some final, .inFirst whole⟩

/-- The items of a list after its first one, as they are printed. -/
def moreText (items : List Item) : List Char := items.flatMap fun item => ',' :: ' ' :: item.text

theorem listText_eq (item : Item) (more : List Item) :
    listText (item :: more) = item.text ++ moreText more := by
  induction more generalizing item with
  | nil => rw [listText_single]; exact (List.append_nil _).symm
  | cons next others ih =>
    rw [listText_cons, ih]
    rfl

theorem more_stops (items : List Item) : Stops (moreText items) := by
  intro c first
  cases items with
  | nil => cases first
  | cons item more => exact (Option.some.inj first).symm

theorem item_visible (item : Item) (rest : List Char) :
    ∀ c ∈ (item.text ++ rest).head?, isBlank c = false := by
  have word : isBlank 'W' = false := by decide
  cases item with
  | single name => exact name_visible name rest
  | weekdays => exact fun c first => Option.some.inj first ▸ word
  | weekends => exact fun c first => Option.some.inj first ▸ word
  | range first link last =>
    rw [range_append]
    exact name_visible first _

/-- All further items of a list are taken. -/
theorem moreDays_prefers (items : List Item) (behind : Option Char)
    (parts : List (Nat × List Char)) :
    ∃ last, Prefers moreDays ⟨behind, moreText items, parts⟩ ⟨last, [], parts⟩ := by
  induction items generalizing behind with
  | nil => exact ⟨behind, .manyDone (readings_ended rfl ..)⟩
  | cons item more ih =>
    obtain ⟨last, taken⟩ := listedDays_prefers item (more_stops more) parts
    obtain ⟨final, rest⟩ := ih last
    have joint : Prefers (spaces ++ listLink ++ spaces)
        ⟨behind, ',' :: ' ' :: (item.text ++ moreText more), parts⟩
        ⟨some ' ', item.text ++ moreText more, parts⟩ :=
      .both (.both (.manyDone rfl) (.inFirst (.inFirst rfl)))
        (spaces_prefers .upTo (item_visible item _) _ parts)
    have shorter : (moreText more).length <
        (',' :: ' ' :: (item.text ++ moreText more)).length := by
      simp only [List.length_cons, List.length_append]
      omega
    exact ⟨final, .manyMore (.both joint taken) shorter rest⟩

def exceptWord : List Char := "EXCEPT".toList

/-- A list of exceptions as it is printed. -/
def exceptText (items : List Item) : List Char := exceptWord ++ ' ' :: listText items

/-- EXCEPT takes all of the list after it. -/
theorem qualified_prefers {items : List Item} (some : items ≠ []) {behind : Option Char}
    (before : behind.any isWord = false) :
    ∃ last, Prefers qualified ⟨behind, exceptText items, []⟩
      ⟨last, [], [(4, listText items), (3, exceptWord)]⟩ := by
  obtain ⟨item, more, same⟩ := List.exists_cons_of_ne_nil some
  rw [same, exceptText, listText_eq]
  obtain ⟨middle, first⟩ := listedDays_prefers item (more_stops more) [(3, exceptWord)]
  obtain ⟨last, others⟩ := moreDays_prefers more middle [(3, exceptWord)]
  have edge : Prefers .wordEdge ⟨behind, exceptWord ++ ' ' :: (item.text ++ moreText more), []⟩
      ⟨behind, exceptWord ++ ' ' :: (item.text ++ moreText more), []⟩ :=
    .wordEdge ((edge_before rfl).mpr before)
  have word : Prefers (.held 3 (anyOf [spelled "EXCEPT", spelled "INCLUDING",
      spelled "INCL" ++ maybe (spelled ".")]))
      ⟨behind, exceptWord ++ ' ' :: (item.text ++ moreText more), []⟩
      ⟨Option.some 'T', ' ' :: (item.text ++ moreText more), [(3, exceptWord)]⟩ :=
    .held (.inFirst .letters)
  have alone : Prefers (.notBefore isPlainCapital)
      ⟨Option.some 'T', ' ' :: (item.text ++ moreText more), [(3, exceptWord)]⟩
      ⟨Option.some 'T', ' ' :: (item.text ++ moreText more), [(3, exceptWord)]⟩ := rfl
  have list : Prefers (.held 4 (listedDays ++ moreDays))
      ⟨Option.some ' ', item.text ++ moreText more ++ [], [(3, exceptWord)]⟩
      ⟨last, [], [(4, item.text ++ moreText more), (3, exceptWord)]⟩ := by
    apply Prefers.held
    rw [List.append_nil]
    exact .both first others
  rw [List.append_nil] at list
  exact ⟨last, .both (.both (.both (.both edge word) alone)
    (spaces_prefers .upTo (item_visible item _) _ _)) list⟩

theorem item_plain (item : Item) : ∀ c ∈ item.text, Plain c := by
  have letters (name : Name) : ∀ c ∈ name.text, Plain c :=
    fun c member => (name_letters name c member).2.2
  have words : (∀ c ∈ Item.weekdays.text, Plain c) ∧ ∀ c ∈ Item.weekends.text, Plain c := by
    decide
  have links (link : Link) : ∀ c ∈ link.gap ++ (link.sign ++ link.gap), Plain c := by
    cases link <;> decide
  cases item with
  | single name => exact letters name
  | weekdays => exact words.1
  | weekends => exact words.2
  | range first link last =>
    have same : (Item.range first link last).text =
        first.text ++ (link.gap ++ (link.sign ++ link.gap)) ++ last.text := by
      rw [← List.append_nil (Item.text _), range_append]
      simp only [List.append_nil, List.append_assoc]
    intro c member
    rw [same] at member
    rcases List.mem_append.mp member with early | late
    · exact (List.mem_append.mp early).elim (letters first c) (links link c)
    · exact letters last c late

/-- A list of days is in capitals, and without the C of a word that qualifies it. -/
theorem list_plain (items : List Item) : ∀ c ∈ listText items, Plain c := by
  have between : Plain ',' ∧ Plain ' ' := by decide
  intro c member
  rcases mem_listText member with comma | blank | ⟨item, _, inside⟩
  · exact comma ▸ between.1
  · exact blank ▸ between.2
  · exact item_plain item c inside

theorem list_upright (items : List Item) : upper (listText items) = listText items :=
  upper_solid fun c member => (list_plain items c member).1

theorem qualified_silent {place : Place} (silent : readings qualifier place = []) :
    readings qualified place = [] :=
  readings_both_silent (readings_both_silent (readings_both_silent silent _) _) _

section
variable {excepted : List Item} (some : excepted ≠ [])
include some

/-- What a list of exceptions holds, wherever it stands. -/
theorem cutFrom_except {behind : Option Char} (before : behind.any isWord = false) :
    ∃ last, qualified.cutFrom behind 0 (exceptText excepted) =
      [.found ⟨last, [], [(4, listText excepted), (3, exceptWord)]⟩] := by
  obtain ⟨last, prefers⟩ := qualified_prefers some before
  rw [← List.append_nil (exceptText excepted)] at prefers ⊢
  exact ⟨last, cutFrom_matched rfl prefers⟩

theorem except_alone :
    ∃ last, qualified.findAll (exceptText excepted) =
        [⟨last, [], [(4, listText excepted), (3, exceptWord)]⟩] ∧
      qualified.blot (exceptText excepted) = [' '] := by
  obtain ⟨last, found⟩ := cutFrom_except some (rfl : Option.none.any isWord = false)
  exact ⟨last, @cut_one _ _ [] [] _ found⟩

/-- A list of exceptions leaves the list before it as it is. -/
theorem except_behind (listed : List Item) :
    ∃ last, qualified.findAll (listText listed ++ ' ' :: exceptText excepted) =
        [⟨last, [], [(4, listText excepted), (3, exceptWord)]⟩] ∧
      qualified.blot (listText listed ++ ' ' :: exceptText excepted) =
        listText listed ++ [' ', ' '] := by
  obtain ⟨last, found⟩ := cutFrom_except some (rfl : (Option.some ' ').any isWord = false)
  have silent : ∀ passed c more, listText listed = passed ++ c :: more → ∀ behind,
      readings qualified ⟨behind, c :: (more ++ ' ' :: exceptText excepted), []⟩ = [] := by
    intro passed c more same behind
    have absent : 'C' ∉ c :: more := fun member =>
      (list_plain listed 'C' (same ▸ List.mem_append_right passed member)).2 rfl
    have needs : requires 'C' qualifier = true := by rfl
    refine qualified_silent (readings_lacking needs absent ?_ _ _)
    intro d first
    exact Option.some.inj first ▸ (by rfl : endsBefore ' ' qualifier = true)
  have cut : qualified.cut (listText listed ++ ' ' :: exceptText excepted) =
      (listText listed ++ [' ']).map .kept ++
        [.found ⟨last, [], [(4, listText excepted), (3, exceptWord)]⟩] := by
    rw [cut, cutFrom_silent rfl silent, cutFrom_kept rfl (readings_barred rfl ..), found,
      List.map_append, List.append_assoc]
    rfl
  obtain ⟨matched, blotted⟩ := @cut_one _ _ _ [] _ cut
  exact ⟨last, matched, by rw [blotted, List.append_assoc]; rfl⟩

end

/-- A day is a day of an item of a list. -/
def Listed (items : List Item) (day : Weekday) : Prop := ∃ item ∈ items, item.Covers day

instance (items : List Item) (day : Weekday) : Decidable (Listed items day) :=
  inferInstanceAs (Decidable (∃ item ∈ items, item.Covers day))

theorem named_listed {items : List Item} (some : items ≠ []) {day : Weekday} :
    day ∈ named (listText items) ↔ Listed items day := by
  have whole := @named_list items some [] (by decide) day
  rwa [List.append_nil] at whole

/-- A list of days without exceptions is read as it is. -/
theorem unqualified (items : List Item) : qualified.findAll (listText items) = [] :=
  (findAll_eq_nil_iff rfl).mpr
    (occursIn_without (by rfl : requires 'C' qualified = true)
      fun member => (list_plain items 'C' member).2 rfl)

section
variable {text : List Char} {excepted : List Item} {last : Option Char}
  (found : qualified.findAll text = [⟨last, [], [(4, listText excepted), (3, exceptWord)]⟩])
include found

theorem not_included {day : Weekday} : ¬ Included text day := by
  rw [Included, found]
  rintro ⟨place, listed, exception, _⟩
  rw [List.mem_singleton.mp listed] at exception
  cases exception

variable (some : excepted ≠ [])
include some

theorem excepted_iff {day : Weekday} : Excepted text day ↔ Listed excepted day := by
  rw [← named_listed some, Excepted, found]
  simp only [List.mem_singleton, exists_eq_left]
  exact and_iff_right rfl

/-- Where a day is left, the days of the exceptions are taken from those that the text names
besides. -/
theorem mem_read_except {printed : List Char} (same : upper printed = text) {left : Weekday}
    (stated : left ∈ (named (qualified.blot text)).orAll) (kept : ¬ Listed excepted left)
    (day : Weekday) : day ∈ Days.read printed ↔
      day ∈ (named (qualified.blot text)).orAll ∧ ¬ Listed excepted day := by
  have remains_iff (day : Weekday) : Remains text day ↔
      day ∈ (named (qualified.blot text)).orAll ∧ ¬ Listed excepted day := by
    rw [← excepted_iff found some]
    exact ⟨fun remains => ⟨remains.stated.resolve_right (not_included found), remains.kept⟩,
      fun both => ⟨Or.inl both.1, both.2⟩⟩
  obtain ⟨other, qualifies⟩ :=
    @list_qualifies text _ (by rw [found]; exact List.mem_singleton_self _)
  rw [← same] at qualifies remains_iff
  rw [mem_read qualifies ((remains_iff left).mpr ⟨same ▸ stated, kept⟩), remains_iff, same]

end

theorem orAll_eq {days : DaySet} (some : days ≠ DaySet.empty) : days.orAll = days := if_neg some

/-- Lists of days stand for unions and differences of sets, however long they are and however the
days are spelled and joined. A list names the days of its items. With EXCEPT after it and another
list, those of the other list are taken away, as long as a day is left, and without a list before it
they are taken from all days. -/
theorem lists_read {listed excepted : List Item} (some : listed ≠ []) (others : excepted ≠ [])
    (printed : List Char) :
    (∀ text, Spells (dayName ++ plural) text ↔ ∃ name : Name, name.text = text) ∧
    (upper printed = upper (listText listed) →
      ∀ day, day ∈ Days.read printed ↔ Listed listed day) ∧
    (upper printed = upper (listText listed ++ ' ' :: exceptText excepted) →
      (∃ day, Listed listed day ∧ ¬ Listed excepted day) →
      ∀ day, day ∈ Days.read printed ↔ Listed listed day ∧ ¬ Listed excepted day) ∧
    (upper printed = upper (exceptText excepted) →
      (∃ day, ¬ Listed excepted day) →
      ∀ day, day ∈ Days.read printed ↔ ¬ Listed excepted day) := by
  have blank : capitals ' ' = [' '] ∧ upper exceptWord = exceptWord := by decide
  have upright : upper (exceptText excepted) = exceptText excepted := by
    rw [exceptText, upper_append, blank.2, ← List.singleton_append, upper_append, list_upright]
    simp only [upper, List.flatMap_singleton, blank.1]
  refine ⟨fun _ => spells_name, ?_, ?_, ?_⟩
  · intro same day
    rw [list_upright] at same
    rw [← named_listed some, ← same]
    rw [read_unqualified (same ▸ unqualified listed)]
  · rintro same ⟨left, stated, kept⟩ day
    have capital : upper (listText listed ++ ' ' :: exceptText excepted) =
        listText listed ++ ' ' :: exceptText excepted := by
      rw [upper_append, list_upright, ← List.singleton_append, upper_append, upright]
      simp only [upper, List.flatMap_singleton, blank.1]
    rw [capital] at same
    obtain ⟨last, found, blotted⟩ := except_behind others listed
    have days (day : Weekday) : day ∈ named (listText listed ++ [' ', ' ']) ↔ Listed listed day :=
      named_list some (by decide)
    have base : (named (qualified.blot (listText listed ++ ' ' :: exceptText excepted))).orAll =
        named (listText listed ++ [' ', ' ']) := by
      rw [blotted, orAll_eq fun none => eq_empty_iff.mp none left ((days left).mpr stated)]
    rw [mem_read_except found others same (base ▸ (days left).mpr stated) kept, base, days]
  · rintro same ⟨left, kept⟩ day
    rw [upright] at same
    obtain ⟨last, found, blotted⟩ := except_alone others
    have none : (named [' ']).orAll = DaySet.all := by decide
    have every : ∀ day, day ∈ DaySet.all := by decide
    have base : (named (qualified.blot (exceptText excepted))).orAll = DaySet.all := by
      rw [blotted, none]
    rw [mem_read_except found others same (base ▸ every left) kept, base]
    exact and_iff_right (every day)

def openDays : List Item :=
  [.range ⟨("MON", .monday), by decide, false⟩ .dash ⟨("FRI", .friday), by decide, false⟩,
    .single ⟨("SATURDAY", .saturday), by decide, true⟩]

def marketDays : List Item :=
  [.single ⟨("WED", .wednesday), by decide, false⟩,
    .range ⟨("SAT", .saturday), by decide, false⟩ .thru ⟨("MON", .monday), by decide, false⟩]

/-- Market days fall out of the days on which a shop is open, or out of all days. -/
theorem market_left_out :
    .saturday ∈ Days.read "Mon-Fri, Saturdays".toList ∧
      .tuesday ∈ Days.read "Mon-Fri, Saturdays except Wed, Sat thru Mon".toList ∧
      ¬ .saturday ∈ Days.read "Mon-Fri, Saturdays except Wed, Sat thru Mon".toList ∧
      .friday ∈ Days.read "Except Wed, Sat thru Mon".toList ∧
      ¬ .sunday ∈ Days.read "Except Wed, Sat thru Mon".toList := by
  have some : openDays ≠ [] ∧ marketDays ≠ [] := ⟨nofun, nofun⟩
  have list := (lists_read some.1 some.2 "Mon-Fri, Saturdays".toList).2.1 (by decide)
  have behind := (lists_read some.1 some.2
    "Mon-Fri, Saturdays except Wed, Sat thru Mon".toList).2.2.1 (by decide)
    ⟨.tuesday, by decide⟩
  have alone := (lists_read some.1 some.2 "Except Wed, Sat thru Mon".toList).2.2.2
    (by decide) ⟨.friday, by decide⟩
  rw [list, behind, behind, alone, alone]
  decide

end Curbside.Proofs.DayLists

import Curbside.Proofs.DayPhrases
import Curbside.Proofs.Seams

/-! Lists of days as they are printed. An item of a list is the name of a day, a word for the
working days or the weekend, or a range of days. Between items there is a comma, which no phrase for
days goes over, so that a list names the days of its items. -/

namespace Curbside.Proofs.DayItems
open Text Pattern Days Reading Spelling Phrases Cutting DayPhrases Preference Seams

/-- The names of the days in capitals, in full and cut short, without the S of the plural. -/
def names : List (String × Weekday) :=
  [("MON", .monday), ("MONDAY", .monday),
    ("TUE", .tuesday), ("TUES", .tuesday), ("TUESDAY", .tuesday),
    ("WED", .wednesday), ("WEDS", .wednesday), ("WEDNESDAY", .wednesday),
    ("THU", .thursday), ("THUR", .thursday), ("THURS", .thursday), ("THURSDAY", .thursday),
    ("FRI", .friday), ("FRIDAY", .friday),
    ("SAT", .saturday), ("SATURDAY", .saturday),
    ("SUN", .sunday), ("SUNDAY", .sunday)]

/-- A name of a day, in the singular or the plural. -/
structure Name where
  entry : String × Weekday
  listed : entry ∈ names
  plural : Bool

def inNumber (name : String) (plural : Bool) : List Char :=
  name.toList ++ if plural then ['S'] else []

namespace Name

def text (name : Name) : List Char := inNumber name.entry.1 name.plural

def day (name : Name) : Weekday := name.entry.2

end Name

/-- What joins the two names of a range. -/
inductive Link where
  | dash
  | upTo
  | thru
  | through

namespace Link

def sign : Link → List Char
  | dash => ['-']
  | upTo => ['T', 'O']
  | thru => ['T', 'H', 'R', 'U']
  | through => ['T', 'H', 'R', 'O', 'U', 'G', 'H']

/-- What stands on both sides of the sign. -/
def gap : Link → List Char
  | dash => []
  | _ => [' ']

end Link

/-- An item of a list of days. -/
inductive Item where
  | single (name : Name)
  | weekdays
  | weekends
  | range (first : Name) (link : Link) (last : Name)

namespace Item

def text : Item → List Char
  | .single name => name.text
  | .weekdays => "WEEKDAYS".toList
  | .weekends => "WEEKENDS".toList
  | .range first link last => first.text ++ (link.gap ++ (link.sign ++ (link.gap ++ last.text)))

/-- The days of an item. A range whose last day comes before its first one in the week goes past
Sunday. -/
def Covers (day : Weekday) : Item → Prop
  | .single name => day = name.day
  | .weekdays => day ≤ .friday
  | .weekends => .saturday ≤ day
  | .range first _ last =>
    if first.day ≤ last.day then first.day ≤ day ∧ day ≤ last.day
    else first.day ≤ day ∨ day ≤ last.day

instance (day : Weekday) : (item : Item) → Decidable (item.Covers day)
  | .single name => inferInstanceAs (Decidable (day = name.day))
  | .weekdays => inferInstanceAs (Decidable (day ≤ .friday))
  | .weekends => inferInstanceAs (Decidable (.saturday ≤ day))
  | .range first _ last =>
    inferInstanceAs (Decidable (if first.day ≤ last.day then _ ∧ _ else _ ∨ _))

end Item

def listText (items : List Item) : List Char := [',', ' '].intercalate (items.map Item.text)

theorem listText_single (item : Item) : listText [item] = item.text := List.intercalate_singleton

theorem listText_cons (item next : Item) (more : List Item) :
    listText (item :: next :: more) = item.text ++ ',' :: ' ' :: listText (next :: more) := by
  rw [listText, List.map_cons, List.map_cons, List.intercalate_cons_cons, List.append_assoc]
  rfl

theorem mem_listText {items : List Item} {c : Char} (member : c ∈ listText items) :
    c = ',' ∨ c = ' ' ∨ ∃ item ∈ items, c ∈ item.text := by
  induction items with
  | nil => cases member
  | cons item more ih =>
    cases more with
    | nil =>
      rw [listText_single] at member
      exact Or.inr (Or.inr ⟨item, List.mem_cons_self, member⟩)
    | cons next others =>
      rw [listText_cons, List.mem_append, List.mem_cons, List.mem_cons] at member
      rcases member with own | comma | blank | later
      · exact Or.inr (Or.inr ⟨item, List.mem_cons_self, own⟩)
      · exact Or.inl comma
      · exact Or.inr (Or.inl blank)
      · rcases ih later with comma | blank | ⟨other, listed, inside⟩
        · exact Or.inl comma
        · exact Or.inr (Or.inl blank)
        · exact Or.inr (Or.inr ⟨other, List.mem_cons_of_mem item listed, inside⟩)

/-- The texts that a pattern made of letters spells. -/
def words : Pattern → List (List Char)
  | .letters cs => [cs]
  | .both first second =>
    (words first).flatMap fun head => (words second).map fun tail => head ++ tail
  | .either first second => words first ++ words second
  | .held _ body => words body
  | _ => [[]]

theorem spells_iff_mem_words {p : Pattern} (plain : lettered p = true) {text : List Char} :
    Spells p text ↔ text ∈ words p := by
  induction p generalizing text with
  | nothing | wordEdge | letters cs => exact List.mem_singleton.symm
  | one _ | many _ _ | notBefore _ | notAfter _ | textEnd => cases plain
  | both first second ihFirst ihSecond =>
    have each := (Bool.and_eq_true ..).mp plain
    simp only [Spells, words, ihFirst each.1, ihSecond each.2, List.mem_flatMap, List.mem_map]
    constructor
    · rintro ⟨head, tail, same, early, late⟩
      exact ⟨head, early, tail, late, same.symm⟩
    · rintro ⟨head, early, tail, late, same⟩
      exact ⟨head, tail, same.symm, early, late⟩
  | either first second ihFirst ihSecond =>
    have each := (Bool.and_eq_true ..).mp plain
    rw [words, List.mem_append, ← ihFirst each.1, ← ihSecond each.2]
    exact Iff.rfl
  | held label body ih => exact ih plain

/-- The names in the table are those that the pattern for a name spells. -/
theorem spells_name {text : List Char} :
    Spells (dayName ++ plural) text ↔ ∃ name : Name, name.text = text := by
  have spelled : ∀ word ∈ words (dayName ++ plural), ∃ entry ∈ names, ∃ plural,
      inNumber entry.1 plural = word := by
    decide
  have listed : ∀ entry ∈ names, ∀ plural,
      inNumber entry.1 plural ∈ words (dayName ++ Days.plural) := by
    decide
  rw [spells_iff_mem_words (by rfl)]
  constructor
  · intro member
    obtain ⟨entry, inside, plural, same⟩ := spelled text member
    exact ⟨⟨entry, inside, plural⟩, same⟩
  · rintro ⟨name, same⟩
    exact same ▸ listed name.entry name.listed name.plural

/-- A capital that no word for exceptions or inclusions has to have. -/
def Plain (c : Char) : Prop := capitals c = [c] ∧ c ≠ 'C'

instance (c : Char) : Decidable (Plain c) := inferInstanceAs (Decidable (_ ∧ _))

/-- A letter that can stand in the name of a day. -/
def IsNameLetter (c : Char) : Prop := isWord c = true ∧ isBlank c = false ∧ Plain c

instance (c : Char) : Decidable (IsNameLetter c) := inferInstanceAs (Decidable (_ ∧ _))

theorem name_letters (name : Name) : ∀ c ∈ name.text, IsNameLetter c := by
  have each : ∀ entry ∈ names, ∀ plural, ∀ c ∈ inNumber entry.1 plural, IsNameLetter c := by
    decide
  exact each name.entry name.listed name.plural

theorem name_some (name : Name) : name.text ≠ [] := by
  have each : ∀ entry ∈ names, ∀ plural, inNumber entry.1 plural ≠ [] := by decide
  exact each name.entry name.listed name.plural

/-- Of a text that stands alone, the pattern for a name prefers to take a stem. -/
def Takes (text stem rest : List Char) : Prop :=
  (readings dayName (Place.start text)).head?.map
      (fun place => (place.behind, place.ahead, place.parts)) = some (stem.getLast?, rest, [])

instance (text stem rest : List Char) : Decidable (Takes text stem rest) :=
  inferInstanceAs (Decidable (_ = _))

theorem Takes.prefers {text stem rest : List Char} (takes : Takes text stem rest) :
    Prefers dayName ⟨none, text, []⟩ ⟨stem.getLast?, rest, []⟩ := by
  obtain ⟨⟨behind, ahead, parts⟩, read, same⟩ := Option.map_eq_some_iff.mp takes
  obtain ⟨sameBehind, others⟩ := Prod.mk.inj same
  obtain ⟨sameAhead, sameParts⟩ := Prod.mk.inj others
  rw [← sameBehind, ← sameAhead]
  rw [show parts = [] from sameParts] at read
  exact read

/-- All of a name is taken but for the S of the plural. -/
theorem stem_taken (name : Name) : ∃ stem ∈ names, stem.2 = name.day ∧ ∃ plural : Bool,
    name.text = inNumber stem.1 plural ∧
      Takes name.text stem.1.toList (if plural then ['S'] else []) := by
  have each : ∀ entry ∈ names, ∀ plural, ∃ stem ∈ names, stem.2 = entry.2 ∧ ∃ more : Bool,
      inNumber entry.1 plural = inNumber stem.1 more ∧
        Takes (inNumber entry.1 plural) stem.1.toList (if more then ['S'] else []) := by
    decide
  exact each name.entry name.listed name.plural

/-- A pattern made of letters sees an end of the text where a word ends. -/
theorem ends_apart {p : Pattern} (plain : lettered p = true) {rest : List Char}
    (apart : rest.head?.any isWord = false) : ∀ c ∈ rest.head?, endsBefore c p = true := by
  intro c first
  rw [Option.mem_def.mp first] at apart
  exact endsBefore_lettered plain apart

/-- A name that ends where its word ends is read as a whole. -/
theorem name_prefers (name : Name) {rest : List Char} (apart : rest.head?.any isWord = false)
    (behind : Option Char) (parts : List (Nat × List Char)) :
    ∃ stem left middle last, weekdayOf? stem = some name.day ∧ isWord last = true ∧
      name.text ++ rest = stem ++ (left ++ rest) ∧
      Prefers dayName ⟨behind, stem ++ (left ++ rest), parts⟩ ⟨middle, left ++ rest, parts⟩ ∧
      ∀ parts, Prefers plural ⟨middle, left ++ rest, parts⟩ ⟨some last, rest, parts⟩ := by
  have known : ∀ entry ∈ names, weekdayOf? entry.1.toList = some entry.2 ∧
      entry.1.toList.getLast?.any isWord = true := by
    decide
  have none (behind : Option Char) (parts : List (Nat × List Char)) :
      readings (spelled "S") ⟨behind, rest, parts⟩ = [] :=
    readings_apart (by rfl) (ends_apart (by rfl) apart) behind parts
  obtain ⟨stem, listed, same, more, cut, taken⟩ := stem_taken name
  obtain ⟨names, word⟩ := known stem listed
  rw [same] at names
  have unnoticed : Unnoticed ⟨behind, rest, parts⟩ dayName :=
    ⟨fun _ _ => rfl, ends_apart (by rfl) apart⟩
  have whole := prefers_around unnoticed taken.prefers
  obtain ⟨final, last⟩ : ∃ final, stem.1.toList.getLast? = some final := by
    cases last : stem.1.toList.getLast? with
    | none => rw [last] at word; cases word
    | some final => exact ⟨final, rfl⟩
  rw [last, Option.any_some] at word
  rw [Surroundings.around, Surroundings.around, Option.none_or, last, Option.some_or,
    List.nil_append, cut, inNumber, List.append_assoc] at whole
  rw [cut, inNumber, List.append_assoc]
  cases more with
  | true =>
    refine ⟨_, ['S'], some final, 'S', names, by decide, rfl, whole, fun _ => ?_⟩
    exact .inFirst .letters
  | false =>
    refine ⟨_, [], some final, final, names, word, rfl, whole, fun _ => ?_⟩
    exact .inSecond (none ..) .nothing

/-- A name is read and its stem held. -/
theorem name_held (name : Name) (label : Nat) {rest : List Char}
    (apart : rest.head?.any isWord = false) (behind : Option Char)
    (parts : List (Nat × List Char)) :
    ∃ stem last, weekdayOf? stem = some name.day ∧ isWord last = true ∧
      Prefers (.held label dayName ++ plural) ⟨behind, name.text ++ rest, parts⟩
        ⟨some last, rest, (label, stem) :: parts⟩ := by
  obtain ⟨stem, left, middle, last, names, word, same, taken, ends⟩ :=
    name_prefers name apart behind parts
  rw [same]
  exact ⟨stem, last, names, word, .both (.held taken) (ends _)⟩

theorem name_taken (name : Name) {rest : List Char} (apart : rest.head?.any isWord = false)
    (behind : Option Char) (parts : List (Nat × List Char)) :
    ∃ last, isWord last = true ∧
      Prefers (dayName ++ plural) ⟨behind, name.text ++ rest, parts⟩ ⟨some last, rest, parts⟩ := by
  obtain ⟨stem, left, middle, last, _, word, same, taken, ends⟩ :=
    name_prefers name apart behind parts
  rw [same]
  exact ⟨last, word, .both taken (ends _)⟩

/-- A name begins with a letter. -/
theorem name_head (name : Name) (rest : List Char) :
    ∃ c, (name.text ++ rest).head? = some c ∧ IsNameLetter c := by
  cases same : name.text with
  | nil => exact absurd same (name_some name)
  | cons c more => exact ⟨c, rfl, name_letters name c (same ▸ List.mem_cons_self)⟩

theorem name_visible (name : Name) (rest : List Char) :
    ∀ c ∈ (name.text ++ rest).head?, isBlank c = false := by
  obtain ⟨d, head, letter⟩ := name_head name rest
  intro c first
  rw [head] at first
  exact Option.some.inj first ▸ letter.2.1

/-- A word begins where a name does. -/
theorem name_starts (name : Name) {behind : Option Char} (before : behind.any isWord = false)
    (rest : List Char) (parts : List (Nat × List Char)) :
    Place.isWordEdge ⟨behind, name.text ++ rest, parts⟩ = true := by
  obtain ⟨c, head, letter⟩ := name_head name rest
  refine (edge_before ?_).mpr before
  rw [head]
  exact letter.1

section
variable (link : Link)

/-- The gap beside a sign is taken up to what follows. -/
theorem gap_prefers {accepts : Char → Bool} (blank : accepts ' ' = true) {text : List Char}
    (visible : ∀ c ∈ text.head?, accepts c = false) (behind : Option Char)
    (parts : List (Nat × List Char)) :
    Prefers (.many (.one accepts)) ⟨behind, link.gap ++ text, parts⟩
      ⟨link.gap.getLast?.or behind, text, parts⟩ := by
  refine .row (fun c member => ?_) visible behind parts
  cases link with
  | dash => cases member
  | _ => exact List.mem_singleton.mp member ▸ blank

theorem sign_visible (rest : List Char) : ∀ c ∈ (link.sign ++ rest).head?, isBlank c = false := by
  have signs : isBlank '-' = false ∧ isBlank 'T' = false := by decide
  intro c first
  cases link with
  | dash => exact Option.some.inj first ▸ signs.1
  | _ => exact Option.some.inj first ▸ signs.2

/-- The sign of a range that may run over a line end. -/
theorem sign_prefers (behind : Option Char) (rest : List Char) (parts : List (Nat × List Char)) :
    Prefers (anyOf [dash, spelled "THRU", spelled "THROUGH", spelled "TO"])
      ⟨behind, link.sign ++ rest, parts⟩ ⟨link.sign.getLast?, rest, parts⟩ := by
  cases link <;> rfl

theorem link_apart (rest : List Char) :
    (link.gap ++ (link.sign ++ rest)).head?.any isWord = false := by
  have signs : isWord '-' = false ∧ isWord ' ' = false := by decide
  cases link with
  | dash => exact signs.1
  | _ => exact signs.2

end

theorem range_append (first : Name) (link : Link) (last : Name) (rest : List Char) :
    (Item.range first link last).text ++ rest =
      first.text ++ (link.gap ++ (link.sign ++ (link.gap ++ (last.text ++ rest)))) := by
  have text : (Item.range first link last).text =
    first.text ++ (link.gap ++ (link.sign ++ (link.gap ++ last.text))) := rfl
  rw [text, List.append_assoc, List.append_assoc, List.append_assoc, List.append_assoc]

theorem daysBetween_stems {behind : Option Char} {rest stem other : List Char}
    {first last : Weekday} (starts : weekdayOf? stem = some first)
    (ends : weekdayOf? other = some last) :
    daysBetween ⟨behind, rest, [(2, other), (1, stem)]⟩ = DaySet.span first last := by
  have parts : Place.part ⟨behind, rest, [(2, other), (1, stem)]⟩ 1 = stem ∧
      Place.part ⟨behind, rest, [(2, other), (1, stem)]⟩ 2 = other := ⟨rfl, rfl⟩
  rw [daysBetween, parts.1, parts.2, starts, ends]

/-- A range of days is read as a whole where it stands alone. -/
theorem dayRange_prefers (first : Name) (link : Link) (last : Name) {behind : Option Char}
    (before : behind.any isWord = false) {rest : List Char}
    (apart : rest.head?.any isWord = false) :
    ∃ passed parts, Prefers dayRange ⟨behind, (Item.range first link last).text ++ rest, []⟩
        ⟨passed, rest, parts⟩ ∧
      daysBetween ⟨passed, rest, parts⟩ = DaySet.span first.day last.day := by
  rw [range_append]
  obtain ⟨stem, _, starts, _, takesFirst⟩ := name_held first 1
    (link_apart link (link.gap ++ (last.text ++ rest))) behind []
  obtain ⟨other, final, ends, word, takesLast⟩ := name_held last 2 apart
    (link.gap.getLast?.or link.sign.getLast?) [(1, stem)]
  have blank : isBlank ' ' = true := by decide
  have inside := Prefers.both (Prefers.both (Prefers.both (Prefers.both takesFirst
    (gap_prefers link blank (sign_visible link _) _ _)) (sign_prefers link _ _ _))
    (gap_prefers link blank (name_visible last rest) _ _)) takesLast
  have edge : Place.isWordEdge ⟨some final, rest, [(2, other), (1, stem)]⟩ = true := by
    refine (edge_after ?_).mpr apart
    exact word
  exact ⟨some final, _, .asWord (name_starts first before _ _) (.regroup inside) edge,
    daysBetween_stems starts ends⟩

/-- What ends a text: nothing, or the blanks around a list that was blotted out. -/
def tails : List (List Char) := [[], [' ', ' ']]

theorem named_name (name : Name) {tail : List Char} (listed : tail ∈ tails) :
    named (name.text ++ tail) = DaySet.single name.day := by
  have each : ∀ entry ∈ names, ∀ plural, ∀ tail ∈ tails,
      named (inNumber entry.1 plural ++ tail) = DaySet.single entry.2 := by
    decide +kernel
  exact each name.entry name.listed name.plural tail listed

/-- What stands alone as a range names its days and nothing else. -/
theorem named_matched {text tail : List Char} {last : Option Char}
    {parts : List (Nat × List Char)}
    (prefers : Prefers dayRange ⟨none, text ++ tail, []⟩ ⟨last, tail, parts⟩)
    (listed : tail ∈ tails) {day : Weekday} :
    day ∈ named (text ++ tail) ↔ day ∈ daysBetween ⟨last, tail, parts⟩ := by
  have blank : ∀ tail ∈ tails, ∀ c ∈ tail, barred c dayRange = true := by decide
  have nothing : ∀ tail ∈ tails, NamesNone (' ' :: tail) := by decide
  have none := nothing tail listed
  have silent : ∀ passed c more, tail = passed ++ c :: more →
      ∀ behind, readings dayRange ⟨behind, c :: (more ++ []), []⟩ = [] := by
    intro passed c more same behind
    exact readings_barred (blank tail listed c (by simp [same])) behind _ []
  have kept := cutFrom_silent rfl silent (text.getLast?.or Option.none)
  have cut : dayRange.cut (text ++ tail) = .found ⟨last, tail, parts⟩ :: tail.map .kept := by
    rw [cut, cutFrom_matched rfl prefers]
    rw [List.append_nil] at kept
    rw [kept]
    exact congrArg _ (List.append_nil _)
  obtain ⟨found, blotted⟩ : dayRange.findAll (text ++ tail) = [⟨last, tail, parts⟩] ∧
      dayRange.blot (text ++ tail) = ' ' :: tail :=
    @cut_one _ _ [] _ _ cut
  have absent (phrase : Pattern) (one : phrase ∈ phrases) := none phrase one
  rw [mem_named, found, blotted, (findAll_eq_nil_iff rfl).mpr (absent oneDay (by simp [phrases]))]
  simp [absent everyDay (by simp [phrases]), absent weekdaysWord (by simp [phrases]),
    absent weekendsWord (by simp [phrases])]

/-- An item names its days, also before the blanks around what was blotted out. -/
theorem named_item (item : Item) {tail : List Char} (listed : tail ∈ tails) {day : Weekday} :
    day ∈ named (item.text ++ tail) ↔ item.Covers day := by
  have apart : ∀ tail ∈ tails, tail.head?.any isWord = false := by decide
  cases item with
  | single name =>
    have single : ∀ day other : Weekday, day ∈ DaySet.single other ↔ day = other := by decide
    change day ∈ named (name.text ++ tail) ↔ day = name.day
    rw [named_name name listed]
    exact single day name.day
  | weekdays =>
    have word : ∀ tail ∈ tails, named (Item.weekdays.text ++ tail) = DaySet.workdays := by
      decide
    have days : ∀ day : Weekday, day ∈ DaySet.workdays ↔ day ≤ .friday := by decide
    rw [word tail listed]
    exact days day
  | weekends =>
    have word : ∀ tail ∈ tails, named (Item.weekends.text ++ tail) = DaySet.weekend := by
      decide
    have days : ∀ day : Weekday, day ∈ DaySet.weekend ↔ .saturday ≤ day := by decide
    rw [word tail listed]
    exact days day
  | range first link last =>
    have spans : ∀ first last day : Weekday, day ∈ DaySet.span first last ↔
        if first ≤ last then first ≤ day ∧ day ≤ last else first ≤ day ∨ day ≤ last := by
      decide
    obtain ⟨passed, parts, prefers, days⟩ :=
      dayRange_prefers first link last (rfl : Option.none.any isWord = false) (apart tail listed)
    rw [named_matched prefers listed, days]
    exact spans first.day last.day day

theorem comma_seams : ∀ phrase ∈ phrases, Seam ',' phrase := by
  intro phrase listed
  simp only [phrases, List.mem_cons, List.not_mem_nil, or_false] at listed
  rcases listed with same | same | same | same | same <;> rw [same] <;> exact ⟨rfl, rfl, rfl⟩

/-- What matches hold names the same days, wherever the matches stand. -/
theorem days_of_parts {days : Place → DaySet}
    (byParts : ∀ place, days place = days ⟨none, [], place.parts⟩) {matched : List Place}
    {day : Weekday} :
    (∃ place ∈ matched, day ∈ days place) ↔
      ∃ parts ∈ matched.map Place.parts, day ∈ days ⟨none, [], parts⟩ := by
  constructor
  · rintro ⟨place, member, inside⟩
    rw [byParts place] at inside
    exact ⟨place.parts, List.mem_map_of_mem member, inside⟩
  · rintro ⟨parts, member, inside⟩
    obtain ⟨place, member, same⟩ := List.mem_map.mp member
    rw [← same, ← byParts place] at inside
    exact ⟨place, member, inside⟩

theorem range_by_parts (place : Place) :
    daysBetween place = daysBetween ⟨none, [], place.parts⟩ := rfl

theorem name_by_parts (place : Place) :
    daysNamed (place.part 1) = daysNamed (Place.part ⟨none, [], place.parts⟩ 1) := rfl

/-- A comma parts a text in two that name their days on their own. -/
theorem named_comma (one two : List Char) {day : Weekday} :
    day ∈ named (one ++ ',' :: two) ↔ day ∈ named one ∨ day ∈ named two := by
  have seam (phrase : Pattern) (listed : phrase ∈ phrases) := comma_seams phrase listed
  have range := seam dayRange (by simp [phrases])
  have every := seam everyDay (by simp [phrases])
  have workdays := seam weekdaysWord (by simp [phrases])
  have weekend := seam weekendsWord (by simp [phrases])
  have single := seam oneDay (by simp [phrases])
  simp only [mem_named, blot_seam range, occursIn_seam every, occursIn_seam workdays,
    occursIn_seam weekend, days_of_parts range_by_parts, days_of_parts name_by_parts,
    findAll_seam range, findAll_seam single, List.mem_append, or_and_right, exists_or,
    Bool.or_eq_true]
  apply iff_of_eq
  ac_rfl

/-- What a text names is not changed by what stands before it, where no phrase for days begins. -/
theorem named_lead {front : List Char}
    (leads : ∀ phrase ∈ [dayRange, weekdaysWord, weekendsWord, oneDay], Lead front phrase)
    {text : List Char} (every : everyDay.occursIn (front ++ dayRange.blot text) =
      everyDay.occursIn (dayRange.blot text)) {day : Weekday} :
    day ∈ named (front ++ text) ↔ day ∈ named text := by
  have range := leads dayRange (by simp)
  have workdays := leads weekdaysWord (by simp)
  have weekend := leads weekendsWord (by simp)
  have single := leads oneDay (by simp)
  simp only [mem_named, blot_lead range, every, occursIn_lead workdays, occursIn_lead weekend,
    days_of_parts range_by_parts, days_of_parts name_by_parts, findAll_lead range,
    findAll_lead single]

theorem blank_lead : ∀ phrase ∈ phrases, Lead [' '] phrase := by
  have each : ∀ phrase ∈ phrases,
      advances phrase = true ∧ barred ' ' phrase = true ∧ opensAfter ' ' phrase = true := by
    decide
  intro phrase listed
  obtain ⟨moving, bars, opens⟩ := each phrase listed
  refine ⟨moving, fun c member => ?_, fun c last => ?_⟩
  · exact List.mem_singleton.mp member ▸ bars
  · exact Option.some.inj last ▸ opens

theorem named_blank (text : List Char) {day : Weekday} :
    day ∈ named (' ' :: text) ↔ day ∈ named text := by
  have others := List.cons_subset_cons dayRange
    (List.subset_cons_self everyDay [weekdaysWord, weekendsWord, oneDay])
  refine @named_lead [' '] (fun phrase listed => blank_lead phrase (others listed)) text ?_ day
  exact occursIn_lead (blank_lead everyDay (by simp [phrases])) _

/-- A list of days names the days of its items. -/
theorem named_list {items : List Item} (some : items ≠ []) {tail : List Char}
    (listed : tail ∈ tails) {day : Weekday} :
    day ∈ named (listText items ++ tail) ↔ ∃ item ∈ items, item.Covers day := by
  induction items with
  | nil => exact absurd rfl some
  | cons item more ih =>
    cases more with
    | nil => rw [listText_single, named_item item listed]; simp
    | cons next others =>
      have alone := @named_item item [] (by decide) day
      rw [List.append_nil] at alone
      rw [listText_cons, List.append_assoc, List.cons_append, List.cons_append, named_comma,
        named_blank, alone, ih (List.cons_ne_nil next others)]
      simp

end Curbside.Proofs.DayItems

import Curbside.Proofs.Searching
import Curbside.Proofs.Posting
import Curbside.Proofs.RoundTrip
import Curbside.Proofs.TimesOfDay

/-! The number of a time limit. No digit stands next to the digits that a limit is read from, but
they may be the end of a longer number, such as the places of a decimal, which is then read as if
the line began behind its point. -/

namespace Curbside.Proofs.LimitNumbers
open Text Pattern Sign Reading Spelling Conversion Cutting Seams Searching TimesOfDay Extraction
  Posting

def ties : List Char := ['.', ',', '/']

/-- What stands before a number ends with a digit and a tie, so that the number goes on from it. -/
def EndsTied (before : List Char) : Prop :=
  ∃ head, ∃ tie ∈ ties, before = head ++ [tie] ∧ head.getLast?.any isDigit = true

structure WholeBetween (before after : List Char) : Prop where
  noDigitBefore : before.getLast?.any isDigit = false
  noDigitAfter : after.head?.any isDigit = false
  untied : ¬ EndsTied before

/-- The first amount of time on a line begins behind a tie that follows a digit. -/
structure Torn (line head : List Char) (tie : Char) (tail : List Char) : Prop where
  cut : line = head ++ tie :: tail
  tied : tie ∈ ties
  digit : head.getLast?.any isDigit = true
  noneBefore : timeAmount.search? head = none
  amount : (timeAmount.matchStart? tail).isSome = true

theorem zeros_inWords : zeros.all fun first =>
    wordRows.any fun row => Nat.ble row.1 first && Nat.ble (first + 9) row.2 := by
  decide +kernel

theorem digit_word {c : Char} (digit : isDigit c = true) : isWord c = true := by
  rw [isWord]
  rcases digit_row digit with plain | ⟨large, first, listed, here⟩
  · rw [if_pos (by omega)]
    simp [plain]
  · obtain ⟨row, inRows, holds⟩ := List.any_eq_true.mp (List.all_eq_true.mp zeros_inWords first listed)
    obtain ⟨least, most⟩ := (Bool.and_eq_true ..).mp holds
    have least := Nat.le_of_ble_eq_true least
    have most := Nat.le_of_ble_eq_true most
    rw [if_neg (by omega)]
    refine List.any_eq_true.mpr ⟨row, inRows, ?_⟩
    rw [Bool.and_eq_true, decide_eq_true_eq, decide_eq_true_eq]
    omega

theorem digit_of_not_word {c? : Option Char} (apart : c?.any isWord = false) :
    c?.any isDigit = false := by
  cases c? with
  | none => rfl
  | some c =>
    apply Bool.eq_false_iff.mpr
    intro digit
    exact Bool.eq_false_iff.mp apart (digit_word digit)

/-- What follows the number of an amount: blanks, perhaps a hyphen, and the unit. -/
def unitPart : Pattern :=
  blanks ++ (maybe (spelled "-") ++ (blanks ++ .held 2 (anyOf [spelled "HOUR" ++ plural,
    spelled "HR" ++ plural, spelled "MINUTE" ++ plural, spelled "MIN" ++ plural])))

theorem unitPart_digitless : Takes (fun c => isDigit c = false) unitPart := by
  have plural : Takes (fun c => isDigit c = false) plural := ⟨digitless "S" (by decide), trivial⟩
  exact ⟨blanks_digitless, ⟨digitless "-" (by decide), trivial⟩, blanks_digitless,
    ⟨digitless "HOUR" (by decide), plural⟩, ⟨digitless "HR" (by decide), plural⟩,
    ⟨digitless "MINUTE" (by decide), plural⟩, ⟨digitless "MIN" (by decide), plural⟩⟩

theorem timeAmount_steps {place later : Place} (read : Reads timeAmount place later) :
    ∃ number middle, place.isWordEdge = true ∧ place.ahead = number ++ middle.ahead ∧
      IsNumber number ∧ Reads unitPart middle later ∧ later.part 1 = number := by
  obtain ⟨edge, inside, _⟩ := asWord_reads read
  cases inside with
  | both inside unit =>
    cases inside with
    | both inside further =>
      cases inside with
      | both inside hyphen =>
        cases inside with
        | both number gap =>
          have steps : Reads unitPart _ later := .both gap (.both hyphen (.both further unit))
          cases number with
          | @held _ _ _ middle number =>
            obtain ⟨digits, spells, same, _⟩ := reads_spells number
            have isNumber := numeric_upToThree digits spells
            refine ⟨digits, { middle with parts := (1, place.textUntil middle) :: middle.parts }, edge,
              same, isNumber, steps, ?_⟩
            rw [← textUntil_eq same]
            cases unit with
            | held unit =>
              simp [Place.part, Place.part?, List.lookup_cons, reads_unlabelled unit rfl,
                reads_unlabelled further rfl, reads_unlabelled hyphen rfl, reads_unlabelled gap rfl]

theorem timeAmount_reads {behind : Option Char} {ahead : List Char} {later : Place}
    (read : Reads timeAmount ⟨behind, ahead, []⟩ later) :
    ∃ number after, ahead = number ++ after ∧ later.part 1 = number ∧ IsNumber number ∧
      behind.any isDigit = false ∧ after.head?.any isDigit = false := by
  obtain ⟨number, middle, edge, same, isNumber, unit, held⟩ := timeAmount_steps read
  refine ⟨number, middle.ahead, same, held, isNumber, ?_, ?_⟩
  · obtain ⟨first, more, written⟩ := List.exists_cons_of_ne_nil isNumber.written
    have word : (Place.mk behind ahead []).ahead.head?.any isWord = true := by
      rw [same, written]
      exact digit_word (isNumber.digits first (written ▸ List.mem_cons_self))
    exact digit_of_not_word ((edge_before word).mp edge)
  · obtain ⟨after, spells, sameAfter, _⟩ := reads_spells unit
    obtain ⟨next, rest, begun⟩ := List.exists_cons_of_ne_nil (spells_advances (by rfl) spells)
    have apart := spells_takes unitPart_digitless spells next (begun ▸ List.mem_cons_self)
    rw [sameAfter, begun]
    exact apart

theorem tie_seam {tie : Char} (tied : tie ∈ ties) : Seam tie timeAmount := by
  have each : ∀ tie ∈ ties, advances timeAmount = true ∧ opensAfter tie timeAmount = true ∧
      endsBefore tie timeAmount = true := by
    decide +kernel
  obtain ⟨moving, opens, ends⟩ := each tie tied
  exact ⟨moving, opens, ends⟩

section
variable {line before rest : List Char} {place : Place}
  (leftmost : Leftmost timeAmount line before rest place)
include leftmost

theorem Torn.read {head tail : List Char} {tie : Char} (torn : Torn line head tie tail) :
    before = head ++ [tie] ∧ ∃ alone, timeAmount.matchStart? tail = some alone ∧
      statedMinutes place = statedMinutes alone := by
  obtain ⟨alone, found⟩ := Option.isSome_iff_exists.mp torn.amount
  have seam := tie_seam torn.tied
  have here : Leftmost timeAmount line (head ++ [tie]) tail
      (Surroundings.around ⟨some tie, [], []⟩ alone) := by
    rw [torn.cut]
    exact (leftmost_behind_seam seam head tail _).mpr ⟨torn.noneBefore, by rw [found]; rfl⟩
  obtain ⟨same, _, own⟩ := leftmost.unique here
  refine ⟨same, alone, found, ?_⟩
  have parts : place.parts = alone.parts := by
    rw [own]
    exact List.append_nil alone.parts
  unfold statedMinutes Place.part Place.part?
  rw [parts]

theorem endsTied_iff : EndsTied before ↔ ∃ head tie tail, Torn line head tie tail := by
  constructor
  · rintro ⟨head, tie, tied, same, digit⟩
    have cut : line = head ++ tie :: rest := by
      rw [leftmost.cut, same, List.append_assoc, List.singleton_append]
    have here := leftmost
    rw [cut, same] at here
    obtain ⟨nothing, matched⟩ := (leftmost_behind_seam (tie_seam tied) head rest place).mp here
    obtain ⟨alone, found, _⟩ := Option.map_eq_some_iff.mp matched
    exact ⟨head, tie, rest, cut, tied, digit, nothing, by rw [found]; rfl⟩
  · rintro ⟨head, tie, tail, torn⟩
    exact ⟨head, tie, torn.tied, (torn.read leftmost).1, torn.digit⟩

end

theorem lineLimit?_found {isForbidden : Bool} {line : List Char} {finding : Finding}
    (found : lineLimit? isForbidden line = some finding) : ∃ place,
      timeAmount.search? line = some place ∧ finding.kind = .timeLimit (statedMinutes place) := by
  unfold lineLimit? at found
  split at found
  · cases found
  next place here =>
    dsimp only at found
    split at found
    · cases found
    · cases found
      exact ⟨place, here, rfl⟩

/-- Where the limit of a rule stands: on a line of a clause, and on no line of the clause before. -/
structure StatedOn (text : List Char) (rule : Rule) (clause : Clause) (line : List Char) : Prop where
  listed : clause ∈ clauses text
  printed : rule.rawText = String.ofList clause.rawText
  first : ∃ earlier later, lines clause.text = earlier ++ line :: later ∧
    ∀ other ∈ earlier, lineLimit? (forbids clause.text) other = none

theorem limit_source {quality : Option Binary64} {text : List Char} {rule : Rule}
    (listed : rule ∈ readRules quality text) {minutes : Int}
    (limited : rule.kind = .timeLimit minutes) :
    ∃ clause line, StatedOn text rule clause line ∧
      ∃ place, timeAmount.search? line = some place ∧ minutes = statedMinutes place := by
  rw [readRules_eq] at listed
  split at listed
  · rw [List.mem_singleton.mp listed] at limited
    cases limited
  · rcases foundRules_cases listed with stated | towed
    · obtain ⟨clause, inside, finding, found, schedule, given⟩ := mem_clauseRules stated
      rw [rulesOf_kind given] at limited
      have limit := RoundTrip.findings_limit found limited
      obtain ⟨earlier, line, later, same, onLine, none⟩ := List.findSome?_eq_some_iff.mp limit
      obtain ⟨place, search, own⟩ := lineLimit?_found onLine
      obtain ⟨window, _, built⟩ := List.mem_map.mp given
      exact ⟨clause, line, ⟨inside, by rw [← built], earlier, later, same, none⟩, place, search,
        Kind.timeLimit.inj (limited.symm.trans own)⟩
    · rw [rulesOf_kind towed] at limited
      cases limited

/-- A limit is read from a row of digits that no other digit touches, and the row is a whole number
unless the first amount on its line begins behind a digit and a point, comma or stroke. What is read
then is what the line says from there on. -/
theorem limit_number_whole_iff {quality : Option Binary64} {text : List Char} {rules : List Rule}
    (given : extract quality text = .ok rules) {rule : Rule} (listed : rule ∈ rules)
    {minutes : Int} (limited : rule.kind = .timeLimit minutes) :
    ∃ clause line, StatedOn text rule clause line ∧
    ∃ before number after place,
      Leftmost timeAmount line before (number ++ after) place ∧ place.part 1 = number ∧
      IsNumber number ∧ minutes = statedMinutes place ∧
      before.getLast?.any isDigit = false ∧ after.head?.any isDigit = false ∧
      (WholeBetween before after ↔ ∀ head tie tail, ¬ Torn line head tie tail) ∧
      ∀ head tie tail, Torn line head tie tail → before = head ++ [tie] ∧
        ∃ alone, timeAmount.matchStart? tail = some alone ∧ minutes = statedMinutes alone := by
  rw [rules_of_extract given] at listed
  obtain ⟨clause, line, states, place, search, stated⟩ := limit_source listed limited
  obtain ⟨before, rest, leftmost⟩ := leftmost_of_search? search
  obtain ⟨number, after, cut, held, isNumber, noneBefore, noneAfter⟩ :=
    timeAmount_reads leftmost.reads
  rw [cut] at leftmost
  refine ⟨clause, line, states, before, number, after, place, leftmost, held, isNumber, stated,
    noneBefore, noneAfter, ?_, ?_⟩
  · constructor
    · intro whole head tie tail torn
      exact whole.untied ((endsTied_iff leftmost).mpr ⟨head, tie, tail, torn⟩)
    · intro untorn
      refine ⟨noneBefore, noneAfter, fun tied => ?_⟩
      obtain ⟨head, tie, tail, torn⟩ := (endsTied_iff leftmost).mp tied
      exact untorn head tie tail torn
  · intro head tie tail torn
    obtain ⟨cut, alone, found, same⟩ := torn.read leftmost
    exact ⟨cut, alone, found, stated.trans (congrArg Int.ofNat same)⟩

theorem two_hours_whole : ∃ rules, extract none RoundTrip.shopSign.toList = .ok rules ∧
    ∃ rule ∈ rules, rule.kind = .timeLimit 120 ∧
    ∃ clause line, StatedOn RoundTrip.shopSign.toList rule clause line ∧
    ∃ before number after place, Leftmost timeAmount line before (number ++ after) place ∧
      place.part 1 = number ∧ statedMinutes place = 120 ∧ WholeBetween before after := by
  have given := @extract_eq none RoundTrip.shopSign.toList nofun
  have found : (readRules none RoundTrip.shopSign.toList).any
      (fun rule => rule.kind = .timeLimit 120) = true := by
    decide +kernel
  obtain ⟨rule, listed, limited⟩ := List.any_eq_true.mp found
  have limited : rule.kind = .timeLimit 120 := of_decide_eq_true limited
  obtain ⟨clause, line, states, before, number, after, place, leftmost, held, _, stated, _, _,
    whole, _⟩ := limit_number_whole_iff given listed limited
  obtain ⟨earlier, later, same, _⟩ := states.first
  have noTies : ∀ clause ∈ clauses RoundTrip.shopSign.toList, ∀ line ∈ lines clause.text,
      ∀ tie ∈ ties, tie ∉ line := by
    decide +kernel
  refine ⟨_, given, rule, listed, limited, clause, line, states, before, number, after, place,
    leftmost, held, (Int.ofNat.inj stated).symm, whole.mpr ?_⟩
  intro head tie tail torn
  have onLine : line ∈ lines clause.text := by
    rw [same]
    exact List.mem_append_right _ List.mem_cons_self
  apply noTies clause states.listed line onLine tie torn.tied
  rw [torn.cut]
  exact List.mem_append_right _ List.mem_cons_self

def decimalSign : List Char := "1.5 HOUR PARKING".toList

/-- An hour and a half is read as five hours, from the places behind the point. -/
theorem decimal_hours_torn : ∃ rules, extract none decimalSign = .ok rules ∧
    (∃ rule ∈ rules, rule.kind = .timeLimit 300) ∧
    clauses decimalSign = [⟨[decimalSign]⟩] ∧ lines (Clause.text ⟨[decimalSign]⟩) = [decimalSign] ∧
    ∃ place, Leftmost timeAmount decimalSign ['1', '.'] ('5' :: " HOUR PARKING".toList) place ∧
      place.part 1 = ['5'] ∧ statedMinutes place = 300 ∧
      ¬ WholeBetween ['1', '.'] " HOUR PARKING".toList := by
  have found : (readRules none decimalSign).any (fun rule => rule.kind = .timeLimit 300) = true := by
    decide +kernel
  obtain ⟨rule, listed, limited⟩ := List.any_eq_true.mp found
  have nothing : timeAmount.search? ['1'] = none := Option.isNone_iff_eq_none.mp (by decide +kernel)
  refine ⟨_, extract_eq nofun, ⟨rule, listed, of_decide_eq_true limited⟩, by decide +kernel,
    by decide +kernel, ⟨some 'R', " PARKING".toList, [(2, "HOUR".toList), (1, ['5'])]⟩, ?_, rfl,
    by decide +kernel, ?_⟩
  · exact (leftmost_behind_seam (tie_seam (by decide)) ['1'] _ _).mpr ⟨nothing, rfl⟩
  · intro whole
    exact whole.untied ⟨['1'], '.', by decide, rfl, by decide +kernel⟩

end Curbside.Proofs.LimitNumbers

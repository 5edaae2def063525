import Curbside.Proofs.Attempt
import Curbside.Proofs.Extraction
import Curbside.Proofs.Phrases

/-! The restrictions on one sign stay apart. A clause that is read on its own is one clause again,
with its own times, so that a sign says what its clauses say one by one, unless the sign speaks as a
whole of towing or of a fine, or a clause has to borrow the time of another. -/

namespace Curbside.Proofs.Separation
open Text Sign Attempt Confidence Layout Phrases Extraction

section
variable {start clause : Clause} {line : List Char} {rest : List (List Char)}

theorem gather_ne_nil (start : Clause) (rest : List (List Char)) :
    Clause.gather start rest ≠ [] := by
  induction rest generalizing start with
  | nil => exact List.cons_ne_nil start []
  | cons line rest ih =>
    rw [Clause.gather]
    split
    · exact List.cons_ne_nil start _
    · exact ih (start.add line)

/-- A line that opens no new clause joins the only one there is. -/
theorem gather_snoc (single : Clause.gather start rest = [clause])
    (joins : clause.isClosedBy line = false) :
    Clause.gather start (rest ++ [line]) = [clause.add line] := by
  induction rest generalizing start with
  | nil =>
    cases single
    simp [Clause.gather, joins]
  | cons first rest ih =>
    simp only [List.cons_append, Clause.gather] at single ⊢
    split at single
    · obtain ⟨_, none⟩ := List.cons.inj single
      exact absurd none (gather_ne_nil _ rest)
    next stays =>
      rw [if_neg stays]
      exact ih single

/-- A clause is what its own lines are gathered into. -/
def Whole (clause : Clause) : Prop :=
  ∃ first rest, clause.lines = first :: rest ∧ Clause.gather ⟨[first]⟩ rest = [clause]

theorem Whole.single (line : List Char) : Whole ⟨[line]⟩ := ⟨line, [], rfl, rfl⟩

theorem Whole.add (whole : Whole clause) (joins : clause.isClosedBy line = false) :
    Whole (clause.add line) := by
  obtain ⟨first, rest, lines, single⟩ := whole
  exact ⟨first, rest ++ [line], by simp [Clause.add, lines], gather_snoc single joins⟩

theorem gather_whole (whole : Whole start) (member : clause ∈ Clause.gather start rest) :
    Whole clause := by
  induction rest generalizing start with
  | nil =>
    rw [List.mem_singleton.mp member]
    exact whole
  | cons line rest ih =>
    rw [Clause.gather] at member
    split at member
    · rcases List.mem_cons.mp member with rfl | further
      · exact whole
      · exact ih (.single line) further
    next joins => exact ih (whole.add (by simpa using joins)) member

theorem gather_lines (start : Clause) (rest : List (List Char)) :
    (Clause.gather start rest).flatMap (·.lines) = start.lines ++ rest := by
  induction rest generalizing start with
  | nil => simp [Clause.gather]
  | cons line rest ih =>
    rw [Clause.gather]
    split
    · simp [ih]
    · simp [ih, Clause.add]

end

section
variable {text : List Char} {clause : Clause}

theorem clauses_lines (text : List Char) :
    (clauses text).flatMap (·.lines) = printedLines text := by
  unfold clauses
  cases printedLines text with
  | nil => rfl
  | cons line rest => exact gather_lines ⟨[line]⟩ rest

theorem clauses_whole (member : clause ∈ clauses text) : Whole clause := by
  unfold clauses at member
  split at member
  · cases member
  next line rest _ => exact gather_whole (.single line) member

/-- A clause of a sign is the only clause of its own text. -/
theorem clauses_rawText (member : clause ∈ clauses text) : clauses clause.rawText = [clause] := by
  obtain ⟨first, rest, lines, single⟩ := clauses_whole member
  have printed : ∀ line ∈ clause.lines, Printed line := by
    intro line inside
    have listed : line ∈ printedLines text := by
      rw [← clauses_lines]
      exact List.mem_flatMap.mpr ⟨clause, member, inside⟩
    exact printedLines_printed listed
  unfold clauses Clause.rawText
  rw [printedLines_unlines printed, lines]
  exact single

/-- A phrase that a sign does not hold is not held by a clause of it either. -/
theorem occursIn_clause {phrase : Pattern} (loose : Loose phrase) (member : clause ∈ clauses text)
    (absent : phrase.occursIn (upper text) = false) :
    phrase.occursIn (upper clause.rawText) = false := by
  obtain ⟨first, rest, lines, _⟩ := clauses_whole member
  obtain ⟨earlier, later, split⟩ := List.append_of_mem member
  have printed : printedLines text =
      earlier.flatMap (·.lines) ++ (clause.lines ++ later.flatMap (·.lines)) := by
    rw [← clauses_lines, split]
    simp
  rw [Bool.eq_false_iff] at absent ⊢
  intro found
  exact absent (occursIn_printedLines loose printed (by simp [lines]) found)

end

/-- A sign says nothing that holds for all of its restrictions. -/
structure PostsNothing (text : List Char) : Prop where
  notTowed : towPhrase.occursIn (upper text) = false
  unfined : finePhrase.search? (upper text) = none

theorem PostsNothing.ofText {text : List Char} (silent : PostsNothing text) :
    Posted.ofText (upper text) = ⟨false, none⟩ := by
  simp [Posted.ofText, silent.notTowed, silent.unfined]

theorem PostsNothing.clause {text : List Char} {clause : Clause} (silent : PostsNothing text)
    (member : clause ∈ clauses text) : PostsNothing clause.rawText := by
  refine ⟨occursIn_clause towPhrase_loose member silent.notTowed, ?_⟩
  have absent : finePhrase.occursIn (upper text) = false := by
    simp [Pattern.occursIn, silent.unfined]
  simpa [Pattern.occursIn] using occursIn_clause finePhrase_loose member absent

theorem isKindText_iff {text : List Char} : isKindText text = true ↔ findings text ≠ [] := by
  unfold isKindText findings
  rw [Ne, List.filterMap_eq_nil_iff]
  simp only [List.any_eq_true, Option.isSome_iff_ne_none, Classical.not_forall, exists_prop]

theorem findings_eq_nil {text : List Char} (other : isKindText text = false) :
    findings text = [] := by
  cases found : findings text with
  | nil => rfl
  | cons finding more =>
    rw [isKindText_iff.mpr (by simp [found])] at other
    cases other

/-- The rules that a clause gives by its own times, where nothing is posted for the sign. -/
def ownRules (quality : Option Binary64) (clause : Clause) : List Rule :=
  (findings clause.text).flatMap
    (rulesOf ⟨false, none⟩ quality clause.schedule clause.rawText)

section
variable {quality : Option Binary64} {text : List Char}

theorem ownRules_ne_nil {clause : Clause} (kind : isKindText clause.text = true) :
    ownRules quality clause ≠ [] := by
  cases found : findings clause.text with
  | nil => exact absurd found (isKindText_iff.mp kind)
  | cons finding more =>
    intro none
    rw [ownRules, found] at none
    exact rulesOf_ne_nil (List.append_eq_nil_iff.mp none).1

theorem clauseRules_own {clauses : List Clause}
    (timed : ∀ clause ∈ clauses, isKindText clause.text = true → clause.hasTime = true) :
    clauseRules ⟨false, none⟩ quality clauses =
      (clauses.filter (isKindText ·.text)).flatMap (ownRules quality) := by
  unfold clauseRules
  dsimp only
  -- Nobody borrows the shared schedule, so it may be any.
  generalize sharedSchedule? clauses = shared
  induction clauses with
  | nil => rfl
  | cons clause more ih =>
    have others := ih fun other member => timed other (List.mem_cons_of_mem clause member)
    rw [List.flatMap_cons, others, List.filter_cons]
    split
    next kind =>
      have own : scheduleOf shared clause = clause.schedule :=
        if_pos (timed clause List.mem_cons_self kind)
      rw [List.flatMap_cons, own]
      rfl
    next other =>
      rw [findings_eq_nil (Bool.not_eq_true _ ▸ other)]
      rfl

/-- What a sign says where its clauses keep their own times. -/
theorem readRules_own (silent : PostsNothing text)
    (some : ∃ clause ∈ clauses text, isKindText clause.text = true)
    (timed : ∀ clause ∈ clauses text, isKindText clause.text = true → clause.hasTime = true) :
    readRules quality text =
      ((clauses text).filter (isKindText ·.text)).flatMap (ownRules quality) := by
  obtain ⟨clause, member, kind⟩ := some
  have found : ((clauses text).filter (isKindText ·.text)).flatMap (ownRules quality) ≠ [] := by
    intro none
    have nothing := List.flatMap_eq_nil_iff.mp none clause (List.mem_filter.mpr ⟨member, kind⟩)
    exact ownRules_ne_nil kind nothing
  have stated : foundRules quality text =
      ((clauses text).filter (isKindText ·.text)).flatMap (ownRules quality) := by
    unfold foundRules
    rw [silent.ofText]
    exact clauseRules_own timed
  rw [readRules_eq, stated, if_neg (by rwa [List.isEmpty_iff])]

theorem readRules_clause {clause : Clause} (silent : PostsNothing text)
    (member : clause ∈ clauses text) (kind : isKindText clause.text = true)
    (timed : clause.hasTime = true) :
    readRules quality clause.rawText = ownRules quality clause := by
  have single := clauses_rawText member
  rw [readRules_own (silent.clause member)]
  · simp [single, kind]
  · exact ⟨clause, by simp [single], kind⟩
  · intro other inside _
    rw [single, List.mem_singleton] at inside
    rw [inside]
    exact timed

end

/-- Rules are refused as a whole if the confidence of one of them is below zero. -/
def accepted (rules : List Rule) : Except Failure (List Rule) :=
  if rules.any fun rule => rule.confidence.lt (Binary64.ofInt 0) then
    .error (.ofFault [.field "confidence"] (.below 0))
  else .ok rules

theorem extract_accepted (quality : Option Binary64) (text : List Char) :
    extract quality text = accepted (readRules quality text) := rfl

theorem accepted_append (one two : List Rule) :
    accepted (one ++ two) =
      (do let first ← accepted one
          let second ← accepted two
          return first ++ second) := by
  unfold accepted
  rw [List.any_append]
  cases one.any fun rule => rule.confidence.lt (Binary64.ofInt 0) with
  | true => rfl
  | false =>
    cases two.any fun rule => rule.confidence.lt (Binary64.ofInt 0) with
    | true => rfl
    | false => rfl

theorem accepted_flatMap {rules : Clause → List Rule} {read : Clause → Except Failure (List Rule)}
    {clauses : List Clause} (each : ∀ clause ∈ clauses, read clause = accepted (rules clause)) :
    accepted (clauses.flatMap rules) = (clauses.mapM read).map List.flatten := by
  induction clauses with
  | nil => rfl
  | cons clause more ih =>
    have others := ih fun other member => each other (List.mem_cons_of_mem clause member)
    rw [List.flatMap_cons, accepted_append, List.mapM_cons, others, each clause List.mem_cons_self]
    cases accepted (rules clause) with
    | error failure => rfl
    | ok first =>
      cases more.mapM read with
      | error failure => rfl
      | ok others => rfl

/-- The rules of a sign are those of its clauses that speak of a kind, each read on its own, one
after the other. -/
theorem clauses_read_alone (quality : Option Binary64) {text : List Char}
    (silent : PostsNothing text)
    (some : ∃ clause ∈ clauses text, isKindText clause.text = true)
    (timed : ∀ clause ∈ clauses text, isKindText clause.text = true → clause.hasTime = true) :
    extract quality text =
        (((clauses text).filter (isKindText ·.text)).mapM fun clause =>
          extract quality clause.rawText).map List.flatten ∧
      ((∀ q ∈ quality, IsBetween (.ofInt 0) (.ofInt 1) q) →
        ∃ rules, extract quality text = .ok rules) := by
  refine ⟨?_, fun readable => ⟨_, extract_eq readable⟩⟩
  have each : ∀ clause ∈ (clauses text).filter (isKindText ·.text),
      extract quality clause.rawText = accepted (ownRules quality clause) := by
    intro clause listed
    obtain ⟨member, kind⟩ := List.mem_filter.mp listed
    rw [extract_accepted, readRules_clause silent member kind (timed clause member kind)]
  rw [extract_accepted, readRules_own silent some timed]
  exact accepted_flatMap each

def shopLine : String := "2 HOUR PARKING 8AM-6PM MON-FRI"

def tuesdayLine : String := "NO PARKING TUE 7AM-9AM"

/-- Two restrictions with times of their own, with a blank line between them. -/
def pairedSign : List Char := (shopLine ++ "\n \n  " ++ tuesdayLine).toList

def shopLimit : Rule :=
  ⟨.plain (.timeLimit 120),
    some (Window.onDays ⟨8 * 60, by decide⟩ ⟨18 * 60, by decide⟩ .workdays),
    Binary64.ofPlaces 90 2, shopLine, false⟩

def tuesdayBan : Rule :=
  ⟨.plain .noParking,
    some (Window.onDays ⟨7 * 60, by decide⟩ ⟨9 * 60, by decide⟩ (.single .tuesday)),
    Binary64.ofPlaces 95 2, tuesdayLine, false⟩

/-- Each line gives one rule, and so does its clause on the sign. -/
theorem paired_sign_read_alone :
    extract none shopLine.toList = .ok [shopLimit] ∧
      extract none tuesdayLine.toList = .ok [tuesdayBan] ∧
      extract none pairedSign = .ok [shopLimit, tuesdayBan] := by
  have apart : clauses pairedSign = [⟨[shopLine.toList]⟩, ⟨[tuesdayLine.toList]⟩] := by
    decide +kernel
  have kinds : ∀ clause ∈ clauses pairedSign,
      isKindText clause.text = true ∧ clause.hasTime = true := by
    decide +kernel
  have silent : PostsNothing pairedSign := by
    refine ⟨by decide +kernel, Option.isNone_iff_eq_none.mp ?_⟩
    decide +kernel
  have listed : (⟨[shopLine.toList]⟩ : Clause) ∈ clauses pairedSign := by simp [apart]
  obtain ⟨alone, _⟩ := clauses_read_alone none silent ⟨_, listed, (kinds _ listed).1⟩
    fun clause member _ => (kinds clause member).2
  have every : (clauses pairedSign).filter (isKindText ·.text) = clauses pairedSign :=
    List.filter_eq_self.mpr fun clause member => (kinds clause member).1
  have shop : extract none shopLine.toList = .ok [shopLimit] := ok_of_toOption (by decide +kernel)
  have tuesday : extract none tuesdayLine.toList = .ok [tuesdayBan] :=
    ok_of_toOption (by decide +kernel)
  refine ⟨shop, tuesday, ?_⟩
  rw [alone, every, apart]
  simp only [List.mapM_cons, List.mapM_nil, Clause.rawText, unlines, shop, tuesday]
  rfl

end Curbside.Proofs.Separation

import Curbside.Proofs.Layout
import Curbside.Proofs.Quality

/-! Signs are read in capitals. Lines end and blanks are trimmed at the same places in either
case, so two texts that differ in the case of their letters have the same lines in capitals.
Whatever is looked for, in the text, in a line or in a clause, is looked for in these. -/

namespace Curbside.Proofs.LetterCase
open Text Sign Layout Confidence Extraction Annotation Quality

theorem toNat_toUpper (c : Char) :
    c.toUpper.toNat = if 97 ≤ c.toNat ∧ c.toNat ≤ 122 then c.toNat - 32 else c.toNat := by
  have small : (c.val ≥ 'a'.val ∧ c.val ≤ 'z'.val) ↔ 97 ≤ c.toNat ∧ c.toNat ≤ 122 := by
    simp only [ge_iff_le, UInt32.le_iff_toNat_le]
    exact Iff.rfl
  unfold Char.toUpper
  split
  next isSmall =>
    have within := small.mp isSmall
    rw [if_pos within]
    change (c.val + ('A'.val - 'a'.val)).toNat = _
    rw [UInt32.toNat_add]
    change (c.toNat + 4294967264) % 4294967296 = _
    omega
  next isOther => rw [if_neg (mt small.mpr isOther)]

theorem toNat_toLower (c : Char) :
    c.toLower.toNat = if 65 ≤ c.toNat ∧ c.toNat ≤ 90 then c.toNat + 32 else c.toNat := by
  have large : (c.val ≥ 'A'.val ∧ c.val ≤ 'Z'.val) ↔ 65 ≤ c.toNat ∧ c.toNat ≤ 90 := by
    simp only [ge_iff_le, UInt32.le_iff_toNat_le]
    exact Iff.rfl
  unfold Char.toLower
  split
  next isLarge =>
    have within := large.mp isLarge
    rw [if_pos within]
    change (c.val + ('a'.val - 'A'.val)).toNat = _
    rw [UInt32.toNat_add]
    change (c.toNat + 32) % 4294967296 = _
    omega
  next isOther => rw [if_neg (mt large.mpr isOther)]

theorem toUpper_eq_of_toLower_eq {c d : Char} (same : c.toLower = d.toLower) :
    c.toUpper = d.toUpper := by
  have lower := congrArg Char.toNat same
  rw [toNat_toLower, toNat_toLower] at lower
  apply Char.toNat_inj.mp
  rw [toNat_toUpper, toNat_toUpper]
  split at lower <;> split at lower <;> split <;> split <;> omega

theorem capitals_eq {c : Char} (plain : c.toNat < 128) : capitals c = [c.toUpper] := by
  have capital : c.toUpper = Char.ofNat c.toUpper.toNat := (Char.ofNat_toNat _).symm
  rw [capital, toNat_toUpper, capitals, if_pos plain]
  simp only [Bool.and_eq_true, decide_eq_true_eq]
  split
  · rfl
  · rw [Char.ofNat_toNat]

theorem upper_eq {text : List Char} (plain : ∀ c ∈ text, c.toNat < 128) :
    upper text = text.map Char.toUpper := by
  induction text with
  | nil => rfl
  | cons c rest ih =>
    have others := ih fun d member => plain d (List.mem_cons_of_mem c member)
    rw [upper, List.flatMap_cons, capitals_eq (plain c List.mem_cons_self), List.singleton_append,
      ← upper, others, List.map_cons]

theorem isBlank_toUpper (c : Char) : isBlank c.toUpper = isBlank c := by
  rw [Bool.eq_iff_iff]
  simp only [isBlank, toNat_toUpper, Bool.or_eq_true, Bool.and_eq_true, decide_eq_true_eq,
    beq_iff_eq]
  split <;> omega

theorem isLineEnd_toUpper (c : Char) : isLineEnd c.toUpper = isLineEnd c := by
  rw [Bool.eq_iff_iff]
  simp only [isLineEnd, toNat_toUpper, Bool.or_eq_true, Bool.and_eq_true, decide_eq_true_eq,
    beq_iff_eq]
  split <;> omega

/-- A character that ends a line is no letter. -/
theorem toUpper_lineEnd {c d : Char} (ends : isLineEnd d = true) (same : c.toUpper = d) :
    c = d := by
  have apart := toNat_toUpper c
  rw [same] at apart
  simp only [isLineEnd, Bool.or_eq_true, Bool.and_eq_true, decide_eq_true_eq, beq_iff_eq] at ends
  apply Char.toNat_inj.mp
  split at apart <;> omega

theorem lines_toUpper (text : List Char) :
    lines (text.map Char.toUpper) = (lines text).map (List.map Char.toUpper) := by
  induction text using lines.induct with
  | case1 => rfl
  | case2 rest ih =>
    rw [List.map_cons, List.map_cons, lines, List.map_cons, ← ih]
    exact lines.eq_2 _
  | case3 c rest apart ends ih =>
    have alone : ∀ more, c.toUpper = '\r' → rest.map Char.toUpper = '\n' :: more → False := by
      intro more first second
      obtain ⟨d, others, rfl, next, _⟩ := List.map_eq_cons_iff.mp second
      exact apart others (toUpper_lineEnd rfl first) (by rw [toUpper_lineEnd rfl next])
    rw [List.map_cons, lines, if_pos ((isLineEnd_toUpper c).trans ends), ih, lines, if_pos ends,
      List.map_cons, List.map_nil]
    · exact apart
    · exact alone
  | case4 c rest apart stays ih =>
    have inside : isLineEnd c = false := by simpa using stays
    rw [List.map_cons, lines_cons ((isLineEnd_toUpper c).trans inside), ih, lines_cons inside]
    cases lines rest with
    | nil => rfl
    | cons line more => rfl

theorem trimEnd_toUpper (text : List Char) :
    trimEnd (text.map Char.toUpper) = (trimEnd text).map Char.toUpper := by
  induction text with
  | nil => rfl
  | cons c rest ih =>
    rw [List.map_cons, trimEnd, ih, trimEnd, isBlank_toUpper]
    cases trimEnd rest with
    | nil => cases isBlank c <;> rfl
    | cons d kept => rfl

theorem trim_toUpper (text : List Char) :
    trim (text.map Char.toUpper) = (trim text).map Char.toUpper := by
  have same : isBlank ∘ Char.toUpper = isBlank := funext isBlank_toUpper
  rw [trim, trimStart, List.dropWhile_map, same, trimEnd_toUpper, trim, trimStart]

theorem printedLines_toUpper (text : List Char) :
    printedLines (text.map Char.toUpper) = (printedLines text).map (List.map Char.toUpper) := by
  have trimmed : trim ∘ List.map Char.toUpper = List.map Char.toUpper ∘ trim :=
    funext trim_toUpper
  have kept : (fun line : List Char => !line.isEmpty) ∘ List.map Char.toUpper =
      fun line => !line.isEmpty := by
    funext line
    exact congrArg not List.isEmpty_map
  rw [printedLines, lines_toUpper, List.map_map, trimmed, ← List.map_map, List.filter_map, kept,
    printedLines]

/-- Texts of the first 128 characters that differ in the case of letters at most. -/
structure Recased (one two : List Char) : Prop where
  plain : ∀ c ∈ one, c.toNat < 128
  otherPlain : ∀ c ∈ two, c.toNat < 128
  same : one.map Char.toLower = two.map Char.toLower

section
variable {one two : List Char}

theorem map_toUpper_eq (same : one.map Char.toLower = two.map Char.toLower) :
    one.map Char.toUpper = two.map Char.toUpper := by
  induction one generalizing two with
  | nil => rw [List.map_eq_nil_iff.mp same.symm]
  | cons c rest ih =>
    obtain ⟨d, others, rfl, first, further⟩ := List.map_eq_cons_iff.mp same.symm
    rw [List.map_cons, List.map_cons, toUpper_eq_of_toLower_eq first, ih further.symm]

theorem Recased.upper (recased : Recased one two) : upper one = upper two := by
  rw [upper_eq recased.plain, map_toUpper_eq recased.same, upper_eq recased.otherPlain]

theorem Recased.printedLines (recased : Recased one two) :
    (printedLines one).map Text.upper = (printedLines two).map Text.upper := by
  have each {text : List Char} (plain : ∀ c ∈ text, c.toNat < 128) :
      (Sign.printedLines text).map Text.upper = Sign.printedLines (text.map Char.toUpper) := by
    rw [printedLines_toUpper]
    apply List.map_congr_left
    intro line listed
    exact upper_eq fun c member => plain c (mem_of_mem_printedLines listed member)
  rw [each recased.plain, map_toUpper_eq recased.same, each recased.otherPlain]

end

/-- Two clauses that are the same in capitals. -/
def SameText (clause other : Clause) : Prop := clause.lines.map upper = other.lines.map upper

section
variable {clause other : Clause} (same : SameText clause other)
include same

theorem text_eq : clause.text = other.text := congrArg unlines same

theorem schedule_eq : clause.schedule = other.schedule := by
  rw [Clause.schedule, Clause.ranges, Clause.days, text_eq same]
  rfl

theorem hasTime_eq : clause.hasTime = other.hasTime := by
  rw [Clause.hasTime, Clause.ranges, Clause.days, text_eq same]
  rfl

theorem hasKind_eq : clause.hasKind = other.hasKind := by
  have inCapitals (clause : Clause) :
      clause.hasKind = (clause.lines.map upper).any isKindText := by
    rw [List.any_map]
    rfl
  rw [inCapitals, same, inCapitals]

theorem isClosedBy_eq {line after : List Char} (sameLine : upper line = upper after) :
    clause.isClosedBy line = other.isClosedBy after := by
  rw [Clause.isClosedBy, isKindLine, sameLine, hasKind_eq same, hasTime_eq same]
  rfl

theorem add_sameText {line after : List Char} (sameLine : upper line = upper after) :
    SameText (clause.add line) (other.add after) := by
  simp only [SameText, Clause.add, List.map_append, List.map_cons, List.map_nil, sameLine]
  rw [same]

end

theorem gather_sameText {current other : Clause} (same : SameText current other)
    {below after : List (List Char)} (further : below.map upper = after.map upper) :
    List.Forall₂ SameText (current.gather below) (other.gather after) := by
  induction below generalizing current other after with
  | nil =>
    rw [List.map_eq_nil_iff.mp further.symm]
    exact .cons same .nil
  | cons line rest ih =>
    obtain ⟨next, others, rfl, sameLine, sameRest⟩ := List.map_eq_cons_iff.mp further.symm
    have sameLine : upper line = upper next := sameLine.symm
    rw [Clause.gather, Clause.gather, isClosedBy_eq same sameLine]
    split
    · have opened : SameText ⟨[line]⟩ ⟨[next]⟩ := congrArg ([·]) sameLine
      exact .cons same (ih opened sameRest.symm)
    · exact ih (add_sameText same sameLine) sameRest.symm

theorem clauses_sameText {one two : List Char} (recased : Recased one two) :
    List.Forall₂ SameText (clauses one) (clauses two) := by
  have printed := recased.printedLines
  unfold clauses
  split
  next none =>
    rw [none] at printed
    rw [List.map_eq_nil_iff.mp printed.symm]
    exact .nil
  next line below some =>
    rw [some] at printed
    obtain ⟨next, after, others, first, further⟩ := List.map_eq_cons_iff.mp printed.symm
    rw [others]
    have opened : SameText ⟨[line]⟩ ⟨[next]⟩ := congrArg ([·]) first.symm
    exact gather_sameText opened further.symm

/-- A rule without the words in which it was printed. -/
def unprinted (rule : Rule) : Rule := { rule with rawText := "" }

theorem unprinted_keeps : Keeps unprinted := ⟨fun _ => rfl, fun _ => rfl⟩

/-- Two rules that are the same but for the words in which they were printed. -/
def Reprinted (rule other : Rule) : Prop := unprinted rule = unprinted other

theorem map_unprinted_eq {rules others : List Rule}
    (reprinted : List.Forall₂ Reprinted rules others) :
    rules.map unprinted = others.map unprinted := by
  induction reprinted with
  | nil => rfl
  | cons first _ ih => rw [List.map_cons, first, ih, List.map_cons]

section
variable (quality : Option Binary64)

theorem rulesOf_reprinted (posted : Posted) (schedule : Schedule) (rawText other : List Char)
    (finding : Finding) :
    List.Forall₂ Reprinted (rulesOf posted quality schedule rawText finding)
      (rulesOf posted quality schedule other finding) := by
  rw [rulesOf, rulesOf, List.forall₂_map_left_iff, List.forall₂_map_right_iff, List.forall₂_same]
  intro window _
  rfl

theorem sharedSchedule?_eq {signs others : List Clause}
    (same : List.Forall₂ SameText signs others) :
    sharedSchedule? signs = sharedSchedule? others := by
  have timed : List.Forall₂ SameText (signs.filter (·.hasTime)) (others.filter (·.hasTime)) := by
    apply List.rel_filter _ same
    intro clause other same
    exact iff_of_eq (congrArg (· = true) (hasTime_eq same))
  unfold sharedSchedule?
  generalize signs.filter (·.hasTime) = ours at timed
  generalize others.filter (·.hasTime) = theirs at timed
  cases timed with
  | nil => rfl
  | cons first rest =>
    cases rest with
    | nil => exact congrArg some (schedule_eq first)
    | cons _ _ => rfl

theorem clauseRules_reprinted (posted : Posted) {signs others : List Clause}
    (same : List.Forall₂ SameText signs others) :
    List.Forall₂ Reprinted (clauseRules posted quality signs)
      (clauseRules posted quality others) := by
  unfold clauseRules
  rw [sharedSchedule?_eq same]
  apply List.rel_flatMap same
  intro clause other same
  have sameFindings : List.Forall₂ (fun finding other => finding = other)
      (findings clause.text) (findings other.text) := by
    rw [text_eq same]
    exact List.forall₂_same.mpr fun _ _ => rfl
  have sameSchedule : scheduleOf (sharedSchedule? others) clause =
      scheduleOf (sharedSchedule? others) other := by
    rw [scheduleOf, hasTime_eq same, schedule_eq same, scheduleOf]
  apply List.rel_flatMap sameFindings
  intro finding _ same
  subst same
  rw [sameSchedule]
  exact rulesOf_reprinted quality posted _ _ _ finding

theorem readRules_reprinted {one two : List Char} (recased : Recased one two) :
    List.Forall₂ Reprinted (readRules quality one) (readRules quality two) := by
  have sameClauses := clauses_sameText recased
  have stated := clauseRules_reprinted quality (Posted.ofText (upper two)) sameClauses
  have sameRestrictive := congrArg (·.any Rule.isRestrictive) (map_unprinted_eq stated)
  simp only [any_isRestrictive_noted unprinted_keeps] at sameRestrictive
  have found : List.Forall₂ Reprinted (foundRules quality one) (foundRules quality two) := by
    unfold foundRules
    dsimp only
    rw [recased.upper, sameRestrictive]
    split
    · apply List.rel_append stated
      rw [towRules, sharedSchedule?_eq sameClauses]
      exact rulesOf_reprinted quality _ _ _ _ _
    · exact stated
  have empty : (foundRules quality one).isEmpty = (foundRules quality two).isEmpty := by
    rw [← List.isEmpty_map, map_unprinted_eq found, List.isEmpty_map]
  rw [readRules_eq, readRules_eq, empty]
  split
  · exact .cons rfl .nil
  · exact found

end

/-- The outcome of a verdict: whether parking is allowed, and when that changes next. -/
def outcome (verdict : Verdict) : Bool × Option Moment := (verdict.allowed, verdict.nextChange)

/-- The advice to a driver under some rules. -/
def adviceUnder (bands : Fine.Bands) (rules : List Rule) (moment : Moment) :
    Except Failure Decision := do
  Decision.ofVerdict bands (← Verdict.evaluate rules moment)

theorem outcome_unprinted (rules : List Rule) (moment : Moment) :
    (Verdict.evaluate (rules.map unprinted) moment).map outcome =
      (Verdict.evaluate rules moment).map outcome := by
  rw [evaluate_noted unprinted_keeps]
  cases Verdict.evaluate rules moment <;> rfl

theorem adviceUnder_unprinted (bands : Fine.Bands) (rules : List Rule) (moment : Moment) :
    adviceUnder bands (rules.map unprinted) moment = adviceUnder bands rules moment := by
  unfold adviceUnder
  rw [evaluate_noted unprinted_keeps]
  cases Verdict.evaluate rules moment with
  | error failure => rfl
  | ok verdict => exact ofVerdict_noted unprinted_keeps bands verdict

/-- Texts that differ in the case of letters only give the same rules but for the words in which
they were printed. Verdicts have the same outcome, and timers and advice are the same. -/
theorem case_decides_nothing (quality : Option Binary64) (one two : List Char)
    (readable : ∀ q ∈ quality, IsBetween (.ofInt 0) (.ofInt 1) q) (recased : Recased one two) :
    ∃ rules others, extract quality one = .ok rules ∧ extract quality two = .ok others ∧
      rules.map unprinted = others.map unprinted ∧
      (∀ moment, (Verdict.evaluate rules moment).map outcome =
        (Verdict.evaluate others moment).map outcome) ∧
      (∀ start lead, timerUnder rules start lead = timerUnder others start lead) ∧
      (∀ bands moment, adviceUnder bands rules moment = adviceUnder bands others moment) := by
  have same := map_unprinted_eq (readRules_reprinted quality recased)
  refine ⟨_, _, extract_eq readable, extract_eq readable, same, ?_, ?_, ?_⟩
  · intro moment
    rw [← outcome_unprinted, same, outcome_unprinted]
  · intro start lead
    rw [← timerUnder_noted unprinted_keeps, same, timerUnder_noted unprinted_keeps]
  · intro bands moment
    rw [← adviceUnder_unprinted, same, adviceUnder_unprinted]

def quietSign : List Char := "no parking 9-10am".toList

def shoutedSign : List Char := "NO PARKING 9-10AM".toList

/-- A sign in other letters has other words in its rules, and they lead to the same advice. -/
theorem shouted_sign_agrees : Recased quietSign shoutedSign ∧ ∃ rules others,
    extract (some (.ofPlaces 9 1)) quietSign = .ok rules ∧
    extract (some (.ofPlaces 9 1)) shoutedSign = .ok others ∧
    rules.map Rule.rawText = ["no parking 9-10am"] ∧
    others.map Rule.rawText = ["NO PARKING 9-10AM"] ∧
    rules.map unprinted = others.map unprinted ∧
    ∀ bands moment, adviceUnder bands rules moment = adviceUnder bands others moment := by
  have readable : ∀ q ∈ some (Binary64.ofPlaces 9 1), IsBetween (.ofInt 0) (.ofInt 1) q := by
    intro q same
    rw [← Option.mem_some.mp same]
    exact ⟨by decide +kernel, by decide +kernel, by decide +kernel⟩
  have recased : Recased quietSign shoutedSign := ⟨by decide, by decide, by decide⟩
  obtain ⟨rules, others, quietly, loudly, same, _, _, advice⟩ :=
    case_decides_nothing _ quietSign shoutedSign readable recased
  have words : (extract (some (.ofPlaces 9 1)) quietSign).toOption.map (List.map Rule.rawText) =
      some ["no parking 9-10am"] := by decide +kernel
  have shouts : (extract (some (.ofPlaces 9 1)) shoutedSign).toOption.map (List.map Rule.rawText) =
      some ["NO PARKING 9-10AM"] := by decide +kernel
  rw [quietly] at words
  rw [loudly] at shouts
  exact ⟨recased, rules, others, quietly, loudly, Option.some.inj words, Option.some.inj shouts,
    same, advice⟩

end Curbside.Proofs.LetterCase

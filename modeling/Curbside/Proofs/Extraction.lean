import Curbside.Proofs.Confidence
import Curbside.Proofs.Conversion

/-! Every text gives at least one rule, and only rules that keep the bounds of the record. What a
finder finds keeps them, scaling keeps them, and the rule for a text that says nothing keeps them
too. -/

namespace Curbside.Proofs.Extraction
open Text Sign Confidence Conversion

/-- What holds of everything that is found in a text. -/
structure Sound (finding : Finding) : Prop where
  known : finding.kind ≠ .unknown
  lasting : ∀ minutes, finding.kind = .timeLimit minutes → 0 < minutes
  uncertain : Within mostUnits finding.confidence

theorem ofHundredths_sound {kind : Kind} {hundredths : Nat} (known : kind ≠ .unknown)
    (lasting : ∀ minutes, kind = .timeLimit minutes → 0 < minutes) (below : hundredths ≤ 99) :
    Sound (.ofHundredths kind hundredths) := by
  have uncertain : Within mostUnits (.ofPlaces hundredths 2) := ofPlaces_within below
  unfold Finding.ofHundredths
  constructor
  · exact known
  · exact lasting
  · dsimp only
    exact uncertain

theorem lineLimit?_sound {isForbidden : Bool} {line : List Char} {finding : Finding}
    (found : lineLimit? isForbidden line = some finding) : Sound finding := by
  unfold lineLimit? at found
  split at found
  · cases found
  next place _ =>
    dsimp only at found
    split at found
    · cases found
    next limited =>
      cases found
      apply ofHundredths_sound (by nofun)
      · intro minutes same
        cases same
        -- No minutes at all are no limit.
        have some : statedMinutes place ≠ 0 := fun zero => limited (by simp [zero])
        omega
      · split <;> decide

theorem timeLimit?_sound {text : List Char} {finding : Finding}
    (found : timeLimit? text = some finding) : Sound finding := by
  obtain ⟨line, _, limit⟩ := List.exists_of_findSome?_eq_some found
  exact lineLimit?_sound limit

theorem byPhrase?_sound {phrase : Pattern} {kind : Kind} {hundredths : Nat} {text : List Char}
    {finding : Finding} (known : kind ≠ .unknown)
    (lasting : ∀ minutes, kind = .timeLimit minutes → 0 < minutes) (below : hundredths ≤ 99)
    (found : byPhrase? phrase kind hundredths text = some finding) : Sound finding := by
  unfold byPhrase? at found
  split at found
  · cases found
    exact ofHundredths_sound known lasting below
  · cases found

theorem noParking?_sound {text : List Char} {finding : Finding}
    (found : noParking? text = some finding) : Sound finding := by
  unfold noParking? at found
  split at found
  · cases found
    exact ofHundredths_sound (by nofun) (by nofun) (by decide)
  · split at found
    · cases found
      exact ofHundredths_sound (by nofun) (by nofun) (by decide)
    · cases found

theorem permit?_sound {text : List Char} {finding : Finding}
    (found : permit? text = some finding) : Sound finding := by
  have byPhrase : byPhrase? permitPhrase (.permitRequired (permitName? text)) 95 text =
      some finding := found
  exact byPhrase?_sound (by nofun) (by nofun) (by decide) byPhrase

theorem metered?_sound {text : List Char} {finding : Finding}
    (found : metered? text = some finding) : Sound finding := by
  unfold metered? at found
  split at found
  · cases found
    exact ofHundredths_sound (by nofun) (by nofun) (by decide)
  · obtain ⟨paidUntil, _, same⟩ := Option.map_eq_some_iff.mp found
    subst same
    exact ofHundredths_sound (by nofun) (by nofun) (by decide)

theorem finder_sound {find? : List Char → Option Finding} (listed : find? ∈ finders)
    {text : List Char} {finding : Finding} (found : find? text = some finding) :
    Sound finding := by
  simp only [finders, List.mem_cons, List.not_mem_nil, or_false] at listed
  rcases listed with same | same | same | same | same | same | same <;> subst same
  · exact timeLimit?_sound found
  · exact noParking?_sound found
  · exact permit?_sound found
  · exact metered?_sound found
  · exact byPhrase?_sound (by nofun) (by nofun) (by decide) found
  · exact byPhrase?_sound (by nofun) (by nofun) (by decide) found
  · exact byPhrase?_sound (by nofun) (by nofun) (by decide) found

theorem findings_sound {text : List Char} {finding : Finding} (member : finding ∈ findings text) :
    Sound finding := by
  obtain ⟨find?, listed, found⟩ := List.mem_filterMap.mp member
  exact finder_sound listed found

structure KindValid (kind : Kind) : Prop where
  lasting : ∀ minutes, kind = .timeLimit minutes → 0 < minutes
  onClock : ∀ paidUntil, kind = .metered (some paidUntil) → paidUntil.val ≤ 1439

structure WindowValid (window : Window) : Prop where
  start : window.start.val ≤ 1439
  finish : window.finish.val ≤ 1439
  days : ∃ day, day ∈ window.days
  week : ∀ day ∈ window.days, day.val ≤ 6

/-- The bounds of a rule that no one has confirmed. -/
structure Valid (rule : Rule) : Prop where
  kind : KindValid rule.kind
  fine : ∀ fine ∈ rule.provision.fine, fine.isNonNegative = true
  window : ∀ window ∈ rule.window, WindowValid window
  confidence : IsBetween (Binary64.ofInt 0) mostConfidence rule.confidence
  unconfirmed : rule.userConfirmed = false

theorem Sound.kindValid {finding : Finding} (sound : Sound finding) : KindValid finding.kind :=
  ⟨sound.lasting, fun paidUntil _ => Nat.le_of_lt_succ paidUntil.isLt⟩

theorem exists_mem_of_ne_empty {days : DaySet} (some : days ≠ DaySet.empty) :
    ∃ day, day ∈ days := by
  apply Classical.byContradiction
  intro none
  apply some
  have bits : days.bits = DaySet.empty.bits := by
    apply BitVec.eq_of_getLsbD_eq
    intro i inside
    have out : days.has ⟨i, inside⟩ = false := Bool.eq_false_iff.mpr fun has => none ⟨_, has⟩
    have outOfEmpty : DaySet.empty.has ⟨i, inside⟩ = false :=
      Bool.eq_false_iff.mpr (DaySet.not_mem_empty _)
    exact out.trans outOfEmpty.symm
  exact congrArg DaySet.mk bits

theorem window_valid (window : Window) : WindowValid window where
  start := Nat.le_of_lt_succ window.start.isLt
  finish := Nat.le_of_lt_succ window.finish.isLt
  days := exists_mem_of_ne_empty window.hasDays
  week day _ := Nat.le_of_lt_succ day.isLt

theorem provision_kind (posted : Posted) (kind : Kind) : (posted.provision kind).kind = kind := by
  unfold Posted.provision
  split <;> rfl

theorem provision_fine {text : List Char} {kind : Kind} :
    ∀ fine ∈ ((Posted.ofText text).provision kind).fine, fine.isNonNegative = true := by
  intro fine member
  unfold Posted.provision at member
  split at member
  · obtain ⟨place, _, same⟩ := Option.map_eq_some_iff.mp member
    subst same
    rfl
  · cases member

theorem windows_ne_nil (schedule : Schedule) : schedule.windows ≠ [] := by
  unfold Schedule.windows
  split
  next stated =>
    intro none
    rw [List.map_eq_nil_iff.mp none] at stated
    cases stated
  · split <;> exact List.cons_ne_nil _ _

section
variable {quality : Option Binary64} {text : List Char}

theorem rulesOf_ne_nil {posted : Posted} {schedule : Schedule} {rawText : List Char}
    {finding : Finding} : rulesOf posted quality schedule rawText finding ≠ [] :=
  fun none => windows_ne_nil schedule (List.map_eq_nil_iff.mp none)

theorem rulesOf_kind {posted : Posted} {schedule : Schedule} {rawText : List Char}
    {finding : Finding} {rule : Rule}
    (member : rule ∈ rulesOf posted quality schedule rawText finding) :
    rule.kind = finding.kind := by
  obtain ⟨window, _, same⟩ := List.mem_map.mp member
  subst same
  exact provision_kind posted finding.kind

theorem rulesOf_valid (readable : ∀ q ∈ quality, IsBetween (.ofInt 0) (.ofInt 1) q)
    {schedule : Schedule} {rawText : List Char} {finding : Finding} (sound : Sound finding)
    {rule : Rule}
    (member : rule ∈ rulesOf (Posted.ofText text) quality schedule rawText finding) :
    Valid rule := by
  have kind : KindValid rule.kind := by
    rw [rulesOf_kind member]
    exact sound.kindValid
  have confidence : IsBetween (.ofInt 0) mostConfidence (scaled quality finding.confidence) :=
    scaled_between sound.uncertain readable
  obtain ⟨window, _, same⟩ := List.mem_map.mp member
  subst same
  constructor
  · exact kind
  · exact provision_fine
  · exact fun window _ => window_valid window
  · dsimp only
    exact confidence
  · rfl

theorem mem_clauseRules {posted : Posted} {clauses : List Clause} {rule : Rule}
    (member : rule ∈ clauseRules posted quality clauses) :
    ∃ clause ∈ clauses, ∃ finding ∈ findings clause.text, ∃ schedule,
      rule ∈ rulesOf posted quality schedule clause.rawText finding := by
  obtain ⟨clause, listed, given⟩ := List.mem_flatMap.mp member
  obtain ⟨finding, found, given⟩ := List.mem_flatMap.mp given
  exact ⟨clause, listed, finding, found, _, given⟩

theorem clauseRules_eq_nil {posted : Posted} {clauses : List Clause} :
    clauseRules posted quality clauses = [] ↔
      ∀ clause ∈ clauses, ∀ find? ∈ finders, find? clause.text = none := by
  unfold clauseRules
  dsimp only
  rw [List.flatMap_eq_nil_iff]
  constructor
  · intro none clause listed find? known
    cases found : find? clause.text with
    | none => rfl
    | some finding =>
      have inside : finding ∈ findings clause.text := List.mem_filterMap.mpr ⟨find?, known, found⟩
      exact absurd (List.flatMap_eq_nil_iff.mp (none clause listed) finding inside) rulesOf_ne_nil
  · intro none clause listed
    rw [List.flatMap_eq_nil_iff]
    intro finding inside
    obtain ⟨find?, known, found⟩ := List.mem_filterMap.mp inside
    rw [none clause listed find? known] at found
    cases found

/-- No clause of a text speaks of any kind, and no car is towed. -/
structure SaysNothing (text : List Char) : Prop where
  clauses : ∀ clause ∈ clauses text, ∀ find? ∈ finders, find? clause.text = none
  notTowed : towPhrase.occursIn (upper text) = false

/-- The rules of a sign if they are found in its text. -/
def foundRules (quality : Option Binary64) (text : List Char) : List Rule :=
  let posted := Posted.ofText (upper text)
  let clauses := clauses text
  let stated := clauseRules posted quality clauses
  if posted.towAway && !stated.any Rule.isRestrictive then
    stated ++ towRules posted quality clauses text
  else stated

theorem readRules_eq : readRules quality text =
    if (foundRules quality text).isEmpty then [unknownRule text] else foundRules quality text := rfl

theorem foundRules_cases {rule : Rule} (member : rule ∈ foundRules quality text) :
    rule ∈ clauseRules (Posted.ofText (upper text)) quality (clauses text) ∨
      rule ∈ towRules (Posted.ofText (upper text)) quality (clauses text) text := by
  unfold foundRules at member
  dsimp only at member
  split at member
  · exact List.mem_append.mp member
  · exact Or.inl member

/-- A found rule comes from what a clause says or from the warning that cars are towed. -/
theorem foundRules_source {rule : Rule} (member : rule ∈ foundRules quality text) :
    ∃ finding, (finding = .ofHundredths .noParking 80 ∨ ∃ clause, finding ∈ findings clause) ∧
      ∃ schedule rawText,
        rule ∈ rulesOf (Posted.ofText (upper text)) quality schedule rawText finding := by
  rcases foundRules_cases member with stated | towed
  · obtain ⟨clause, _, finding, inside, schedule, given⟩ := mem_clauseRules stated
    exact ⟨finding, Or.inr ⟨_, inside⟩, schedule, clause.rawText, given⟩
  · exact ⟨_, Or.inl rfl, _, _, towed⟩

theorem mem_foundRules {rule : Rule} (member : rule ∈ foundRules quality text) :
    ∃ finding, Sound finding ∧ ∃ schedule rawText,
      rule ∈ rulesOf (Posted.ofText (upper text)) quality schedule rawText finding := by
  obtain ⟨finding, towed | ⟨_, inside⟩, source⟩ := foundRules_source member
  · have sound : Sound (.ofHundredths .noParking 80) :=
      ofHundredths_sound (by nofun) (by nofun) (by decide)
    rw [← towed] at sound
    exact ⟨finding, sound, source⟩
  · exact ⟨finding, findings_sound inside, source⟩

theorem foundRules_eq_nil : foundRules quality text = [] ↔ SaysNothing text := by
  unfold foundRules
  dsimp only
  constructor
  · intro none
    split at none
    · exact absurd (List.append_eq_nil_iff.mp none).2 rulesOf_ne_nil
    next quiet =>
      refine ⟨clauseRules_eq_nil.mp none, Bool.eq_false_iff.mpr ?_⟩
      intro towed
      apply quiet
      rw [none, List.any_nil, Bool.not_false, Bool.and_true]
      exact towed
  · intro silent
    rw [if_neg]
    · exact clauseRules_eq_nil.mpr silent.clauses
    · intro towed
      have warned := (Bool.and_eq_true ..).mp towed
      exact absurd warned.1 (Bool.eq_false_iff.mp silent.notTowed)

theorem half_between : IsBetween (.ofInt 0) mostConfidence (.ofPlaces 5 1) := by
  have half : Binary64.ofPlaces 5 1 = .ofPlaces 50 2 := by decide +kernel
  rw [mostConfidence_eq, half]
  exact isBetween_iff.mpr (ofPlaces_within (by decide))

theorem unknownRule_valid : Valid (unknownRule text) := by
  have confidence := half_between
  unfold unknownRule
  constructor
  · exact ⟨nofun, nofun⟩
  · exact nofun
  · exact nofun
  · dsimp only
    exact confidence
  · rfl

theorem readRules_valid (readable : ∀ q ∈ quality, IsBetween (.ofInt 0) (.ofInt 1) q) {rule : Rule}
    (member : rule ∈ readRules quality text) : Valid rule := by
  rw [readRules_eq] at member
  split at member
  · rw [List.mem_singleton.mp member]
    exact unknownRule_valid
  · obtain ⟨finding, sound, schedule, rawText, given⟩ := mem_foundRules member
    exact rulesOf_valid readable sound given

theorem readRules_ne_nil : readRules quality text ≠ [] := by
  rw [readRules_eq]
  split
  · exact List.cons_ne_nil _ _
  next some => exact fun none => some (List.isEmpty_iff.mpr none)

/-- An unknown rule stands alone, and only for a text that says nothing. -/
theorem unknown_alone {rule : Rule} (member : rule ∈ readRules quality text)
    (unknown : rule.kind = .unknown) :
    SaysNothing text ∧ readRules quality text = [unknownRule text] := by
  rw [readRules_eq] at member ⊢
  split at member
  next none => exact ⟨foundRules_eq_nil.mp (List.isEmpty_iff.mp none), if_pos none⟩
  next =>
    obtain ⟨finding, sound, schedule, rawText, given⟩ := mem_foundRules member
    exact absurd ((rulesOf_kind given).symm.trans unknown) sound.known

theorem unknown_of_saysNothing (silent : SaysNothing text) :
    readRules quality text = [unknownRule text] := by
  rw [readRules_eq, foundRules_eq_nil.mpr silent]
  rfl

/-- No confidence is below zero, so that no rule is refused. -/
theorem extract_eq (readable : ∀ q ∈ quality, IsBetween (.ofInt 0) (.ofInt 1) q) :
    extract quality text = .ok (readRules quality text) := by
  have accepted : ¬ ((readRules quality text).any fun rule =>
      rule.confidence.lt (Binary64.ofInt 0)) = true := by
    intro refused
    obtain ⟨rule, member, below⟩ := List.any_eq_true.mp refused
    exact absurd below (Bool.eq_false_iff.mp (readRules_valid readable member).confidence.2.1)
  unfold extract
  dsimp only
  rw [if_neg accepted]

structure IsUnknown (text : List Char) (rule : Rule) : Prop where
  confidence : rule.confidence = .ofPlaces 5 1
  window : rule.window = none
  rawText : rule.rawText = String.ofList text

theorem unknownRule_isUnknown : IsUnknown text (unknownRule text) := by
  unfold unknownRule
  constructor <;> dsimp only

end

/-- No reader makes up a value, and every text gives rules, all of them valid. An unknown rule
stands alone, and it is given exactly for a text that says nothing. -/
theorem extract_valid (quality : Option Binary64) (text : List Char)
    (readable : ∀ q ∈ quality, IsBetween (.ofInt 0) (.ofInt 1) q) :
    (∀ matched, Converts matched) ∧
    ∃ rules, extract quality text = .ok rules ∧ rules ≠ [] ∧ (∀ rule ∈ rules, Valid rule) ∧
      (∀ rule ∈ rules, rule.kind = .unknown → rules = [rule] ∧ IsUnknown text rule) ∧
      ((∃ rule ∈ rules, rule.kind = .unknown) ↔ SaysNothing text) := by
  refine ⟨text_converts, readRules quality text, extract_eq readable, readRules_ne_nil, ?_, ?_, ?_⟩
  · intro rule member
    exact readRules_valid readable member
  · intro rule member unknown
    obtain ⟨_, alone⟩ := unknown_alone member unknown
    rw [alone] at member ⊢
    cases List.mem_singleton.mp member
    exact ⟨rfl, unknownRule_isUnknown⟩
  · constructor
    · intro ⟨rule, member, unknown⟩
      exact (unknown_alone member unknown).1
    · intro silent
      refine ⟨unknownRule text, ?_, rfl⟩
      rw [unknown_of_saysNothing silent]
      exact List.mem_singleton_self _

def towSign : List Char := "Tow-away\nzone".toList

/-- Half of the sign for towing could be read, and its rules are known. -/
theorem tow_sign_known : ∃ rules, extract (some (.ofPlaces 5 1)) towSign = .ok rules ∧
    rules ≠ [] ∧ (∀ rule ∈ rules, Valid rule) ∧ ∀ rule ∈ rules, rule.kind ≠ .unknown := by
  have readable : ∀ q ∈ some (Binary64.ofPlaces 5 1), IsBetween (.ofInt 0) (.ofInt 1) q := by
    intro q half
    rw [← Option.mem_some.mp half]
    exact ⟨by decide +kernel, by decide +kernel, by decide +kernel⟩
  obtain ⟨_, rules, answered, found, valid, _, unknown⟩ := extract_valid _ towSign readable
  refine ⟨rules, answered, found, valid, ?_⟩
  intro rule member same
  have towed : towPhrase.occursIn (upper towSign) = true := by decide +kernel
  have silent := (unknown.mp ⟨rule, member, same⟩).notTowed
  rw [towed] at silent
  cases silent

end Curbside.Proofs.Extraction

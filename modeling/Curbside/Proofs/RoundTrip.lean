import Curbside.Proofs.JsonProper
import Curbside.Proofs.Posting
import Curbside.Proofs.RuleRecord
import Curbside.Sign.Confirm

/-! Rules survive being written and read. Whether a rule was read from a record, was found in the
text of a sign or was confirmed by a person, its own record reads as the same rule again if its
confidence is a number, and so does the text of that record if its minutes are no longer than an
integer of a text may be. -/

namespace Curbside.Proofs.RoundTrip
open Sign Text Confidence Extraction Posting Checking Amount RuleRecord Shortest JsonText JsonProper

section
variable {value : Json}

end

section
variable {quality : Option Binary64} {text : List Char}

theorem byPhrase?_kind {phrase : Pattern} {kind : Kind} {hundredths : Nat} {finding : Finding}
    (found : byPhrase? phrase kind hundredths text = some finding) : finding.kind = kind := by
  unfold byPhrase? at found
  split at found
  · cases found
    rfl
  · cases found

theorem timeLimit?_short {finding : Finding} (found : timeLimit? text = some finding) :
    ∃ minutes, finding.kind = .timeLimit minutes ∧ 0 ≤ minutes ∧ minutes < 60000 := by
  obtain ⟨line, _, limit⟩ := List.exists_of_findSome?_eq_some found
  unfold lineLimit? at limit
  split at limit
  · cases limit
  next place stated =>
    have few := statedMinutes_lt stated
    dsimp only at limit
    split at limit
    · cases limit
    · cases limit
      exact ⟨_, rfl, by omega, by omega⟩

theorem noParking?_kind {finding : Finding} (found : noParking? text = some finding) :
    finding.kind = .noParking := by
  unfold noParking? at found
  split at found
  · cases found
    rfl
  · split at found
    · cases found
      rfl
    · cases found

theorem metered?_kind {finding : Finding} (found : metered? text = some finding) :
    ∃ paidUntil, finding.kind = .metered paidUntil := by
  unfold metered? at found
  split at found
  · cases found
    exact ⟨_, rfl⟩
  · obtain ⟨paidUntil, _, same⟩ := Option.map_eq_some_iff.mp found
    subst same
    exact ⟨paidUntil, rfl⟩

/-- A limit is found by the first of the finders and by no other. -/
theorem findings_limit {finding : Finding} (member : finding ∈ findings text) {minutes : Int}
    (limit : finding.kind = .timeLimit minutes) : timeLimit? text = some finding := by
  have otherwise : ∀ kind, finding.kind = kind → kind = .timeLimit minutes := by
    intro kind same
    rw [← same, limit]
  obtain ⟨find?, listed, found⟩ := List.mem_filterMap.mp member
  simp only [finders, List.mem_cons, List.not_mem_nil, or_false] at listed
  rcases listed with same | same | same | same | same | same | same <;> subst same
  · exact found
  · cases otherwise _ (noParking?_kind found)
  · have byPhrase : byPhrase? permitPhrase (.permitRequired (permitName? text)) 95 text =
        some finding := found
    cases otherwise _ (byPhrase?_kind byPhrase)
  · obtain ⟨paidUntil, own⟩ := metered?_kind found
    cases otherwise _ own
  · cases otherwise _ (byPhrase?_kind found)
  · cases otherwise _ (byPhrase?_kind found)
  · cases otherwise _ (byPhrase?_kind found)

/-- The texts of signs state short limits only. -/
theorem findings_short {finding : Finding} (member : finding ∈ findings text) {minutes : Int}
    (limit : finding.kind = .timeLimit minutes) : minutes.natAbs < 60000 := by
  obtain ⟨stated, own, least, few⟩ := timeLimit?_short (findings_limit member limit)
  cases own.symm.trans limit
  omega

/-- The minutes of a limit are no longer than an integer of a text may be. -/
def ShortLimit (kind : Kind) : Prop :=
  ∀ minutes, kind = .timeLimit minutes →
    (Decimal.digitsOf minutes.natAbs).length ≤ Json.longestInteger

/-- A rule that a text can state: its confidence has a place in the format, and its minutes are
not too long. -/
structure Statable (rule : Rule) : Prop where
  format : InFormat rule.confidence
  short : ShortLimit rule.kind

theorem short_of_lt {n : Nat} (few : n < 60000) :
    (Decimal.digitsOf n).length ≤ Json.longestInteger := by
  have digits : (Decimal.digitsOf n).length ≤ 5 :=
    (Nat.length_toDigits_le_iff (by decide) (by decide)).mpr (by omega)
  have most : Json.longestInteger = 4300 := rfl
  omega

theorem scaled_inFormat (confidence : Binary64) : InFormat (scaled quality confidence) := by
  unfold scaled
  exact roundPlaces_inFormat 4 _

theorem rulesOf_confidence {posted : Posted} {schedule : Schedule} {rawText : List Char}
    {finding : Finding} {rule : Rule}
    (member : rule ∈ rulesOf posted quality schedule rawText finding) :
    rule.confidence = scaled quality finding.confidence := by
  obtain ⟨window, _, same⟩ := List.mem_map.mp member
  rw [← same]

theorem readRules_statable {rule : Rule} (member : rule ∈ readRules quality text) :
    Statable rule := by
  rw [readRules_eq] at member
  split at member
  · have half := ofPlaces_inFormat 5 1
    rw [List.mem_singleton.mp member]
    unfold unknownRule
    constructor
    · dsimp only
      exact half
    · exact nofun
  · obtain ⟨finding, source, schedule, rawText, given⟩ := foundRules_source member
    constructor
    · rw [rulesOf_confidence given]
      exact scaled_inFormat finding.confidence
    · intro minutes limit
      rw [rulesOf_kind given] at limit
      rcases source with towed | ⟨_, inside⟩
      · rw [towed] at limit
        cases limit
      · exact short_of_lt (findings_short inside limit)

theorem mostUnits_lt_one : mostUnits < Binary64.one := by decide +kernel

/-- No reading claims to be certain. -/
theorem not_overconfident {rule : Rule} (uncertain : Within mostUnits rule.confidence) :
    rule.isOverconfident = false := by
  obtain ⟨negative, units, same, _, bounded⟩ := uncertain
  have below := mostUnits_lt_one
  have differs : rule.confidence ≠ .finite false Binary64.one := by
    intro certain
    rw [certain] at same
    injection same with _ units
    omega
  have notAbove : (Binary64.finite false Binary64.one).lt rule.confidence = false := by
    rw [same, lt_finite_eq_false]
    cases negative <;> simp only [Binary64.signedUnits, if_true, Bool.false_eq_true, if_false] <;>
      omega
  unfold Rule.isOverconfident
  simp only [ofInt_one, beq_eq_false_iff_ne.mpr differs, notAbove, Bool.or_self, Bool.false_and]

/-- A rule within the bounds of a reading is within the bounds of its record. -/
theorem valid_acceptable {rule : Rule} (valid : Valid rule)
    (held : ∀ fine ∈ rule.provision.fine, fine.isHoldable = true) : Acceptable rule := by
  have uncertain : Within mostUnits rule.confidence := by
    have between := valid.confidence
    rwa [mostConfidence_eq, isBetween_iff] at between
  have share : IsBetween (.ofInt 0) (.finite false Binary64.one) rule.confidence := by
    obtain ⟨negative, units, same, signless, bounded⟩ := uncertain
    exact isBetween_iff.mpr
      ⟨negative, units, same, signless, Nat.le_trans bounded (Nat.le_of_lt mostUnits_lt_one)⟩
  constructor
  · exact valid.kind.lasting
  · exact fun fine stated => ⟨valid.fine fine stated, held fine stated⟩
  · exact share.2.1
  · rw [ofInt_one]
    exact share.2.2
  · exact not_overconfident uncertain

theorem readRules_held {rule : Rule} (member : rule ∈ readRules quality text) :
    ∀ fine ∈ rule.provision.fine, fine.isHoldable = true := by
  have follows := readRules_follow member
  intro fine stated
  cases restrictive : rule.isRestrictive with
  | true =>
    rw [follows.fine restrictive] at stated
    obtain ⟨place, found, same⟩ := Option.map_eq_some_iff.mp stated
    rw [← same]
    exact fine_holdable found
  | false =>
    rw [(follows.usual restrictive).2] at stated
    cases stated

theorem readRules_measured (readable : ∀ q ∈ quality, IsBetween (.ofInt 0) (.ofInt 1) q)
    {rule : Rule} (member : rule ∈ readRules quality text) : rule.confidence ≠ .nan :=
  (readRules_valid readable member).confidence.1

theorem readRules_acceptable (readable : ∀ q ∈ quality, IsBetween (.ofInt 0) (.ofInt 1) q)
    {rule : Rule} (member : rule ∈ readRules quality text) : Acceptable rule :=
  valid_acceptable (readRules_valid readable member) (readRules_held member)

end

theorem ofBinary64_proper {x : Binary64} (format : InFormat x) : Proper (.ofBinary64 x) := by
  cases x with
  | finite negative units => exact .float format
  | infinite negative => exact .null
  | nan => exact .null

theorem orNull_proper {encode : α → Json} (each : ∀ a, Proper (encode a)) (held : Option α) :
    Proper (.orNull encode held) := by
  cases held with
  | none => exact .null
  | some a => exact each a

theorem minute_proper (minute : Minute) : Proper (.int minute.val) :=
  .int (short_of_lt (Nat.lt_trans minute.isLt (by decide)))

theorem window_proper (window : Window) : Proper window.encode := by
  have days : Proper window.days.encode := by
    refine .array fun item member => ?_
    obtain ⟨day, _, same⟩ := List.mem_map.mp member
    subst same
    exact .int (short_of_lt (Nat.lt_trans day.isLt (by decide)))
  refine .object (by simp) ?_
  simp only [List.forall_mem_cons, List.not_mem_nil, false_implies, implies_true, and_true]
  exact ⟨minute_proper window.start, minute_proper window.finish, days⟩

theorem ownFields_proper {kind : Kind} (short : ShortLimit kind) :
    ∀ field ∈ kind.ownFields, Proper field.2 := by
  intro field own
  cases kind with
  | timeLimit minutes =>
    rw [List.mem_singleton.mp own]
    exact .int (short minutes rfl)
  | permitRequired permit =>
    rw [List.mem_singleton.mp own]
    exact orNull_proper (fun _ => .string) permit
  | metered paidUntil =>
    rw [List.mem_singleton.mp own]
    exact orNull_proper minute_proper paidUntil
  | noParking | free | loadingZone | streetCleaning | unknown => cases own

theorem provision_proper {provision : Provision} (short : ShortLimit provision.kind) :
    Proper provision.encode := by
  refine .object ?_ ?_
  · obtain ⟨kind, severity, fine⟩ := provision
    cases kind <;> simp [Kind.ownFields]
  · rw [List.forall_mem_append]
    refine ⟨?_, ownFields_proper short⟩
    simp only [List.forall_mem_cons, List.not_mem_nil, false_implies, implies_true, and_true]
    exact ⟨.string, .string, orNull_proper (fun _ => .string) _⟩

/-- The record of a rule is a text wherever the rule is one that a text can state. -/
theorem encode_proper {rule : Rule} (statable : Statable rule) : Proper rule.encode := by
  refine .object (by simp) ?_
  simp only [List.forall_mem_cons, List.not_mem_nil, false_implies, implies_true, and_true]
  exact ⟨provision_proper statable.short, orNull_proper window_proper _,
    ofBinary64_proper statable.format, .string, .bool⟩

def shopSign : String := "2 HOUR PARKING\n8AM-6PM MON-FRI"

end Curbside.Proofs.RoundTrip

import Curbside.Proofs.Amount
import Curbside.Proofs.Checking
import Curbside.Rule.Record

/-! The record of a rule says all of it. A rule that keeps the bounds of the record is read from
its own record as it was, and every rule that is read from any record keeps them. -/

namespace Curbside.Proofs.RuleRecord
open Checking Amount

/-- The bounds of a rule that a record can state. -/
structure Acceptable (rule : Rule) : Prop where
  lasting : ∀ minutes, rule.kind = .timeLimit minutes → 0 < minutes
  fine : ∀ fine ∈ rule.provision.fine, fine.isNonNegative = true ∧ fine.isHoldable = true
  notBelow : rule.confidence.lt (Binary64.ofInt 0) = false
  notAbove : (Binary64.ofInt 1).lt rule.confidence = false
  confirmed : rule.isOverconfident = false

theorem severity_survives (severity : Severity) :
    Severity.decode severity.encode = .passed severity := by
  cases severity <;> rfl

theorem amount_survives {d : Decimal} (nonNegative : d.isNonNegative = true)
    (held : d.isHoldable = true) : Decoder.amount d.encode = .passed d := by
  rw [Decoder.amount, andThen_passed_iff]
  refine ⟨d, ?_, if_pos nonNegative⟩
  simp [Decimal.encode, Json.text, Decoder.decimal, read?_write held, Decoder.ofReading]

theorem minute_survives (minute : Minute) : Decoder.minute (.int minute.val) = .passed minute := by
  have bounds : 0 ≤ (minute.val : Int) ∧ (minute.val : Int) < 1440 := by omega
  simp [Decoder.minute, Decoder.integer, Checked.andThen, bounds]

theorem has_single : ∀ day other : Weekday, (DaySet.single day).has other = (day == other) := by
  decide

theorem has_ofList (listed : List Weekday) (day : Weekday) :
    (DaySet.ofList listed).has day = listed.contains day := by
  induction listed with
  | nil => simp [DaySet.ofList, Bool.eq_false_iff, ← DaySet.mem_iff]
  | cons first rest ih =>
    have cons : DaySet.ofList (first :: rest) = DaySet.single first ∪ DaySet.ofList rest := rfl
    rw [cons, DaySet.has_union, has_single, ih, List.contains_cons, Bool.beq_comm]

theorem days_ext {days others : DaySet} (same : ∀ day, days.has day = others.has day) :
    days = others := by
  have bits : days.bits = others.bits := by
    apply BitVec.eq_of_getLsbD_eq
    intro i inside
    exact same ⟨i, inside⟩
  exact congrArg DaySet.mk bits

theorem ofList_toList (days : DaySet) : DaySet.ofList days.toList = days := by
  apply days_ext
  intro day
  rw [has_ofList, Bool.eq_iff_iff, List.contains_iff_mem, DaySet.toList, List.mem_filter]
  exact ⟨fun member => member.2, fun has => ⟨List.mem_finRange day, has⟩⟩

theorem days_survive {days : DaySet} (some : days ≠ DaySet.empty) :
    DaySet.decode days.encode = .passed ⟨days, some⟩ := by
  have numbers : Decoder.itemsFrom Decoder.integer 0 (days.toList.map fun day => .int day.val) =
      .passed (days.toList.map fun day => (day.val : Int)) := by
    have each : ∀ n ∈ days.toList.map fun day => (day.val : Int),
        Decoder.integer (.int n) = .passed n := fun _ _ => rfl
    have read := itemsFrom_map each 0
    rw [List.map_map] at read
    exact read
  have inside : ¬ ((days.toList.map fun day => (day.val : Int)).any
      fun n => n < 0 || 6 < n) = true := by
    intro outside
    obtain ⟨n, member, beyond⟩ := List.any_eq_true.mp outside
    obtain ⟨day, _, rfl⟩ := List.mem_map.mp member
    simp only [Bool.or_eq_true, decide_eq_true_eq] at beyond
    omega
  have back : (days.toList.map fun day => (day.val : Int)).map
      (fun n => (⟨n.toNat % 7, by omega⟩ : Weekday)) = days.toList := by
    rw [List.map_map]
    apply List.map_id''
    intro day
    apply Fin.ext
    simp
  have listed : days.toList ≠ [] := by
    intro none
    apply some
    rw [← ofList_toList days, none]
    rfl
  rw [DaySet.encode, DaySet.decode, numbers]
  simp only [Checked.andThen, DaySet.ofNumbers, List.isEmpty_map, List.isEmpty_iff, listed, if_false,
    if_neg inside, back, ofList_toList]
  rw [dif_pos some]

/-- The fields of the record of a window. -/
def endsOf (window : Window) : List (String × Json) :=
  [("start", .int window.start.val), ("end", .int window.finish.val),
    ("days", window.days.encode)]

theorem window_survives (window : Window) : Window.decode window.encode = .passed window := by
  have start : Decoder.required (endsOf window) "start" Decoder.minute = .passed window.start :=
    required_passed_iff.mpr ⟨_, rfl, minute_survives window.start⟩
  have finish : Decoder.required (endsOf window) "end" Decoder.minute = .passed window.finish :=
    required_passed_iff.mpr ⟨_, rfl, minute_survives window.finish⟩
  have days : Decoder.optional (endsOf window) "days" ⟨DaySet.all, by decide⟩ DaySet.decode =
      .passed ⟨window.days, window.hasDays⟩ :=
    optional_passed_iff.mpr (Or.inr ⟨_, rfl, days_survive window.hasDays⟩)
  have members : window.encode = .object (endsOf window) := rfl
  rw [members]
  simp only [Window.decode, Decoder.record, start, finish, days]
  rfl

theorem positive_survives {minutes : Int} (lasting : 0 < minutes) :
    Decoder.positive (.int minutes) = .passed minutes := by
  rw [Decoder.positive, andThen_passed_iff]
  exact ⟨minutes, rfl, if_neg (Int.not_le.mpr lasting)⟩

/-- The fields of the record of a provision. -/
def fieldsOf (provision : Provision) : List (String × Json) :=
  [("type", .string provision.kind.name), ("severity", provision.severity.encode),
    ("fine_amount", .orNull Decimal.encode provision.fine)] ++ provision.kind.ownFields

theorem reader?_survives {provision : Provision}
    (lasting : ∀ minutes, provision.kind = .timeLimit minutes → 0 < minutes) :
    ∃ model readKind,
      Kind.reader? (.string provision.kind.name) = some (model, provision.kind.name, readKind) ∧
      readKind (fieldsOf provision) = .passed provision.kind := by
  obtain ⟨kind, severity, fine⟩ := provision
  cases kind with
  | timeLimit minutes =>
    refine ⟨_, _, rfl, map_passed_iff.mpr ⟨minutes, ?_, rfl⟩⟩
    exact required_passed_iff.mpr ⟨_, rfl, positive_survives (lasting minutes rfl)⟩
  | permitRequired permit =>
    refine ⟨_, _, rfl, map_passed_iff.mpr ⟨permit, ?_, rfl⟩⟩
    exact optional_passed_iff.mpr (Or.inr ⟨_, rfl, nullable_orNull nofun fun _ _ => rfl⟩)
  | metered paidUntil =>
    refine ⟨_, _, rfl, map_passed_iff.mpr ⟨paidUntil, ?_, rfl⟩⟩
    exact optional_passed_iff.mpr
      (Or.inr ⟨_, rfl, nullable_orNull nofun fun minute _ => minute_survives minute⟩)
  | noParking | free | loadingZone | streetCleaning | unknown => exact ⟨_, _, rfl, rfl⟩

theorem tag_survives (tag : String) : Decoder.oneOf [tag] id (.string tag) = .passed tag := by
  simp [Decoder.oneOf]

theorem provision_survives {provision : Provision}
    (lasting : ∀ minutes, provision.kind = .timeLimit minutes → 0 < minutes)
    (fine : ∀ fine ∈ provision.fine, fine.isNonNegative = true ∧ fine.isHoldable = true) :
    Provision.decode provision.encode = .passed provision := by
  have costs : Decoder.nullable Decoder.amount (.orNull Decimal.encode provision.fine) =
      .passed provision.fine := by
    apply nullable_orNull nofun
    intro d member
    exact amount_survives (fine d member).1 (fine d member).2
  obtain ⟨model, readKind, known, kind⟩ := reader?_survives lasting
  have severity : Decoder.optional (fieldsOf provision) "severity"
      (Kind.usualSeverityOf provision.kind.name) Severity.decode = .passed provision.severity :=
    optional_passed_iff.mpr (Or.inr ⟨_, rfl, severity_survives provision.severity⟩)
  have fine : Decoder.optional (fieldsOf provision) "fine_amount" none
      (Decoder.nullable Decoder.amount) = .passed provision.fine :=
    optional_passed_iff.mpr (Or.inr ⟨_, rfl, costs⟩)
  have tag : Decoder.optional (fieldsOf provision) "type" provision.kind.name
      (Decoder.oneOf [provision.kind.name] id) = .passed provision.kind.name :=
    optional_passed_iff.mpr (Or.inr ⟨_, rfl, tag_survives provision.kind.name⟩)
  have tagged : (fieldsOf provision).lookup "type" = some (.string provision.kind.name) := rfl
  have fields : provision.encode = .object (fieldsOf provision) := rfl
  rw [fields]
  simp only [Provision.decode, tagged, known, Provision.decodeFields, severity, fine, tag, kind]
  rfl

/-- A share of one is a finite number, so that a record can hold it. -/
theorem share_survives {x : Binary64} (measured : x ≠ .nan)
    (notBelow : x.lt (Binary64.ofInt 0) = false) (notAbove : (Binary64.ofInt 1).lt x = false) :
    Decoder.share (.ofBinary64 x) = .passed x := by
  cases x with
  | finite negative units =>
    rw [Decoder.share, andThen_passed_iff]
    refine ⟨.finite negative units, rfl, ?_⟩
    rw [notBelow, notAbove]
    rfl
  | infinite negative =>
    cases negative
    · exact absurd notAbove (by decide +kernel)
    · exact absurd notBelow (by decide +kernel)
  | nan => exact absurd rfl measured

/-- The fields of the record of a rule. -/
def membersOf (rule : Rule) : List (String × Json) :=
  [("kind", rule.provision.encode), ("window", .orNull Window.encode rule.window),
    ("confidence", .ofBinary64 rule.confidence), ("raw_text", .string rule.rawText),
    ("user_confirmed", .bool rule.userConfirmed)]

/-- A rule that keeps the bounds, and whose confidence is a number, is read from its own record as
it was. -/
theorem rule_survives {rule : Rule} (acceptable : Acceptable rule)
    (measured : rule.confidence ≠ .nan) : Rule.decode rule.encode = .passed rule := by
  have windows : Decoder.nullable Window.decode (.orNull Window.encode rule.window) =
      .passed rule.window :=
    nullable_orNull nofun fun window _ => window_survives window
  have provision : Decoder.required (membersOf rule) "kind" Provision.decode =
      .passed rule.provision :=
    required_passed_iff.mpr ⟨_, rfl, provision_survives acceptable.lasting acceptable.fine⟩
  have window : Decoder.optional (membersOf rule) "window" none (Decoder.nullable Window.decode) =
      .passed rule.window :=
    optional_passed_iff.mpr (Or.inr ⟨_, rfl, windows⟩)
  have confidence : Decoder.required (membersOf rule) "confidence" Decoder.share =
      .passed rule.confidence :=
    required_passed_iff.mpr
      ⟨_, rfl, share_survives measured acceptable.notBelow acceptable.notAbove⟩
  have rawText : Decoder.required (membersOf rule) "raw_text" Decoder.string =
      .passed rule.rawText :=
    required_passed_iff.mpr ⟨_, rfl, rfl⟩
  have userConfirmed : Decoder.optional (membersOf rule) "user_confirmed" false Decoder.boolean =
      .passed rule.userConfirmed :=
    optional_passed_iff.mpr (Or.inr ⟨_, rfl, rfl⟩)
  have members : rule.encode = .object (membersOf rule) := rfl
  rw [members]
  simp only [Rule.decode, Decoder.record, provision, window, confidence, rawText, userConfirmed]
  have confirmed := acceptable.confirmed
  refine andThen_passed_iff.mpr ⟨rule, rfl, ?_⟩
  rw [confirmed]
  rfl

section
variable {value : Json}

end

end Curbside.Proofs.RuleRecord

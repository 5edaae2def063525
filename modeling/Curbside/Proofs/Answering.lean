import Curbside.Proofs.Deadlines
import Curbside.Proofs.RoundTrip
import Curbside.Service.Endpoint

/-! A scan always answers, and the parts of its answer agree. Whatever the text of a sign, its
limits are short, so nothing that is worked out for a stay leaves the calendar unless the stay
starts near one of its ends. -/

namespace Curbside.Proofs.Answering
open Wall WallClock NextChange Restriction Stay Attempt LocalTime Deadlines
open Sign Confidence Extraction Posting Scanning RoundTrip

/-- With short limits, all readings for a stay lie in the calendar, save near its ends. -/
theorem inReach_of_short {rules : List Rule} {start : Moment} {lead : Span}
    (short : ∀ rule ∈ rules, ∀ minutes, rule.kind = .timeLimit minutes →
      0 < minutes ∧ minutes < 60000)
    (first : 1 ≤ start.wall.day) (last : start.wall.day + 60 < dayCount)
    (least : 0 ≤ lead) (most : lead ≤ dayLength) : InReach rules start lead := by
  have lasting : Lasting rules := fun rule member minutes limit =>
    (short rule member minutes limit).1
  -- A limit is shorter than six weeks.
  have ends : EndsInside rules start.wall := by
    intro minutes limited
    obtain ⟨rule, active, kind⟩ := mem_firstLimit? limited
    have few := short rule (List.mem_filter.mp active).1 _ kind
    refine (inCalendar_iff _).mpr ?_
    simp only [Wall.day, dayLength_eq, minuteLength_eq, Wall] at *
    omega
  exact inReach_of_endsInside lasting ends first (by omega) least most

/-- Every restriction has a built-in band. -/
theorem estimate_builtIn {rule : Rule} (restrictive : rule.isRestrictive = true) :
    ∃ fine, Fine.estimate Fine.builtIn rule = .ok (some fine) := by
  unfold Fine.estimate
  rw [restrictive]
  cases rule.provision.fine with
  | some posted => exact ⟨_, rfl⟩
  | none =>
    unfold Rule.isRestrictive at restrictive
    cases kind : rule.kind with
    | noParking | permitRequired _ | loadingZone | streetCleaning => exact ⟨_, rfl⟩
    | timeLimit _ | metered _ | free | unknown =>
      rw [kind] at restrictive
      cases restrictive

theorem forbidden_fined {heavy : Rule} {decision : Decision}
    (restrictive : heavy.isRestrictive = true)
    (decided : Decision.forbidden Fine.builtIn heavy = .ok decision) :
    decision.fine.isSome = true := by
  obtain ⟨fine, estimated⟩ := estimate_builtIn restrictive
  obtain ⟨found, same, built⟩ := bind_ok_iff.mp decided
  rw [estimated] at same
  cases same
  cases built
  rfl

/-- A rule that puts a condition on parking without forbidding it. -/
inductive Conditional (rule : Rule) : Prop where
  | timeLimit {minutes : Int} (kind : rule.kind = .timeLimit minutes)
  | metered {paidUntil : Option Minute} (kind : rule.kind = .metered paidUntil)
  | unknown (kind : rule.kind = .unknown)

theorem condition?_isSome {rule : Rule} :
    (Decision.condition? rule).isSome = true ↔ Conditional rule := by
  unfold Decision.condition?
  constructor
  · intro conditional
    split at conditional
    next kind => exact .unknown kind
    next kind => exact .timeLimit kind
    next kind => exact .metered kind
    all_goals cases conditional
  · intro conditional
    cases conditional with
    | timeLimit kind | metered kind | unknown kind =>
      rw [kind]
      rfl

/-- Advice where parking is allowed depends on whether a rule that holds puts a condition. -/
theorem permitted_status (active : List Rule) :
    (Decision.permitted active).fine = none ∧
      ((∃ rule ∈ active, Conditional rule) → (Decision.permitted active).status = .caution) ∧
      ((¬ ∃ rule ∈ active, Conditional rule) → (Decision.permitted active).status = .safe) := by
  have conditional : (∃ rule ∈ active, Conditional rule) ↔
      active.filterMap Decision.condition? ≠ [] := by
    rw [Ne, List.filterMap_eq_nil_iff]
    simp only [← condition?_isSome, Option.isSome_iff_ne_none, Classical.not_forall, exists_prop]
  unfold Decision.permitted
  cases conditions : active.filterMap Decision.condition? with
  | nil =>
    rw [conditional, conditions]
    exact ⟨rfl, fun some => absurd rfl some, fun _ => rfl⟩
  | cons condition more =>
    rw [conditional, conditions]
    exact ⟨rfl, fun _ => rfl, fun none => absurd (List.cons_ne_nil condition more) none⟩

section
variable {verdict : Verdict} {rules : List Rule} {start : Moment} {lead : Span}

/-- A time limit that holds bounds the stay. -/
theorem suggest_limited {result : Option Timer} (allowed : allowedAt rules start.wall = true)
    (granted : verdict.allowed = true)
    (reached : Timer.suggest verdict rules start lead = .ok result) {rule : Rule} {minutes : Int}
    (active : rule ∈ Rule.active rules start.wall) (kind : rule.kind = .timeLimit minutes) :
    result.isSome = true := by
  obtain ⟨restriction, bound, _, bounds, ends, _⟩ := suggest_finishes allowed granted reached
  have limited : Timer.firstLimit? (Rule.active rules start.wall) ≠ none := by
    intro unlimited
    have silent := List.findSome?_eq_none_iff.mp unlimited rule active
    rw [kind] at silent
    cases silent
  have bounded : (earliest restriction bound).isSome = true := by
    cases bounds with
    | limit _ =>
      cases restriction with
      | none => rfl
      | some first =>
        simp only [earliest]
        split <;> rfl
    | meter unlimited _ _ | unbounded unlimited _ => exact absurd unlimited limited
  rw [← Option.isSome_map (f := finish), ends, Option.isSome_map, bounded]

end

/-- A limit that is read off a sign lasts some minutes and less than six weeks. -/
theorem readRules_short {quality : Option Binary64} {text : List Char}
    (readable : ∀ q ∈ quality, IsBetween (.ofInt 0) (.ofInt 1) q) :
    ∀ rule ∈ readRules quality text, ∀ minutes, rule.kind = .timeLimit minutes →
      0 < minutes ∧ minutes < 60000 := by
  intro rule member minutes limit
  have lasting := (readRules_valid readable member).kind.lasting minutes limit
  refine ⟨lasting, ?_⟩
  rw [readRules_eq] at member
  split at member
  · rw [List.mem_singleton.mp member] at limit
    cases limit
  · obtain ⟨finding, towed | ⟨_, inside⟩, schedule, rawText, given⟩ := foundRules_source member
    · rw [rulesOf_kind given, towed] at limit
      cases limit
    · have few := findings_short inside ((rulesOf_kind given).symm.trans limit)
      omega

/-- The parts of a scan agree: on whether parking is forbidden, and on what follows for the fine,
the advice and the timer. -/
structure Agrees (scan : Scan) : Prop where
  binds : scan.verdict.allowed = false ↔ scan.verdict.binding.isSome = true
  blocks : scan.verdict.binding.isSome = true ↔ scan.decision.status = .blocked
  blocked : scan.decision.status = .blocked →
    scan.timer = none ∧ scan.decision.fine.isSome = true
  free : scan.verdict.allowed = true → scan.decision.fine = none
  caution : scan.verdict.allowed = true →
    (scan.decision.status = .caution ↔ ∃ rule ∈ scan.verdict.active, Conditional rule)
  safe : scan.verdict.allowed = true →
    (scan.decision.status = .safe ↔ ¬ ∃ rule ∈ scan.verdict.active, Conditional rule)
  timed : scan.verdict.allowed = true → ∀ rule ∈ scan.verdict.active, ∀ minutes,
    rule.kind = .timeLimit minutes → scan.timer.isSome = true

section
variable {settings : Settings} {lead : Option Span} {reading : Scan.Reading} {scan : Scan}
  {moment : Moment} {span : Span}

theorem evaluate_active {rules : List Rule} {verdict : Verdict}
    (evaluated : Verdict.evaluate rules moment = .ok verdict) :
    verdict.active = Rule.active rules moment.wall := by
  obtain ⟨change, _, built⟩ := bind_ok_iff.mp evaluated
  cases built
  rfl

theorem agrees_of_refused (steps : Steps settings Fine.builtIn lead reading scan moment span)
    (refused : scan.verdict.allowed = false) : Agrees scan := by
  obtain ⟨judged, restricts⟩ := evaluate_binding steps.evaluated
  have granted : ¬ scan.verdict.allowed = true := by simp [refused]
  have untimed : scan.timer = none :=
    (Except.ok.inj ((suggest_refused refused).symm.trans steps.suggested)).symm
  rcases ofVerdict_blocked judged steps.decided with ⟨allowed, _⟩ | ⟨heavy, _, binds, forbidden⟩
  · exact absurd allowed granted
  · have restrictive := (restricts heavy binds).2
    have blocked := (forbidden_shows restrictive forbidden).1
    have bound : scan.verdict.binding.isSome = true := by rw [binds]; rfl
    exact {
      binds := ⟨fun _ => bound, fun _ => refused⟩
      blocks := ⟨fun _ => blocked, fun _ => bound⟩
      blocked := fun _ => ⟨untimed, forbidden_fined restrictive forbidden⟩
      free := fun allowed => absurd allowed granted
      caution := fun allowed => absurd allowed granted
      safe := fun allowed => absurd allowed granted
      timed := fun allowed => absurd allowed granted }

theorem agrees_of_allowed (steps : Steps settings Fine.builtIn lead reading scan moment span)
    (allowed : scan.verdict.allowed = true) : Agrees scan := by
  obtain ⟨judged, _⟩ := evaluate_binding steps.evaluated
  have unbound : scan.verdict.binding = none := by
    rw [judged] at allowed
    exact Option.isNone_iff_eq_none.mp allowed
  have decided : Decision.permitted scan.verdict.active = scan.decision := by
    have decided := steps.decided
    unfold Decision.ofVerdict at decided
    rw [allowed, unbound] at decided
    exact Except.ok.inj decided
  obtain ⟨free, caution, safe⟩ := permitted_status scan.verdict.active
  rw [decided] at free caution safe
  have unblocked : scan.decision.status ≠ .blocked := decided ▸ permitted_not_blocked _
  refine {
    binds := by simp [allowed, unbound]
    blocks := by simp [unbound, unblocked]
    blocked := fun blocked => absurd blocked unblocked
    free := fun _ => free
    caution := fun _ => ⟨fun cautious => ?_, caution⟩
    safe := fun _ => ⟨fun isSafe conditional => ?_, safe⟩
    timed := fun _ rule active minutes limit => ?_ }
  · apply Classical.byContradiction
    intro unconditional
    rw [safe unconditional] at cautious
    cases cautious
  · rw [caution conditional] at isSafe
    cases isSafe
  · rw [evaluate_active steps.evaluated] at active
    have free := (evaluate_allowed steps.evaluated).symm.trans allowed
    exact suggest_limited free allowed steps.suggested active limit

/-- A scan succeeds where each of its steps does. -/
theorem ofReading_succeeds {rules : List Rule} {verdict : Verdict} {timer : Option Timer}
    {decision : Decision} {bands : Fine.Bands}
    (localized : reading.moment.localize reading.zoneName = .ok moment)
    (extracted : extract reading.quality reading.text.toList = .ok rules)
    (evaluated : Verdict.evaluate rules moment = .ok verdict)
    (warned : leadOf settings lead = .ok span)
    (suggested : Timer.suggest verdict rules moment span = .ok timer)
    (decided : Decision.ofVerdict bands verdict = .ok decision) :
    ∃ scan, Scan.ofReading settings bands lead reading = .ok scan := by
  have onward : (leadOf settings lead >>= fun span => do
      let timer ← Timer.suggest verdict rules moment span
      let decision ← Decision.ofVerdict bands verdict
      return (⟨reading.text, rules, verdict, timer,
        Rule.requireConfirmation rules settings.confirmationThreshold, decision⟩ : Scan)) =
      .ok ⟨reading.text, rules, verdict, timer,
        Rule.requireConfirmation rules settings.confirmationThreshold, decision⟩ :=
    bind_ok_iff.mpr ⟨span, warned, bind_ok_iff.mpr ⟨timer, suggested,
      bind_ok_iff.mpr ⟨decision, decided, rfl⟩⟩⟩
  refine ⟨⟨reading.text, rules, verdict, timer,
    Rule.requireConfirmation rules settings.confirmationThreshold, decision⟩, ?_⟩
  refine bind_ok_iff.mpr ⟨moment, localized, ?_⟩
  refine bind_ok_iff.mpr ⟨rules, extracted, ?_⟩
  refine bind_ok_iff.mpr ⟨verdict, evaluated, ?_⟩
  cases lead <;> exact onward

end

theorem ofVerdict_succeeds {rules : List Rule} {moment : Moment} {verdict : Verdict}
    (evaluated : Verdict.evaluate rules moment = .ok verdict) :
    ∃ decision, Decision.ofVerdict Fine.builtIn verdict = .ok decision := by
  obtain ⟨judged, restricts⟩ := evaluate_binding evaluated
  unfold Decision.ofVerdict
  cases binds : verdict.binding with
  | none =>
    rw [binds] at judged
    rw [judged]
    exact ⟨_, rfl⟩
  | some heavy =>
    rw [binds] at judged
    rw [judged]
    obtain ⟨fine, estimated⟩ := estimate_builtIn (restricts heavy binds).2
    exact ⟨_, bind_ok_iff.mpr ⟨_, estimated, rfl⟩⟩

/-- A scan answers for every text, however well it could be read, and for every moment away from
the ends of the calendar, and the parts of its answer agree. -/
theorem scan_answers (settings : Settings) (lead : Option Span) (reading : Scan.Reading)
    (readable : ∀ q ∈ reading.quality, IsBetween (.ofInt 0) (.ofInt 1) q)
    (dated : InYears 2 9000 reading.moment.wall)
    (own : ∀ offset ∈ reading.moment.offset?, WithinDay offset)
    (known : ∀ name ∈ reading.zoneName, ∃ zone, Zone.named name = .ok zone)
    (leads : ∃ span, leadOf settings lead = .ok span ∧ 0 ≤ span ∧ span ≤ dayLength) :
    ∃ scan moment, Scan.ofReading settings Fine.builtIn lead reading = .ok scan ∧
      reading.moment.localize reading.zoneName = .ok moment ∧
      scan.verdict.active = Rule.active scan.rules moment.wall ∧ Agrees scan := by
  have days := day_of_inYears dated
  have count : dayCount = 3652059 := rfl
  obtain ⟨moment, localized, behind, ahead⟩ :=
    localize_succeeds own known (by omega) (by omega)
  have extracted : extract reading.quality reading.text.toList = .ok _ := extract_eq readable
  obtain ⟨verdict, evaluated⟩ : ∃ verdict,
      Verdict.evaluate (readRules reading.quality reading.text.toList) moment = .ok verdict :=
    evaluate_succeeds _ (by omega) (by simp only [Window.horizon]; omega)
  obtain ⟨span, warned, least, most⟩ := leads
  have reach : InReach (readRules reading.quality reading.text.toList) moment span :=
    inReach_of_short (readRules_short readable) (by omega) (by omega) least most
  obtain ⟨timer, suggested⟩ := suggest_succeeds reach verdict (evaluate_allowed evaluated)
  obtain ⟨decision, decided⟩ := ofVerdict_succeeds evaluated
  obtain ⟨scan, scanned⟩ :=
    ofReading_succeeds localized extracted evaluated warned suggested decided
  obtain ⟨shown, _, steps⟩ := ofReading_steps scanned
  refine ⟨scan, shown, scanned, steps.localized, evaluate_active steps.evaluated, ?_⟩
  cases allowed : scan.verdict.allowed with
  | false => exact agrees_of_refused steps allowed
  | true => exact agrees_of_allowed steps allowed

/-- The shop sign, half of it readable, at three in the afternoon of universal time. -/
def blurredReading : Scan.Reading :=
  ⟨shopSign, some (Binary64.ofPlaces 5 1), ⟨Service.opening, some (Zone.fixed 0), false⟩,
    some "America/New_York"⟩

/-- It is ten in the morning in New York, so that a stay ends at noon. Half of the text is not
enough to rely on. -/
theorem blurred_shop_sign_answered : ∃ scan moment,
    Scan.ofReading Settings.usual Fine.builtIn none blurredReading = .ok scan ∧
      blurredReading.moment.localize blurredReading.zoneName = .ok moment ∧
      scan.verdict.active = Rule.active scan.rules moment.wall ∧ Agrees scan ∧
      scan.decision.status = .caution ∧ scan.requiresConfirmation = true ∧
      scan.timer.map (fun timer => (timer.expiresAt.wall, timer.minutes)) =
        some (Service.opening - 180 * minuteLength, 120) := by
  have readable : ∀ q ∈ blurredReading.quality, IsBetween (.ofInt 0) (.ofInt 1) q := by
    intro q half
    rw [← Option.mem_some.mp half]
    exact ⟨by decide +kernel, by decide +kernel, by decide +kernel⟩
  have dated : InYears 2 9000 blurredReading.moment.wall := ⟨by decide, by decide⟩
  have own : ∀ offset ∈ blurredReading.moment.offset?, WithinDay offset := by
    intro offset given
    cases given
    exact ⟨by decide, by decide⟩
  have known : ∀ name ∈ blurredReading.zoneName, ∃ zone, Zone.named name = .ok zone := by
    intro name given
    cases given
    exact ⟨_, rfl⟩
  have leads : ∃ span, leadOf Settings.usual none = .ok span ∧ 0 ≤ span ∧ span ≤ dayLength :=
    ⟨_, rfl, by decide, by decide⟩
  obtain ⟨scan, moment, scanned, localized, active, agrees⟩ :=
    scan_answers Settings.usual none blurredReading readable dated own known leads
  have outcome : (Scan.ofReading Settings.usual Fine.builtIn none blurredReading).toOption.map
      (fun scan => (scan.decision.status, scan.requiresConfirmation,
        scan.timer.map fun timer => (timer.expiresAt.wall, timer.minutes))) =
        some (.caution, true, some (Service.opening - 180 * minuteLength, 120)) := by
    decide +kernel
  rw [scanned] at outcome
  obtain ⟨status, rest⟩ := Prod.mk.inj (Option.some.inj outcome)
  obtain ⟨doubtful, timer⟩ := Prod.mk.inj rest
  exact ⟨scan, moment, scanned, localized, active, agrees, status, doubtful, timer⟩

end Curbside.Proofs.Answering

import Curbside.Proofs.Extraction
import Curbside.Proofs.Scanning

/-! What is printed for a whole sign reaches every restriction and nothing else: a warning that
cars are towed makes every restriction severe, and a printed fine is the fine of each. Whatever
restriction binds in the end, the advice to a driver shows both. -/

namespace Curbside.Proofs.Posting
open Text Sign Confidence Extraction Attempt Scanning

def warnsOfTowing (text : List Char) : Bool := towPhrase.occursIn (upper text)

def printedFine (text : List Char) : Option Decimal :=
  (finePhrase.search? (upper text)).map amountOf

/-- A restriction is as severe and as costly as the whole sign says. Other rules stay as they
are without a sign that says so. -/
structure Follows (text : List Char) (rule : Rule) : Prop where
  severity : rule.isRestrictive = true →
    rule.severity = if warnsOfTowing text then .towAway else .ticket
  fine : rule.isRestrictive = true → rule.provision.fine = printedFine text
  usual : rule.isRestrictive = false →
    rule.severity = rule.kind.usualSeverity ∧ rule.provision.fine = none

theorem usualSeverity_of_restrictive {kind : Kind} (restrictive : kind.isRestrictive = true) :
    kind.usualSeverity = .ticket := by
  cases kind <;> first | rfl | cases restrictive

theorem provision_restrictive {text : List Char} {kind : Kind}
    (restrictive : kind.isRestrictive = true) :
    (Posted.ofText (upper text)).provision kind =
      ⟨kind, if warnsOfTowing text then .towAway else .ticket, printedFine text⟩ := by
  simp only [Posted.provision, restrictive, if_true, usualSeverity_of_restrictive restrictive]
  rfl

theorem provision_other {posted : Posted} {kind : Kind} (other : kind.isRestrictive = false) :
    posted.provision kind = .plain kind := by
  simp [Posted.provision, other]

theorem follows_of_provision {text : List Char} {kind : Kind} {rule : Rule}
    (same : rule.provision = (Posted.ofText (upper text)).provision kind) : Follows text rule := by
  have ownKind : rule.kind = kind := by
    rw [Rule.kind, same, provision_kind]
  have ownSeverity : rule.severity = rule.provision.severity := rfl
  cases restrictive : kind.isRestrictive with
  | true =>
    have marked : rule.isRestrictive = true := by rw [Rule.isRestrictive, ownKind, restrictive]
    rw [provision_restrictive restrictive] at same
    refine ⟨fun _ => ?_, fun _ => ?_, fun free => ?_⟩
    · rw [ownSeverity, same]
    · rw [same]
    · rw [marked] at free
      cases free
  | false =>
    have free : rule.isRestrictive = false := by rw [Rule.isRestrictive, ownKind, restrictive]
    rw [provision_other restrictive] at same
    refine ⟨fun marked => ?_, fun marked => ?_, fun _ => ?_⟩
    · rw [free] at marked
      cases marked
    · rw [free] at marked
      cases marked
    · rw [ownSeverity, same, ownKind]
      exact ⟨rfl, rfl⟩

section
variable {quality : Option Binary64} {text : List Char}

theorem rulesOf_provision {posted : Posted} {schedule : Schedule} {rawText : List Char}
    {finding : Finding} {rule : Rule}
    (member : rule ∈ rulesOf posted quality schedule rawText finding) :
    rule.provision = posted.provision finding.kind := by
  obtain ⟨window, _, same⟩ := List.mem_map.mp member
  subst same
  rfl

theorem readRules_follow {rule : Rule} (member : rule ∈ readRules quality text) :
    Follows text rule := by
  rw [readRules_eq] at member
  split at member
  · rw [List.mem_singleton.mp member]
    exact ⟨nofun, nofun, fun _ => ⟨rfl, rfl⟩⟩
  · obtain ⟨finding, _, schedule, rawText, given⟩ := mem_foundRules member
    exact follows_of_provision (rulesOf_provision given)

theorem towRules_restrict {posted : Posted} {clauses : List Clause} :
    ∃ rule ∈ towRules posted quality clauses text, rule.isRestrictive = true := by
  have found : towRules posted quality clauses text ≠ [] := rulesOf_ne_nil
  obtain ⟨rule, member⟩ := List.exists_mem_of_ne_nil _ found
  refine ⟨rule, member, ?_⟩
  rw [Rule.isRestrictive, rulesOf_kind member]
  rfl

/-- Where cars are towed something is forbidden, if not by a clause then by the warning itself. -/
theorem towing_restricts (towed : warnsOfTowing text = true) :
    ∃ rule ∈ readRules quality text, rule.isRestrictive = true := by
  have posted : (Posted.ofText (upper text)).towAway = true := towed
  have found : ∃ rule ∈ foundRules quality text, rule.isRestrictive = true := by
    unfold foundRules
    simp only [posted, Bool.true_and]
    split
    next =>
      obtain ⟨rule, member, restrictive⟩ := towRules_restrict
      exact ⟨rule, List.mem_append_right _ member, restrictive⟩
    next stated => simpa using stated
  obtain ⟨rule, member, restrictive⟩ := found
  refine ⟨rule, ?_, restrictive⟩
  rw [readRules_eq, if_neg]
  · exact member
  · intro none
    rw [List.isEmpty_iff.mp none] at member
    cases member

theorem rules_of_extract {rules : List Rule} (given : extract quality text = .ok rules) :
    rules = readRules quality text := by
  unfold extract at given
  dsimp only at given
  split at given
  · cases given
  · cases given
    rfl

end

theorem forbidden_shows {bands : Fine.Bands} {heavy : Rule} {decision : Decision}
    (restrictive : heavy.isRestrictive = true)
    (decided : Decision.forbidden bands heavy = .ok decision) :
    decision.status = .blocked ∧ decision.risk = Decision.riskOf heavy.severity ∧
      ∀ fine, heavy.provision.fine = some fine → ∃ estimate, decision.fine = some estimate ∧
        estimate.least = fine ∧ estimate.most = fine ∧ estimate.source = "Posted on sign" := by
  obtain ⟨estimate, estimated, built⟩ := bind_ok_iff.mp decided
  cases built
  refine ⟨rfl, rfl, ?_⟩
  intro fine printed
  simp only [Fine.estimate, restrictive, printed] at estimated
  cases estimated
  exact ⟨_, rfl, rfl, rfl, rfl⟩

/-- What a sign prints for all of it reaches every restriction that is read off it and no other
rule, and it shows in the advice wherever parking is blocked. -/
theorem posting_reaches_restrictions (quality : Option Binary64) (text : String) :
    ((∀ q ∈ quality, IsBetween (.ofInt 0) (.ofInt 1) q) →
      ∃ rules, extract quality text.toList = .ok rules) ∧
    (∀ rules, extract quality text.toList = .ok rules →
      (warnsOfTowing text.toList = true → ∃ rule ∈ rules, rule.isRestrictive = true) ∧
      ∀ rule ∈ rules, Follows text.toList rule) ∧
    ∀ settings bands lead moment zoneName scan,
      Scan.ofReading settings bands lead ⟨text, quality, moment, zoneName⟩ = .ok scan →
      (scan.decision.status = .blocked ↔ scan.verdict.allowed = false) ∧
      (scan.decision.status = .blocked →
        scan.decision.risk = (if warnsOfTowing text.toList then 97 else 90) ∧
        ∀ fine, printedFine text.toList = some fine →
          ∃ estimate, scan.decision.fine = some estimate ∧ estimate.least = fine ∧
            estimate.most = fine ∧ estimate.source = "Posted on sign") := by
  refine ⟨fun readable => ⟨_, extract_eq readable⟩, ?_, ?_⟩
  · intro rules given
    cases rules_of_extract given
    exact ⟨towing_restricts, fun rule member => readRules_follow member⟩
  · intro settings bands lead moment zoneName scan scanned
    obtain ⟨localized, span, steps⟩ := ofReading_steps scanned
    obtain ⟨judged, bound⟩ := evaluate_binding steps.evaluated
    rcases ofVerdict_blocked judged steps.decided with ⟨allowed, free⟩ | ⟨heavy, refused, binds, forbidden⟩
    · refine ⟨⟨fun blocked => absurd blocked free, fun refused => ?_⟩, fun blocked => absurd blocked free⟩
      rw [allowed] at refused
      cases refused
    · obtain ⟨member, restrictive⟩ := bound heavy binds
      obtain ⟨blocked, risk, shown⟩ := forbidden_shows restrictive forbidden
      rw [rules_of_extract steps.extracted] at member
      have follows := readRules_follow member
      refine ⟨⟨fun _ => refused, fun _ => blocked⟩, fun _ => ⟨?_, ?_⟩⟩
      · rw [risk, follows.severity restrictive]
        split <;> rfl
      · intro fine printed
        exact shown fine ((follows.fine restrictive).trans printed)

def depotSign : String := "NO PARKING 8AM-6PM\nTow-away zone\n$65.00 fine"

/-- The first Monday of the calendar at nine in the morning. -/
def mondayAtNine : Moment := ⟨Wall.atMinute 7 ⟨540, by decide⟩, none, false⟩

theorem depot_sign_blocks : ∃ scan,
    Scan.ofReading Settings.usual Fine.builtIn none ⟨depotSign, none, mondayAtNine, none⟩ =
      .ok scan ∧
    scan.decision.status = .blocked ∧ scan.verdict.allowed = false ∧ scan.decision.risk = 97 ∧
    ∃ estimate, scan.decision.fine = some estimate ∧ estimate.least = ⟨false, 6500, -2⟩ ∧
      estimate.most = ⟨false, 6500, -2⟩ ∧ estimate.source = "Posted on sign" := by
  have status : ((Scan.ofReading Settings.usual Fine.builtIn none
      ⟨depotSign, none, mondayAtNine, none⟩).map fun scan => scan.decision.status).toOption =
      some .blocked := by
    decide +kernel
  obtain ⟨scan, scanned, blocked⟩ := map_ok_iff.mp (ok_of_toOption status)
  obtain ⟨_, _, advised⟩ := posting_reaches_restrictions none depotSign
  obtain ⟨refused, shown⟩ := advised _ _ _ _ _ scan scanned
  obtain ⟨risk, printed⟩ := shown blocked
  have towed : warnsOfTowing depotSign.toList = true := by decide +kernel
  rw [towed] at risk
  exact ⟨scan, scanned, blocked, refused.mp blocked, risk, printed _ (by decide +kernel)⟩

end Curbside.Proofs.Posting

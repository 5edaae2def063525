import Curbside.Proofs.RoundTrip
import Curbside.Service.Endpoint

/-! A scan gives what its stages give one by one. A caller may extract the rules of a sign, keep
them as a text, and later ask for a verdict and a timer. -/

namespace Curbside.Proofs.Staging
open Sign Service Attempt Scanning Confidence Extraction Posting Checking RuleRecord JsonText RoundTrip

section
variable {service : Service} {request : ScanRequest} {scan : Scan}

theorem scan_steps (scanned : service.scan request = .ok scan) :
    ∃ moment lead, service.lead = .ok lead ∧
      Steps service.settings service.bands (some lead)
        ⟨request.text, request.quality, request.moment, some service.settings.timezone⟩ scan
        moment lead := by
  obtain ⟨lead, led, scanned⟩ := bind_ok_iff.mp scanned
  obtain ⟨moment, span, steps⟩ := ofReading_steps scanned
  cases steps.warned
  exact ⟨moment, lead, led, steps⟩

theorem extract_of_scan (scanned : service.scan request = .ok scan) :
    service.extract ⟨request.text, request.quality⟩ =
      .ok ⟨scan.rules, scan.requiresConfirmation⟩ := by
  obtain ⟨moment, lead, _, steps⟩ := scan_steps scanned
  rw [steps.confirmation]
  exact bind_ok_iff.mpr ⟨scan.rules, steps.extracted, rfl⟩

theorem evaluate_of_scan (scanned : service.scan request = .ok scan) :
    service.evaluate ⟨scan.rules, request.moment⟩ = .ok scan.verdict := by
  obtain ⟨moment, lead, _, steps⟩ := scan_steps scanned
  exact bind_ok_iff.mpr ⟨moment, steps.localized, steps.evaluated⟩

theorem timer_of_scan (scanned : service.scan request = .ok scan) :
    service.timer ⟨scan.rules, request.moment⟩ = .ok scan.timer := by
  obtain ⟨moment, lead, led, steps⟩ := scan_steps scanned
  refine bind_ok_iff.mpr ⟨moment, steps.localized, ?_⟩
  refine bind_ok_iff.mpr ⟨scan.verdict, steps.evaluated, ?_⟩
  exact bind_ok_iff.mpr ⟨lead, led, steps.suggested⟩

end

section
variable {quality : Option Binary64} {text : List Char} {rules : List Rule}

theorem rules_survive (readable : ∀ q ∈ quality, IsBetween (.ofInt 0) (.ofInt 1) q)
    (given : Sign.extract quality text = .ok rules) :
    Decoder.list Rule.decode (encodeRules rules) = .passed rules := by
  rw [rules_of_extract given]
  have each : ∀ rule ∈ readRules quality text, Rule.decode rule.encode = .passed rule :=
    fun rule member =>
      rule_survives (readRules_acceptable readable member) (readRules_measured readable member)
  exact itemsFrom_map each 0

theorem rules_readBack (given : Sign.extract quality text = .ok rules) :
    Json.read? (Json.render (encodeRules rules)).toList = some (encodeRules rules) := by
  rw [rules_of_extract given]
  refine read?_render (.array fun item member => ?_)
  obtain ⟨rule, inside, same⟩ := List.mem_map.mp member
  rw [← same]
  exact encode_proper (readRules_statable inside)

end

section
variable {service : Service} {replies : String → Feed.Reply} {body : Json} {request : ScanRequest}
  {scan : Scan}

theorem decode_scan (asked : ScanRequest.decode body = .passed request) :
    ExtractRequest.decode body = .passed ⟨request.text, request.quality⟩ ∧
      ∃ time, body.member? "at" = some time ∧ Decoder.moment time = .passed request.moment := by
  unfold ScanRequest.decode Decoder.record at asked
  split at asked
  next members =>
    obtain ⟨_, moment, fields, readsMoment, made⟩ := both_passed_iff.mp asked
    obtain ⟨_, quality, fields, readsQuality, madeMoment⟩ := both_passed_iff.mp fields
    obtain ⟨text, readsText, madeQuality⟩ := map_passed_iff.mp fields
    subst madeQuality madeMoment made
    obtain ⟨time, stated, given⟩ := required_passed_iff.mp readsMoment
    refine ⟨?_, time, stated, given⟩
    exact both_passed_iff.mpr ⟨_, quality, map_passed_iff.mpr ⟨text, readsText, rfl⟩, readsQuality, rfl⟩
  next => cases asked

theorem decode_evaluate {rules : List Rule} {written time : Json} {moment : Moment}
    (listed : Decoder.list Rule.decode written = .passed rules)
    (given : Decoder.moment time = .passed moment) :
    EvaluateRequest.decode (.object [("rules", written), ("at", time)]) = .passed ⟨rules, moment⟩ := by
  have rules : Decoder.required [("rules", written), ("at", time)] "rules"
      (Decoder.list Rule.decode) = .passed rules :=
    required_passed_iff.mpr ⟨written, rfl, listed⟩
  have moment : Decoder.required [("rules", written), ("at", time)] "at" Decoder.moment =
      .passed moment :=
    required_passed_iff.mpr ⟨time, rfl, given⟩
  exact both_passed_iff.mpr ⟨_, _, map_passed_iff.mpr ⟨_, rules, rfl⟩, moment, rfl⟩

theorem ask_passed {decode : Decoder α} {question : α} {answer : α → Except Failure Json}
    (read : decode body = .passed question) :
    service.ask decode body answer = (answer question, service) := by
  rw [ask, read]
  rfl

/-- A caller who takes the rules out of one answer and into the next questions is told the parts
of the answer to the question for all at once. -/
theorem calls_of_scan (readable : ∀ q ∈ request.quality, IsBetween (.ofInt 0) (.ofInt 1) q)
    (scanned : service.scan request = .ok scan)
    (asked : ScanRequest.decode body = .passed request) :
    service.call replies "/scan" body = (.ok scan.encode, service) ∧
    service.call replies "/rules/extract" body =
      (.ok (ExtractResponse.encode ⟨scan.rules, scan.requiresConfirmation⟩), service) ∧
    ∃ time, body.member? "at" = some time ∧
      service.call replies "/rules/evaluate"
          (.object [("rules", encodeRules scan.rules), ("at", time)]) =
        (.ok scan.verdict.encode, service) ∧
      service.call replies "/timer" (.object [("rules", encodeRules scan.rules), ("at", time)]) =
        (.ok (.orNull Timer.encode scan.timer), service) := by
  obtain ⟨asksExtract, time, stated, given⟩ := decode_scan asked
  obtain ⟨_, _, _, steps⟩ := scan_steps scanned
  have asksLater := decode_evaluate (rules_survive readable steps.extracted) given
  refine ⟨?_, ?_, time, stated, ?_, ?_⟩
  · exact (ask_passed asked).trans (by rw [scanned]; rfl)
  · exact (ask_passed asksExtract).trans (by rw [extract_of_scan scanned]; rfl)
  · exact (ask_passed asksLater).trans (by rw [evaluate_of_scan scanned]; rfl)
  · exact (ask_passed asksLater).trans (by rw [timer_of_scan scanned]; rfl)

end

/-- The rules of a sign may be written down and read again before the later stages. These then
give what a scan gives at once, in every zone and at every moment, and so they do when they are
asked for by calls. -/
theorem stages_agree_with_scan {service : Service} {request : ScanRequest} {scan : Scan}
    (readable : ∀ q ∈ request.quality, IsBetween (.ofInt 0) (.ofInt 1) q)
    (scanned : service.scan request = .ok scan) :
    (∃ response, service.extract ⟨request.text, request.quality⟩ = .ok response ∧
      response.rules = scan.rules ∧ response.requiresConfirmation = scan.requiresConfirmation ∧
      ∃ written rules, Json.read? (Json.render (encodeRules response.rules)).toList = some written ∧
        Decoder.list Rule.decode written = .passed rules ∧ rules = scan.rules ∧
        service.evaluate ⟨rules, request.moment⟩ = .ok scan.verdict ∧
        service.timer ⟨rules, request.moment⟩ = .ok scan.timer) ∧
    ∀ replies body, ScanRequest.decode body = .passed request →
      service.call replies "/scan" body = (.ok scan.encode, service) ∧
      service.call replies "/rules/extract" body =
        (.ok (ExtractResponse.encode ⟨scan.rules, scan.requiresConfirmation⟩), service) ∧
      ∃ time, body.member? "at" = some time ∧
        service.call replies "/rules/evaluate"
            (.object [("rules", encodeRules scan.rules), ("at", time)]) =
          (.ok scan.verdict.encode, service) ∧
        service.call replies "/timer" (.object [("rules", encodeRules scan.rules), ("at", time)]) =
          (.ok (.orNull Timer.encode scan.timer), service) := by
  obtain ⟨_, _, _, steps⟩ := scan_steps scanned
  refine ⟨⟨_, extract_of_scan scanned, rfl, rfl, ?_⟩, fun _ _ => calls_of_scan readable scanned⟩
  exact ⟨_, _, rules_readBack steps.extracted, rules_survive readable steps.extracted, rfl,
    evaluate_of_scan scanned, timer_of_scan scanned⟩

def plainService : Service := Service.start Settings.usual Fine.builtIn

/-- The reading of the clock is a Wednesday at three in the afternoon. -/
def wednesdayRequest : ScanRequest := ⟨shopSign, none, ⟨Service.opening, none, false⟩⟩

def wednesdayBody : Json :=
  .object [("text", .string shopSign), ("at", .string "2026-02-25T15:00:00")]

theorem shop_sign_staged : ∃ scan, plainService.scan wednesdayRequest = .ok scan ∧
    scan.timer.map (·.minutes) = some 120 ∧
    (∃ written rules, Json.read? (Json.render (encodeRules scan.rules)).toList = some written ∧
      Decoder.list Rule.decode written = .passed rules ∧
      plainService.evaluate ⟨rules, wednesdayRequest.moment⟩ = .ok scan.verdict ∧
      plainService.timer ⟨rules, wednesdayRequest.moment⟩ = .ok scan.timer) ∧
    ∀ replies, plainService.call replies "/scan" wednesdayBody = (.ok scan.encode, plainService) := by
  have timed : ((plainService.scan wednesdayRequest).map
      fun scan => scan.timer.map (·.minutes)).toOption = some (some 120) := by
    decide +kernel
  obtain ⟨scan, scanned, minutes⟩ := map_ok_iff.mp (ok_of_toOption timed)
  have readable : ∀ q ∈ wednesdayRequest.quality, IsBetween (.ofInt 0) (.ofInt 1) q := nofun
  obtain ⟨⟨response, _, same, _, written, rules, reads, listed, _, judged, suggested⟩, calls⟩ :=
    stages_agree_with_scan readable scanned
  rw [same] at reads
  have asked : ScanRequest.decode wednesdayBody = .passed wednesdayRequest := by rfl
  refine ⟨scan, scanned, minutes, ⟨written, rules, reads, listed, judged, suggested⟩, ?_⟩
  exact fun replies => (calls replies wednesdayBody asked).1

end Curbside.Proofs.Staging

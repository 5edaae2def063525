import Curbside.Feed.Record
import Curbside.Service.Request
import Curbside.Sign.Confirm

/-! The service answers questions one after the other. Between them it keeps a cache of rate
tiers and a list of the places on the network that it has asked. Its clock stands still. -/

namespace Curbside

/-- What the service goes by and what it keeps. -/
structure Service where
  settings : Settings
  bands : Fine.Bands
  now : Wall
  cache : Feed.Store
  requested : List String

namespace Service

/-- The reading of the clock at which the service starts. -/
def opening : Wall := Wall.ofDate ⟨2026, 2, 25⟩ + 15 * 60 * Wall.minuteLength

def start (settings : Settings) (bands : Fine.Bands) : Service :=
  ⟨settings, bands, opening, Cache.fresh settings.cacheSeconds, []⟩

abbrev Reply : Type := Except Failure Json × Service

def title : String := "ParkGuard Sign Engine"

def version : String := "0.2.0"

def health : Json := .object [("status", .string "ok")]

/-- How the service is set up and what its cache has counted. -/
def systemHealth (service : Service) : Json :=
  .object [("status", .string "ok"), ("service", .string title), ("version", .string version),
    ("timezone", .string service.settings.timezone),
    ("pricing_cache", service.cache.encodeCounts)]

/-- The time between a warning and the end of a stay. -/
def lead (service : Service) : Except Failure Span := Span.ofMinutes service.settings.warningLead

def localize (service : Service) (moment : Moment) : Except Failure Moment :=
  moment.localize (some service.settings.timezone)

/-- The rules in a text, and whether a person should look at them. -/
def extract (service : Service) (request : ExtractRequest) : Except Failure ExtractResponse := do
  let rules ← Sign.extract request.quality request.text.toList
  return ⟨rules, Rule.requireConfirmation rules service.settings.confirmationThreshold⟩

def confirm (request : ConfirmRequest) : List Rule :=
  Sign.confirmTimeLimit request.minutes request.rules

/-- The verdict on rules in the zone of the service. -/
def evaluate (service : Service) (request : EvaluateRequest) : Except Failure Verdict := do
  Verdict.evaluate request.rules (← service.localize request.moment)

/-- A timer for a stay that starts at a moment in the zone of the service. -/
def timer (service : Service) (request : EvaluateRequest) : Except Failure (Option Timer) := do
  let moment ← service.localize request.moment
  let verdict ← Verdict.evaluate request.rules moment
  Timer.suggest verdict request.rules moment (← service.lead)

/-- A scan in the zone of the service. The lead is looked at first. -/
def scan (service : Service) (request : ScanRequest) : Except Failure Scan := do
  let lead ← service.lead
  Scan.ofReading service.settings service.bands (some lead)
    ⟨request.text, request.quality, request.moment, some service.settings.timezone⟩

/-- The place on the network to ask for tiers, unless tiers are given. -/
def CostRequest.place? (request : CostRequest) : Option String :=
  if request.tiers.isEmpty then request.url.filter (· != "") else none

/-- The tiers for a stay, and the service after finding them. -/
def tiers (service : Service) (replies : String → Feed.Reply) (request : CostRequest) :
    Except Failure (List Tier) × Service :=
  match request.place? with
  | none => (.ok request.tiers, service)
  | some url =>
    let fetch := Feed.fetch service.cache url (replies url) service.now
    (fetch.outcome.map (·.tiers),
      { service with
        cache := fetch.cache
        requested := if fetch.requested then service.requested ++ [url] else service.requested })

def cost (service : Service) (replies : String → Feed.Reply) (request : CostRequest) :
    Except Failure Cost × Service :=
  let (found, later) := service.tiers replies request
  let answer := do
    let tiers ← found
    let start ← service.localize request.start
    let duration ← Span.ofMinutes (.whole request.minutes)
    Cost.ofStay service.settings.defaultCurrency tiers start.wall duration
  (answer, later)

/-- Answer a question that changes nothing. -/
def ask (service : Service) (decode : Decoder α) (body : Json) (answer : α → Except Failure Json) :
    Reply :=
  ((decode body).toExcept >>= answer, service)

/-- Answer the question at a path. Nothing is found at other paths. -/
def call (service : Service) (replies : String → Feed.Reply) (path : String) (body : Json) : Reply :=
  match path with
  | "/health" => (.ok health, service)
  | "/system-health" => (.ok service.systemHealth, service)
  | "/rules/extract" => service.ask ExtractRequest.decode body fun request =>
      (service.extract request).map ExtractResponse.encode
  | "/rules/confirm" => service.ask ConfirmRequest.decode body fun request =>
      .ok (encodeRules (confirm request))
  | "/rules/evaluate" => service.ask EvaluateRequest.decode body fun request =>
      (service.evaluate request).map Verdict.encode
  | "/timer" => service.ask EvaluateRequest.decode body fun request =>
      (service.timer request).map (.orNull Timer.encode)
  | "/scan" => service.ask ScanRequest.decode body fun request =>
      (service.scan request).map Scan.encode
  | "/cost" =>
    match CostRequest.decode body with
    | .failed issues => (.error (.invalid issues), service)
    | .passed request =>
      let (answer, later) := service.cost replies request
      (answer.map Cost.encode, later)
  | _ => (.ok .null, service)

end Service

end Curbside

import Curbside.Proofs.JsonText
import Curbside.Proofs.LocalTime
import Curbside.Proofs.Products
import Curbside.Proofs.Serving
import Curbside.Service.Endpoint

/-! What becomes of a request for the price of a stay. Where tiers are looked for on the network,
whatever comes back gives some tiers or none, and a stay to which no tier applies costs nothing.
The request is answered unless the units of time that are billed make the amount of a tier larger
than any amount can be. -/

namespace Curbside.Proofs.Pricing
open Wall Feed Attempt JsonText LocalTime Products Serving
open TimedMap (put_nothing put_stores isStale_eq_false)

/-- A cache has tiers of a feed that have not expired. -/
def Kept (cache : Store) (url : String) (now : Wall) (tiers : List Tier) : Prop :=
  ∃ entry, cache.entries.lookup url = some entry ∧ now < entry.expiresAt ∧ entry.value = some tiers

/-- What can be read of a reply: nothing, or the tiers among its rows. -/
inductive Answers : Reply → List Tier → Prop where
  | nothing {reply : Reply} (fails : Fails reply) : Answers reply []
  | rows {reply : Reply} {value : Json} {rows : List Json} {tiers : List Tier}
      (carries : Carries reply value) (listed : RowsOf value rows) (valid : Validated rows tiers) :
      Answers reply tiers

/-- The tiers that a feed is taken to have: those of the cache, and otherwise those of the reply. -/
inductive Found (cache : Store) (url : String) (reply : Reply) (now : Wall) (tiers : List Tier) : Prop where
  | kept (kept : Kept cache url now tiers)
  | asked (missing : ∀ others, ¬ Kept cache url now others) (answers : Answers reply tiers)

/-- What is kept from now on, if anything is, expires in the calendar. -/
def CanKeep (cache : Store) (now : Wall) : Prop :=
  0 < cache.defaultSeconds →
    inCalendar now = true ∧ inCalendar (now + cache.defaultSeconds * secondLength) = true

section
variable {cache : Store} {url : String} {reply : Reply} {now : Wall}

theorem request_answers (canKeep : CanKeep cache now) :
    ∃ served, (request cache url reply now).outcome = .ok served ∧ Answers reply served.tiers := by
  unfold request
  cases value : reply.value? with
  | none => exact ⟨_, rfl, .nothing (fails_iff.mpr value)⟩
  | some json =>
    have answers : Answers reply (tiersOf (rows json)) :=
      .rows (carries_of_value? value) (rowsOf_rows json) (validated_tiersOf _)
    dsimp only
    by_cases lasting : 0 < cache.defaultSeconds
    · obtain ⟨inside, ends⟩ := canKeep lasting
      have stored : cache.put url (some (tiersOf (rows json))) none now = _ :=
        put_stores url (some (tiersOf (rows json))) lasting inside ends
      rw [stored]
      exact ⟨_, rfl, answers⟩
    · have passed : cache.put url (some (tiersOf (rows json))) none now = _ :=
        put_nothing url (some (tiersOf (rows json))) now lasting
      rw [passed]
      exact ⟨_, rfl, answers⟩

theorem find_seconds (cache : Store) (url : String) (now : Wall) :
    (cache.find url now).2.defaultSeconds = cache.defaultSeconds := by
  unfold Cache.find
  split
  · rfl
  · split <;> rfl

theorem find_some_iff {entry : Cache.Entry (Option (List Tier))} :
    (cache.find url now).1 = some entry ↔
      cache.entries.lookup url = some entry ∧ now < entry.expiresAt := by
  unfold Cache.find
  cases held : cache.entries.lookup url with
  | none => simp
  | some other =>
    dsimp only
    cases stale : other.isStale now with
    | true =>
      have passed : ¬ now < other.expiresAt := by
        rw [← isStale_eq_false, stale]
        exact Bool.noConfusion
      constructor
      · exact nofun
      · intro kept
        obtain ⟨same, alive⟩ := kept
        cases same
        exact absurd alive passed
    | false =>
      have alive := (isStale_eq_false other now).mp stale
      constructor
      · intro same
        cases same
        exact ⟨rfl, alive⟩
      · intro kept
        cases kept.1
        rfl

/-- A feed always has some tiers or none. -/
theorem fetch_found (canKeep : CanKeep cache now) :
    ∃ served, (fetch cache url reply now).outcome = .ok served ∧
      Found cache url reply now served.tiers := by
  have asks : (∀ others, ¬ Kept cache url now others) →
      ∃ served, (request (cache.find url now).2 url reply now).outcome = .ok served ∧
        Found cache url reply now served.tiers := by
    intro missing
    have later : CanKeep (cache.find url now).2 now := by
      unfold CanKeep
      rw [find_seconds]
      exact canKeep
    obtain ⟨served, reached, answers⟩ := request_answers later
    exact ⟨served, reached, .asked missing answers⟩
  unfold fetch fetchBetween
  generalize searched : cache.find url now = result at asks
  obtain ⟨entry, after⟩ := result
  have known : ∀ other, entry = some other ↔
      cache.entries.lookup url = some other ∧ now < other.expiresAt := by
    intro other
    rw [← find_some_iff, searched]
  cases entry with
  | none =>
    apply asks
    intro tiers kept
    obtain ⟨other, held, alive, _⟩ := kept
    cases (known other).mpr ⟨held, alive⟩
  | some entry =>
    obtain ⟨held, alive⟩ := (known entry).mp rfl
    cases value : entry.value with
    | none =>
      simp only [value]
      apply asks
      intro tiers kept
      obtain ⟨other, again, _, listed⟩ := kept
      cases held.symm.trans again
      cases value.symm.trans listed
    | some tiers =>
      simp only [value]
      exact ⟨_, rfl, .kept ⟨entry, held, alive, value⟩⟩

end

/-- A tier is the first of some that applies. -/
def First (tiers : List Tier) (start : Wall) (tier : Tier) : Prop :=
  ∃ before after, tiers = before ++ tier :: after ∧
    (∀ other ∈ before, other.appliesAt start = false) ∧ tier.appliesAt start = true

theorem select?_iff {tiers : List Tier} {start : Wall} {tier : Tier} :
    Tier.select? tiers start = some tier ↔ First tiers start tier := by
  unfold Tier.select? First
  rw [List.find?_eq_some_iff_append]
  simp only [Bool.not_eq_true']
  constructor
  · intro found
    obtain ⟨applies, before, after, split, earlier⟩ := found
    exact ⟨before, after, split, earlier, applies⟩
  · intro first
    obtain ⟨before, after, split, earlier, applies⟩ := first
    exact ⟨applies, before, after, split, earlier⟩

theorem ceil?_nonneg (units : Nat) : 0 ≤ ((Binary64.finite false units).ceil?).getD 0 := by
  unfold Binary64.ceil? Binary64.signedUnits
  generalize Binary64.one = one
  have below : (-(units : Int)).fdiv one ≤ 0 := by
    rw [Int.fdiv_eq_ediv_of_nonneg _ (Int.natCast_nonneg one)]
    rcases Nat.eq_zero_or_pos one with zero | positive
    · simp [zero]
    · exact Int.ediv_nonpos_of_nonpos_of_neg (by omega) (Int.natCast_pos.mpr positive)
  simpa using below

theorem billedUnits_nonneg (duration length : Span) : 0 ≤ Cost.billedUnits duration length := by
  have lasting : ¬ max duration 0 < 0 := Int.not_lt.mpr (Int.le_max_right duration 0)
  unfold Cost.billedUnits Binary64.ofRatio Binary64.nearest
  rw [decide_eq_false lasting]
  dsimp only
  split
  · exact ceil?_nonneg _
  · exact Int.le_refl 0

theorem magnitude_ofInt {n : Int} (notNegative : 0 ≤ n) : magnitude (Decimal.ofInt n) = n := by
  have same : ((n.natAbs : Int) : ℚ) = n := by rw [Int.natAbs_of_nonneg notNegative]
  rw [← same]
  simp [magnitude, Decimal.ofInt]

/-- What becomes of the price of a stay under some tiers. -/
inductive Priced (currency : String) (tiers : List Tier) (start : Wall) (duration : Span) :
    Except Failure Cost → Prop where
  | free (none : ∀ tier ∈ tiers, tier.appliesAt start = false) :
      Priced currency tiers start duration (.ok ⟨⟨Decimal.ofInt 0, currency⟩, []⟩)
  | whole {tier : Tier} (first : First tiers start tier) (unitless : tier.billing.unit? = none) :
      Priced currency tiers start duration
        (.ok (Cost.ofItem tier.currency (Cost.describedAs tier tier.billing.wholeStay) tier.amount))
  | units {tier : Tier} {unit : BillingUnit} {amount : Decimal} (first : First tiers start tier)
      (billed : tier.billing.unit? = some unit)
      (product : tier.amount.mul? (Decimal.ofInt (Cost.billedUnits duration unit.length)) = some amount) :
      Priced currency tiers start duration
        (.ok (Cost.ofItem tier.currency
          (Cost.rateText tier unit (Cost.billedUnits duration unit.length)) amount))
  | tooLarge {tier : Tier} {unit : BillingUnit} (first : First tiers start tier)
      (billed : tier.billing.unit? = some unit)
      (large : tooMuch ≤ magnitude tier.amount * Cost.billedUnits duration unit.length) :
      Priced currency tiers start duration (.error .amountTooLarge)

section
variable {currency : String} {tiers : List Tier} {start : Wall} {duration : Span}

theorem product_large {tier : Tier} {unit : BillingUnit} :
    tier.amount.mul? (Decimal.ofInt (Cost.billedUnits duration unit.length)) = none ↔
      tooMuch ≤ magnitude tier.amount * Cost.billedUnits duration unit.length := by
  rw [mul?_eq_none_iff, magnitude_ofInt (billedUnits_nonneg duration unit.length)]

theorem unit_known (given : Option BillingUnit) {unit : BillingUnit} (whole : Except Failure Cost)
    (next : BillingUnit → Except Failure Cost) : given = some unit →
      (match given with
        | none => whole
        | some unit => next unit) = next unit := by
  intro known
  rw [known]

theorem underTier_units {tier : Tier} {unit : BillingUnit} {product : Option Decimal}
    (billed : tier.billing.unit? = some unit)
    (multiplied :
      tier.amount.mul? (Decimal.ofInt (Cost.billedUnits duration unit.length)) = product) :
    Cost.underTier tier duration = product.elim (.error .amountTooLarge) fun amount =>
      .ok (Cost.ofItem tier.currency
        (Cost.rateText tier unit (Cost.billedUnits duration unit.length)) amount) := by
  unfold Cost.underTier
  -- Reducing the match in place would start a count of units on large numbers.
  refine (unit_known _ _ _ billed).trans ?_
  dsimp only
  rw [multiplied]
  cases product <;> rfl

theorem Priced.result {outcome : Except Failure Cost}
    (priced : Priced currency tiers start duration outcome) :
    Cost.ofStay currency tiers start duration = outcome := by
  cases priced with
  | free unapplied =>
    have unselected : Tier.select? tiers start = none := by
      unfold Tier.select?
      rw [List.find?_eq_none]
      intro tier member
      rw [unapplied tier member]
      exact Bool.noConfusion
    rw [Cost.ofStay, unselected]
  | whole first unitless =>
    rw [Cost.ofStay, select?_iff.mpr first]
    simp only [Cost.underTier, unitless]
  | units first billed product =>
    rw [Cost.ofStay, select?_iff.mpr first]
    exact underTier_units billed product
  | tooLarge first billed large =>
    rw [Cost.ofStay, select?_iff.mpr first]
    exact underTier_units billed (product_large.mpr large)

theorem exists_priced (currency : String) (tiers : List Tier) (start : Wall) (duration : Span) :
    ∃ outcome, Priced currency tiers start duration outcome := by
  cases selected : Tier.select? tiers start with
  | none =>
    refine ⟨_, .free ?_⟩
    intro tier member
    exact Bool.not_eq_true _ ▸ List.find?_eq_none.mp selected tier member
  | some tier =>
    have first : First tiers start tier := select?_iff.mp selected
    cases billed : tier.billing.unit? with
    | none => exact ⟨_, .whole first billed⟩
    | some unit =>
      cases product : tier.amount.mul? (Decimal.ofInt (Cost.billedUnits duration unit.length)) with
      | none => exact ⟨_, .tooLarge first billed (product_large.mp product)⟩
      | some amount => exact ⟨_, .units first billed product⟩

theorem ofStay_iff {outcome : Except Failure Cost} :
    Cost.ofStay currency tiers start duration = outcome ↔
      Priced currency tiers start duration outcome := by
  constructor
  · intro same
    obtain ⟨other, priced⟩ := exists_priced currency tiers start duration
    rw [← same, priced.result]
    exact priced
  · exact Priced.result

end

section
variable {service : Service} {replies : String → Reply} {request : Service.CostRequest}

theorem tiers_asked {url : String} (place : request.place? = some url) :
    (service.tiers replies request).1 =
      (fetch service.cache url (replies url) service.now).outcome.map (·.tiers) := by
  unfold Service.tiers
  rw [place]

theorem cost_eq {tiers : List Tier} {start : Moment} {duration : Span}
    (found : (service.tiers replies request).1 = .ok tiers)
    (shows : service.localize request.start = .ok start)
    (held : Span.ofMinutes (.whole request.minutes) = .ok duration) :
    (service.cost replies request).1 =
      Cost.ofStay service.settings.defaultCurrency tiers start.wall duration := by
  unfold Service.cost
  generalize service.tiers replies request = searched at found
  obtain ⟨result, later⟩ := searched
  simp only at found
  subst found
  simp only [shows, held, bind, Except.bind]

/-- Nobody asks the network for tiers that are given. -/
theorem tiers_given (given : request.tiers ≠ []) :
    service.tiers replies request = (.ok request.tiers, service) := by
  have nowhere : request.place? = none := by
    simp [Service.CostRequest.place?, given]
  unfold Service.tiers
  rw [nowhere]

end

/-- In a service of a known zone that can keep what it finds, the price of a stay is worked out on
tiers that are given, with nobody asked for more. If there are none, it is worked out on those that
the feed is taken to have, whatever comes back. That fails exactly if the first tier that applies
is billed by units and comes to more than an amount can be. -/
theorem stay_priced {service : Service} (replies : String → Reply) {request : Service.CostRequest}
    {duration : Span} (zone : ∃ zone, Zone.named service.settings.timezone = .ok zone)
    (canKeep : CanKeep service.cache service.now)
    (own : ∀ offset ∈ request.start.offset?, WithinDay offset)
    (dated : InYears 2 9000 request.start.wall)
    (held : Span.ofMinutes (.whole request.minutes) = .ok duration) :
    ∃ start, request.start.localize (some service.settings.timezone) = .ok start ∧
      (∀ url, request.tiers = [] → request.url = some url → url ≠ "" →
        ∃ tiers, Found service.cache url (replies url) service.now tiers ∧
          ∀ outcome, (service.cost replies request).1 = outcome ↔
            Priced service.settings.defaultCurrency tiers start.wall duration outcome) ∧
      (request.tiers ≠ [] →
        (∀ outcome, (service.cost replies request).1 = outcome ↔
          Priced service.settings.defaultCurrency request.tiers start.wall duration outcome) ∧
        (service.cost replies request).2 = service) := by
  have days := day_of_inYears dated
  have count : dayCount = 3652059 := rfl
  obtain ⟨start, shows, _⟩ : ∃ start,
      request.start.localize (some service.settings.timezone) = .ok start ∧ _ :=
    localize_succeeds own (fun name same => Option.some.inj same ▸ zone) (by omega) (by omega)
  refine ⟨start, shows, ?_, ?_⟩
  · intro url none place named
    have asked : request.place? = some url := by
      simp [Service.CostRequest.place?, none, place, named]
    obtain ⟨served, reached, found⟩ : ∃ served,
        (fetch service.cache url (replies url) service.now).outcome = .ok served ∧
          Found service.cache url (replies url) service.now served.tiers := fetch_found canKeep
    have searched : (service.tiers replies request).1 = .ok served.tiers := by
      rw [tiers_asked asked, reached]
      rfl
    refine ⟨served.tiers, found, ?_⟩
    intro outcome
    rw [cost_eq searched shows held]
    exact ofStay_iff
  · intro given
    have searched : (service.tiers replies request).1 = .ok request.tiers :=
      congrArg Prod.fst (tiers_given given)
    refine ⟨?_, congrArg Prod.snd (tiers_given given)⟩
    intro outcome
    rw [cost_eq searched shows held]
    exact ofStay_iff

/-- Two hours from three in the afternoon, at the rates of a feed. -/
def twoHourStay : Service.CostRequest :=
  ⟨[], some "https://rates", ⟨Service.opening, none, false⟩, 120⟩

def newService : Service := Service.start Settings.usual Fine.builtIn

/-- Where nothing comes back, a stay costs nothing. -/
theorem unanswered_feed_is_free : (∃ zone, Zone.named newService.settings.timezone = .ok zone) ∧
    CanKeep newService.cache newService.now ∧
    (∀ offset ∈ twoHourStay.start.offset?, WithinDay offset) ∧
    InYears 2 9000 twoHourStay.start.wall ∧
    Span.ofMinutes (.whole twoHourStay.minutes) = .ok (120 * minuteLength) ∧
    (newService.cost (fun _ => .failed) twoHourStay).1 = .ok ⟨⟨Decimal.ofInt 0, "USD"⟩, []⟩ := by
  have zone : ∃ zone, Zone.named newService.settings.timezone = .ok zone := ⟨_, rfl⟩
  have canKeep : CanKeep newService.cache newService.now := fun _ => ⟨by decide, by decide⟩
  have own : ∀ offset ∈ twoHourStay.start.offset?, WithinDay offset := nofun
  have dated : InYears 2 9000 twoHourStay.start.wall := ⟨by decide, by decide⟩
  have held : Span.ofMinutes (.whole twoHourStay.minutes) = .ok (120 * minuteLength) := rfl
  refine ⟨zone, canKeep, own, dated, held, ?_⟩
  obtain ⟨start, _, asked, _⟩ := stay_priced (fun _ => .failed) zone canKeep own dated held
  obtain ⟨tiers, found, priced⟩ := asked "https://rates" rfl rfl (by decide)
  have none : tiers = [] := by
    cases found with
    | kept kept =>
      obtain ⟨entry, held, _⟩ := kept
      cases held
    | asked _ answers =>
      cases answers with
      | nothing _ => rfl
      | rows carries _ _ => cases carries
  subst none
  exact (priced _).mpr (.free nofun)

/-- A rate for an hour of which two are more than an amount can be. -/
def dearRates : Json :=
  .array [.object [("amount", .string "9E+999999"), ("billing", .string "hourly")]]

def dearTier : Tier := ⟨⟨false, 9, 999999⟩, "USD", none, .hourly, none⟩

def dearReply : Reply := .answered 200 (Json.render dearRates).toList

/-- A single row breaks the request, though a feed without any row would have made it free. -/
theorem dear_rate_fails :
    (newService.cost (fun _ => dearReply) twoHourStay).1 = .error .amountTooLarge := by
  have proper : Proper dearRates := by
    refine .array (List.forall_mem_singleton.mpr (.object (by simp) ?_))
    exact List.forall_mem_cons.mpr ⟨.string, List.forall_mem_singleton.mpr .string⟩
  have unmarked : dropMark (Json.render dearRates).toList = (Json.render dearRates).toList := by
    rw [Json.render, String.toList_ofList]
    rfl
  have carried : dearReply.value? = some dearRates := by
    unfold dearReply
    rw [Reply.value?, unmarked, read?_render proper]
    rfl
  have listed : tiersOf (rows dearRates) = [dearTier] := by decide +kernel
  have missed : newService.cache.find "https://rates" newService.now =
      (none, { newService.cache with misses := 1 }) := rfl
  have reached : (fetch newService.cache "https://rates" dearReply newService.now).outcome =
      .ok ⟨[dearTier], .live⟩ := by
    unfold fetch fetchBetween
    rw [missed]
    simp only [request, carried, listed]
    rfl
  have searched : (newService.tiers (fun _ => dearReply) twoHourStay).1 = .ok [dearTier] := by
    rw [tiers_asked rfl, reached]
    rfl
  have shows : newService.localize twoHourStay.start =
      .ok ⟨Service.opening, some (Zone.northAmerican (Zone.hours (-5))), false⟩ := rfl
  have held : Span.ofMinutes (.whole twoHourStay.minutes) = .ok (120 * minuteLength) := rfl
  have first : First [dearTier] Service.opening dearTier := ⟨[], [], rfl, by simp, rfl⟩
  have billed : dearTier.billing.unit? = some ⟨60 * minuteLength, "hour", "hr"⟩ := rfl
  have product : dearTier.amount.mul?
      (Decimal.ofInt (Cost.billedUnits (120 * minuteLength) (60 * minuteLength))) = none := by
    decide +kernel
  rw [cost_eq searched shows held]
  exact Priced.result (.tooLarge first billed (product_large.mp product))

end Curbside.Proofs.Pricing

import Curbside.Feed.Basic
import Curbside.Proofs.TimedMap

/-! Calls for the tiers of feeds, one after the other, with one cache. Which calls were answered
by the network, and when, decides what every later call is answered with. A call that the network
could not answer leaves no trace. -/

namespace Curbside.Proofs.Serving
open Feed Cache Wall
open TimedMap (Sheds sheds_refl find_sheds lookup_without not_mem_without distinct_filter put_stores
  isStale_eq_false secondsPastNoon)

/-- A call for the tiers of a feed: the reply that the network would give, and the readings of
the clock when the call is made and when the reply is there. -/
structure Call where
  url : String
  reply : Reply
  asked : Wall
  answered : Wall

def Call.perform (call : Call) (cache : Store) : Fetch :=
  fetchBetween cache call.url call.reply call.asked call.answered

/-- The cache after calls, where it was empty at first. -/
def after (seconds : Int) (calls : List Call) : Store :=
  calls.foldl (fun cache call => (call.perform cache).cache) (Cache.fresh seconds)

def fetched (seconds : Int) (before : List Call) (call : Call) : Fetch :=
  call.perform (after seconds before)

/-- The tiers of a call are kept for so many seconds from the time when its reply was there. -/
def Call.expiresAt (call : Call) (seconds : Int) : Wall := call.answered + seconds * secondLength

def Call.entry (call : Call) (seconds : Int) (tiers : List Tier) : Entry (Option (List Tier)) :=
  ⟨some tiers, call.answered, call.expiresAt seconds⟩

/-- One of some calls was answered with tiers by the network. -/
def LiveAt (seconds : Int) (calls : List Call) (source : Call) (tiers : List Tier) : Prop :=
  ∃ before later, calls = before ++ source :: later ∧
    (fetched seconds before source).outcome = .ok ⟨tiers, .live⟩

/-- A call comes with a clock that has not gone back, and what it keeps expires in the calendar. -/
structure Timely (seconds : Int) (now : Wall) (call : Call) : Prop where
  ordered : now ≤ call.asked
  passes : call.asked ≤ call.answered
  inside : inCalendar call.answered = true
  ends : inCalendar (call.expiresAt seconds) = true

/-- A clock that never goes back shows a first reading, then those of the calls, and in the end a
last one. -/
inductive Forward (seconds : Int) : Wall → List Call → Wall → Prop where
  | done {first last : Wall} (ordered : first ≤ last) : Forward seconds first [] last
  | next {first last : Wall} {call : Call} {rest : List Call} (timely : Timely seconds first call)
      (onward : Forward seconds call.answered rest last) : Forward seconds first (call :: rest) last

/-- A reply is no answer: nothing comes back, or an error does, or a body that is no JSON. -/
inductive Fails : Reply → Prop where
  | lost : Fails .failed
  | refused {status : Int} {body : List Char} (least : 400 ≤ status) (most : status < 600) :
      Fails (.answered status body)
  | garbled {status : Int} {body : List Char} (unreadable : Json.read? (dropMark body) = none) :
      Fails (.answered status body)

/-- A reply answers with a value. -/
inductive Carries : Reply → Json → Prop where
  | body {status : Int} {body : List Char} {value : Json}
      (accepted : status < 400 ∨ 600 ≤ status) (reads : Json.read? (dropMark body) = some value) :
      Carries (.answered status body) value

def Unlisted (value : Json) (name : String) : Prop :=
  ∀ items, value.member? name ≠ some (.array items)

/-- The rows that a value holds: those of an array, else those of the array that an object has
under the first of two names, else none. -/
inductive RowsOf : Json → List Json → Prop where
  | array {items : List Json} : RowsOf (.array items) items
  | rates {members : List (String × Json)} {items : List Json}
      (listed : (Json.object members).member? "rates" = some (.array items)) :
      RowsOf (.object members) items
  | tiers {members : List (String × Json)} {items : List Json}
      (unlisted : Unlisted (.object members) "rates")
      (listed : (Json.object members).member? "tiers" = some (.array items)) :
      RowsOf (.object members) items
  | nothing {value : Json} (other : ∀ items, value ≠ .array items)
      (noRates : Unlisted value "rates") (noTiers : Unlisted value "tiers") : RowsOf value []

/-- The tiers among rows, in order. -/
inductive Validated : List Json → List Tier → Prop where
  | nil : Validated [] []
  | tier {row : Json} {tier : Tier} {rows : List Json} {tiers : List Tier}
      (valid : Tier.decode row = .passed tier) (rest : Validated rows tiers) :
      Validated (row :: rows) (tier :: tiers)
  | skipped {row : Json} {issues : List Issue} {rows : List Json} {tiers : List Tier}
      (invalid : Tier.decode row = .failed issues) (rest : Validated rows tiers) :
      Validated (row :: rows) tiers

theorem fails_iff {reply : Reply} : Fails reply ↔ reply.value? = none := by
  constructor
  · intro fails
    cases fails with
    | lost => rfl
    | refused least most => simp [Reply.value?, isFailure, least, most]
    | garbled unreadable => simp [Reply.value?, unreadable]
  · intro silent
    cases reply with
    | failed => exact .lost
    | answered status body =>
      simp only [Reply.value?] at silent
      split at silent
      next failure =>
        simp only [isFailure, Bool.and_eq_true, decide_eq_true_eq] at failure
        exact .refused failure.1 failure.2
      next => exact .garbled silent

theorem carries_of_value? {reply : Reply} {value : Json} (answers : reply.value? = some value) :
    Carries reply value := by
  cases reply with
  | failed => cases answers
  | answered status body =>
    simp only [Reply.value?] at answers
    split at answers
    next => cases answers
    next accepted =>
      simp only [isFailure, Bool.and_eq_true, decide_eq_true_eq] at accepted
      exact .body (by omega) answers

theorem itemsOf?_eq_some {value : Json} {items : List Json} :
    itemsOf? value = some items ↔ value = .array items := by
  cases value <;> simp [itemsOf?]

theorem unlisted_iff {value : Json} {name : String} :
    Unlisted value name ↔ (value.member? name).bind itemsOf? = none := by
  cases found : value.member? name with
  | none => simp [Unlisted, found]
  | some member => simp [Unlisted, found, Option.eq_none_iff_forall_ne_some, itemsOf?_eq_some]

theorem rowsOf_rows (value : Json) : RowsOf value (rows value) := by
  unfold rows
  cases listed : itemsOf? value with
  | some items =>
    rw [itemsOf?_eq_some.mp listed]
    exact .array
  | none =>
    have other : ∀ items, value ≠ .array items := by
      intro items same
      rw [itemsOf?_eq_some.mpr same] at listed
      cases listed
    have object : ∀ {name items}, (value.member? name).bind itemsOf? = some items →
        (∃ members, value = .object members) ∧ value.member? name = some (.array items) := by
      intro name items found
      obtain ⟨member, holds, isArray⟩ := Option.bind_eq_some_iff.mp found
      rw [itemsOf?_eq_some.mp isArray] at holds
      refine ⟨?_, holds⟩
      cases value with
      | object members => exact ⟨members, rfl⟩
      | _ => cases holds
    simp only [List.findSome?_cons, List.findSome?_nil]
    cases rates : (value.member? "rates").bind itemsOf? with
    | some items =>
      obtain ⟨⟨members, rfl⟩, found⟩ := object rates
      exact .rates found
    | none =>
      cases tiers : (value.member? "tiers").bind itemsOf? with
      | some items =>
        obtain ⟨⟨members, rfl⟩, found⟩ := object tiers
        exact .tiers (unlisted_iff.mpr rates) found
      | none => exact .nothing other (unlisted_iff.mpr rates) (unlisted_iff.mpr tiers)

theorem validated_tiersOf (rows : List Json) : Validated rows (tiersOf rows) := by
  induction rows with
  | nil => exact .nil
  | cons row rest ih =>
    cases decoded : Tier.decode row with
    | passed tier =>
      have first : tiersOf (row :: rest) = tier :: tiersOf rest := by
        simp [tiersOf, decoded]
      exact first ▸ .tier decoded ih
    | failed issues =>
      have first : tiersOf (row :: rest) = tiersOf rest := by
        simp [tiersOf, decoded]
      exact first ▸ .skipped decoded ih

section
variable {seconds : Int} {calls : List Call} {call source : Call} {tiers : List Tier}

theorem after_snoc (calls : List Call) (call : Call) :
    after seconds (calls ++ [call]) = (fetched seconds calls call).cache := by
  simp [after, fetched]

theorem not_liveAt_nil : ¬ LiveAt seconds [] source tiers := by
  intro ⟨before, later, same, _⟩
  simp at same

theorem liveAt_snoc : LiveAt seconds (calls ++ [call]) source tiers ↔
    LiveAt seconds calls source tiers ∨
      source = call ∧ (fetched seconds calls call).outcome = .ok ⟨tiers, .live⟩ := by
  constructor
  · intro ⟨before, later, split, live⟩
    rcases List.eq_nil_or_concat later with rfl | ⟨rest, last, rfl⟩
    · obtain ⟨same, last⟩ := List.append_inj' split rfl
      cases last
      exact Or.inr ⟨rfl, same ▸ live⟩
    · have split : calls ++ [call] = (before ++ source :: rest) ++ [last] := by
        simpa using split
      obtain ⟨front, _⟩ := List.append_inj' split rfl
      exact Or.inl ⟨before, rest, front, live⟩
  · intro either
    rcases either with ⟨before, later, split, live⟩ | ⟨rfl, live⟩
    · exact ⟨before, later ++ [call], by simp [split], live⟩
    · exact ⟨calls, [], rfl, live⟩

end

theorem forward_append {seconds : Int} {one two : List Call} {first last : Wall}
    (forward : Forward seconds first (one ++ two) last) :
    ∃ middle, Forward seconds first one middle ∧ Forward seconds middle two last := by
  induction one generalizing first with
  | nil => exact ⟨first, .done (Int.le_refl first), forward⟩
  | cons call rest ih =>
    cases forward with
    | next timely onward =>
      obtain ⟨middle, before, later⟩ := ih onward
      exact ⟨middle, .next timely before, later⟩

section
variable {cache : Store} {call : Call} {now : Wall} {seconds : Int}

theorem request_failed (cache : Store) (fails : call.reply.value? = none) :
    request cache call.url call.reply call.answered = ⟨.ok ⟨[], .unavailable⟩, cache, true⟩ := by
  simp [request, fails]

theorem request_answered {value : Json} (answers : call.reply.value? = some value)
    (lasting : cache.defaultSeconds = seconds) (positive : 0 < seconds)
    (timely : Timely seconds now call) :
    request cache call.url call.reply call.answered =
      ⟨.ok ⟨tiersOf (rows value), .live⟩,
        { cache with
          entries := (call.url, call.entry seconds (tiersOf (rows value))) ::
            without cache.entries call.url }, true⟩ := by
  subst lasting
  have stored : cache.put call.url (some (tiersOf (rows value))) none call.answered = _ :=
    put_stores call.url (some (tiersOf (rows value))) positive timely.inside timely.ends
  simp only [request, answers, stored]
  rfl

end

/-- What the entries of the cache have to do with the calls so far: they are what the network
answered, and an answer is missing only if its time has passed. -/
structure Holds (seconds : Int) (calls : List Call) (now : Wall) (cache : Store) : Prop where
  lasting : cache.defaultSeconds = seconds
  distinct : (cache.entries.map Prod.fst).Nodup
  kept : ∀ url entry, cache.entries.lookup url = some entry →
    ∃ source tiers, LiveAt seconds calls source tiers ∧ source.url = url ∧
      entry = source.entry seconds tiers
  missing : ∀ source tiers, LiveAt seconds calls source tiers →
    cache.entries.lookup source.url = some (source.entry seconds tiers) ∨
      source.expiresAt seconds ≤ now

namespace Holds
variable {seconds : Int} {calls : List Call} {call : Call} {now : Wall} {cache : Store}

theorem fresh (seconds : Int) (now : Wall) : Holds seconds [] now (Cache.fresh seconds) :=
  ⟨rfl, List.nodup_nil, nofun, fun _ _ live => absurd live not_liveAt_nil⟩

theorem shed (holds : Holds seconds calls now cache) {later : Store} {reading : Wall}
    (ordered : now ≤ reading) (sheds : Sheds reading cache later) :
    Holds seconds calls reading later := by
  refine ⟨sheds.seconds.trans holds.lasting, sheds.distinct, ?_, ?_⟩
  · intro url entry held
    rcases sheds.entries url with stays | ⟨gone, _⟩
    · exact holds.kept url entry (stays.symm.trans held)
    · rw [gone] at held
      cases held
  · intro source tiers live
    rcases holds.missing source tiers live with held | passed
    · rcases sheds.entries source.url with stays | ⟨_, entry, dropped, stale⟩
      · exact Or.inl (stays.trans held)
      · rw [held] at dropped
        cases dropped
        exact Or.inr stale
    · exact Or.inr (Int.le_trans passed ordered)

theorem later (holds : Holds seconds calls now cache) {reading : Wall} (ordered : now ≤ reading) :
    Holds seconds calls reading cache :=
  holds.shed ordered (sheds_refl holds.distinct reading)

theorem quiet (holds : Holds seconds calls now cache)
    (unanswered : ∀ tiers, (fetched seconds calls call).outcome ≠ .ok ⟨tiers, .live⟩) :
    Holds seconds (calls ++ [call]) now cache := by
  have same : ∀ source tiers,
      LiveAt seconds (calls ++ [call]) source tiers ↔ LiveAt seconds calls source tiers := by
    intro source tiers
    simp [liveAt_snoc, unanswered]
  refine ⟨holds.lasting, holds.distinct, ?_, ?_⟩
  · simpa only [same] using holds.kept
  · simpa only [same] using holds.missing

/-- Tiers that the network answers with take the place of those that have expired. -/
theorem answered (holds : Holds seconds calls now cache) {tiers : List Tier}
    (live : (fetched seconds calls call).outcome = .ok ⟨tiers, .live⟩)
    (expired : ∀ source others, LiveAt seconds calls source others → source.url = call.url →
      source.expiresAt seconds ≤ now) :
    Holds seconds (calls ++ [call]) now
      { cache with
        entries := (call.url, call.entry seconds tiers) :: without cache.entries call.url } := by
  refine ⟨holds.lasting, ?_, ?_, ?_⟩
  · exact List.nodup_cons.mpr ⟨not_mem_without call.url, distinct_filter holds.distinct _⟩
  · intro url entry held
    by_cases same : url = call.url
    · subst same
      simp only [List.lookup_cons_self] at held
      exact ⟨call, tiers, liveAt_snoc.mpr (Or.inr ⟨rfl, live⟩), rfl, (Option.some.inj held).symm⟩
    · have passed : (url == call.url) = false := by simpa using same
      simp only [List.lookup_cons, passed, lookup_without holds.distinct, if_neg same] at held
      obtain ⟨source, others, earlier, own, built⟩ := holds.kept url entry held
      exact ⟨source, others, liveAt_snoc.mpr (Or.inl earlier), own, built⟩
  · intro source others lives
    rcases liveAt_snoc.mp lives with earlier | ⟨rfl, again⟩
    · by_cases same : source.url = call.url
      · exact Or.inr (expired source others earlier same)
      · have passed : (source.url == call.url) = false := by simpa using same
        simp only [List.lookup_cons, passed, lookup_without holds.distinct, if_neg same]
        exact holds.missing source others earlier
    · cases live.symm.trans again
      exact Or.inl List.lookup_cons_self

end Holds

theorem recent_or_expired (seconds : Int) (calls : List Call) (call : Call) :
    (∃ source tiers, LiveAt seconds calls source tiers ∧ source.url = call.url ∧
      call.asked < source.expiresAt seconds) ∨
    ∀ source tiers, LiveAt seconds calls source tiers → source.url = call.url →
      source.expiresAt seconds ≤ call.asked := by
  apply Classical.or_iff_not_imp_left.mpr
  intro none source tiers live same
  exact Int.not_lt.mp fun alive => none ⟨source, tiers, live, same, alive⟩

section
variable {seconds : Int} {calls : List Call} {call source : Call} {now : Wall} {tiers : List Tier}

theorem fetched_cached (holds : Holds seconds calls now (after seconds calls))
    (ordered : now ≤ call.asked) (live : LiveAt seconds calls source tiers)
    (same : source.url = call.url) (recent : call.asked < source.expiresAt seconds) :
    fetched seconds calls call =
      ⟨.ok ⟨tiers, .cached source.answered (call.asked - source.answered)⟩,
        ((after seconds calls).find call.url call.asked).2, false⟩ := by
  have held : (after seconds calls).entries.lookup call.url =
      some (source.entry seconds tiers) := by
    rcases holds.missing source tiers live with held | passed
    · exact same ▸ held
    · exact absurd (Int.le_trans passed ordered) (Int.not_le.mpr recent)
  have alive : (source.entry seconds tiers).isStale call.asked = false :=
    (isStale_eq_false _ _).mpr recent
  have found : ((after seconds calls).find call.url call.asked).1 =
      some (source.entry seconds tiers) := by
    simp [Cache.find, held, alive]
  unfold fetched Call.perform fetchBetween
  generalize (after seconds calls).find call.url call.asked = result at found
  obtain ⟨entry, later⟩ := result
  cases found
  rfl

theorem fetched_asks (holds : Holds seconds calls now (after seconds calls))
    (expired : ∀ source tiers, LiveAt seconds calls source tiers → source.url = call.url →
      source.expiresAt seconds ≤ call.asked) :
    fetched seconds calls call =
      request ((after seconds calls).find call.url call.asked).2 call.url call.reply
        call.answered := by
  have found : ((after seconds calls).find call.url call.asked).1 = none := by
    unfold Cache.find
    split
    next => rfl
    next entry held =>
      obtain ⟨source, tiers, live, same, built⟩ := holds.kept call.url entry held
      have stale : entry.isStale call.asked = true := by
        rw [built]
        exact decide_eq_true (expired source tiers live same)
      simp [stale]
  unfold fetched Call.perform fetchBetween
  generalize (after seconds calls).find call.url call.asked = result at found
  obtain ⟨entry, later⟩ := result
  cases found
  rfl

end

section
variable {seconds : Int} (positive : 0 < seconds)
include positive

theorem fetched_answered {calls : List Call} {call : Call} {now : Wall} {value : Json}
    (holds : Holds seconds calls now (after seconds calls)) (timely : Timely seconds now call)
    (expired : ∀ source tiers, LiveAt seconds calls source tiers → source.url = call.url →
      source.expiresAt seconds ≤ call.asked)
    (answers : call.reply.value? = some value) :
    fetched seconds calls call =
      ⟨.ok ⟨tiersOf (rows value), .live⟩,
        { ((after seconds calls).find call.url call.asked).2 with
          entries := (call.url, call.entry seconds (tiersOf (rows value))) ::
            without ((after seconds calls).find call.url call.asked).2.entries call.url },
        true⟩ := by
  have sheds := find_sheds holds.distinct call.url call.asked
  exact (fetched_asks holds expired).trans
    (request_answered answers (sheds.seconds.trans holds.lasting) positive timely)

/-- Every call keeps the entries in step with what the network answered. -/
theorem Holds.fetched {calls : List Call} {call : Call} {now : Wall}
    (holds : Holds seconds calls now (after seconds calls)) (timely : Timely seconds now call) :
    Holds seconds (calls ++ [call]) call.answered (after seconds (calls ++ [call])) := by
  have sheds := find_sheds holds.distinct call.url call.asked
  have asked := (holds.shed timely.ordered sheds).later timely.passes
  rw [after_snoc]
  rcases recent_or_expired seconds calls call with ⟨source, tiers, live, same, alive⟩ | expired
  · have served := fetched_cached holds timely.ordered live same alive
    rw [served]
    exact asked.quiet (by simp [served])
  · cases answers : call.reply.value? with
    | none =>
      have failed := (fetched_asks holds expired).trans (request_failed _ answers)
      rw [failed]
      exact asked.quiet (by simp [failed])
    | some value =>
      have served := fetched_answered positive holds timely expired answers
      rw [served]
      refine asked.answered (by rw [served]) ?_
      intro source tiers live same
      exact Int.le_trans (expired source tiers live same) timely.passes

theorem holds_after {past calls : List Call} {first last : Wall}
    (holds : Holds seconds past first (after seconds past))
    (forward : Forward seconds first calls last) :
    Holds seconds (past ++ calls) last (after seconds (past ++ calls)) := by
  induction forward generalizing past with
  | done ordered => simpa using holds.later ordered
  | next timely _ ih => simpa using ih (holds.fetched positive timely)

/-- Calls after which the same answers of the network count are followed by the same answer. -/
theorem fetched_alike {one two : List Call} {call : Call} {now : Wall}
    (same : ∀ source tiers, LiveAt seconds one source tiers ↔ LiveAt seconds two source tiers)
    (holdsOne : Holds seconds one now (after seconds one))
    (holdsTwo : Holds seconds two now (after seconds two)) (timely : Timely seconds now call) :
    (fetched seconds one call).outcome = (fetched seconds two call).outcome ∧
      (fetched seconds one call).requested = (fetched seconds two call).requested := by
  rcases recent_or_expired seconds one call with ⟨source, tiers, live, own, alive⟩ | expired
  · rw [fetched_cached holdsOne timely.ordered live own alive,
      fetched_cached holdsTwo timely.ordered ((same _ _).mp live) own alive]
    exact ⟨rfl, rfl⟩
  · have expiredToo : ∀ source tiers, LiveAt seconds two source tiers → source.url = call.url →
        source.expiresAt seconds ≤ call.asked :=
      fun source tiers live => expired source tiers ((same _ _).mpr live)
    cases answers : call.reply.value? with
    | none =>
      rw [fetched_asks holdsOne expired, fetched_asks holdsTwo expiredToo,
        request_failed _ answers, request_failed _ answers]
      exact ⟨rfl, rfl⟩
    | some value =>
      rw [fetched_answered positive holdsOne timely expired answers,
        fetched_answered positive holdsTwo timely expiredToo answers]
      exact ⟨rfl, rfl⟩

theorem liveAt_alike {one two calls : List Call} {first last : Wall}
    (same : ∀ source tiers, LiveAt seconds one source tiers ↔ LiveAt seconds two source tiers)
    (holdsOne : Holds seconds one first (after seconds one))
    (holdsTwo : Holds seconds two first (after seconds two))
    (forward : Forward seconds first calls last) (source : Call) (tiers : List Tier) :
    LiveAt seconds (one ++ calls) source tiers ↔ LiveAt seconds (two ++ calls) source tiers := by
  induction forward generalizing one two with
  | done _ => simpa using same source tiers
  | @next first last call rest timely _ ih =>
    have alike := (fetched_alike positive same holdsOne holdsTwo timely).1
    have still : ∀ source tiers, LiveAt seconds (one ++ [call]) source tiers ↔
        LiveAt seconds (two ++ [call]) source tiers := by
      intro source tiers
      simp only [liveAt_snoc, same, alike]
    simpa using ih still (holdsOne.fetched positive timely) (holdsTwo.fetched positive timely)

end

/-- A call that the network could not answer makes no difference to the calls after it. -/
theorem unanswered_unseen {seconds : Int} (positive : 0 < seconds) {first last : Wall}
    {before later : List Call} {call next : Call}
    (forward : Forward seconds first (before ++ call :: (later ++ [next])) last)
    (unanswered : ∀ tiers, (fetched seconds before call).outcome ≠ .ok ⟨tiers, .live⟩) :
    (fetched seconds (before ++ call :: later) next).outcome =
        (fetched seconds (before ++ later) next).outcome ∧
      (fetched seconds (before ++ call :: later) next).requested =
        (fetched seconds (before ++ later) next).requested := by
  obtain ⟨now, past, onward⟩ := forward_append forward
  have holds := holds_after positive (.fresh seconds first) past
  cases onward with
  | next timely onward =>
    obtain ⟨reading, between, onward⟩ := forward_append onward
    have same : ∀ source tiers, LiveAt seconds (before ++ [call]) source tiers ↔
        LiveAt seconds before source tiers := by
      intro source tiers
      simp [liveAt_snoc, unanswered]
    have holdsOne := holds.fetched positive timely
    have holdsTwo := holds.later (Int.le_trans timely.ordered timely.passes)
    -- The call has left no answer behind, so from here the two runs go on in step.
    have onceMore := liveAt_alike positive same holdsOne holdsTwo between
    cases onward with
    | next timelyNext _ =>
      have alike := fetched_alike positive onceMore (holds_after positive holdsOne between)
        (holds_after positive holdsTwo between) timelyNext
      simpa using alike

/-- In every run of calls with one cache, a call is served with what the network answered for the
same feed a while ago, as long as that is kept, and with its age, even if it was no tiers at all.
Otherwise it is served by the network: with nothing where the reply is no answer, so that the calls
after it are served as if it had not been made, and else with the tiers among the rows of the
reply. -/
theorem served_from_cache_or_network {seconds : Int} (positive : 0 < seconds) {first last : Wall}
    {before : List Call} {call : Call} (forward : Forward seconds first (before ++ [call]) last) :
    (∀ source tiers, LiveAt seconds before source tiers → source.url = call.url →
      call.asked < source.expiresAt seconds →
      (fetched seconds before call).outcome =
          .ok ⟨tiers, .cached source.answered (call.asked - source.answered)⟩ ∧
        (fetched seconds before call).requested = false) ∧
    ((∀ source tiers, LiveAt seconds before source tiers → source.url = call.url →
        source.expiresAt seconds ≤ call.asked) →
      (Fails call.reply →
        (fetched seconds before call).outcome = .ok ⟨[], .unavailable⟩ ∧
        ∀ later next finish, Forward seconds first (before ++ call :: (later ++ [next])) finish →
          (fetched seconds (before ++ call :: later) next).outcome =
              (fetched seconds (before ++ later) next).outcome ∧
            (fetched seconds (before ++ call :: later) next).requested =
              (fetched seconds (before ++ later) next).requested) ∧
      (¬ Fails call.reply → ∃ value rows tiers, Carries call.reply value ∧ RowsOf value rows ∧
        Validated rows tiers ∧ (fetched seconds before call).outcome = .ok ⟨tiers, .live⟩)) := by
  obtain ⟨now, past, onward⟩ := forward_append forward
  have holds : Holds seconds before now (after seconds before) :=
    holds_after positive (.fresh seconds first) past
  cases onward with
  | next timely _ =>
    refine ⟨?_, fun expired => ⟨fun fails => ?_, fun answers => ?_⟩⟩
    · intro source tiers live same recent
      rw [fetched_cached holds timely.ordered live same recent]
      exact ⟨rfl, rfl⟩
    · have unavailable : (fetched seconds before call).outcome = .ok ⟨[], .unavailable⟩ := by
        rw [fetched_asks holds expired, request_failed _ (fails_iff.mp fails)]
      refine ⟨unavailable, fun later next finish run => ?_⟩
      exact unanswered_unseen positive run (by simp [unavailable])
    · rw [fails_iff, ← Ne, Option.ne_none_iff_exists'] at answers
      obtain ⟨value, answers⟩ := answers
      refine ⟨value, _, _, carries_of_value? answers, rowsOf_rows value,
        validated_tiersOf (rows value), ?_⟩
      rw [fetched_answered positive holds timely expired answers]

/-- The only row of this feed is no tier. -/
def emptyCall : Call :=
  ⟨"rates", .answered 200 "[7]".toList, secondsPastNoon 0, secondsPastNoon 1⟩

def lostCall : Call := ⟨"fees", .failed, secondsPastNoon 20, secondsPastNoon 30⟩

def lateCall : Call := ⟨"rates", .failed, secondsPastNoon 60, secondsPastNoon 60⟩

/-- A feed without tiers is not asked again for a minute, and another feed that fails meanwhile
makes no difference to it. -/
theorem no_tiers_kept_a_minute :
    (fetched 60 [emptyCall, lostCall] lateCall).outcome =
        .ok ⟨[], .cached (secondsPastNoon 1) (59 * secondLength)⟩ ∧
      (fetched 60 [emptyCall] lostCall).outcome = .ok ⟨[], .unavailable⟩ ∧
      (fetched 60 [emptyCall, lostCall] lateCall).outcome =
        (fetched 60 [emptyCall] lateCall).outcome := by
  have live : (fetched 60 [] emptyCall).outcome = .ok ⟨[], .live⟩ := by rfl
  have onlyLive : ∀ source tiers, LiveAt 60 [emptyCall] source tiers → source = emptyCall := by
    intro source tiers lives
    have either : LiveAt 60 ([] ++ [emptyCall]) source tiers := lives
    rcases liveAt_snoc.mp either with never | ⟨same, _⟩
    · exact absurd never not_liveAt_nil
    · exact same
  have run : Forward 60 (secondsPastNoon 0) ([emptyCall, lostCall] ++ [lateCall])
      (secondsPastNoon 60) :=
    .next ⟨by decide, by decide, by decide, by decide⟩ <|
      .next ⟨by decide, by decide, by decide, by decide⟩ <|
      .next ⟨by decide, by decide, by decide, by decide⟩ <| .done (by decide)
  have start : Forward 60 (secondsPastNoon 0) ([emptyCall] ++ [lostCall]) (secondsPastNoon 30) :=
    .next ⟨by decide, by decide, by decide, by decide⟩ <|
      .next ⟨by decide, by decide, by decide, by decide⟩ <| .done (by decide)
  obtain ⟨cached, _⟩ := served_from_cache_or_network (by decide) run
  obtain ⟨_, asks⟩ := served_from_cache_or_network (by decide) start
  have expired : ∀ source tiers, LiveAt 60 [emptyCall] source tiers → source.url = lostCall.url →
      source.expiresAt 60 ≤ lostCall.asked := by
    intro source tiers lives same
    rw [onlyLive source tiers lives] at same
    exact absurd same (by decide)
  obtain ⟨unavailable, unseen⟩ := (asks expired).1 .lost
  have again := (cached emptyCall [] ⟨[], [lostCall], rfl, live⟩ rfl (by decide)).1
  have age : lateCall.asked - emptyCall.answered = 59 * secondLength := by decide
  rw [age] at again
  exact ⟨again, unavailable, (unseen [] lateCall _ run).1⟩

end Curbside.Proofs.Serving

import Curbside.Cache.Clocked
import Curbside.Proofs.Attempt
import Curbside.Proofs.WallClock

/-! A cache is a map whose values run out. What a question finds follows from the commands before
it alone: it is the last value that was stored under the key since the cache was cleared, unless
its time has passed. Entries whose time has passed may be dropped early or late, and as long as
the clock never goes back nobody can tell. -/

namespace Curbside.Proofs.TimedMap
open Cache Wall WallClock Attempt

/-- A command and the reading of the clock at which it is carried out. -/
structure Event (α : Type) where
  now : Wall
  command : Command α

variable {α : Type}

namespace Event

def perform (event : Event α) (cache : Cache α) : Except Failure (Outcome α) × Cache α :=
  let result := (⟨cache, event.now⟩ : Clocked α).step event.command
  (result.1, result.2.cache)

def purges (event : Event α) : Bool :=
  match event.command with
  | .purge => true
  | _ => false

end Event

/-- The cache after events. -/
def after (cache : Cache α) : List (Event α) → Cache α
  | [] => cache
  | event :: rest => after (event.perform cache).2 rest

/-- What an outcome tells someone who asked for a key. -/
def answer? : Except Failure (Outcome α) → Option (Option (Entry α))
  | .ok (.found entry) => some entry
  | _ => none

/-- What the questions among events find, one after the other. -/
def answers (cache : Cache α) : List (Event α) → List (Option (Entry α))
  | [] => []
  | event :: rest =>
    let result := event.perform cache
    (answer? result.1).toList ++ answers result.2 rest

/-- A value as it was stored: when, and for how many seconds. -/
structure Deposit (α : Type) where
  value : α
  storedAt : Wall
  seconds : Int

namespace Deposit

def expiresAt (deposit : Deposit α) : Wall := deposit.storedAt + deposit.seconds * secondLength

def entry (deposit : Deposit α) : Entry α := ⟨deposit.value, deposit.storedAt, deposit.expiresAt⟩

end Deposit

/-- An event stores a value under a key for the seconds that it states, or else the usual ones.
Nothing is stored for no time at all, or for a time that ends beyond the calendar. -/
inductive Stores (usual : Int) (key : String) : Event α → Deposit α → Prop where
  | put {now : Wall} {value : α} {stated : Option Int}
      (lasting : 0 < stated.getD usual)
      (inside : inCalendar (now + stated.getD usual * secondLength) = true) :
      Stores usual key ⟨now, .put key value stated⟩ ⟨value, now, stated.getD usual⟩

/-- A deposit is the last one under a key since the cache was cleared. -/
def Latest (usual : Int) (key : String) (events : List (Event α)) (deposit : Deposit α) : Prop :=
  ∃ before event later, events = before ++ event :: later ∧ Stores usual key event deposit ∧
    ∀ next ∈ later, next.command ≠ .clear ∧ ∀ other, ¬ Stores usual key next other

section
variable {usual : Int} {key : String} {event : Event α} {events : List (Event α)}
  {deposit : Deposit α}

theorem not_latest_nil : ¬ Latest usual key ([] : List (Event α)) deposit := by
  intro ⟨before, event, later, same, _⟩
  simp at same

theorem latest_snoc : Latest usual key (events ++ [event]) deposit ↔
    Stores usual key event deposit ∨
      (event.command ≠ .clear ∧ ∀ other, ¬ Stores usual key event other) ∧
        Latest usual key events deposit := by
  constructor
  · intro ⟨before, source, later, split, stores, quiet⟩
    rcases List.eq_nil_or_concat later with rfl | ⟨rest, last, rfl⟩
    · obtain ⟨_, same⟩ := List.append_inj' split rfl
      cases same
      exact Or.inl stores
    · have split : events ++ [event] = (before ++ source :: rest) ++ [last] := by
        simpa using split
      obtain ⟨front, same⟩ := List.append_inj' split rfl
      cases same
      refine Or.inr ⟨quiet event (by simp), before, source, rest, front, stores, ?_⟩
      intro next member
      exact quiet next (by simp [member])
  · intro latest
    rcases latest with stores | ⟨silent, before, source, later, split, stores, quiet⟩
    · exact ⟨events, event, [], rfl, stores, by simp⟩
    · refine ⟨before, source, later ++ [event], by simp [split], stores, ?_⟩
      intro next member
      rcases List.mem_append.mp member with inside | last
      · exact quiet next inside
      · cases List.mem_singleton.mp last
        exact silent

end

section
variable {entries : List (String × Entry α)}

theorem lookup_filter (distinct : (entries.map Prod.fst).Nodup) (keeps : String × Entry α → Bool)
    (key : String) :
    (entries.filter keeps).lookup key =
      (entries.lookup key).filter fun entry => keeps (key, entry) := by
  induction entries with
  | nil => rfl
  | cons first rest ih =>
    obtain ⟨own, entry⟩ := first
    obtain ⟨new, others⟩ := List.nodup_cons.mp distinct
    by_cases same : key = own
    · subst same
      have absent : rest.lookup key = none := by
        rw [List.lookup_eq_none_iff]
        intro other member
        have differs : key ≠ other.1 := fun found => new (List.mem_map.mpr ⟨other, member, found.symm⟩)
        simpa using differs
      cases kept : keeps (key, entry) with
      | true => simp [kept, Option.filter_some]
      | false => simp [kept, ih others, absent, Option.filter_some]
    · have passed : (key == own) = false := by simpa using same
      cases kept : keeps (own, entry) with
      | true => simp [kept, List.lookup_cons, passed, ih others]
      | false => simp [kept, List.lookup_cons, passed, ih others]

theorem distinct_filter (distinct : (entries.map Prod.fst).Nodup)
    (keeps : String × Entry α → Bool) : ((entries.filter keeps).map Prod.fst).Nodup :=
  distinct.sublist (List.filter_sublist.map _)

theorem lookup_without (distinct : (entries.map Prod.fst).Nodup) (dropped key : String) :
    (without entries dropped).lookup key = if key = dropped then none else entries.lookup key := by
  rw [without, lookup_filter distinct]
  split
  next same => simp [same]
  next differs =>
    have kept : (key != dropped) = true := by simpa using differs
    cases entries.lookup key <;> simp [kept, Option.filter_some]

theorem not_mem_without (key : String) : key ∉ (without entries key).map Prod.fst := by
  simp [without]

end

/-- A failure to hold a time: it ends beyond the calendar, or is too long for a span. -/
def Overflow : Failure → Prop
  | .outsideCalendar | .spanTooLong _ => True
  | _ => False

section
variable {cache : Cache α} {key : String} {value : α} {stated : Option Int} {now : Wall}

theorem put_nothing (key : String) (value : α) (now : Wall)
    (timeless : ¬ 0 < stated.getD cache.defaultSeconds) :
    cache.put key value stated now = .ok cache := by
  simp [Cache.put, Int.not_lt.mp timeless, pure, Except.pure]

theorem ofSeconds_eq (seconds : Int) :
    Span.ofSeconds (.whole seconds) = Span.checked (seconds * secondLength) := by
  have total : Span.ofSeconds (.whole seconds) = Span.checked (seconds * secondLength + 0) := rfl
  rw [total, Int.add_zero]

theorem put_eq (lasting : 0 < stated.getD cache.defaultSeconds) :
    cache.put key value stated now =
      (Span.checked (stated.getD cache.defaultSeconds * secondLength) >>= fun span =>
        checked (now + span) >>= fun expiresAt =>
          .ok { cache with
            entries := (key, ⟨value, now, expiresAt⟩) :: without cache.entries key }) := by
  simp only [Cache.put, Int.not_le.mpr lasting, if_false, ofSeconds_eq]
  rfl

/-- What ends in the calendar after a reading of the calendar is no span too long. -/
theorem checked_of_inCalendar {span : Span} (inside : inCalendar now = true)
    (ends : inCalendar (now + span) = true) : Span.checked span = .ok span := by
  have held : -Span.mostDays ≤ Int.fdiv span dayLength ∧ Int.fdiv span dayLength ≤ Span.mostDays := by
    rw [Int.fdiv_eq_ediv_of_nonneg _ (by decide)]
    simp only [inCalendar, Bool.and_eq_true, decide_eq_true_eq] at inside ends
    simp only [Span.mostDays, dayCount, dayLength_eq, Wall, Span] at *
    omega
  simp [Span.checked, held]

theorem put_stores (key : String) (value : α) (lasting : 0 < stated.getD cache.defaultSeconds)
    (inside : inCalendar now = true)
    (ends : inCalendar (now + stated.getD cache.defaultSeconds * secondLength) = true) :
    cache.put key value stated now =
      .ok { cache with
        entries := (key, (⟨value, now, stated.getD cache.defaultSeconds⟩ : Deposit α).entry) ::
          without cache.entries key } := by
  rw [put_eq lasting]
  refine bind_ok_iff.mpr ⟨_, checked_of_inCalendar inside ends, bind_ok_iff.mpr ⟨_, ?_, rfl⟩⟩
  simp [checked, ends, Deposit.expiresAt]

theorem put_fails (key : String) (value : α) (lasting : 0 < stated.getD cache.defaultSeconds)
    (ends : inCalendar (now + stated.getD cache.defaultSeconds * secondLength) = false) :
    ∃ failure, cache.put key value stated now = .error failure ∧ Overflow failure := by
  rw [put_eq lasting]
  unfold Span.checked
  dsimp only
  split
  · refine ⟨.outsideCalendar, ?_, trivial⟩
    simp [bind, Except.bind, checked, ends]
  · exact ⟨_, rfl, trivial⟩

end

/-- A cache later than another without anything stored or cleared in between: each entry is
still there, or it has expired. -/
structure Sheds (now : Wall) (before later : Cache α) : Prop where
  seconds : later.defaultSeconds = before.defaultSeconds
  distinct : (later.entries.map Prod.fst).Nodup
  entries : ∀ key, later.entries.lookup key = before.entries.lookup key ∨
    later.entries.lookup key = none ∧
      ∃ entry, before.entries.lookup key = some entry ∧ entry.expiresAt ≤ now

section
variable {cache : Cache α} (distinct : (cache.entries.map Prod.fst).Nodup)
include distinct

theorem sheds_refl (now : Wall) : Sheds now cache cache := ⟨rfl, distinct, fun _ => Or.inl rfl⟩

theorem find_sheds (key : String) (now : Wall) : Sheds now cache (cache.find key now).2 := by
  unfold Cache.find
  split
  · exact ⟨rfl, distinct, fun _ => Or.inl rfl⟩
  next entry held =>
    split
    next stale =>
      refine ⟨rfl, distinct_filter distinct _, ?_⟩
      intro other
      simp only [lookup_without distinct]
      split
      next same =>
        subst same
        exact Or.inr ⟨rfl, entry, held, by simpa [Entry.isStale] using stale⟩
      next => exact Or.inl rfl
    next => exact ⟨rfl, distinct, fun _ => Or.inl rfl⟩

theorem purge_sheds (now : Wall) : Sheds now cache (cache.purge now).2 := by
  refine ⟨rfl, distinct_filter distinct _, ?_⟩
  intro key
  simp only [Cache.purge, lookup_filter distinct]
  cases held : cache.entries.lookup key with
  | none => exact Or.inl rfl
  | some entry =>
    cases stale : entry.isStale now with
    | true => exact Or.inr ⟨by simp [stale, Option.filter_some], entry, rfl,
        by simpa [Entry.isStale] using stale⟩
    | false => exact Or.inl (by simp [stale, Option.filter_some])

end

theorem isStale_eq_false (entry : Entry α) (now : Wall) :
    entry.isStale now = false ↔ now < entry.expiresAt := by
  rw [Entry.isStale, decide_eq_false_iff_not, Int.not_le]

/-- What the entries of a cache have to do with the events before: they are the latest deposits,
and a deposit is missing only if its time has passed. -/
structure Tracks (usual : Int) (events : List (Event α)) (now : Wall) (cache : Cache α) : Prop where
  seconds : cache.defaultSeconds = usual
  distinct : (cache.entries.map Prod.fst).Nodup
  kept : ∀ key entry, cache.entries.lookup key = some entry →
    ∃ deposit, Latest usual key events deposit ∧ deposit.entry = entry
  missing : ∀ key deposit, Latest usual key events deposit →
    cache.entries.lookup key = some deposit.entry ∨ deposit.expiresAt ≤ now

namespace Tracks
variable {usual : Int} {events : List (Event α)} {last : Wall} {cache : Cache α}

theorem fresh (usual : Int) (now : Wall) : Tracks usual [] now (Cache.fresh (α := α) usual) :=
  ⟨rfl, List.nodup_nil, nofun, fun _ _ latest => absurd latest not_latest_nil⟩

theorem shed (tracks : Tracks usual events last cache) {event : Event α}
    (ordered : last ≤ event.now) (open_ : event.command ≠ .clear)
    (silent : ∀ key other, ¬ Stores usual key event other) {later : Cache α}
    (sheds : Sheds event.now cache later) : Tracks usual (events ++ [event]) event.now later := by
  have same : ∀ key deposit,
      Latest usual key (events ++ [event]) deposit ↔ Latest usual key events deposit := by
    intro key deposit
    simp [latest_snoc, silent, open_]
  refine ⟨sheds.seconds.trans tracks.seconds, sheds.distinct, ?_, ?_⟩
  · intro key entry held
    simp only [same]
    rcases sheds.entries key with stays | ⟨gone, _⟩
    · exact tracks.kept key entry (stays.symm.trans held)
    · rw [gone] at held
      cases held
  · intro key deposit latest
    rcases tracks.missing key deposit ((same key deposit).mp latest) with held | passed
    · rcases sheds.entries key with stays | ⟨_, entry, dropped, stale⟩
      · exact Or.inl (stays.trans held)
      · rw [held] at dropped
        cases dropped
        exact Or.inr stale
    · exact Or.inr (Int.le_trans passed ordered)

theorem clear (tracks : Tracks usual events last cache) (now : Wall) :
    Tracks usual (events ++ [⟨now, .clear⟩]) now cache.clear := by
  refine ⟨tracks.seconds, List.nodup_nil, nofun, ?_⟩
  intro key deposit latest
  rcases latest_snoc.mp latest with stores | ⟨⟨open_, _⟩, _⟩
  · cases stores
  · exact absurd rfl open_

theorem put (tracks : Tracks usual events last cache) {key : String} {value : α}
    {stated : Option Int} {now : Wall} (ordered : last ≤ now) (lasting : 0 < stated.getD usual)
    (ends : inCalendar (now + stated.getD usual * secondLength) = true) :
    Tracks usual (events ++ [⟨now, .put key value stated⟩]) now
      { cache with
        entries := (key, (⟨value, now, stated.getD usual⟩ : Deposit α).entry) ::
          without cache.entries key } := by
  have stores : Stores usual key ⟨now, .put key value stated⟩ ⟨value, now, stated.getD usual⟩ :=
    .put lasting ends
  refine ⟨tracks.seconds, ?_, ?_, ?_⟩
  · exact List.nodup_cons.mpr ⟨not_mem_without key, distinct_filter tracks.distinct _⟩
  · intro other entry held
    by_cases same : other = key
    · subst same
      simp only [List.lookup_cons_self] at held
      exact ⟨_, latest_snoc.mpr (Or.inl stores), Option.some.inj held⟩
    · have passed : (other == key) = false := by simpa using same
      simp only [List.lookup_cons, passed, lookup_without tracks.distinct, if_neg same] at held
      obtain ⟨deposit, latest, built⟩ := tracks.kept other entry held
      refine ⟨deposit, latest_snoc.mpr (Or.inr ⟨⟨nofun, ?_⟩, latest⟩), built⟩
      intro deposit stored
      cases stored
      exact same rfl
  · intro other deposit latest
    by_cases same : other = key
    · subst same
      rcases latest_snoc.mp latest with stored | ⟨⟨_, silent⟩, _⟩
      · cases stored
        exact Or.inl List.lookup_cons_self
      · exact absurd stores (silent _)
    · have passed : (other == key) = false := by simpa using same
      simp only [List.lookup_cons, passed, lookup_without tracks.distinct, if_neg same]
      rcases latest_snoc.mp latest with stored | ⟨_, latest⟩
      · cases stored
        exact absurd rfl same
      · rcases tracks.missing other deposit latest with held | passed
        · exact Or.inl held
        · exact Or.inr (Int.le_trans passed ordered)

/-- Every command keeps the entries in step with the events. -/
theorem perform (tracks : Tracks usual events last cache) {event : Event α}
    (ordered : last ≤ event.now) (inside : inCalendar event.now = true) :
    Tracks usual (events ++ [event]) event.now (event.perform cache).2 := by
  obtain ⟨now, command⟩ := event
  cases command with
  | put key value stated =>
    have seconds := tracks.seconds
    subst seconds
    by_cases lasting : 0 < stated.getD cache.defaultSeconds
    · cases ends : inCalendar (now + stated.getD cache.defaultSeconds * secondLength) with
      | true =>
        have stored := put_stores key value lasting inside ends
        simp only [Event.perform, Clocked.step, Clocked.perform, stored, Except.map]
        exact tracks.put ordered lasting ends
      | false =>
        obtain ⟨failure, failed, _⟩ := put_fails key value lasting ends
        simp only [Event.perform, Clocked.step, Clocked.perform, failed, Except.map]
        refine tracks.shed ordered nofun ?_ (sheds_refl tracks.distinct now)
        intro other deposit stored
        cases stored with
        | put _ reaches =>
          rw [ends] at reaches
          cases reaches
    · have idle := put_nothing key value now lasting
      simp only [Event.perform, Clocked.step, Clocked.perform, idle, Except.map]
      refine tracks.shed ordered nofun ?_ (sheds_refl tracks.distinct now)
      intro other deposit stored
      cases stored with
      | put positive _ => exact lasting positive
  | find key => exact tracks.shed ordered nofun (fun _ _ => nofun) (find_sheds tracks.distinct key now)
  | purge => exact tracks.shed ordered nofun (fun _ _ => nofun) (purge_sheds tracks.distinct now)
  | clear => exact tracks.clear now
  | advance seconds =>
    refine tracks.shed ordered nofun (fun _ _ => nofun) ?_
    have same : ((⟨now, .advance seconds⟩ : Event α).perform cache).2 = cache := by
      simp only [Event.perform, Clocked.step, Clocked.perform, Clocked.advance]
      cases Span.ofSeconds seconds with
      | error failure => rfl
      | ok span =>
        simp only [bind, Except.bind]
        cases checked (now + span) <;> rfl
    rw [same]
    exact sheds_refl tracks.distinct now

theorem later (tracks : Tracks usual events last cache) {now : Wall} (ordered : last ≤ now) :
    Tracks usual events now cache := by
  refine ⟨tracks.seconds, tracks.distinct, tracks.kept, ?_⟩
  intro key deposit latest
  rcases tracks.missing key deposit latest with held | passed
  · exact Or.inl held
  · exact Or.inr (Int.le_trans passed ordered)

theorem find_iff (tracks : Tracks usual events last cache) (key : String) (entry : Entry α) :
    (cache.find key last).1 = some entry ↔
      ∃ deposit, Latest usual key events deposit ∧ last < deposit.expiresAt ∧
        deposit.entry = entry := by
  unfold Cache.find
  constructor
  · intro found
    split at found
    · cases found
    next other held =>
      split at found
      · cases found
      next alive =>
        cases found
        obtain ⟨deposit, latest, rfl⟩ := tracks.kept key entry held
        rw [Bool.not_eq_true, isStale_eq_false] at alive
        exact ⟨deposit, latest, alive, rfl⟩
  · intro ⟨deposit, latest, alive, built⟩
    subst built
    rcases tracks.missing key deposit latest with held | passed
    · have fresh := (isStale_eq_false deposit.entry last).mpr alive
      simp [held, fresh]
    · exact absurd alive (Int.not_lt.mpr passed)

end Tracks

/-- A clock that never goes back shows a first reading, then those of the events, and in the end
a last one. It stays in the calendar while anything happens. -/
inductive Forward : Wall → List (Event α) → Wall → Prop where
  | done {first last : Wall} (ordered : first ≤ last) : Forward first [] last
  | next {first last : Wall} {event : Event α} {rest : List (Event α)}
      (ordered : first ≤ event.now) (inside : inCalendar event.now = true)
      (onward : Forward event.now rest last) : Forward first (event :: rest) last

theorem tracks_after {usual : Int} {past events : List (Event α)} {first last : Wall}
    {cache : Cache α} (tracks : Tracks usual past first cache)
    (forward : Forward first events last) :
    Tracks usual (past ++ events) last (after cache events) := by
  induction forward generalizing past cache with
  | done ordered => simpa [after] using tracks.later ordered
  | next ordered inside _ ih => simpa [after] using ih (tracks.perform ordered inside)

theorem answer?_perform (event : Event α) (cache : Cache α) :
    answer? (event.perform cache).1 =
      match event.command with
      | .find key => some (cache.find key event.now).1
      | _ => none := by
  obtain ⟨now, command⟩ := event
  cases command with
  | put key value stated =>
    simp only [Event.perform, Clocked.step, Clocked.perform]
    cases cache.put key value stated now <;> rfl
  | find key => rfl
  | purge => rfl
  | clear => rfl
  | advance seconds =>
    simp only [Event.perform, Clocked.step, Clocked.perform]
    cases (⟨cache, now⟩ : Clocked α).advance seconds <;> rfl

/-- Two caches with the same latest deposits answer alike, whether or not expired entries are
purged from one of them on the way. -/
theorem answers_agree {usual : Int} {past others events : List (Event α)} {first last : Wall}
    {one two : Cache α}
    (same : ∀ key deposit, Latest usual key past deposit ↔ Latest usual key others deposit)
    (tracks : Tracks usual past first one) (tracksOthers : Tracks usual others first two)
    (forward : Forward first events last) :
    answers one events = answers two (events.filter fun event => !event.purges) := by
  -- A purge moves one of the caches on alone, so that the two are told apart in the induction.
  induction forward generalizing past others one two with
  | done _ => rfl
  | @next first last event rest ordered inside onward ih =>
    have progress := tracks.perform ordered inside
    cases purging : event.purges with
    | true =>
      have silent : event.command = .purge := by
        unfold Event.purges at purging
        split at purging
        · assumption
        · cases purging
      have unasked : answer? (event.perform one).1 = none := by rw [answer?_perform, silent]
      have still : ∀ key deposit,
          Latest usual key (past ++ [event]) deposit ↔ Latest usual key others deposit := by
        intro key deposit
        have stores : ∀ other, ¬ Stores usual key event other := by
          intro other stored
          cases stored
          cases silent
        simp [latest_snoc, silent, stores, same]
      simp only [answers, unasked, Option.toList_none, List.nil_append, purging, Bool.not_true,
        Bool.false_eq_true, not_false_eq_true, List.filter_cons_of_neg]
      exact ih still progress (tracksOthers.later ordered)
    | false =>
      have alike : answer? (event.perform one).1 = answer? (event.perform two).1 := by
        simp only [answer?_perform]
        split
        next key _ =>
          congr 1
          apply Option.ext
          intro entry
          rw [(tracks.later ordered).find_iff, (tracksOthers.later ordered).find_iff]
          simp only [same]
        next => rfl
      have still : ∀ key deposit, Latest usual key (past ++ [event]) deposit ↔
          Latest usual key (others ++ [event]) deposit := by
        intro key deposit
        simp only [latest_snoc, same]
      simp only [answers, alike, purging, Bool.not_false, List.filter_cons_of_pos]
      rw [ih still progress (tracksOthers.perform ordered inside)]

theorem put_failure {cache : Cache α} {key : String} {value : α} {stated : Option Int} {now : Wall}
    {failure : Failure} (inside : inCalendar now = true)
    (failed : cache.put key value stated now = .error failure) :
    0 < stated.getD cache.defaultSeconds ∧
      inCalendar (now + stated.getD cache.defaultSeconds * secondLength) = false ∧
      Overflow failure := by
  by_cases lasting : 0 < stated.getD cache.defaultSeconds
  · cases ends : inCalendar (now + stated.getD cache.defaultSeconds * secondLength) with
    | true =>
      rw [put_stores key value lasting inside ends] at failed
      cases failed
    | false =>
      obtain ⟨overflow, same, known⟩ := put_fails key value lasting ends
      cases failed.symm.trans same
      exact ⟨lasting, rfl, known⟩
  · rw [put_nothing key value now lasting] at failed
    cases failed

theorem perform_put (cache : Cache α) (key : String) (value : α) (stated : Option Int) (now : Wall) :
    (⟨now, .put key value stated⟩ : Event α).perform cache =
      match cache.put key value stated now with
      | .ok later => (.ok .done, later)
      | .error failure => (.error failure, cache) := by
  simp only [Event.perform, Clocked.step, Clocked.perform]
  cases cache.put key value stated now <;> rfl

/-- A cache that was empty at first is a timed map. A question finds the latest deposit under its
key as long as its time lasts, with its age, and nothing otherwise. Purging makes no difference to
any answer. A put fails exactly for a time that ends beyond the calendar, and it then changes
nothing. -/
theorem cache_is_timed_map (usual : Int) {first last : Wall} {events : List (Event α)}
    (forward : Forward first events last) :
    (∀ key entry, ((after (fresh usual) events).find key last).1 = some entry ↔
      ∃ deposit, Latest usual key events deposit ∧ last < deposit.expiresAt ∧
        entry = ⟨deposit.value, deposit.storedAt, deposit.expiresAt⟩ ∧
        entry.age last = last - deposit.storedAt) ∧
    (∀ others : List (Event α), Forward first others last →
      (others.filter fun event => !event.purges) = (events.filter fun event => !event.purges) →
      answers (fresh usual) others = answers (fresh usual) events) ∧
    ∀ (cache : Cache α) (put : Event α) key value stated, put.command = .put key value stated →
      inCalendar put.now = true →
      ((∃ failure, (put.perform cache).1 = .error failure) ↔
        0 < stated.getD cache.defaultSeconds ∧
          inCalendar (put.now + stated.getD cache.defaultSeconds * secondLength) = false) ∧
      ∀ failure, (put.perform cache).1 = .error failure →
        Overflow failure ∧ (put.perform cache).2 = cache := by
  have empty : Tracks usual [] first (fresh (α := α) usual) := .fresh usual first
  refine ⟨?_, ?_, ?_⟩
  · intro key entry
    have tracks : Tracks usual events last (after (fresh usual) events) := tracks_after empty forward
    rw [tracks.find_iff]
    constructor
    · intro ⟨deposit, latest, alive, built⟩
      subst built
      exact ⟨deposit, latest, alive, rfl, rfl⟩
    · intro ⟨deposit, latest, alive, built, _⟩
      exact ⟨deposit, latest, alive, built.symm⟩
  · intro others forwardOthers same
    rw [answers_agree (fun _ _ => Iff.rfl) empty empty forwardOthers, same,
      ← answers_agree (fun _ _ => Iff.rfl) empty empty forward]
  · intro cache ⟨now, command⟩ key value stated same inside
    cases same
    rw [perform_put]
    cases carried : cache.put key value stated now with
    | ok later =>
      refine ⟨⟨nofun, fun ⟨lasting, ends⟩ => ?_⟩, nofun⟩
      obtain ⟨failure, failed, _⟩ := put_fails key value lasting ends
      rw [carried] at failed
      cases failed
    | error failure =>
      obtain ⟨lasting, ends, known⟩ := put_failure inside carried
      refine ⟨⟨fun _ => ⟨lasting, ends⟩, fun _ => ⟨failure, rfl⟩⟩, ?_⟩
      intro other reported
      cases reported
      exact ⟨known, rfl⟩

/-- So many seconds after the first noon of the second week. -/
def secondsPastNoon (count : Int) : Wall := atMinute 7 Minute.noon + count * secondLength

def busyMinute : List (Event Nat) :=
  [⟨secondsPastNoon 0, .put "rates" 1 none⟩, ⟨secondsPastNoon 20, .put "rates" 2 (some 0)⟩,
    ⟨secondsPastNoon 30, .put "fees" 3 (some 10)⟩, ⟨secondsPastNoon 45, .purge⟩,
    ⟨secondsPastNoon 50, .find "fees"⟩]

/-- A value is found until its minute is over, although others came and went. -/
theorem rates_last_a_minute : Forward (secondsPastNoon 0) busyMinute (secondsPastNoon 59) ∧
    ((after (fresh 60) busyMinute).find "rates" (secondsPastNoon 59)).1 =
      some ⟨1, secondsPastNoon 0, secondsPastNoon 60⟩ ∧
    answers (fresh 60) (busyMinute.filter fun event => !event.purges) =
      answers (fresh 60) busyMinute := by
  have forward : Forward (secondsPastNoon 0) busyMinute (secondsPastNoon 59) :=
    .next (by decide) (by decide) <| .next (by decide) (by decide) <|
      .next (by decide) (by decide) <| .next (by decide) (by decide) <|
      .next (by decide) (by decide) <| .done (by decide)
  have unpurged : Forward (secondsPastNoon 0) (busyMinute.filter fun event => !event.purges)
      (secondsPastNoon 59) :=
    .next (by decide) (by decide) <| .next (by decide) (by decide) <|
      .next (by decide) (by decide) <| .next (by decide) (by decide) <| .done (by decide)
  obtain ⟨found, same, _⟩ := cache_is_timed_map 60 forward
  have latest : Latest 60 "rates" busyMinute ⟨1, secondsPastNoon 0, 60⟩ := by
    refine ⟨[], _, _, rfl, .put (by decide) (by decide), ?_⟩
    intro next member
    simp only [List.mem_cons, List.not_mem_nil, or_false] at member
    rcases member with rfl | rfl | rfl | rfl
    · refine ⟨nofun, fun other stored => ?_⟩
      -- A put for no time stores nothing.
      cases stored with
      | put lasting _ => exact absurd lasting (by decide)
    · refine ⟨nofun, fun other stored => ?_⟩
      generalize kept : "fees" = key at stored
      cases stored
      exact absurd kept (by decide)
    · exact ⟨nofun, fun _ => nofun⟩
    · exact ⟨nofun, fun _ => nofun⟩
  exact ⟨forward, (found _ _).mpr ⟨_, latest, by decide, rfl, rfl⟩, same _ unpurged rfl⟩

end Curbside.Proofs.TimedMap

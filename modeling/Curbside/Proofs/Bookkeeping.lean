import Curbside.Proofs.TimedMap
import Mathlib.Data.List.Basic

/-! The books of a cache balance. Whatever was stored is still there, or it has expired, was replaced
or was cleared away, and it is counted for one of these only. The readings of the clock do not matter:
they may go back, and an entry may be replaced before anybody notices that its time has passed. -/

namespace Curbside.Proofs.Bookkeeping
open Cache TimedMap Attempt

variable {α : Type}

/-- The key under which an event stores a value. A put for no time at all stores nothing, nor does
one that fails. -/
def storedKey? (cache : Cache α) (event : Event α) : Option String :=
  match event.command with
  | .put key _ stated =>
    if 0 < stated.getD cache.defaultSeconds ∧ (event.perform cache).1.isOk then some key else none
  | _ => none

def asks (event : Event α) : Bool :=
  match event.command with
  | .find _ => true
  | _ => false

/-! What an event adds to the books, given the cache before it. -/

def stored (cache : Cache α) (event : Event α) : Nat :=
  if (storedKey? cache event).isSome then 1 else 0

/-- A value is stored under a key that has an entry, expired or not. -/
def replaced (cache : Cache α) (event : Event α) : Nat :=
  if (storedKey? cache event).any fun key => (cache.entries.lookup key).isSome then 1 else 0

def cleared (cache : Cache α) (event : Event α) : Nat :=
  match event.command with
  | .clear => cache.entries.length
  | _ => 0

def total (count : Cache α → Event α → Nat) (cache : Cache α) : List (Event α) → Nat
  | [] => 0
  | event :: rest => count cache event + total count (event.perform cache).2 rest

/-- All that an event can do to a cache. -/
inductive Happens (cache : Cache α) (event : Event α) :
    Except Failure (Outcome α) → Cache α → Prop where
  | nothing {outcome : Except Failure (Outcome α)} (purges : event.command ≠ .purge)
      (clears : event.command ≠ .clear) (asks : ∀ key, event.command ≠ .find key)
      (stores : storedKey? cache event = none) : Happens cache event outcome cache
  | stores {outcome : Except Failure (Outcome α)} {key : String} {value : α} {stated : Option Int}
      {entry : Entry α} (command : event.command = .put key value stated)
      (stored : storedKey? cache event = some key) :
      Happens cache event outcome
        { cache with entries := (key, entry) :: without cache.entries key }
  | hits {key : String} {entry : Entry α} (command : event.command = .find key) :
      Happens cache event (.ok (.found (some entry))) { cache with hits := cache.hits + 1 }
  | misses {key : String} (command : event.command = .find key) :
      Happens cache event (.ok (.found none)) { cache with misses := cache.misses + 1 }
  | expires {key : String} {entry : Entry α} (command : event.command = .find key)
      (held : cache.entries.lookup key = some entry) :
      Happens cache event (.ok (.found none))
        { cache with
          entries := without cache.entries key
          misses := cache.misses + 1
          expirations := cache.expirations + 1 }
  | purges (command : event.command = .purge) :
      Happens cache event (.ok (.purged (cache.purge event.now).1)) (cache.purge event.now).2
  | clears (command : event.command = .clear) : Happens cache event (.ok .done) cache.clear

theorem put_cases {cache later : Cache α} {key : String} {value : α} {stated : Option Int}
    {now : Wall} (kept : cache.put key value stated now = .ok later) :
    ¬ 0 < stated.getD cache.defaultSeconds ∧ later = cache ∨
      0 < stated.getD cache.defaultSeconds ∧ ∃ entry : Entry α,
        later = { cache with entries := (key, entry) :: without cache.entries key } := by
  by_cases lasting : 0 < stated.getD cache.defaultSeconds
  · rw [put_eq lasting] at kept
    obtain ⟨span, _, kept⟩ := bind_ok_iff.mp kept
    obtain ⟨expiresAt, _, same⟩ := bind_ok_iff.mp kept
    cases same
    exact Or.inr ⟨lasting, _, rfl⟩
  · rw [put_nothing key value now lasting] at kept
    cases kept
    exact Or.inl ⟨lasting, rfl⟩

theorem perform_happens (event : Event α) (cache : Cache α) :
    Happens cache event (event.perform cache).1 (event.perform cache).2 := by
  obtain ⟨now, command⟩ := event
  cases command with
  | put key value stated =>
    have key? : storedKey? cache ⟨now, .put key value stated⟩ =
        if 0 < stated.getD cache.defaultSeconds ∧
            ((⟨now, .put key value stated⟩ : Event α).perform cache).1.isOk then some key
        else none := rfl
    rw [perform_put] at key? ⊢
    cases kept : cache.put key value stated now with
    | error failure =>
      rw [kept] at key?
      refine .nothing (by simp) (by simp) (by simp) (key?.trans (if_neg ?_))
      exact fun both => Bool.false_ne_true both.2
    | ok later =>
      rw [kept] at key?
      rcases put_cases kept with ⟨timeless, same⟩ | ⟨lasting, entry, same⟩
      · subst same
        refine .nothing (by simp) (by simp) (by simp) (key?.trans (if_neg ?_))
        exact fun both => timeless both.1
      · subst same
        exact .stores rfl (key?.trans (if_pos ⟨lasting, rfl⟩))
  | find key =>
    change Happens cache _ (.ok (.found (cache.find key now).1)) (cache.find key now).2
    unfold Cache.find
    split
    · exact .misses rfl
    next entry held =>
      split
      · exact .expires rfl held
      · exact .hits rfl
  | purge => exact .purges rfl
  | clear => exact .clears rfl
  | advance seconds =>
    have still : ((⟨now, .advance seconds⟩ : Event α).perform cache).2 = cache := by
      simp only [Event.perform, Clocked.step, Clocked.perform, Clocked.advance]
      cases Span.ofSeconds seconds with
      | error failure => rfl
      | ok span =>
        simp only [bind, Except.bind]
        cases Wall.checked (now + span) <;> rfl
    rw [still]
    exact .nothing (by simp) (by simp) (by simp) rfl

section
variable {entries : List (String × Entry α)}

theorem length_without (distinct : (entries.map Prod.fst).Nodup) (key : String) :
    (without entries key).length + (if (entries.lookup key).isSome then 1 else 0) =
      entries.length := by
  induction entries with
  | nil => rfl
  | cons first rest ih =>
    obtain ⟨own, entry⟩ := first
    obtain ⟨new, others⟩ := List.nodup_cons.mp distinct
    have below := ih others
    by_cases same : key = own
    · subst same
      have absent : rest.lookup key = none := by
        rw [List.lookup_eq_none_iff]
        intro other member
        have differs : key ≠ other.1 :=
          fun found => new (List.mem_map.mpr ⟨other, member, found.symm⟩)
        simpa using differs
      have dropped : without ((key, entry) :: rest) key = without rest key := by simp [without]
      rw [absent] at below
      rw [dropped, List.lookup_cons_self, List.length_cons, ← below]
      rfl
    · have passed : (key == own) = false := by simpa using same
      have stays : without ((own, entry) :: rest) key = (own, entry) :: without rest key := by
        simp [without, Ne.symm same]
      have same : ((own, entry) :: rest).lookup key = rest.lookup key := by
        rw [List.lookup_cons, passed]
      rw [stays, same, List.length_cons, List.length_cons, ← below]
      omega

theorem length_purged (cache : Cache α) (now : Wall) :
    (cache.purge now).2.entries.length + (cache.purge now).1 = cache.entries.length := by
  have split := List.length_eq_length_filter_add (l := cache.entries)
    fun row : String × Entry α => row.2.isStale now
  rw [split, ← List.countP_eq_length_filter, Nat.add_comm]
  rfl

end

theorem Happens.balances {cache later : Cache α} {event : Event α}
    {outcome : Except Failure (Outcome α)} (happens : Happens cache event outcome later)
    (distinct : (cache.entries.map Prod.fst).Nodup) :
    (later.entries.map Prod.fst).Nodup ∧
      later.entries.length + later.expirations + replaced cache event + cleared cache event =
        cache.entries.length + cache.expirations + stored cache event := by
  cases happens with
  | nothing purges clears asks stores =>
    have kept : cleared cache event = 0 := by
      unfold cleared
      split
      · exact absurd ‹_› clears
      · rfl
    simp [stored, replaced, stores, kept, distinct]
  | @stores _ key value stated entry command kept =>
    have length := length_without distinct key
    refine ⟨List.nodup_cons.mpr ⟨not_mem_without key, distinct_filter distinct _⟩, ?_⟩
    simp only [stored, replaced, cleared, kept, command, Option.isSome_some, Option.any_some,
      if_true, List.length_cons]
    omega
  | hits command => simp [stored, replaced, cleared, storedKey?, command, distinct]
  | misses command => simp [stored, replaced, cleared, storedKey?, command, distinct]
  | @expires key entry command held =>
    have length := length_without distinct key
    refine ⟨distinct_filter distinct _, ?_⟩
    simp only [held, Option.isSome_some, if_true] at length
    simp only [stored, replaced, cleared, storedKey?, command, Option.isSome_none, Option.any_none,
      Bool.false_eq_true, if_false]
    omega
  | purges command =>
    have length := length_purged cache event.now
    have counted : (cache.purge event.now).2.expirations =
        cache.expirations + (cache.purge event.now).1 := rfl
    refine ⟨distinct_filter distinct _, ?_⟩
    simp only [stored, replaced, cleared, storedKey?, command, Option.isSome_none, Option.any_none,
      Bool.false_eq_true, if_false]
    omega
  | clears command =>
    simp [stored, replaced, cleared, storedKey?, command, Cache.clear, Nat.add_comm]

theorem Happens.answers {cache later : Cache α} {event : Event α}
    {outcome : Except Failure (Outcome α)} (happens : Happens cache event outcome later) :
    later.hits + later.misses = cache.hits + cache.misses + if asks event then 1 else 0 := by
  cases happens with
  | nothing _ _ silent _ =>
    have unasked : asks event = false := by
      unfold asks
      split
      next key same => exact absurd same (silent key)
      · rfl
    rw [unasked]
    rfl
  | stores command _ | purges command | clears command =>
    simp only [asks, command]
    rfl
  | hits command | misses command | expires command _ =>
    simp only [asks, command, if_true]
    omega

/-- How many expirations a command counts, by its outcome: a purge those that it reports, and a
question at most the one that it notices. -/
inductive Counts : Command α → Except Failure (Outcome α) → Nat → Prop where
  | purge (count : Nat) : Counts .purge (.ok (.purged count)) count
  | find (key : String) (entry : Option (Entry α)) {count : Nat} (most : count ≤ 1) :
      Counts (.find key) (.ok (.found entry)) count
  | other {command : Command α} {outcome : Except Failure (Outcome α)}
      (purges : command ≠ .purge) (asks : ∀ key, command ≠ .find key) : Counts command outcome 0

theorem Happens.counts {cache later : Cache α} {event : Event α}
    {outcome : Except Failure (Outcome α)} (happens : Happens cache event outcome later) :
    ∃ count, Counts event.command outcome count ∧
      later.expirations = cache.expirations + count := by
  cases happens with
  | nothing purges _ asks _ => exact ⟨0, .other purges asks, rfl⟩
  | stores command _ | clears command =>
    rw [command]
    exact ⟨0, .other nofun (fun _ => nofun), rfl⟩
  | hits command | misses command =>
    rw [command]
    exact ⟨0, .find _ _ (by omega), rfl⟩
  | expires command _ =>
    rw [command]
    exact ⟨1, .find _ _ (by omega), rfl⟩
  | purges command =>
    rw [command]
    exact ⟨_, .purge _, rfl⟩

/-- A later state of a cache has counted no less. -/
structure Onward (before later : Cache α) : Prop where
  hits : before.hits ≤ later.hits
  misses : before.misses ≤ later.misses
  expirations : before.expirations ≤ later.expirations

theorem Onward.trans {one two three : Cache α} (first : Onward one two) (second : Onward two three) :
    Onward one three :=
  ⟨Nat.le_trans first.hits second.hits, Nat.le_trans first.misses second.misses,
    Nat.le_trans first.expirations second.expirations⟩

theorem Happens.onward {cache later : Cache α} {event : Event α}
    {outcome : Except Failure (Outcome α)} (happens : Happens cache event outcome later) :
    Onward cache later := by
  cases happens with
  | nothing _ _ _ _ | stores _ _ | clears _ => exact ⟨Nat.le_refl _, Nat.le_refl _, Nat.le_refl _⟩
  | hits _ => exact ⟨Nat.le_succ _, Nat.le_refl _, Nat.le_refl _⟩
  | misses _ => exact ⟨Nat.le_refl _, Nat.le_succ _, Nat.le_refl _⟩
  | expires _ _ => exact ⟨Nat.le_refl _, Nat.le_succ _, Nat.le_succ _⟩
  | purges _ => exact ⟨Nat.le_refl _, Nat.le_refl _, Nat.le_add_right ..⟩

theorem after_onward (cache : Cache α) (events : List (Event α)) :
    Onward cache (after cache events) := by
  induction events generalizing cache with
  | nil => exact ⟨Nat.le_refl _, Nat.le_refl _, Nat.le_refl _⟩
  | cons event rest ih => exact (perform_happens event cache).onward.trans (ih _)

theorem after_answers (cache : Cache α) (events : List (Event α)) :
    (after cache events).hits + (after cache events).misses =
      cache.hits + cache.misses + events.countP asks := by
  induction events generalizing cache with
  | nil => rfl
  | cons event rest ih =>
    have first := (perform_happens event cache).answers
    rw [after, ih, first, List.countP_cons, Nat.add_assoc, Nat.add_comm (rest.countP asks)]

theorem after_balances {cache : Cache α} (distinct : (cache.entries.map Prod.fst).Nodup)
    (events : List (Event α)) :
    (after cache events).entries.length + (after cache events).expirations +
        total replaced cache events + total cleared cache events =
      cache.entries.length + cache.expirations + total stored cache events := by
  induction events generalizing cache with
  | nil => rfl
  | cons event rest ih =>
    obtain ⟨distinct, first⟩ := (perform_happens event cache).balances distinct
    have others := ih distinct
    simp only [after, total]
    omega

/-- The books of a cache that was empty at first balance after any events, with any readings of the
clock. Every question was a hit or a miss. Every value stored is still there, or it has expired, was
replaced or was cleared away. A purge counts the expirations that it reports, a question one at most,
and no other command any. No count ever falls. -/
theorem books_balance (usual : Int) (events : List (Event α)) :
    (after (fresh usual) events).hits + (after (fresh usual) events).misses =
        events.countP asks ∧
      total stored (fresh usual) events =
        (after (fresh usual) events).entries.length + (after (fresh usual) events).expirations +
          total replaced (fresh usual) events + total cleared (fresh usual) events ∧
      (∀ event : Event α, ∃ count,
        Counts event.command (event.perform (after (fresh usual) events)).1 count ∧
          (after (fresh usual) (events ++ [event])).expirations =
            (after (fresh usual) events).expirations + count) ∧
      ∀ more, Onward (after (fresh usual) events) (after (fresh usual) (events ++ more)) := by
  have append (cache : Cache α) (more : List (Event α)) :
      after cache (events ++ more) = after (after cache events) more := by
    induction events generalizing cache with
    | nil => rfl
    | cons event rest ih => exact ih _
  refine ⟨?_, ?_, ?_, ?_⟩
  · rw [after_answers]
    exact Nat.zero_add _
  · have balanced := @after_balances α (fresh usual) List.nodup_nil events
    rw [balanced]
    exact (Nat.zero_add _).symm
  · intro event
    rw [append]
    exact (perform_happens event _).counts
  · intro more
    rw [append]
    exact after_onward _ more

/-- An expired entry is replaced before anybody asks for it. Then the clock goes back, and the new
one expires only once it has gone forward again. -/
def unnoticed : List (Event Nat) :=
  [⟨secondsPastNoon 0, .put "rates" 1 (some 10)⟩, ⟨secondsPastNoon 20, .put "rates" 2 (some 10)⟩,
    ⟨secondsPastNoon 5, .find "rates"⟩, ⟨secondsPastNoon 30, .find "rates"⟩,
    ⟨secondsPastNoon 31, .purge⟩]

example : total stored (fresh 60) unnoticed = 2 ∧ total replaced (fresh 60) unnoticed = 1 ∧
    (after (fresh 60) unnoticed).expirations = 1 ∧ (after (fresh 60) unnoticed).entries = [] := by
  decide

end Curbside.Proofs.Bookkeeping

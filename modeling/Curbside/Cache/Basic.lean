import Curbside.Calendar.Span

/-! A cache keeps values by key for a limited time. Its entries are dropped when somebody asks
for them too late, or when all that have expired are purged. Values that are stored for no
time at all are not kept. -/

namespace Curbside

/-- A value with the readings of the clock when it was stored and when it expires. -/
structure Cache.Entry (α : Type) where
  value : α
  storedAt : Wall
  expiresAt : Wall
  deriving DecidableEq

/-- Entries by key, the seconds for which values are kept if nothing else is said, and counts of
what has happened. -/
structure Cache (α : Type) where
  entries : List (String × Cache.Entry α)
  defaultSeconds : Int
  hits : Nat
  misses : Nat
  expirations : Nat
  deriving DecidableEq

namespace Cache

def Entry.isStale (entry : Entry α) (now : Wall) : Bool := entry.expiresAt ≤ now

def Entry.age (entry : Entry α) (now : Wall) : Span := now - entry.storedAt

def fresh (defaultSeconds : Int) : Cache α := ⟨[], defaultSeconds, 0, 0, 0⟩

def without (entries : List (String × Entry α)) (key : String) : List (String × Entry α) :=
  entries.filter fun (other, _) => other != key

/-- The entry of a key that has not expired, and the cache after the question. -/
def find (cache : Cache α) (key : String) (now : Wall) : Option (Entry α) × Cache α :=
  match cache.entries.lookup key with
  | none => (none, { cache with misses := cache.misses + 1 })
  | some entry =>
    if entry.isStale now then
      (none, { cache with
        entries := without cache.entries key
        misses := cache.misses + 1
        expirations := cache.expirations + 1 })
    else (some entry, { cache with hits := cache.hits + 1 })

/-- Keep a value for some seconds. A value that was stored under the key before is replaced. -/
def put (cache : Cache α) (key : String) (value : α) (seconds : Option Int) (now : Wall) :
    Except Failure (Cache α) := do
  let seconds := seconds.getD cache.defaultSeconds
  if seconds ≤ 0 then return cache
  let expiresAt ← Wall.checked (now + (← Span.ofSeconds (.whole seconds)))
  return { cache with entries := (key, ⟨value, now, expiresAt⟩) :: without cache.entries key }

/-- Drop all entries that have expired, and say how many there were. -/
def purge (cache : Cache α) (now : Wall) : Nat × Cache α :=
  let stale := cache.entries.countP fun (_, entry) => entry.isStale now
  (stale, { cache with
    entries := cache.entries.filter fun (_, entry) => !entry.isStale now
    expirations := cache.expirations + stale })

/-- Drop all entries. What was counted stays. -/
def clear (cache : Cache α) : Cache α := { cache with entries := [] }

/-- The share of questions that found an entry, to three places. -/
def hitRatio (cache : Cache α) : Binary64 :=
  let questions := cache.hits + cache.misses
  if questions = 0 then Binary64.ofInt 0
  else (Binary64.ofRatio cache.hits questions).roundPlaces 3

end Cache

end Curbside

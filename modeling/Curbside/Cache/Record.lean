import Curbside.Cache.Basic
import Curbside.Calendar.Record

/-! The written record of what a cache has counted and found. -/

namespace Curbside

namespace Wall

/-- A reading of a clock that shows universal time, as it is written outside of records. -/
def encodeUniversal (wall : Wall) : Json :=
  .text ((⟨wall, some (Zone.fixed 0), false⟩ : Moment).write .digits)

end Wall

namespace Cache

def encodeCounts (cache : Cache α) : Json :=
  .object [("entries", .int cache.entries.length), ("hits", .int cache.hits),
    ("misses", .int cache.misses), ("expirations", .int cache.expirations),
    ("hit_ratio", .float cache.hitRatio), ("default_ttl_seconds", .int cache.defaultSeconds)]

/-- What was found at a reading of the clock. -/
def encodeFound (encode : α → Json) (found : Option (Entry α)) (now : Wall) : Json :=
  .object [("hit", .bool found.isSome), ("value", .orNull (fun entry => encode entry.value) found),
    ("age_seconds", .orNull (fun entry => .float (entry.age now).seconds) found),
    ("stored_at", .orNull (fun entry => entry.storedAt.encodeUniversal) found)]

end Cache

end Curbside

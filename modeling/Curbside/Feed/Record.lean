import Curbside.Cache.Record
import Curbside.Feed.Basic

/-! The written record of where tiers come from. When a live answer came is left out. -/

namespace Curbside.Feed

namespace Freshness

def encode (freshness : Freshness) : Json :=
  let record (status : String) (hit fetchedAt age : Json) : Json :=
    .object [("status", .string status), ("cache_hit", hit), ("fetched_at", fetchedAt),
      ("age_seconds", age)]
  match freshness with
  | cached storedAt age =>
    record "cache" (.bool true) storedAt.encodeUniversal (.float age.seconds)
  | live => record "live" (.bool false) .null (.float (Binary64.ofInt 0))
  | unavailable => record "unavailable" .null .null .null

end Freshness

/-- What a fetch answers with, how many requests it made, and what the cache has counted. -/
def Fetch.encode (fetch : Fetch) (served : Served) : Json :=
  .object [("tiers", .array (served.tiers.map Tier.encode)),
    ("requests", .int (if fetch.requested then 1 else 0)), ("stats", fetch.cache.encodeCounts),
    ("freshness", served.freshness.encode)]

end Curbside.Feed

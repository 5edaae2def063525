import Curbside.Cache.Basic
import Curbside.Json.Reader
import Curbside.Tariff.Tier

/-! A feed of rate tiers is read over the network and kept in a cache. Where the feed fails or
holds nothing usable there are no tiers, so that a request for a price does not fail with
it. Failures are not kept. -/

namespace Curbside.Feed

/-- What comes back over the network: a status and a body, or nothing. -/
inductive Reply where
  | answered (status : Int) (body : List Char)
  | failed

inductive Freshness where
  | cached (storedAt : Wall) (age : Span)
  | live
  | unavailable
  deriving DecidableEq

/-- A cached value that is no list of tiers is held as none. -/
abbrev Store : Type := Cache (Option (List Tier))

structure Served where
  tiers : List Tier
  freshness : Freshness
  deriving DecidableEq

/-- A fetch: what it answers with, the cache after it, and whether the network was used. -/
structure Fetch where
  outcome : Except Failure Served
  cache : Store
  requested : Bool

def isFailure (status : Int) : Bool := 400 ≤ status && status < 600

/-- The mark that a text may begin with to show its encoding. -/
def byteOrderMark : Char := '\ufeff'

/-- A text without the mark of its encoding. -/
def dropMark : List Char → List Char
  | c :: rest => if c = byteOrderMark then rest else c :: rest
  | [] => []

/-- The value in a reply, if there is one. -/
def Reply.value? : Reply → Option Json
  | failed => none
  | answered status body => if isFailure status then none else Json.read? (dropMark body)

def itemsOf? : Json → Option (List Json)
  | .array items => some items
  | _ => none

/-- The rows of a feed: an array, or the first of two members of an object that is one. -/
def rows (value : Json) : List Json :=
  match itemsOf? value with
  | some items => items
  | none =>
    (["rates", "tiers"].findSome? fun name => (value.member? name).bind itemsOf?).getD []

def tiersOf (rows : List Json) : List Tier :=
  rows.filterMap fun row =>
    match Tier.decode row with
    | .passed tier => some tier
    | .failed _ => none

/-- Ask the network and keep the answer. -/
def request (cache : Store) (url : String) (reply : Reply) (now : Wall) : Fetch :=
  match reply.value? with
  | none => ⟨.ok ⟨[], .unavailable⟩, cache, true⟩
  | some value =>
    let tiers := tiersOf (rows value)
    match cache.put url (some tiers) none now with
    | .ok cache => ⟨.ok ⟨tiers, .live⟩, cache, true⟩
    | .error failure => ⟨.error failure, cache, true⟩

/-- The tiers of a feed, from the cache if it has them. The reply is the one that the network
would give. The clock is read when somebody asks, and once more when an answer is to be kept. -/
def fetchBetween (cache : Store) (url : String) (reply : Reply) (asked answered : Wall) : Fetch :=
  match cache.find url asked with
  | (none, cache) => request cache url reply answered
  | (some entry, cache) =>
    match entry.value with
    | none => request cache url reply answered
    | some tiers => ⟨.ok ⟨tiers, .cached entry.storedAt (entry.age asked)⟩, cache, false⟩

/-- A fetch that takes no time. -/
def fetch (cache : Store) (url : String) (reply : Reply) (now : Wall) : Fetch :=
  fetchBetween cache url reply now now

end Curbside.Feed

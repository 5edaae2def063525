import Curbside.Cache.Basic

/-! A cache beside the clock that it is read by. Commands come one after the other, and one that
fails changes nothing. -/

namespace Curbside.Cache

/-- A cache and the present reading of a clock that shows universal time. -/
structure Clocked (α : Type) where
  cache : Cache α
  now : Wall

/-- What can be asked of a cache and of its clock. -/
inductive Command (α : Type) where
  | put (key : String) (value : α) (seconds : Option Int)
  | find (key : String)
  | purge
  | clear
  | advance (seconds : Quantity)

inductive Outcome (α : Type) where
  | done
  | found (entry : Option (Entry α))
  | purged (count : Nat)

namespace Clocked

/-- A cache beside a clock set some seconds later, or earlier if the count is negative. -/
def advance (clocked : Clocked α) (seconds : Quantity) : Except Failure (Clocked α) := do
  let now ← Wall.checked (clocked.now + (← Span.ofSeconds seconds))
  return { clocked with now }

def perform (clocked : Clocked α) : Command α → Except Failure (Outcome α × Clocked α)
  | .put key value seconds =>
    (clocked.cache.put key value seconds clocked.now).map fun cache =>
      (.done, { clocked with cache })
  | .find key =>
    let (entry, cache) := clocked.cache.find key clocked.now
    .ok (.found entry, { clocked with cache })
  | .purge =>
    let (count, cache) := clocked.cache.purge clocked.now
    .ok (.purged count, { clocked with cache })
  | .clear => .ok (.done, { clocked with cache := clocked.cache.clear })
  | .advance seconds => (clocked.advance seconds).map fun later => (.done, later)

/-- Carry out a command, where one that fails leaves everything as it was. -/
def step (clocked : Clocked α) (command : Command α) :
    Except Failure (Outcome α) × Clocked α :=
  match clocked.perform command with
  | .ok (outcome, later) => (.ok outcome, later)
  | .error failure => (.error failure, clocked)

/-- Carry out commands one after the other. Each outcome comes with the cache and the clock as
they are after it. -/
def run (clocked : Clocked α) : List (Command α) → List (Except Failure (Outcome α) × Clocked α)
  | [] => []
  | command :: rest =>
    let result := clocked.step command
    result :: run result.2 rest

end Clocked

end Curbside.Cache

import Curbside.Failure
import Curbside.Json.Basic

/-! Checking records. All faults of a record are collected, in the order of its fields, and a
record is accepted only if it has none. -/

namespace Curbside

/-- A value that passed its checks, or the issues found. -/
inductive Checked (α : Type) where
  | passed (value : α)
  | failed (issues : List Issue)

namespace Checked

def fault (fault : Fault) : Checked α := failed [⟨[], fault⟩]

def map (f : α → β) : Checked α → Checked β
  | passed value => passed (f value)
  | failed issues => failed issues

/-- Both values, or the issues of both, the first ones first. -/
def both (f : α → β → γ) : Checked α → Checked β → Checked γ
  | passed a, passed b => passed (f a b)
  | passed _, failed issues => failed issues
  | failed issues, passed _ => failed issues
  | failed issues, failed more => failed (issues ++ more)

instance : Applicative Checked where
  pure := passed
  map := map
  seq f x := both (fun f a => f a) f (x ())

/-- A further check of a value that has passed so far. -/
def andThen (f : α → Checked β) : Checked α → Checked β
  | passed value => f value
  | failed issues => failed issues

/-- Issues seen from one step further out. -/
def under (step : PathStep) : Checked α → Checked α
  | passed value => passed value
  | failed issues => failed (issues.map fun issue => { issue with path := step :: issue.path })

def toExcept : Checked α → Except Failure α
  | passed value => .ok value
  | failed issues => .error (.invalid issues)

end Checked

/-- A way to read a value as a record or a part of one. -/
abbrev Decoder (α : Type) : Type := Json → Checked α

namespace Decoder

def required (members : List (String × Json)) (name : String) (decode : Decoder α) : Checked α :=
  match members.lookup name with
  | none => .failed [⟨[.field name], .missing⟩]
  | some value => (decode value).under (.field name)

def optional (members : List (String × Json)) (name : String) (usual : α) (decode : Decoder α) :
    Checked α :=
  match members.lookup name with
  | none => .passed usual
  | some value => (decode value).under (.field name)

def nullable (decode : Decoder α) : Decoder (Option α)
  | .null => .passed none
  | value => (decode value).map some

/-- The items of a list from a position on. -/
def itemsFrom (decode : Decoder α) : (position : Nat) → List Json → Checked (List α)
  | _, [] => .passed []
  | position, item :: rest =>
    .both List.cons ((decode item).under (.index position)) (itemsFrom decode (position + 1) rest)

def list (decode : Decoder α) : Decoder (List α)
  | .array items => itemsFrom decode 0 items
  | _ => .fault .notList

def record (model : String) (decode : List (String × Json) → Checked α) : Decoder α
  | .object members => decode members
  | _ => .fault (.notRecord model)

end Decoder

end Curbside

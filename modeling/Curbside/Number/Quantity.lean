import Curbside.Number.Binary64

/-! A quantity is a count of some unit that somebody states, as an integer or with a fraction. -/

namespace Curbside

/-- An integer of any size, or a binary64 number. -/
inductive Quantity where
  | whole (n : Int)
  | measured (x : Binary64)
  deriving DecidableEq, Repr

namespace Quantity

instance : OfNat Quantity n := ⟨whole n⟩

def toBinary64 : Quantity → Binary64
  | whole n => Binary64.ofInt n
  | measured x => x

end Quantity

end Curbside

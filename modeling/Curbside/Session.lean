import Curbside.Sign.Confirm
import Curbside.Sign.Extract

/-! A session holds the rules of one sign while a person looks at them: they are read off a
text, a time limit may be confirmed, and rules may be dropped. A change that fails leaves the
rules as they were. -/

namespace Curbside

structure Session where
  rules : List Rule
  deriving DecidableEq

namespace Session

def empty : Session := ⟨[]⟩

inductive Change where
  | extract (text : String) (quality : Option Binary64)
  | confirm (minutes : Int)
  | drop (position : Int)

/-- The rules without the one at a position, if there is one. -/
def drop (rules : List Rule) (position : Int) : List Rule :=
  if position < 0 then rules else rules.eraseIdx position.toNat

def apply (session : Session) : Change → Except Failure Session
  | .extract text quality => (Sign.extract quality text.toList).map Session.mk
  | .confirm minutes => .ok ⟨Sign.confirmTimeLimit minutes session.rules⟩
  | .drop position => .ok ⟨drop session.rules position⟩

end Session

end Curbside

import Curbside.Rule.Basic

/-! A person may confirm how long parking is allowed. The first time limit among the rules then
gets the confirmed length and full confidence. -/

namespace Curbside.Sign

/-- A time limit with a length that a person confirmed. -/
def confirmed (minutes : Int) (rule : Rule) : Rule :=
  { rule with
    provision := { rule.provision with kind := .timeLimit minutes }
    confidence := Binary64.ofInt 1
    userConfirmed := true }

/-- Rules with the first time limit among them confirmed. -/
def confirmTimeLimit (minutes : Int) : List Rule → List Rule
  | [] => []
  | rule :: rest =>
    match rule.kind with
    | .timeLimit _ => confirmed minutes rule :: rest
    | _ => rule :: confirmTimeLimit minutes rest

end Curbside.Sign

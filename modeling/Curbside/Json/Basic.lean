import Curbside.Number.Shortest
import Curbside.Text.Printable

/-! JSON values. Integers are of any size and differ from numbers written with a point or an
exponent, and the members of an object keep the order in which they were first written. -/

namespace Curbside

inductive Json where
  | null
  | bool (value : Bool)
  | int (value : Int)
  | float (value : Binary64)
  | string (value : String)
  | array (items : List Json)
  | object (members : List (String × Json))
  deriving Inhabited

namespace Json

def text (cs : List Char) : Json := string (String.ofList cs)

def orNull (write : α → Json) : Option α → Json
  | none => null
  | some a => write a

/-- A binary64 number in the record of a model. JSON has no numbers for the infinities and for no
number, and null is written in their place. -/
def ofBinary64 : Binary64 → Json
  | .finite negative units => float (.finite negative units)
  | .infinite _ | .nan => null

/-- The member of an object with a name, or none if it has no such member or is no object. -/
def member? (value : Json) (name : String) : Option Json :=
  match value with
  | object members => members.lookup name
  | _ => none

/-- Set a member. A name that is there already keeps its place and gets the new value. -/
def setMember (members : List (String × Json)) (name : String) (value : Json) :
    List (String × Json) :=
  match members with
  | [] => [(name, value)]
  | (other, old) :: rest =>
    if other = name then (name, value) :: rest else (other, old) :: setMember rest name value

def hexDigit (n : Nat) : Char := Char.ofNat (if n < 10 then 48 + n else 87 + n)

/-- A number to base sixteen in a fixed count of digits. -/
def hexDigits : (width : Nat) → Nat → List Char
  | 0, _ => []
  | width + 1, n => hexDigits width (n / 16) ++ [hexDigit (n % 16)]

/-- A character between quotation marks of a kind. What cannot be printed is written by its
number. -/
def quotedChar (mark c : Char) : List Char :=
  if c = mark || c = '\\' then ['\\', c]
  else if c = '\n' then ['\\', 'n']
  else if c = '\r' then ['\\', 'r']
  else if c = '\t' then ['\\', 't']
  else if Text.isPrintable c then [c]
  else if c.toNat < 0x100 then '\\' :: 'x' :: hexDigits 2 c.toNat
  else if c.toNat < 0x10000 then '\\' :: 'u' :: hexDigits 4 c.toNat
  else '\\' :: 'U' :: hexDigits 8 c.toNat

/-- A text between single quotation marks, or between double ones if it has single ones and no
double ones. -/
def quoted (cs : List Char) : List Char :=
  let mark := if cs.contains '\'' && !cs.contains '"' then '"' else '\''
  mark :: cs.flatMap (quotedChar mark) ++ [mark]

def intText (n : Int) : List Char :=
  (if n < 0 then ['-'] else []) ++ Decimal.digitsOf n.natAbs

def joined (between : List Char) : List (List Char) → List Char
  | [] => []
  | [last] => last
  | first :: rest => first ++ between ++ joined between rest

mutual

/-- A value as it is shown inside a list or an object. -/
def shownInside : Json → List Char
  | null => "None".toList
  | bool value => if value then "True".toList else "False".toList
  | int value => intText value
  | float value => value.write
  | string value => quoted value.toList
  | array items => '[' :: joined [',', ' '] (shownItems items) ++ [']']
  | object members => '\x7b' :: joined [',', ' '] (shownMembers members) ++ ['\x7d']

def shownItems : List Json → List (List Char)
  | [] => []
  | item :: rest => shownInside item :: shownItems rest

def shownMembers : List (String × Json) → List (List Char)
  | [] => []
  | (name, value) :: rest =>
    (quoted name.toList ++ ':' :: ' ' :: shownInside value) :: shownMembers rest

end

/-- A value as it is shown in a message. A string stands without quotation marks. -/
def shown : Json → List Char
  | string value => value.toList
  | value => shownInside value

end Json

end Curbside

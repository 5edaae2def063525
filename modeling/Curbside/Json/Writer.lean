import Curbside.Json.Basic

/-! The written form of JSON values, on one line and without blanks. -/

namespace Curbside.Json

/-- A character inside a JSON string. Control characters are written by their number. -/
def writtenChar (c : Char) : List Char :=
  if c = '"' || c = '\\' then ['\\', c]
  else if c.toNat < 0x20 then '\\' :: 'u' :: hexDigits 4 c.toNat
  else [c]

def writtenString (s : String) : List Char := '"' :: s.toList.flatMap writtenChar ++ ['"']

/-- A number that is written with a point or an exponent. The names of the infinities and of no
number are those that the reader takes, as they may stand in a file of fines. The records of
models have none of them (see ofBinary64). -/
def writtenFloat : Binary64 → List Char
  | .infinite negative => if negative then "-Infinity".toList else "Infinity".toList
  | .nan => "NaN".toList
  | x => x.write

mutual

def written : Json → List Char
  | null => "null".toList
  | bool value => if value then "true".toList else "false".toList
  | int value => intText value
  | float value => writtenFloat value
  | string value => writtenString value
  | array items => '[' :: joined [','] (writtenItems items) ++ [']']
  | object members => '\x7b' :: joined [','] (writtenMembers members) ++ ['\x7d']

def writtenItems : List Json → List (List Char)
  | [] => []
  | item :: rest => written item :: writtenItems rest

def writtenMembers : List (String × Json) → List (List Char)
  | [] => []
  | (name, value) :: rest => (writtenString name ++ ':' :: written value) :: writtenMembers rest

end

def render (value : Json) : String := String.ofList (written value)

end Curbside.Json

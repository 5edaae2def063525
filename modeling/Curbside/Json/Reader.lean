import Curbside.Json.Basic

/-! Reading JSON. A text holds one value with blanks around it and nothing else. Of members
with one name the last counts, numbers beyond the binary64 format are infinite, and the
names NaN and Infinity are read as numbers.

Two limits of the service are left out. It gives up on values that lie hundreds of levels inside
each other, which are read here to any depth. And it keeps one half of a pair of code units, which
is no character, as it is, where a replacement is read here. -/

namespace Curbside.Json

/-- The blanks that may stand between the parts of a JSON text. -/
def isJsonBlank (c : Char) : Bool := c = ' ' || c = '\t' || c = '\n' || c = '\r'

def skipBlanks (cs : List Char) : List Char := cs.dropWhile isJsonBlank

/-- The value of a digit to base sixteen in letters of either case. -/
def hexValue? (c : Char) : Option Nat :=
  let n := c.toNat
  if 48 ≤ n && n ≤ 57 then some (n - 48)
  else if 65 ≤ n && n ≤ 70 then some (n - 55)
  else if 97 ≤ n && n ≤ 102 then some (n - 87)
  else none

def fourHex? (a b c d : Char) : Option Nat :=
  match hexValue? a, hexValue? b, hexValue? c, hexValue? d with
  | some a, some b, some c, some d => some (((a * 16 + b) * 16 + c) * 16 + d)
  | _, _, _, _ => none

/-- The character that a backslash and a letter write. -/
def escaped? (c : Char) : Option Char :=
  match c with
  | '"' => some '"'
  | '\\' => some '\\'
  | '/' => some '/'
  | 'b' => some '\x08'
  | 'f' => some '\x0c'
  | 'n' => some '\n'
  | 'r' => some '\r'
  | 't' => some '\t'
  | _ => none

/-- The character that stands where a text has one half of a pair without the other. -/
def replacement : Char := '\ufffd'

def isHighHalf (n : Nat) : Bool := 0xD800 ≤ n && n ≤ 0xDBFF

def isLowHalf (n : Nat) : Bool := 0xDC00 ≤ n && n ≤ 0xDFFF

/-- The character of a code point. A half of a pair has none, so the replacement stands for it. -/
def charOf (n : Nat) : Char := if isHighHalf n || isLowHalf n then replacement else Char.ofNat n

/-- The characters of a string up to its closing quotation mark, and what follows it. Control
characters cannot stand in a string, and two halves of a pair write one character. -/
def stringBody? : List Char → Option (List Char × List Char)
  | [] => none
  | '"' :: rest => some ([], rest)
  | '\\' :: 'u' :: a :: b :: c :: d :: '\\' :: 'u' :: e :: f :: g :: h :: rest =>
    match fourHex? a b c d with
    | none => none
    | some high =>
      match fourHex? e f g h with
      | none => none
      | some low =>
        if isHighHalf high && isLowHalf low then
          (stringBody? rest).map fun (body, after) =>
            (Char.ofNat (0x10000 + (high - 0xD800) * 1024 + (low - 0xDC00)) :: body, after)
        else
          (stringBody? ('\\' :: 'u' :: e :: f :: g :: h :: rest)).map fun (body, after) =>
            (charOf high :: body, after)
  | '\\' :: 'u' :: a :: b :: c :: d :: rest =>
    match fourHex? a b c d with
    | none => none
    | some n => (stringBody? rest).map fun (body, after) => (charOf n :: body, after)
  | '\\' :: c :: rest =>
    match escaped? c with
    | none => none
    | some written => (stringBody? rest).map fun (body, after) => (written :: body, after)
  | c :: rest =>
    if c.toNat < 0x20 then none
    else (stringBody? rest).map fun (body, after) => (c :: body, after)
termination_by cs => cs.length

/-- Split off the plain digits that a text begins with. -/
def spanDigits (cs : List Char) : List Char × List Char :=
  (cs.takeWhile Text.isPlainDigit, cs.dropWhile Text.isPlainDigit)

/-- A point and the digits after it, if there are any. -/
def spanFraction (cs : List Char) : List Char × List Char :=
  match cs with
  | '.' :: rest =>
    match spanDigits rest with
    | ([], _) => ([], cs)
    | (digits, after) => ('.' :: digits, after)
  | _ => ([], cs)

/-- An exponent with its mark, if there is one. -/
def spanExponent (cs : List Char) : List Char × List Char :=
  match cs with
  | mark :: rest =>
    if mark = 'e' || mark = 'E' then
      let (sign, digits) := match rest with
        | '-' :: more => (['-'], more)
        | '+' :: more => (['+'], more)
        | _ => ([], rest)
      match spanDigits digits with
      | ([], _) => ([], cs)
      | (digits, after) => (mark :: sign ++ digits, after)
    else ([], cs)
  | [] => ([], [])

/-- The most digits that an integer may have. -/
def longestInteger : Nat := 4300

/-- A number without its sign. The whole part has no zero before other digits. A number
without point and exponent is an integer. -/
def number? (negative : Bool) (cs : List Char) : Option (Json × List Char) :=
  let (whole, afterWhole) := match cs with
    | '0' :: rest => (['0'], rest)
    | _ => spanDigits cs
  if whole.isEmpty then none
  else
    let (fraction, afterFraction) := spanFraction afterWhole
    let (exponent, rest) := spanExponent afterFraction
    if fraction.isEmpty && exponent.isEmpty then
      let n : Int := Text.digitsValue whole
      if longestInteger < whole.length then none
      else some (int (if negative then -n else n), rest)
    else
      (Decimal.ofPlain? (whole ++ fraction ++ exponent)).map fun d =>
        (float (Binary64.ofDecimal { d with negative }), rest)

/-- A value that is a word, and what follows it. -/
def word? (cs : List Char) : Option (Json × List Char) :=
  [("null", null), ("true", bool true), ("false", bool false), ("NaN", float .nan),
    ("Infinity", float (.infinite false)), ("-Infinity", float (.infinite true))].findSome?
    fun (name, value) =>
      if name.toList.isPrefixOf cs then some (value, cs.drop name.length) else none

mutual

/-- The value at the start of a text, and what follows it. Each step of the reading goes one
level down or one item on, so as many steps as characters are enough. -/
def value? : (steps : Nat) → List Char → Option (Json × List Char)
  | 0, _ => none
  | steps + 1, cs =>
    match cs with
    | '"' :: rest => (stringBody? rest).map fun (body, after) => (text body, after)
    | '[' :: rest =>
      match skipBlanks rest with
      | ']' :: after => some (array [], after)
      | more => (items? steps more).map fun (items, after) => (array items, after)
    | '\x7b' :: rest =>
      match skipBlanks rest with
      | '\x7d' :: after => some (object [], after)
      | more => (members? steps [] more).map fun (members, after) => (object members, after)
    | _ =>
      match word? cs with
      | some found => some found
      | none =>
        match cs with
        | '-' :: rest => number? true rest
        | _ => number? false cs

/-- The items of an array that is not empty, up to its end. -/
def items? : (steps : Nat) → List Char → Option (List Json × List Char)
  | 0, _ => none
  | steps + 1, cs =>
    match value? steps cs with
    | none => none
    | some (item, rest) =>
      match skipBlanks rest with
      | ']' :: after => some ([item], after)
      | ',' :: more => (items? steps (skipBlanks more)).map fun (items, after) =>
          (item :: items, after)
      | _ => none

/-- The members of an object that is not empty, added to those before them. -/
def members? : (steps : Nat) → List (String × Json) → List Char →
    Option (List (String × Json) × List Char)
  | 0, _, _ => none
  | steps + 1, before, cs =>
    match cs with
    | '"' :: rest =>
      match stringBody? rest with
      | none => none
      | some (name, afterName) =>
        match skipBlanks afterName with
        | ':' :: afterColon =>
          match value? steps (skipBlanks afterColon) with
          | none => none
          | some (value, afterValue) =>
            let members := setMember before (String.ofList name) value
            match skipBlanks afterValue with
            | '\x7d' :: after => some (members, after)
            | ',' :: more => members? steps members (skipBlanks more)
            | _ => none
        | _ => none
    | _ => none

end

def read? (cs : List Char) : Option Json :=
  match value? (2 * cs.length + 2) (skipBlanks cs) with
  | some (value, rest) => if (skipBlanks rest).isEmpty then some value else none
  | none => none

end Curbside.Json

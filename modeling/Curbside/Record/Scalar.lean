import Curbside.Calendar.Count
import Curbside.Record.Checked
import Curbside.Text.Integer

/-! Checking single values. A value of a neighbouring kind is taken where its meaning is plain:
a whole number with a point for an integer, a text that spells a number, one and zero for
yes and no. -/

namespace Curbside.Decoder

/-- Whether an integer has a place among the signed words of 64 bits. -/
def fitsWord (n : Int) : Bool := -9223372036854775808 ≤ n && n ≤ 9223372036854775807

/-- Whether an integer written with a point lies within the signed words of 64 bits. The least
word is left out, since a binary64 number there may stand for less. -/
def fitsPointed (n : Int) : Bool := -9223372036854775808 < n && n < 9223372036854775808

/-- The longest plain form that is read as an integer. -/
def longestInteger : Nat := 4300

def integer : Decoder Int
  | .int n => .passed n
  | .bool value => .passed (if value then 1 else 0)
  | .float x =>
    match x with
    | .finite .. =>
      match x.toInt? with
      | none => .fault .fractional
      | some n => if fitsPointed n then .passed n else .fault .integerTooLong
    | _ => .fault .notFinite
  | .string s =>
    match Text.plainInteger? (Text.trimSpaces s.toList) with
    | none => .fault .unreadableInteger
    | some plain =>
      if longestInteger < plain.length then .fault .integerTooLong
      else .passed (Text.integerValue plain)
  | _ => .fault .notInteger

def atLeast (least : Int) (n : Int) : Checked Int :=
  if n < least then .fault (.below least) else .passed n

def atMost (most : Int) (n : Int) : Checked Int :=
  if most < n then .fault (.above most) else .passed n

def positive : Decoder Int := fun value =>
  (integer value).andThen fun n => if n ≤ 0 then .fault (.notAbove 0) else .passed n

def minute : Decoder Minute := fun value =>
  (integer value).andThen fun n =>
    if h : 0 ≤ n ∧ n < 1440 then .passed ⟨n.toNat, by omega⟩
    else if n < 0 then .fault (.below 0)
    else .fault (.above 1439)

/-- The binary64 number that a text spells. Blanks may surround it, or single underscores may
stand in it, but not both. -/
def numberOfText? (cs : List Char) : Option Binary64 :=
  (Binary64.ofText? (Text.trimSpaces cs)).or
    ((Text.withoutUnderscores? cs).bind Binary64.ofText?)

/-- A binary64 number that is not beyond the greatest one. -/
def finite : Binary64 → Checked Binary64
  | .finite negative units => .passed (.finite negative units)
  | _ => .fault .notNumber

def number : Decoder Binary64
  | .float x => .passed x
  | .int n => finite (Binary64.ofInt n)
  | .string s =>
    match numberOfText? s.toList with
    | some x => .passed x
    | none => .fault .unreadableNumber
  | _ => .fault .notNumber

def share : Decoder Binary64 := fun value =>
  (number value).andThen fun x =>
    if (Binary64.ofInt 1).lt x then .fault (.above 1)
    else if x.lt (Binary64.ofInt 0) then .fault (.below 0)
    else .passed x

def yesWords : List String := ["1", "t", "y", "on", "yes", "true"]

def noWords : List String := ["0", "f", "n", "no", "off", "false"]

/-- The answer that an integer gives to a yes-or-no question. -/
def booleanOfInt (n : Int) : Checked Bool :=
  if n = 0 then .passed false
  else if n = 1 then .passed true
  else if fitsWord n then .fault .unclearBoolean
  else .fault .notBoolean

def boolean : Decoder Bool
  | .bool value => .passed value
  | .string s =>
    let word := String.ofList (s.toList.map Char.toLower)
    if yesWords.contains word then .passed true
    else if noWords.contains word then .passed false
    else .fault .unclearBoolean
  | .int n => booleanOfInt n
  | .float x =>
    match x.toInt? with
    | some n => if fitsPointed n then booleanOfInt n else .fault .notBoolean
    | none => .fault .notBoolean
  | _ => .fault .notBoolean

def string : Decoder String
  | .string s => .passed s
  | _ => .fault .notText

def stringOfLength (length : Nat) : Decoder String := fun value =>
  (string value).andThen fun s =>
    if s.length < length then .fault (.textShorter length)
    else if length < s.length then .fault (.textLonger length)
    else .passed s

/-- What a reading of a decimal number amounts to. -/
def ofReading : Option Decimal.Reading → Checked Decimal
  | some (.number d) => .passed d
  | some .notFinite => .fault .notFinite
  | none => .fault .unreadableDecimal

/-- A decimal number that can be held. A binary64 number counts as its shortest text. -/
def decimal : Decoder Decimal
  | .int n =>
    let d := Decimal.ofInt n
    if d.isHoldable then .passed d else .fault .unreadableDecimal
  | .float x => ofReading (Decimal.read? x.write)
  | .string s => ofReading (Decimal.read? s.toList)
  | _ => .fault .notDecimal

/-- A decimal number that is zero of either sign or above. -/
def amount : Decoder Decimal := fun value =>
  (decimal value).andThen fun d => if d.isNonNegative then .passed d else .fault (.below 0)

def oneOf (choices : List α) (name : α → String) : Decoder α
  | .string s =>
    match choices.find? fun choice => name choice == s with
    | some choice => .passed choice
    | none => .fault (.notOneOf (choices.map name))
  | _ => .fault (.notOneOf (choices.map name))

/-- What a number that stands for a moment amounts to. -/
def ofCounted : Except Moment.DateFault Moment → Checked Moment
  | .ok moment => .passed moment
  | .error fault => .fault (.momentOutOfReach fault.message)

/-- What a text that stands for a moment amounts to. -/
def ofStated : Except Moment.DateFault Moment → Checked Moment
  | .ok moment => .passed moment
  | .error .yearZero => .fault (.momentOutOfReach Moment.DateFault.yearZero.message)
  | .error fault => .fault (.unreadableMoment fault.message)

/-- A moment: a date with or without a time of day, or a count since 1970. -/
def moment : Decoder Moment
  | .string s => ofStated (Moment.ofText s.toList)
  | .int n =>
    match Binary64.ofInt n with
    | .finite .. => ofCounted (Moment.ofCount n 0)
    | _ => .fault .notMoment
  | .float x => ofCounted (Moment.ofNumber x)
  | _ => .fault .notMoment

end Curbside.Decoder

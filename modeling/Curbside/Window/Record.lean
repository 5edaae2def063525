import Curbside.Record.Scalar
import Curbside.Window.Basic

/-! The written record of a window: its ends and its days as numbers. -/

namespace Curbside

namespace DaySet

/-- Days as their numbers in the order of the week. -/
def encode (days : DaySet) : Json := .array (days.toList.map fun day => .int day.val)

/-- A day set from numbers, each of which must name a day. -/
def ofNumbers (numbers : List Int) : Checked { days : DaySet // days ≠ empty } :=
  if numbers.isEmpty then .fault .noDays
  else if numbers.any fun n => n < 0 || 6 < n then .fault .strangeDays
  else
    let days := ofList (numbers.map fun n => ⟨n.toNat % 7, by omega⟩)
    if h : days ≠ empty then .passed ⟨days, h⟩ else .fault .noDays

/-- A set of days, given as a list in which repetitions do not matter. -/
def decode : Decoder { days : DaySet // days ≠ empty }
  | .array items => (Decoder.itemsFrom Decoder.integer 0 items).andThen ofNumbers
  | _ => .fault .notSet

end DaySet

namespace Window

def encode (window : Window) : Json :=
  .object [("start", .int window.start.val), ("end", .int window.finish.val),
    ("days", window.days.encode)]

/-- A window from its record. Without days it holds on all of them. -/
def decode : Decoder Window :=
  Decoder.record "TimeWindow" fun members =>
    (fun start finish days => ⟨start, finish, days.val, days.property⟩)
      <$> Decoder.required members "start" Decoder.minute
      <*> Decoder.required members "end" Decoder.minute
      <*> Decoder.optional members "days" ⟨DaySet.all, by decide⟩ DaySet.decode

end Window

end Curbside

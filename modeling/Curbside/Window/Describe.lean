import Curbside.Window.Basic

/-! Windows in words. -/

namespace Curbside

namespace DaySet

def shortName (day : Weekday) : String :=
  match day with
  | 0 => "Mon"
  | 1 => "Tue"
  | 2 => "Wed"
  | 3 => "Thu"
  | 4 => "Fri"
  | 5 => "Sat"
  | 6 => "Sun"

/-- A set of days in words. All days, the workdays and the weekend have words of their own. -/
def describe (days : DaySet) : String :=
  if days = all then "daily"
  else if days = workdays then "Mon-Fri"
  else if days = weekend then "Sat-Sun"
  else String.intercalate ", " (days.toList.map shortName)

end DaySet

namespace Window

/-- A window in words: its hours, unless it covers whole days, and its days. -/
def describe (window : Window) : String :=
  if window.isAllDay then "all day " ++ window.days.describe
  else
    String.ofList (hoursAndMinutes window.start.val ++ '-' :: hoursAndMinutes window.finish.val)
      ++ " " ++ window.days.describe

/-- A window in words, where no window means no limit in time. -/
def describe? : Option Window → String
  | none => "at all times"
  | some window => window.describe

end Window

end Curbside

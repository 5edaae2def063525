/-! The days of the week, counted from Monday, and sets of them. A set is seven bits, so
that equal sets are equal values, and its view is membership. -/

namespace Curbside

/-- A day of the week, from Monday as 0 to Sunday as 6. -/
abbrev Weekday : Type := Fin 7

structure DaySet where
  bits : BitVec 7
  deriving DecidableEq

namespace Weekday

def monday : Weekday := ⟨0, by decide⟩

def tuesday : Weekday := ⟨1, by decide⟩

def wednesday : Weekday := ⟨2, by decide⟩

def thursday : Weekday := ⟨3, by decide⟩

def friday : Weekday := ⟨4, by decide⟩

def saturday : Weekday := ⟨5, by decide⟩

def sunday : Weekday := ⟨6, by decide⟩

/-- The day before. Before Monday comes Sunday. -/
def previous (day : Weekday) : Weekday := ⟨(day.val + 6) % 7, by omega⟩

end Weekday

namespace DaySet

def has (days : DaySet) (day : Weekday) : Bool := days.bits.getLsbD day.val

instance : Membership Weekday DaySet := ⟨fun days day => days.has day = true⟩

instance (day : Weekday) (days : DaySet) : Decidable (day ∈ days) :=
  inferInstanceAs (Decidable (days.has day = true))

def empty : DaySet := ⟨0⟩

def all : DaySet := ⟨127⟩

def workdays : DaySet := ⟨31⟩

def weekend : DaySet := ⟨96⟩

def single (day : Weekday) : DaySet := ⟨BitVec.twoPow 7 day.val⟩

def union (first second : DaySet) : DaySet := ⟨first.bits ||| second.bits⟩

/-- The days of the first set that are not in the second. -/
def without (first second : DaySet) : DaySet := ⟨first.bits &&& ~~~second.bits⟩

instance : Union DaySet := ⟨union⟩

instance : SDiff DaySet := ⟨without⟩

def ofList (days : List Weekday) : DaySet := days.foldr (fun day set => single day ∪ set) empty

/-- The days of a set in the order of the week. -/
def toList (days : DaySet) : List Weekday := (List.finRange 7).filter days.has

/-- The days from a first to a last one, around the end of the week if need be. -/
def span (first last : Weekday) : DaySet :=
  ofList ((List.finRange 7).filter fun day => day - first ≤ last - first)

/-- The set, or all days if it is empty. -/
def orAll (days : DaySet) : DaySet := if days = empty then all else days

theorem mem_iff {day : Weekday} {days : DaySet} : day ∈ days ↔ days.has day = true := Iff.rfl

@[simp] theorem has_union (first second : DaySet) (day : Weekday) :
    (first ∪ second).has day = (first.has day || second.has day) :=
  BitVec.getLsbD_or

@[simp] theorem has_without (first second : DaySet) (day : Weekday) :
    (first \ second).has day = (first.has day && !second.has day) := by
  change (first.bits &&& ~~~second.bits).getLsbD day.val = _
  simp [has, day.isLt]

@[simp] theorem not_mem_empty (day : Weekday) : ¬ day ∈ empty := by
  simp [mem_iff, has, empty]

theorem orAll_ne_empty (days : DaySet) : days.orAll ≠ empty := by
  unfold orAll
  split
  · decide
  · assumption

end DaySet

end Curbside

import Curbside.Clock.Range
import Curbside.Proofs.Phrases
import Curbside.Proofs.Seams

/-! Clock ranges keep to their lines. A line feed neither takes part in a range nor stands in the
way of one beside it, so that a text names the ranges of its lines, each where it stands first. -/

namespace Curbside.Proofs.RangeLines
open Text Pattern Clock Phrases Seams

section
variable {α : Type} [DecidableEq α]

/-- Items are added behind those already seen, unless they are among them. -/
theorem firstSeen_from (seen items : List α) :
    items.foldl (fun seen item => if item ∈ seen then seen else seen ++ [item]) seen =
      seen ++ (firstSeen items).filter (· ∉ seen) := by
  induction items generalizing seen with
  | nil => exact (List.append_nil seen).symm
  | cons item more ih =>
    have first : firstSeen (item :: more) = item :: (firstSeen more).filter (· ∉ [item]) :=
      ih [item]
    rw [List.foldl_cons, first, List.filter_cons, List.filter_filter]
    split
    next again =>
      rw [ih, if_neg (by simp [again])]
      congr 1
      apply List.filter_congr
      intro other _
      have apart : other ∉ seen → other ∉ [item] :=
        fun missing same => missing (List.mem_singleton.mp same ▸ again)
      rw [← Bool.decide_and]
      exact decide_eq_decide.mpr (and_iff_left_of_imp apart).symm
    next new =>
      rw [ih, if_pos (by simp [new]), List.append_assoc, List.singleton_append]
      congr 2
      apply List.filter_congr
      intro other _
      rw [← Bool.decide_and]
      exact decide_eq_decide.mpr (by rw [List.mem_append, not_or])

/-- The items of a list that are not among those already seen. -/
def unseen (seen items : List α) : List α := items.filter (· ∉ seen)

theorem firstSeen_append (one two : List α) :
    firstSeen (one ++ two) = firstSeen one ++ unseen (firstSeen one) (firstSeen two) := by
  unfold firstSeen
  rw [List.foldl_append]
  exact firstSeen_from _ two

theorem firstSeen_nodup (items : List α) : (firstSeen items).Nodup := by
  induction items with
  | nil => exact List.nodup_nil
  | cons item more ih =>
    have first : firstSeen (item :: more) = item :: (firstSeen more).filter (· ∉ [item]) :=
      firstSeen_from [item] more
    rw [first, List.nodup_cons]
    exact ⟨by simp, ih.filter _⟩

end

/-- No range goes over a line feed, and a line feed bars none. -/
theorem range_seam : Seam '\n' range := by
  refine ⟨rfl, rfl, rfl⟩

/-- The minutes of a range that a match holds. -/
def heldRange? (parts : List (Nat × List Char)) : Option (Minute × Minute) :=
  resolve? ((parts.lookup 4).getD []) ((parts.lookup 5).getD [])

theorem ranges_eq (printed : List Char) :
    ranges printed =
      firstSeen (((range.findAll (upper printed)).map Place.parts).filterMap heldRange?) := by
  rw [List.filterMap_map]
  rfl

theorem upper_lines (one two : List Char) :
    upper (one ++ '\n' :: two) = upper one ++ '\n' :: upper two := by
  rw [upper_append]
  rfl

/-- The ranges of two texts, one below the other, are those of the first and then those of the
second that are not among them. No range is named twice, and its ends are minutes of the day. -/
theorem ranges_by_line (one two : List Char) :
    ranges (one ++ '\n' :: two) = ranges one ++ unseen (ranges one) (ranges two) ∧
      (ranges one).Nodup ∧
      ∀ range ∈ ranges one, range.1.val ≤ 1439 ∧ range.2.val ≤ 1439 := by
  refine ⟨?_, ?_, ?_⟩
  · rw [ranges_eq, upper_lines, findAll_seam range_seam, List.filterMap_append, firstSeen_append,
      ← ranges_eq, ← ranges_eq]
  · exact firstSeen_nodup _
  · intro range _
    exact ⟨Nat.le_of_lt_succ range.1.isLt, Nat.le_of_lt_succ range.2.isLt⟩

def shopHours : List Char := "8am-6pm to".toList

def marketHours : List Char := "8-6pm and\n6pm to midnight".toList

/-- The evening is added to the hours of the day, which both texts state, and no range begins above
the line feed and ends below it. -/
theorem evening_added :
    (ranges (shopHours ++ '\n' :: marketHours)).map (fun range => (range.1.val, range.2.val)) =
        [(480, 1080), (1080, 0)] ∧
      ∃ range ∈ ranges shopHours, range.1.val ≤ 1439 ∧ range.2.val ≤ 1439 := by
  obtain ⟨joined, _, onClock⟩ := ranges_by_line shopHours marketHours
  have first : (ranges shopHours).map (fun range => (range.1.val, range.2.val)) =
      [(480, 1080)] := by
    decide
  have added : (unseen (ranges shopHours) (ranges marketHours)).map
      (fun range => (range.1.val, range.2.val)) = [(1080, 0)] := by
    decide
  refine ⟨by rw [joined, List.map_append, first, added]; rfl, ?_⟩
  cases hours : ranges shopHours with
  | nil =>
    rw [hours] at first
    cases first
  | cons range more =>
    have listed : range ∈ ranges shopHours := by
      rw [hours]
      exact List.mem_cons_self
    exact ⟨range, List.mem_cons_self, onClock range listed⟩

end Curbside.Proofs.RangeLines

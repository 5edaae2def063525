import Curbside.Sign.Clause

/-! How a sign is laid out. Its printed lines stand in its text one after the other, with nothing
but blanks before, between and after them. Written below each other they are the printed lines of
what is then written. -/

namespace Curbside.Proofs.Layout
open Text Sign

def Blank (text : List Char) : Prop := ∀ c ∈ text, isBlank c = true

theorem Blank.append {one two : List Char} (first : Blank one) (second : Blank two) :
    Blank (one ++ two) := by
  intro c member
  rcases List.mem_append.mp member with inside | inside
  · exact first c inside
  · exact second c inside

/-- Nothing stands before a place in a text, or a blank does. -/
inductive EndsBlank : List Char → Prop where
  | nothing : EndsBlank []
  | blank {most : List Char} {c : Char} (isBlank : isBlank c = true) : EndsBlank (most ++ [c])

/-- Nothing stands after a place in a text, or a blank does. -/
inductive StartsBlank : List Char → Prop where
  | nothing : StartsBlank []
  | blank {c : Char} {rest : List Char} (isBlank : isBlank c = true) : StartsBlank (c :: rest)

theorem Blank.ends {gap : List Char} (blank : Blank gap) : EndsBlank gap := by
  rcases List.eq_nil_or_concat gap with rfl | ⟨most, c, rfl⟩
  · exact .nothing
  · rw [List.concat_eq_append] at blank ⊢
    exact .blank (blank c (by simp))

theorem Blank.starts {gap rest : List Char} (blank : Blank gap) (before : StartsBlank rest) :
    StartsBlank (gap ++ rest) := by
  cases gap with
  | nil => exact before
  | cons c more => exact .blank (blank c List.mem_cons_self)

theorem trimEnd_cut (text : List Char) : ∃ back, Blank back ∧ text = trimEnd text ++ back := by
  induction text with
  | nil => exact ⟨[], nofun, rfl⟩
  | cons c rest ih =>
    obtain ⟨back, blank, same⟩ := ih
    unfold trimEnd
    cases kept : trimEnd rest with
    | nil =>
      rw [kept, List.nil_append] at same
      subst same
      dsimp only
      split
      next isBlank =>
        refine ⟨c :: rest, ?_, rfl⟩
        intro d member
        rcases List.mem_cons.mp member with rfl | inside
        · exact isBlank
        · exact blank d inside
      next => exact ⟨rest, blank, rfl⟩
    | cons d more =>
      rw [kept] at same
      exact ⟨back, blank, by simp [same]⟩

/-- Only blanks are trimmed. -/
theorem trim_cut (text : List Char) :
    ∃ front back, Blank front ∧ Blank back ∧ text = front ++ (trim text ++ back) := by
  obtain ⟨back, blank, same⟩ := trimEnd_cut (trimStart text)
  refine ⟨text.takeWhile isBlank, back, ?_, blank, ?_⟩
  · intro c member
    exact (List.all_eq_true.mp List.all_takeWhile) c member
  · unfold trim
    rw [← same]
    exact List.takeWhile_append_dropWhile.symm

theorem trimEnd_cons (c : Char) (rest : List Char) : trimEnd (c :: rest) =
    match trimEnd rest with
    | [] => if isBlank c then [] else [c]
    | kept => c :: kept := rfl

theorem trimEnd_append_blank {gap : List Char} (blank : Blank gap) (front : List Char) :
    trimEnd (front ++ gap) = trimEnd front := by
  induction front with
  | nil =>
    induction gap with
    | nil => rfl
    | cons c more ih =>
      have others : trimEnd more = [] := ih fun d member => blank d (List.mem_cons_of_mem c member)
      rw [List.nil_append, trimEnd_cons, others]
      exact if_pos (blank c List.mem_cons_self)
  | cons c rest ih => rw [List.cons_append, trimEnd_cons, ih, ← trimEnd_cons]

theorem trimEnd_trimEnd (text : List Char) : trimEnd (trimEnd text) = trimEnd text := by
  induction text with
  | nil => rfl
  | cons c rest ih =>
    rw [trimEnd_cons]
    cases kept : trimEnd rest with
    | nil =>
      dsimp only
      split
      next => rfl
      next visible => rw [trimEnd_cons, trimEnd, if_neg visible]
    | cons d more =>
      rw [kept] at ih
      dsimp only
      rw [trimEnd_cons, ih]

theorem trimStart_visible {c : Char} (visible : isBlank c = false) (rest : List Char) :
    trimStart (c :: rest) = c :: rest := by
  simp [trimStart, visible]

theorem trimEnd_visible_head {c : Char} (visible : isBlank c = false) (rest : List Char) :
    ∃ more, trimEnd (c :: rest) = c :: more := by
  rw [trimEnd_cons]
  cases trimEnd rest with
  | nil => exact ⟨[], by simp [visible]⟩
  | cons d more => exact ⟨d :: more, rfl⟩

theorem trim_trim (text : List Char) : trim (trim text) = trim text := by
  unfold trim
  cases opened : trimStart text with
  | nil => rfl
  | cons c rest =>
    have visible : isBlank c = false := by
      have first := List.head?_dropWhile_not isBlank text
      rw [← trimStart, opened] at first
      simpa using first
    obtain ⟨more, kept⟩ := trimEnd_visible_head visible rest
    rw [kept, trimStart_visible visible, ← kept, trimEnd_trimEnd]

/-- A line as it is printed: something stands in it, without blanks at its ends, and nothing that
ends a line. -/
structure Printed (line : List Char) : Prop where
  some : line ≠ []
  trimmed : trim line = line
  whole : ∀ c ∈ line, isLineEnd c = false

/-- A text is made of lines with line ends between them. The last line may be left open. -/
inductive Joined : List Char → List (List Char) → Prop where
  | nil : Joined [] []
  | last {line : List Char} (some : line ≠ []) (whole : ∀ c ∈ line, isLineEnd c = false) :
      Joined line [line]
  | cons {line ends rest : List Char} {more : List (List Char)}
      (whole : ∀ c ∈ line, isLineEnd c = false) (some : ends ≠ []) (blank : Blank ends)
      (below : Joined rest more) : Joined (line ++ (ends ++ rest)) (line :: more)

theorem isBlank_of_isLineEnd {c : Char} (ends : isLineEnd c = true) : isBlank c = true := by
  simp only [isLineEnd, isBlank, Bool.or_eq_true, Bool.and_eq_true, decide_eq_true_eq,
    beq_iff_eq] at ends ⊢
  omega

theorem joined_lines (text : List Char) : Joined text (lines text) := by
  induction text using lines.induct with
  | case1 => exact .nil
  | case2 rest ih =>
    have blank : Blank ['\r', '\n'] := List.all_eq_true.mp rfl
    have cut : Joined ([] ++ (['\r', '\n'] ++ rest)) ([] :: lines rest) :=
      .cons nofun (by simp) blank ih
    rw [lines]
    exact cut
  | case3 c rest apart ends ih =>
    have blank : ∀ d ∈ [c], isBlank d = true := by
      intro d member
      rw [List.mem_singleton.mp member]
      exact isBlank_of_isLineEnd ends
    have cut : Joined ([] ++ ([c] ++ rest)) ([] :: lines rest) := .cons nofun (by simp) blank ih
    rw [lines, if_pos ends]
    · exact cut
    · exact apart
  | case4 c rest _ stays ih =>
    have inside : isLineEnd c = false := by simpa using stays
    have within : ∀ {line : List Char}, (∀ d ∈ line, isLineEnd d = false) →
        ∀ d ∈ c :: line, isLineEnd d = false := by
      intro line whole d member
      rcases List.mem_cons.mp member with rfl | further
      · exact inside
      · exact whole d further
    rw [lines_cons inside]
    generalize lines rest = below at ih
    cases ih with
    | nil => exact .last (by simp) (within nofun)
    | last _ whole => exact .last (by simp) (within whole)
    | cons whole some blank below => exact .cons (within whole) some blank below

/-- A text printed with more blanks, down to a tail after it: a line feed stands for any run of
blanks. -/
inductive Spread (tail : List Char) : List Char → List Char → Prop where
  | done : Spread tail [] tail
  | keep {c : Char} {short long : List Char} (rest : Spread tail short long) :
      Spread tail (c :: short) (c :: long)
  | run {gap short long : List Char} (some : gap ≠ []) (blank : Blank gap)
      (rest : Spread tail short long) : Spread tail ('\n' :: short) (gap ++ long)

section
variable {tail middle one two long : List Char}

theorem spread_refl (text tail : List Char) : Spread tail text (text ++ tail) := by
  induction text with
  | nil => exact .done
  | cons c rest ih => exact .keep ih

theorem Spread.append (first : Spread middle one long) (second : Spread tail two middle) :
    Spread tail (one ++ two) long := by
  induction first with
  | done => exact second
  | keep _ ih => exact .keep ih
  | run some blank _ ih => exact .run some blank ih

theorem Spread.split (spread : Spread tail (one ++ two) long) :
    ∃ middle, Spread middle one long ∧ Spread tail two middle := by
  induction one generalizing long with
  | nil => exact ⟨long, .done, spread⟩
  | cons c rest ih =>
    cases spread with
    | keep below =>
      obtain ⟨middle, first, second⟩ := ih below
      exact ⟨middle, .keep first, second⟩
    | run some blank below =>
      obtain ⟨middle, first, second⟩ := ih below
      exact ⟨middle, .run some blank first, second⟩

theorem Spread.front (spread : Spread tail one long) : ∃ front, long = front ++ tail := by
  induction spread with
  | done => exact ⟨[], rfl⟩
  | @keep c _ _ _ ih =>
    obtain ⟨front, same⟩ := ih
    exact ⟨c :: front, by rw [same, List.cons_append]⟩
  | @run gap _ _ _ _ _ ih =>
    obtain ⟨front, same⟩ := ih
    exact ⟨gap ++ front, by rw [same, List.append_assoc]⟩

/-- A line feed is printed as some blanks. -/
theorem Spread.gap (spread : Spread tail ('\n' :: one) long) :
    ∃ gap below, gap ≠ [] ∧ Blank gap ∧ long = gap ++ below ∧ Spread tail one below := by
  cases spread with
  | keep rest => exact ⟨['\n'], _, by simp, List.all_eq_true.mp rfl, rfl, rest⟩
  | run some blank rest => exact ⟨_, _, some, blank, rfl, rest⟩

end

theorem unlines_append {one two : List (List Char)} (some : one ≠ []) (more : two ≠ []) :
    unlines (one ++ two) = unlines one ++ '\n' :: unlines two := by
  induction one with
  | nil => exact absurd rfl some
  | cons line rest ih =>
    cases rest with
    | nil =>
      cases two with
      | nil => exact absurd rfl more
      | cons next others => rfl
    | cons second others =>
      have below := ih (List.cons_ne_nil second others)
      simp only [List.cons_append, unlines] at below ⊢
      rw [below, List.append_assoc, List.cons_append]

/-- The printed lines of a text are its own text with fewer blanks. -/
theorem joined_spread {text : List Char} {below : List (List Char)} (joined : Joined text below) :
    ∃ gap rest tail, text = gap ++ rest ∧ Blank gap ∧ Blank tail ∧
      Spread tail (unlines ((below.map trim).filter (!·.isEmpty))) rest := by
  induction joined with
  | nil => exact ⟨[], [], [], rfl, nofun, nofun, .done⟩
  | @last line _ _ =>
    obtain ⟨front, back, blankFront, blankBack, same⟩ := trim_cut line
    cases kept : trim line with
    | nil =>
      rw [kept, List.nil_append] at same
      exact ⟨line, [], [], by simp, same ▸ blankFront.append blankBack, nofun,
        by simpa [kept] using .done⟩
    | cons c more =>
      rw [kept] at same
      exact ⟨front, _, back, same, blankFront, blankBack,
        by simpa [kept, unlines] using spread_refl (c :: more) back⟩
  | @cons line ends rest more _ someEnds blankEnds _ ih =>
    obtain ⟨gap, within, tail, cut, blankGap, blankTail, spread⟩ := ih
    obtain ⟨front, back, blankFront, blankBack, same⟩ := trim_cut line
    cases kept : trim line with
    | nil =>
      -- A blank line widens the gap before the line that is printed next.
      rw [kept, List.nil_append] at same
      refine ⟨line ++ (ends ++ gap), within, tail, by simp [cut], ?_, blankTail, by simpa [kept]⟩
      exact (same ▸ blankFront.append blankBack).append (blankEnds.append blankGap)
    | cons c others =>
      rw [kept] at same
      have between : Blank (back ++ (ends ++ gap)) :=
        blankBack.append (blankEnds.append blankGap)
      cases printed : (more.map trim).filter (!·.isEmpty) with
      | nil =>
        rw [printed] at spread
        cases spread
        refine ⟨front, (c :: others) ++ (back ++ (ends ++ gap) ++ within), _, ?_, blankFront,
          between.append blankTail, ?_⟩
        · rw [same, cut]
          simp
        · simpa [kept, printed, unlines] using spread_refl (c :: others) _
      | cons next following =>
        rw [printed] at spread
        refine ⟨front, (c :: others) ++ (back ++ (ends ++ gap) ++ within), tail, ?_, blankFront,
          blankTail, ?_⟩
        · rw [same, cut]
          simp
        · have apart : back ++ (ends ++ gap) ≠ [] := by simp [someEnds]
          simpa [kept, printed, unlines] using
            (spread_refl (c :: others) _).append (.run apart between spread)

/-- Lines that follow each other on a sign stand in its text with blanks around them, or at its
ends, and with blanks between them. -/
theorem printedLines_spread {text : List Char} {earlier mine later : List (List Char)}
    (printed : printedLines text = earlier ++ (mine ++ later)) (some : mine ≠ []) :
    ∃ before rest after, text = before ++ rest ∧ EndsBlank before ∧ StartsBlank after ∧
      Spread after (unlines mine) rest := by
  obtain ⟨gap, rest, tail, cut, blankGap, blankTail, spread⟩ := joined_spread (joined_lines text)
  rw [show (((lines text).map trim).filter (!·.isEmpty)) = printedLines text from rfl,
    printed] at spread
  have starts : ∃ before below, gap ++ rest = before ++ below ∧ EndsBlank before ∧
      Spread tail (unlines (mine ++ later)) below := by
    cases earlier with
    | nil => exact ⟨gap, rest, rfl, blankGap.ends, spread⟩
    | cons line others =>
      rw [unlines_append (List.cons_ne_nil line others) (by simp [some])] at spread
      obtain ⟨middle, first, second⟩ := spread.split
      obtain ⟨front, same⟩ := first.front
      obtain ⟨between, below, someBetween, blankBetween, sameMiddle, onward⟩ := second.gap
      refine ⟨gap ++ front ++ between, below, by simp [same, sameMiddle], ?_, onward⟩
      rcases List.eq_nil_or_concat between with rfl | ⟨most, c, rfl⟩
      · exact absurd rfl someBetween
      · rw [List.concat_eq_append, ← List.append_assoc]
        exact .blank (blankBetween c (by simp))
  obtain ⟨before, below, same, ends, onward⟩ := starts
  cases later with
  | nil =>
    rw [List.append_nil] at onward
    refine ⟨before, below, tail, cut.trans same, ends, ?_, onward⟩
    simpa using blankTail.starts .nothing
  | cons line others =>
    rw [unlines_append some (List.cons_ne_nil line others)] at onward
    obtain ⟨after, first, second⟩ := onward.split
    obtain ⟨between, _, someBetween, blankBetween, sameAfter, _⟩ := second.gap
    refine ⟨before, below, after, cut.trans same, ends, ?_, first⟩
    cases between with
    | nil => exact absurd rfl someBetween
    | cons c more =>
      rw [sameAfter]
      exact .blank (blankBetween c List.mem_cons_self)

theorem joined_whole {text : List Char} {below : List (List Char)} (joined : Joined text below) :
    ∀ line ∈ below, ∀ c ∈ line, isLineEnd c = false := by
  induction joined with
  | nil => nofun
  | last _ whole =>
    intro line member
    rw [List.mem_singleton.mp member]
    exact whole
  | cons whole _ _ _ ih =>
    intro line member
    rcases List.mem_cons.mp member with rfl | further
    · exact whole
    · exact ih line further

theorem joined_mem {text : List Char} {below : List (List Char)} (joined : Joined text below) :
    ∀ line ∈ below, ∀ c ∈ line, c ∈ text := by
  induction joined with
  | nil => nofun
  | last _ _ =>
    intro line member c inside
    rwa [← List.mem_singleton.mp member]
  | cons _ _ _ _ ih =>
    intro line member c inside
    rcases List.mem_cons.mp member with rfl | further
    · exact List.mem_append_left _ inside
    · exact List.mem_append_right _ (List.mem_append_right _ (ih line further c inside))

theorem mem_of_mem_trim {c : Char} {text : List Char} (member : c ∈ trim text) : c ∈ text := by
  obtain ⟨front, back, _, _, same⟩ := trim_cut text
  rw [same]
  simp [member]

/-- Nothing is printed on a line that does not stand in the text. -/
theorem mem_of_mem_printedLines {text line : List Char} (listed : line ∈ printedLines text)
    {c : Char} (member : c ∈ line) : c ∈ text := by
  obtain ⟨raw, inside, rfl⟩ := List.mem_map.mp (List.mem_filter.mp listed).1
  exact joined_mem (joined_lines text) raw inside c (mem_of_mem_trim member)

theorem printedLines_printed {text line : List Char} (member : line ∈ printedLines text) :
    Printed line := by
  obtain ⟨listed, some⟩ := List.mem_filter.mp member
  obtain ⟨raw, inside, rfl⟩ := List.mem_map.mp listed
  refine ⟨by simpa using some, trim_trim raw, ?_⟩
  intro c within
  exact joined_whole (joined_lines text) raw inside c (mem_of_mem_trim within)

theorem lines_append {line : List Char} (whole : ∀ c ∈ line, isLineEnd c = false)
    (rest : List Char) : lines (line ++ '\n' :: rest) = line :: lines rest := by
  induction line with
  | nil =>
    have apart : ∀ more, '\n' = '\r' → rest = '\n' :: more → False := by simp
    rw [List.nil_append, lines, if_pos (by decide)]
    exact apart
  | cons c more ih =>
    rw [List.cons_append, lines_cons (whole c List.mem_cons_self),
      ih fun d member => whole d (List.mem_cons_of_mem c member)]

theorem lines_whole {line : List Char} (some : line ≠ [])
    (whole : ∀ c ∈ line, isLineEnd c = false) : lines line = [line] := by
  induction line with
  | nil => exact absurd rfl some
  | cons c more ih =>
    rw [lines_cons (whole c List.mem_cons_self)]
    cases more with
    | nil => rfl
    | cons d others =>
      rw [ih (List.cons_ne_nil d others) fun e member => whole e (List.mem_cons_of_mem c member)]

theorem lines_unlines {below : List (List Char)} (printed : ∀ line ∈ below, Printed line) :
    lines (unlines below) = below := by
  induction below with
  | nil => rfl
  | cons line more ih =>
    have first := printed line List.mem_cons_self
    have others := ih fun other member => printed other (List.mem_cons_of_mem line member)
    cases more with
    | nil => exact lines_whole first.some first.whole
    | cons second rest => exact (lines_append first.whole _).trans (by rw [others])

/-- Printed lines that are written below each other are printed lines again. -/
theorem printedLines_unlines {below : List (List Char)} (printed : ∀ line ∈ below, Printed line) :
    printedLines (unlines below) = below := by
  have trimmed : below.map trim = below.map id :=
    List.map_congr_left fun line member => (printed line member).trimmed
  unfold printedLines
  rw [lines_unlines printed, trimmed, List.map_id, List.filter_eq_self]
  intro line member
  simpa using (printed line member).some

end Curbside.Proofs.Layout

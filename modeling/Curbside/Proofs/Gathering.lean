import Curbside.Proofs.Separation

/-! How the printed lines of a sign are gathered into clauses. Nothing is lost, doubled or moved, and
where a clause begins is said by the lines alone, so that there is one way only to divide them. What a
clause in the making remembers of its lines is what they say together. -/

namespace Curbside.Proofs.Gathering
open Text Sign Separation

abbrev Line : Type := List Char

/-- A line speaks of a kind of rule on its own. -/
def Speaks (line : Line) : Prop := ∃ find? ∈ finders, ∃ finding, find? (upper line) = some finding

/-- A line does not join some lines: it speaks of a kind, as one of them does, and together they contain
a time range or a day. -/
structure Breaks (lines : List Line) (line : Line) : Prop where
  speaks : Speaks line
  spoken : ∃ earlier ∈ lines, Speaks earlier
  timed : Clock.ranges (unlines (lines.map upper)) ≠ [] ∨
    Days.read (unlines (lines.map upper)) ≠ DaySet.empty

/-- When some lines have been read, the last of them are what the current group has so far. -/
def Standing (groups : List (List Line)) (read mine : List Line) : Prop :=
  mine ≠ [] ∧ ∃ earlier rest later,
    groups = earlier ++ (mine ++ rest) :: later ∧ read = earlier.flatten ++ mine

/-- Lines are divided into groups in their order, and a line begins a group exactly if it is the first
one or breaks with the lines that the current group has so far. -/
structure Divides (lines : List Line) (groups : List (List Line)) : Prop where
  whole : groups.flatten = lines
  some : ∀ group ∈ groups, group ≠ []
  begins_iff : ∀ before line after, lines = before ++ line :: after →
    (Standing groups (before ++ [line]) [line] ↔
      before = [] ∨ ∃ mine, Standing groups before mine ∧ Breaks mine line)

theorem isKindLine_iff (line : Line) : isKindLine line = true ↔ Speaks line := by
  simp only [isKindLine, isKindText, Speaks, List.any_eq_true, Option.isSome_iff_exists]

theorem isClosedBy_iff (clause : Clause) (line : Line) :
    clause.isClosedBy line = true ↔ Breaks clause.lines line := by
  simp only [Clause.isClosedBy, Clause.hasKind, Clause.hasTime, Clause.ranges, Clause.days,
    Clause.text, Bool.and_eq_true, Bool.or_eq_true, List.any_eq_true, isKindLine_iff,
    Bool.not_eq_true', List.isEmpty_eq_false_iff, bne_iff_ne]
  constructor
  · intro ⟨⟨speaks, spoken⟩, timed⟩
    exact ⟨speaks, spoken, timed⟩
  · intro breaks
    exact ⟨⟨breaks.speaks, breaks.spoken⟩, breaks.timed⟩

section
variable {groups earlier later : List (List Line)} {lines read mine others rest : List Line}
  {line : Line}

theorem standing (some : mine ≠ []) (earlier : List (List Line)) (rest : List Line)
    (later : List (List Line)) :
    Standing (earlier ++ (mine ++ rest) :: later) (earlier.flatten ++ mine) mine :=
  ⟨some, earlier, rest, later, rfl, rfl⟩

/-- No group can be current after one that holds all the lines that were read. -/
theorem standing_latest {skipped more : List (List Line)} {taken : List Line} (some : others ≠ [])
    (same : (mine ++ rest) :: later = skipped ++ (others ++ taken) :: more)
    (read : earlier.flatten ++ mine = (earlier ++ skipped).flatten ++ others) : mine = others := by
  cases skipped with
  | nil =>
    rw [List.append_nil] at read
    exact List.append_cancel_left read
  | cons group skipped =>
    obtain ⟨rfl, _⟩ := List.cons.inj same
    have lengths := congrArg List.length read
    have positive := List.length_pos_iff.mpr some
    simp only [List.flatten_append, List.flatten_cons, List.length_append] at lengths
    omega

theorem Standing.unique (one : Standing groups read mine) (two : Standing groups read others) :
    mine = others := by
  obtain ⟨some, earlier, rest, later, rfl, rfl⟩ := one
  obtain ⟨someOthers, before, taken, more, same, read⟩ := two
  rcases List.append_eq_append_iff.mp same with ⟨skipped, rfl, below⟩ | ⟨skipped, rfl, below⟩
  · exact standing_latest someOthers below read
  · exact (standing_latest some below read.symm).symm

end

def gathered : List Line → List Clause
  | [] => []
  | line :: rest => Clause.gather ⟨[line]⟩ rest

theorem clauses_eq (text : List Char) : clauses text = gathered (printedLines text) := rfl

theorem gather_append (start : Clause) (read : List Line) :
    ∃ closed current, ∀ after,
      Clause.gather start (read ++ after) = closed ++ Clause.gather current after := by
  induction read generalizing start with
  | nil => exact ⟨[], start, fun after => rfl⟩
  | cons line read ih =>
    simp only [List.cons_append, Clause.gather]
    split
    · obtain ⟨closed, current, onward⟩ := ih ⟨[line]⟩
      exact ⟨start :: closed, current, fun after => congrArg (start :: ·) (onward after)⟩
    · exact ih (start.add line)

theorem gather_head (start : Clause) (rest : List Line) :
    ∃ taken more, Clause.gather start rest = ⟨start.lines ++ taken⟩ :: more := by
  induction rest generalizing start with
  | nil => exact ⟨[], [], by simp [Clause.gather]⟩
  | cons line rest ih =>
    simp only [Clause.gather]
    split
    · exact ⟨[], _, by rw [List.append_nil]⟩
    · obtain ⟨taken, more, same⟩ := ih (start.add line)
      refine ⟨line :: taken, more, ?_⟩
      rw [same]
      simp [Clause.add]

/-- What is known when some lines have been read: the clauses that are closed and the current one. All
else depends on the lines that follow. -/
structure Pending (read : List Line) (closed : List Clause) (current : Clause) : Prop where
  onward : ∀ after, gathered (read ++ after) = closed ++ Clause.gather current after
  whole : read = (closed.map (·.lines)).flatten ++ current.lines
  some : current.lines ≠ []

section
variable {read after mine : List Line} {closed : List Clause} {current : Clause} {line : Line}

theorem exists_pending (some : read ≠ []) : ∃ closed current, Pending read closed current := by
  obtain ⟨first, more, rfl⟩ := List.exists_cons_of_ne_nil some
  obtain ⟨closed, current, onward⟩ := gather_append ⟨[first]⟩ more
  have now : Clause.gather ⟨[first]⟩ more = closed ++ [current] := by
    have ended := onward []
    rwa [List.append_nil] at ended
  have listed : current ∈ Clause.gather ⟨[first]⟩ more := by simp [now]
  obtain ⟨opening, others, lines, _⟩ := gather_whole (.single first) listed
  have whole := gather_lines ⟨[first]⟩ more
  refine ⟨closed, current, onward, ?_, lines ▸ List.cons_ne_nil opening others⟩
  simpa [now, List.flatMap_def] using whole.symm

theorem Pending.standing_iff (pending : Pending read closed current) :
    Standing ((gathered (read ++ after)).map (·.lines)) read mine ↔ mine = current.lines := by
  obtain ⟨taken, more, opens⟩ := gather_head current after
  have stands : Standing ((gathered (read ++ after)).map (·.lines)) read current.lines := by
    refine ⟨pending.some, closed.map (·.lines), taken, more.map (·.lines), ?_, pending.whole⟩
    simp only [pending.onward, opens, List.map_append, List.map_cons]
  constructor
  · exact fun other => other.unique stands
  · rintro rfl
    exact stands

theorem Pending.close (pending : Pending read closed current)
    (closes : current.isClosedBy line = true) :
    Pending (read ++ [line]) (closed ++ [current]) ⟨[line]⟩ := by
  have whole := pending.whole
  refine ⟨?_, by simp [← whole], List.cons_ne_nil line []⟩
  intro after
  simp [pending.onward, Clause.gather, closes]

theorem Pending.join (pending : Pending read closed current)
    (joins : current.isClosedBy line = false) :
    Pending (read ++ [line]) closed (current.add line) := by
  have whole := pending.whole
  refine ⟨?_, by simp [Clause.add, ← whole, ← List.append_assoc], by simp [Clause.add]⟩
  intro after
  simp [pending.onward, Clause.gather, joins]

theorem Pending.begins_iff (pending : Pending read closed current) :
    Standing ((gathered (read ++ line :: after)).map (·.lines)) (read ++ [line]) [line] ↔
      current.isClosedBy line = true := by
  rw [List.append_cons]
  cases closes : current.isClosedBy line with
  | true => exact iff_of_true ((pending.close closes).standing_iff.mpr rfl) rfl
  | false =>
    rw [(pending.join closes).standing_iff]
    simp [Clause.add, pending.some]

end

theorem gathered_divides (lines : List Line) : Divides lines ((gathered lines).map (·.lines)) := by
  refine ⟨?_, ?_, ?_⟩
  · cases lines with
    | nil => rfl
    | cons line rest => exact gather_lines ⟨[line]⟩ rest
  · intro group member
    obtain ⟨clause, listed, rfl⟩ := List.mem_map.mp member
    cases lines with
    | nil => cases listed
    | cons line rest =>
      obtain ⟨first, others, same, _⟩ := gather_whole (.single line) listed
      exact same ▸ List.cons_ne_nil first others
  · rintro before line after rfl
    by_cases first : before = []
    · subst first
      obtain ⟨taken, more, opens⟩ := gather_head ⟨[line]⟩ after
      refine iff_of_true ⟨List.cons_ne_nil line [], [], taken, more.map (·.lines), ?_, rfl⟩ (Or.inl rfl)
      simp [gathered, opens]
    · -- The clause that is current after the lines before decides, whatever comes after.
      obtain ⟨closed, current, pending⟩ := exists_pending first
      simp only [pending.begins_iff, pending.standing_iff, isClosedBy_iff, first, false_or,
        exists_eq_left]

section
variable {groups earlier later : List (List Line)} {lines mine rest : List Line} {line : Line}

theorem Divides.joins (divides : Divides lines (earlier ++ (mine ++ line :: rest) :: later))
    (some : mine ≠ []) : ¬ Breaks mine line := by
  intro breaks
  have before := standing some earlier (line :: rest) later
  have more := standing (List.append_ne_nil_of_left_ne_nil some [line]) earlier rest later
  rw [← List.append_assoc, List.append_assoc, List.singleton_append] at more
  have split : lines = earlier.flatten ++ mine ++ line :: (rest ++ later.flatten) := by
    rw [← divides.whole]
    simp
  have begins := (divides.begins_iff _ line _ split).mpr (Or.inr ⟨mine, before, breaks⟩)
  exact some (List.append_left_eq_self.mp (begins.unique more).symm)

theorem Divides.breaks (divides : Divides lines (earlier ++ mine :: (line :: rest) :: later)) :
    Breaks mine line := by
  have some : mine ≠ [] := divides.some mine (by simp)
  have split : lines = earlier.flatten ++ mine ++ line :: (rest ++ later.flatten) := by
    rw [← divides.whole]
    simp
  have begins := standing (List.cons_ne_nil line []) (earlier ++ [mine]) rest later
  have before := standing some earlier [] ((line :: rest) :: later)
  simp only [List.flatten_append, List.flatten_singleton, List.append_assoc, List.singleton_append,
    List.append_nil] at begins before
  rw [← List.append_assoc] at begins
  rcases (divides.begins_iff _ line _ split).mp begins with first | ⟨current, stands, breaks⟩
  · exact absurd (List.append_eq_nil_iff.mp first).2 some
  · exact stands.unique before ▸ breaks

theorem Divides.gather_joined (divides : Divides lines (earlier ++ (mine ++ rest) :: later))
    (some : mine ≠ []) (after : List Line) :
    Clause.gather ⟨mine⟩ (rest ++ after) = Clause.gather ⟨mine ++ rest⟩ after := by
  induction rest generalizing mine with
  | nil => simp
  | cons line rest ih =>
    have joins := divides.joins some
    have next : Divides lines (earlier ++ (mine ++ [line] ++ rest) :: later) := by
      simpa using divides
    rw [← isClosedBy_iff ⟨mine⟩] at joins
    have below := ih next (by simp)
    rw [List.append_assoc] at below
    rw [List.cons_append, Clause.gather, if_neg joins]
    exact below

theorem Divides.gather_groups (divides : Divides lines (earlier ++ mine :: later)) :
    (Clause.gather ⟨mine⟩ later.flatten).map (·.lines) = mine :: later := by
  induction later generalizing earlier mine with
  | nil => rfl
  | cons group later ih =>
    obtain ⟨line, rest, rfl⟩ := List.exists_cons_of_ne_nil (divides.some group (by simp))
    have breaks := (isClosedBy_iff ⟨mine⟩ line).mpr divides.breaks
    have next : Divides lines ((earlier ++ [mine]) ++ ([line] ++ rest) :: later) := by
      simpa using divides
    rw [List.flatten_cons, List.cons_append, Clause.gather, if_pos breaks, List.map_cons,
      next.gather_joined (List.cons_ne_nil line []), List.singleton_append]
    exact congrArg (mine :: ·) (ih next)

theorem divides_iff : Divides lines groups ↔ groups = (gathered lines).map (·.lines) := by
  constructor
  · intro divides
    cases groups with
    | nil =>
      rw [← divides.whole]
      rfl
    | cons group later =>
      obtain ⟨line, rest, rfl⟩ := List.exists_cons_of_ne_nil (divides.some group (by simp))
      have first : Divides lines ([] ++ ([line] ++ rest) :: later) := divides
      rw [← divides.whole, List.flatten_cons, List.cons_append, gathered,
        first.gather_joined (List.cons_ne_nil line [])]
      exact first.gather_groups.symm
  · rintro rfl
    exact gathered_divides lines

end

/-- A clause in the making, with what is remembered of its lines. -/
structure Draft where
  lines : List Line
  hasKind : Bool
  ranges : List (Minute × Minute)
  days : DaySet

namespace Draft

def blank : Draft := ⟨[], false, [], DaySet.empty⟩

def hasTime (draft : Draft) : Bool := !draft.ranges.isEmpty || draft.days != DaySet.empty

def add (draft : Draft) (line : Line) : Draft :=
  let lines := draft.lines ++ [line]
  let text := unlines (lines.map upper)
  ⟨lines, draft.hasKind || isKindLine line, Clock.ranges text, Days.read text⟩

end Draft

/-- A sign that is read line by line. -/
structure Progress where
  closed : List Draft
  current : Option Draft

namespace Progress

def start : Progress := ⟨[], none⟩

def drafts (progress : Progress) : List Draft := progress.closed ++ progress.current.toList

def take (progress : Progress) (raw : Line) : Progress :=
  let line := trim raw
  if line.isEmpty then progress
  else
    match progress.current with
    | none => ⟨progress.closed, some (Draft.blank.add line)⟩
    | some draft =>
      if isKindLine line && draft.hasKind && draft.hasTime then
        ⟨progress.closed ++ [draft], some (Draft.blank.add line)⟩
      else ⟨progress.closed, some (draft.add line)⟩

end Progress

/-- The clauses of a text as they are made, line by line. -/
def drafts (text : List Char) : List Draft := ((lines text).foldl Progress.take .start).drafts

def Draft.ofClause (clause : Clause) : Draft :=
  ⟨clause.lines, clause.hasKind, clause.ranges, clause.days⟩

theorem add_blank (line : Line) : Draft.blank.add line = .ofClause ⟨[line]⟩ := by
  simp [Draft.add, Draft.blank, Draft.ofClause, Clause.hasKind, Clause.ranges, Clause.days,
    Clause.text]

theorem add_ofClause (clause : Clause) (line : Line) :
    (Draft.ofClause clause).add line = .ofClause (clause.add line) := by
  simp [Draft.add, Draft.ofClause, Clause.add, Clause.hasKind, Clause.ranges, Clause.days,
    Clause.text]

theorem take_printed {raw : Line} (printed : (trim raw).isEmpty = false) (closed : List Draft)
    (clause : Clause) :
    Progress.take ⟨closed, some (.ofClause clause)⟩ raw =
      if clause.isClosedBy (trim raw) then
        ⟨closed ++ [.ofClause clause], some (.ofClause ⟨[trim raw]⟩)⟩
      else ⟨closed, some (.ofClause (clause.add (trim raw)))⟩ := by
  simp only [Progress.take, printed, Bool.false_eq_true, if_false, add_blank, add_ofClause]
  rfl

theorem foldl_take (raws : List Line) (closed : List Draft) (clause : Clause) :
    (raws.foldl Progress.take ⟨closed, some (.ofClause clause)⟩).drafts =
      closed ++ (Clause.gather clause ((raws.map trim).filter (!·.isEmpty))).map .ofClause := by
  induction raws generalizing closed clause with
  | nil => rfl
  | cons raw raws ih =>
    cases empty : (trim raw).isEmpty with
    | true => simpa [Progress.take, empty] using ih closed clause
    | false =>
      rw [List.foldl_cons, take_printed empty, List.map_cons,
        List.filter_cons_of_pos (by simp [empty]), Clause.gather]
      split
      · simp [ih]
      · exact ih closed _

theorem drafts_eq (text : List Char) : drafts text = (clauses text).map .ofClause := by
  rw [clauses_eq]
  unfold drafts printedLines
  induction lines text with
  | nil => rfl
  | cons raw raws ih =>
    cases empty : (trim raw).isEmpty with
    | true => simpa [Progress.take, empty] using ih
    | false =>
      have first : Progress.take .start raw = ⟨[], some (.ofClause ⟨[trim raw]⟩)⟩ := by
        simp [Progress.take, Progress.start, empty, add_blank]
      rw [List.foldl_cons, first, foldl_take, List.map_cons,
        List.filter_cons_of_pos (by simp [empty])]
      rfl

/-- The clauses of a sign are the one division of its printed lines, and each of them, as it is made line
by line, remembers what its lines say together. -/
theorem clauses_divide_lines (text : List Char) :
    (∀ groups, Divides (printedLines text) groups ↔ groups = (clauses text).map (·.lines)) ∧
      (drafts text).map (·.lines) = (clauses text).map (·.lines) ∧
      ∀ draft ∈ drafts text, (draft.hasKind = true ↔ ∃ line ∈ draft.lines, Speaks line) ∧
        draft.ranges = Clock.ranges (unlines (draft.lines.map upper)) ∧
        draft.days = Days.read (unlines (draft.lines.map upper)) := by
  refine ⟨fun groups => divides_iff, ?_, ?_⟩
  · rw [drafts_eq, List.map_map]
    rfl
  · intro draft member
    rw [drafts_eq] at member
    obtain ⟨clause, _, rfl⟩ := List.mem_map.mp member
    refine ⟨?_, rfl, rfl⟩
    simp only [Draft.ofClause, Clause.hasKind, List.any_eq_true, isKindLine_iff]

end Curbside.Proofs.Gathering

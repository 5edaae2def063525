import Curbside.Proofs.Extraction
import Curbside.Proofs.Squeezing

/-! Blanks around the lines of a sign say nothing. A line may be indented or padded and blank lines
may come between two lines: the printed lines stay what they are, and with them the clauses and what
is posted for the sign as a whole. -/

namespace Curbside.Proofs.Airing
open Text Sign Layout Confidence Extraction Squeezing

/-- A part of a line, without a line end. -/
def WithinLine (text : List Char) : Prop := ∀ c ∈ text, isLineEnd c = false

theorem WithinLine.nothing : WithinLine [] := fun _ member => absurd member List.not_mem_nil

theorem WithinLine.append {one two : List Char} (first : WithinLine one) (second : WithinLine two) :
    WithinLine (one ++ two) := by
  intro c member
  rcases List.mem_append.mp member with inside | inside
  · exact first c inside
  · exact second c inside

/-- A text has one line, or a line end behind its first line and more text after that. -/
theorem line_induction {motive : List Char → Prop}
    (last : ∀ line, WithinLine line → motive line)
    (more : ∀ line c rest, WithinLine line → isLineEnd c = true → motive rest →
      motive (line ++ c :: rest)) (text : List Char) : motive text := by
  have behind (line : List Char) (whole : WithinLine line) : motive (line ++ text) := by
    induction text generalizing line with
    | nil =>
      rw [List.append_nil]
      exact last line whole
    | cons c rest ih =>
      cases ends : isLineEnd c with
      | true => exact more line c rest whole ends (ih [] .nothing)
      | false =>
        have longer : WithinLine (line ++ [c]) := whole.append (by simpa [WithinLine] using ends)
        simpa using ih (line ++ [c]) longer
  exact behind [] .nothing

theorem printedLines_within {line : List Char} (whole : WithinLine line) :
    printedLines line = [trim line].filter (!·.isEmpty) := by
  cases line with
  | nil => rfl
  | cons c rest => rw [printedLines, lines_whole (List.cons_ne_nil c rest) whole, List.map_singleton]

theorem lines_behind {line text : List Char} {more : List (List Char)} (whole : WithinLine line)
    (opened : lines text = [] :: more) : lines (line ++ text) = line :: more := by
  induction line with
  | nil => exact opened
  | cons c rest ih =>
    rw [List.cons_append, lines_cons (whole c List.mem_cons_self),
      ih fun d member => whole d (List.mem_cons_of_mem c member)]

/-- A line end opens a line that may be taken as two, of which the first is blank. -/
theorem lines_lineEnd {c : Char} (ends : isLineEnd c = true) (rest : List Char) :
    ∃ more, lines (c :: rest) = [] :: more ∧
      (more.map trim).filter (!·.isEmpty) = printedLines rest := by
  by_cases pair : c = '\r' ∧ ∃ below, rest = '\n' :: below
  · obtain ⟨same, below, next⟩ := pair
    subst same next
    refine ⟨lines below, by rw [lines], ?_⟩
    have feed : lines ('\n' :: below) = [] :: lines below := lines_append WithinLine.nothing below
    rw [printedLines, feed]
    rfl
  · refine ⟨lines rest, ?_, rfl⟩
    rw [lines, if_pos ends]
    intro below first next
    exact pair ⟨first, below, next⟩

theorem printedLines_cut {line : List Char} (whole : WithinLine line) {c : Char}
    (ends : isLineEnd c = true) (rest : List Char) :
    printedLines (line ++ c :: rest) = printedLines line ++ printedLines rest := by
  obtain ⟨more, opened, printed⟩ := lines_lineEnd ends rest
  rw [printedLines, lines_behind whole opened, printedLines_within whole, ← printed,
    ← List.filter_append, List.map_cons, List.singleton_append]

/-- The printed lines before a line end and those after it are those of the whole text. -/
theorem printedLines_append (front : List Char) {c : Char} (ends : isLineEnd c = true)
    (back : List Char) :
    printedLines (front ++ c :: back) = printedLines front ++ printedLines back := by
  induction front using line_induction with
  | last line whole => exact printedLines_cut whole ends back
  | more line d rest whole lineEnd ih =>
    rw [List.append_assoc, List.cons_append, printedLines_cut whole lineEnd, ih,
      printedLines_cut whole lineEnd, List.append_assoc]

section
variable {gap : List Char} (blank : Blank gap)
include blank

theorem trimStart_gap (text : List Char) : trimStart (gap ++ text) = trimStart text := by
  induction gap with
  | nil => rfl
  | cons c more ih =>
    have first := blank c List.mem_cons_self
    rw [List.cons_append, trimStart, List.dropWhile_cons, if_pos first]
    exact ih fun d member => blank d (List.mem_cons_of_mem c member)

theorem trim_gap_append (text : List Char) : trim (gap ++ text) = trim text := by
  rw [trim, trimStart_gap blank, trim]

theorem trim_append_gap (text : List Char) : trim (text ++ gap) = trim text := by
  induction text with
  | nil =>
    have nothing := trim_gap_append blank []
    rwa [List.append_nil] at nothing
  | cons c rest ih =>
    cases seen : isBlank c with
    | true =>
      have front : Blank [c] := by simpa [Blank] using seen
      have shorter := trim_gap_append front
      simp only [List.singleton_append] at shorter
      rw [List.cons_append, shorter, ih, shorter]
    | false =>
      rw [List.cons_append, trim, trimStart_visible seen, trim, trimStart_visible seen,
        ← List.cons_append, trimEnd_append_blank blank]

theorem printedLines_blank : printedLines gap = [] := by
  induction gap using line_induction with
  | last line whole =>
    have nothing := trim_gap_append blank []
    rw [List.append_nil] at nothing
    rw [printedLines_within whole, nothing]
    rfl
  | more line c rest whole ends ih =>
    have before : Blank line := fun d member => blank d (List.mem_append_left _ member)
    have after : Blank rest := fun d member => blank d (by simp [member])
    have nothing := trim_gap_append before []
    rw [List.append_nil] at nothing
    rw [printedLines_cut whole ends, ih after, printedLines_within whole, nothing]
    rfl

theorem printedLines_indented (text : List Char) :
    printedLines (gap ++ text) = printedLines text := by
  induction gap using line_induction with
  | more line c rest whole ends ih =>
    have before : Blank line := fun d member => blank d (List.mem_append_left _ member)
    have after : Blank rest := fun d member => blank d (by simp [member])
    rw [List.append_assoc, List.cons_append, printedLines_cut whole ends, printedLines_blank before,
      ih after, List.nil_append]
  | last gap within =>
    -- What is put in stays on the first line of the text.
    induction text using line_induction with
    | last line whole =>
      rw [printedLines_within (within.append whole), trim_gap_append blank,
        printedLines_within whole]
    | more line c rest whole ends _ =>
      rw [← List.append_assoc, printedLines_cut (within.append whole) ends,
        printedLines_within (within.append whole), trim_gap_append blank,
        printedLines_cut whole ends, printedLines_within whole]

theorem printedLines_padded (text : List Char) :
    printedLines (text ++ gap) = printedLines text := by
  induction text using line_induction with
  | more line c rest whole ends ih =>
    rw [List.append_assoc, List.cons_append, printedLines_cut whole ends, ih,
      printedLines_cut whole ends]
  | last line whole =>
    -- What is put in begins on the last line of the text.
    induction gap using line_induction with
    | last gap within =>
      rw [printedLines_within (whole.append within), trim_append_gap blank,
        printedLines_within whole]
    | more gap c rest within ends _ =>
      have before : Blank gap := fun d member => blank d (List.mem_append_left _ member)
      have after : Blank rest := fun d member => blank d (by simp [member])
      rw [← List.append_assoc, printedLines_cut (whole.append within) ends,
        printedLines_within (whole.append within), trim_append_gap before,
        printedLines_blank after, List.append_nil, printedLines_within whole]

end

/-- A line starts behind a text: nothing stands there, or a line end does. -/
inductive StartsLine : List Char → Prop where
  | nothing : StartsLine []
  | lineEnd {most : List Char} {c : Char} (ends : isLineEnd c = true) : StartsLine (most ++ [c])

/-- A line ends before a text: nothing stands there, or a line end does. -/
inductive EndsLine : List Char → Prop where
  | nothing : EndsLine []
  | lineEnd {c : Char} {rest : List Char} (ends : isLineEnd c = true) : EndsLine (c :: rest)

/-- A text written with more air. Blanks, line ends among them, are put in where a line starts or
ends, again and again: lines are indented or padded, and blank lines come between them. -/
inductive Aired (text : List Char) : List Char → Prop where
  | same : Aired text text
  | before {front gap back : List Char} (aired : Aired text (front ++ back))
      (starts : StartsLine front) (blank : Blank gap) : Aired text (front ++ (gap ++ back))
  | after {front gap back : List Char} (aired : Aired text (front ++ back))
      (ends : EndsLine back) (blank : Blank gap) : Aired text (front ++ (gap ++ back))

theorem StartsLine.printedLines {front : List Char} (starts : StartsLine front)
    (back : List Char) :
    printedLines (front ++ back) = printedLines front ++ printedLines back := by
  cases starts with
  | nothing => rfl
  | @lineEnd most c ends =>
    have nothing : Sign.printedLines [] = [] := rfl
    rw [List.append_assoc, List.singleton_append, printedLines_append most ends,
      printedLines_append most ends, nothing, List.append_nil]

/-- A text with more air has the same printed lines. -/
theorem Aired.printedLines {text other : List Char} (aired : Aired text other) :
    printedLines other = printedLines text := by
  induction aired with
  | same => rfl
  | @before front gap back _ starts blank ih =>
    rw [starts.printedLines, printedLines_indented blank, ← starts.printedLines, ih]
  | @after front gap back _ ends blank ih =>
    rw [← ih, ← List.append_assoc]
    cases ends with
    | nothing => rw [List.append_nil, List.append_nil, printedLines_padded blank]
    | @lineEnd c rest ends =>
      rw [printedLines_append _ ends, printedLines_padded blank, printedLines_append _ ends]

/-- A rule with the words of another text. -/
def retold (text : List Char) (rule : Rule) : Rule :=
  { rule with rawText := String.ofList (trim text) }

/-- Cars are towed and no clause of a text restricts anything, so that a ban on parking is meant
beside the rules that the clauses state. The words of the ban are those of the whole text. -/
structure TowsAlone (quality : Option Binary64) (text : List Char) (stated towing : List Rule) :
    Prop where
  byClauses : stated = clauseRules (Posted.ofText (upper text)) quality (clauses text)
  quiet : ∀ rule ∈ stated, rule.isRestrictive = false
  fallback : towing = towRules (Posted.ofText (upper text)) quality (clauses text) text
  bans : ∀ rule ∈ towing, rule.kind = .noParking ∧ rule.severity = .towAway ∧
    rule.rawText = String.ofList (trim text)

/-- Two texts give the same rules, but for the words of a sign of which nothing is understood, and
but for those of the ban that is meant where cars are towed and no clause restricts anything. -/
inductive SameBut (quality : Option Binary64) (text other : List Char) :
    List Rule → List Rule → Prop where
  | same (rules : List Rule) : SameBut quality text other rules rules
  | unknown : SameBut quality text other [unknownRule text] [unknownRule other]
  | towed {stated towing : List Rule} (alone : TowsAlone quality text stated towing) :
      SameBut quality text other (stated ++ towing) (stated ++ towing.map (retold other))

theorem SameBut.refused {quality : Option Binary64} {text other : List Char}
    {rules others : List Rule} (same : SameBut quality text other rules others)
    (refuses : Binary64 → Bool) :
    others.any (fun rule => refuses rule.confidence) =
      rules.any fun rule => refuses rule.confidence := by
  cases same with
  | same => rfl
  | unknown => rfl
  | towed =>
    rw [List.any_append, List.any_map, List.any_append]
    rfl

section
variable {quality : Option Binary64} {text other : List Char}

theorem towRules_retold (posted : Posted) (signs : List Clause) :
    towRules posted quality signs other =
      (towRules posted quality signs text).map (retold other) := by
  simp only [towRules, rulesOf, List.map_map, Function.comp_def, retold]

theorem towRules_tow {posted : Posted} (towAway : posted.towAway = true) {signs : List Clause} :
    ∀ rule ∈ towRules posted quality signs text,
      rule.kind = .noParking ∧ rule.severity = .towAway ∧
        rule.rawText = String.ofList (trim text) := by
  intro rule member
  obtain ⟨window, _, same⟩ := List.mem_map.mp member
  subst same
  refine ⟨rfl, ?_, rfl⟩
  have provision : posted.provision .noParking = ⟨.noParking, .towAway, posted.fine⟩ := by
    rw [Posted.provision, towAway]
    rfl
  exact congrArg Provision.severity provision

/-- What a sign says hangs on its printed lines. -/
theorem readRules_printed (printed : printedLines other = printedLines text) :
    SameBut quality text other (readRules quality text) (readRules quality other) := by
  have posted := posted_printed printed
  have signs : clauses other = clauses text := by
    unfold clauses
    rw [printed]
  let stated := clauseRules (Posted.ofText (upper text)) quality (clauses text)
  let towing := towRules (Posted.ofText (upper text)) quality (clauses text)
  by_cases warned : ((Posted.ofText (upper text)).towAway &&
      !stated.any Rule.isRestrictive) = true
  · have here : foundRules quality text = stated ++ towing text := if_pos warned
    have there : foundRules quality other = stated ++ towing other := by
      unfold foundRules
      rw [posted, signs]
      exact if_pos warned
    have some (words : List Char) : ¬ (stated ++ towing words).isEmpty = true := by
      rw [List.isEmpty_iff]
      exact fun none => rulesOf_ne_nil (List.append_eq_nil_iff.mp none).2
    obtain ⟨towAway, quiet⟩ := (Bool.and_eq_true ..).mp warned
    rw [readRules_eq, here, if_neg (some text), readRules_eq, there, if_neg (some other),
      show towing other = (towing text).map (retold other) from towRules_retold _ _]
    refine .towed ⟨rfl, ?_, rfl, towRules_tow towAway⟩
    intro rule member
    rw [Bool.not_eq_true', List.any_eq_false] at quiet
    exact Bool.eq_false_iff.mpr (quiet rule member)
  · have here : foundRules quality text = stated := if_neg warned
    have there : foundRules quality other = stated := by
      unfold foundRules
      rw [posted, signs]
      exact if_neg warned
    rw [readRules_eq, here, readRules_eq, there]
    split
    · exact .unknown
    · exact .same stated

end

/-- A text with more air gives the same rules, but for the words of a sign that is not understood or
that only warns of towing. It is refused where the other is, and neither is if the text could be
read at all. -/
theorem air_says_nothing (quality : Option Binary64) {text other : List Char}
    (aired : Aired text other) :
    (∀ rules, extract quality text = .ok rules →
      ∃ others, extract quality other = .ok others ∧ SameBut quality text other rules others) ∧
    (∀ failure, extract quality text = .error failure → extract quality other = .error failure) ∧
    ((∀ q ∈ quality, IsBetween (.ofInt 0) (.ofInt 1) q) →
      ∃ rules, extract quality text = .ok rules) := by
  have same : SameBut quality text other (readRules quality text) (readRules quality other) :=
    readRules_printed aired.printedLines
  have refused := same.refused fun confidence => confidence.lt (Binary64.ofInt 0)
  refine ⟨?_, ?_, fun readable => ⟨_, extract_eq readable⟩⟩
  · intro rules answered
    rw [extract] at answered ⊢
    rw [refused]
    split at answered
    · cases answered
    next accepted =>
      cases answered
      exact ⟨_, if_neg accepted, same⟩
  · intro failure failed
    rw [extract] at failed ⊢
    rw [refused]
    split at failed
    next below =>
      cases failed
      exact if_pos below
    · cases failed

def towSignBelow : List Char := "\naway zone\n$65 fine".toList

def closeSign : List Char := "Tow".toList ++ towSignBelow

def airySign : List Char := "Tow  \n\n\taway zone\n$65 fine".toList

/-- Cars are towed where the two words stand far apart, too. -/
theorem airy_sign_tows : Aired closeSign airySign ∧ ∃ rules others,
    extract none closeSign = .ok rules ∧ extract none airySign = .ok others ∧
    rules.map (fun rule => (rule.severity, rule.rawText)) =
      [(.towAway, String.ofList closeSign)] ∧
    SameBut none closeSign airySign rules others := by
  have aired : Aired closeSign airySign := by
    have padded : Aired closeSign ("Tow".toList ++ ("  \n".toList ++ towSignBelow)) :=
      .after .same (.lineEnd (by decide)) (List.all_eq_true.mp (by decide))
    have cut : "Tow".toList ++ ("  \n".toList ++ towSignBelow) =
        ("Tow  \n".toList ++ ['\n']) ++ "away zone\n$65 fine".toList := by decide
    rw [cut] at padded
    have tab : Blank ['\t'] := List.all_eq_true.mp (by decide)
    exact .before padded (.lineEnd (by decide)) tab
  obtain ⟨kept, _, answered⟩ := air_says_nothing none aired
  obtain ⟨rules, printed⟩ := answered nofun
  obtain ⟨others, read, same⟩ := kept rules printed
  have towed : (extract none closeSign).toOption.map
      (List.map fun rule => (rule.severity, rule.rawText)) =
        some [(.towAway, String.ofList closeSign)] := by
    decide +kernel
  rw [printed] at towed
  exact ⟨aired, rules, others, printed, read, Option.some.inj towed, same⟩

end Curbside.Proofs.Airing

import Curbside.Proofs.Layout
import Curbside.Proofs.Reading
import Curbside.Sign.Extract

/-! Phrases that stay what they are when a sign is printed with more blanks. Between two words of
such a phrase any run of blanks is as good as another, so that a phrase on some lines of a sign is a
phrase on the sign. -/

namespace Curbside.Proofs.Phrases
open Text Pattern Sign Layout Reading

/-! What is said of the characters of a text is decided by going through the text, never through
all characters there are. -/

instance decidableEach (text : List Char) (P : Char → Prop) [DecidablePred P] :
    Decidable (∀ c ∈ text, P c) :=
  List.decidableBAll P text

instance decidableSome (text : List Char) (P : Char → Prop) [DecidablePred P] :
    Decidable (∃ c ∈ text, P c) :=
  List.decidableBEx P text

/-- The first and last code points of unbroken rows of blanks. -/
def blankRows : List (Nat × Nat) :=
  [(9, 13), (28, 32), (0x85, 0x85), (0xA0, 0xA0), (0x1680, 0x1680), (0x2000, 0x200A),
    (0x2028, 0x2029), (0x202F, 0x202F), (0x205F, 0x205F), (0x3000, 0x3000)]

theorem mem_blankRows {c : Char} (blank : isBlank c = true) :
    ∃ row ∈ blankRows, row.1 ≤ c.toNat ∧ c.toNat ≤ row.2 := by
  simp only [isBlank, Bool.or_eq_true, Bool.and_eq_true, decide_eq_true_eq, beq_iff_eq] at blank
  simp only [blankRows, List.mem_cons, List.not_mem_nil, or_false, exists_eq_or_imp,
    exists_eq_left]
  omega

/-- A blank has no capital, belongs to no word and is no digit. -/
theorem blank_plain {c : Char} (blank : isBlank c = true) :
    capitals c = [c] ∧ isWord c = false ∧ isDigit c = false := by
  have each : ∀ row ∈ blankRows, ∀ offset ≤ row.2 - row.1,
      capitals (Char.ofNat (row.1 + offset)) = [Char.ofNat (row.1 + offset)] ∧
        isWord (Char.ofNat (row.1 + offset)) = false ∧
        isDigit (Char.ofNat (row.1 + offset)) = false := by
    decide +kernel
  obtain ⟨row, member, first, last⟩ := mem_blankRows blank
  have plain := each row member (c.toNat - row.1) (by omega)
  rwa [Nat.add_sub_cancel' first, Char.ofNat_toNat] at plain

theorem space_blank {c : Char} (accepted : [' ', '\t'].contains c = true) : isBlank c = true := by
  have either : c = ' ' ∨ c = '\t' := by simpa using accepted
  rcases either with same | same <;> rw [same] <;> decide

theorem upper_append (one two : List Char) : upper (one ++ two) = upper one ++ upper two :=
  List.flatMap_append

/-- A text of characters that are their own capitals stays as it is. -/
theorem upper_solid {text : List Char} (upright : ∀ c ∈ text, capitals c = [c]) :
    upper text = text := by
  induction text with
  | nil => rfl
  | cons c rest ih =>
    have others := ih fun d member => upright d (List.mem_cons_of_mem c member)
    have first := upright c List.mem_cons_self
    simp only [upper, List.flatMap_cons, first] at others ⊢
    rw [others, List.singleton_append]

theorem upper_blank {gap : List Char} (blank : Blank gap) : upper gap = gap :=
  upper_solid fun c member => (blank_plain (blank c member)).1

theorem spread_upper {tail short long : List Char} (spread : Spread tail short long) :
    Spread (upper tail) (upper short) (upper long) := by
  induction spread with
  | done => exact .done
  | @keep c short long _ ih =>
    exact (spread_refl (capitals c) (Text.upper long)).append ih
  | @run gap short long some blank _ ih =>
    rw [upper_append, upper_blank blank]
    exact .run some blank ih

theorem endsBlank_upper {text : List Char} (ends : EndsBlank text) : EndsBlank (upper text) := by
  cases ends with
  | nothing => exact .nothing
  | blank isBlank =>
    rw [upper_append]
    simp only [Text.upper, List.flatMap_cons, List.flatMap_nil, (blank_plain isBlank).1]
    exact .blank isBlank

theorem startsBlank_upper {text : List Char} (starts : StartsBlank text) :
    StartsBlank (upper text) := by
  cases starts with
  | nothing => exact .nothing
  | blank isBlank =>
    simp only [Text.upper, List.flatMap_cons, (blank_plain isBlank).1]
    exact .blank isBlank

/-- A pattern asks for no blank, or for any run of blanks. -/
inductive Loose : Pattern → Prop where
  | nothing : Loose .nothing
  | one {accepts : Char → Bool} (visible : ∀ c, isBlank c = true → accepts c = false) :
      Loose (.one accepts)
  | letters {cs : List Char} (visible : ∀ c ∈ cs, isBlank c = false) : Loose (.letters cs)
  | both {first second : Pattern} (head : Loose first) (tail : Loose second) :
      Loose (.both first second)
  | either {first second : Pattern} (here : Loose first) (there : Loose second) :
      Loose (.either first second)
  | anyBlanks {accepts : Char → Bool} (blanks : ∀ c, isBlank c = true → accepts c = true) :
      Loose (.many (.one accepts))
  -- The one blank that a gap begins with may be only the first of a run, so a gap is one piece.
  | someBlanks : Loose gap
  | held {label : Nat} {body : Pattern} (inside : Loose body) : Loose (.held label body)
  | wordEdge : Loose .wordEdge

theorem run_one {accepts : Char → Bool} {c : Char} (fits : accepts c = true)
    (behind : Option Char) (rest : List Char) (parts : List (Nat × List Char))
    (next : Place → Option α) :
    (Pattern.one accepts).run ⟨behind, c :: rest, parts⟩ next = next ⟨some c, rest, parts⟩ := by
  simp [run, fits]

/-- Repeating a character finds every reading that repeats it. -/
theorem repeated_isSome {accepts : Char → Bool} {place later : Place}
    (read : Reads (.many (.one accepts)) place later) {next : Place → Option α}
    (accepted : (next later).isSome = true) {limit : Nat} (enough : place.ahead.length ≤ limit) :
    (repeated (run (.one accepts)) limit place next).isSome = true := by
  generalize same : Pattern.many (.one accepts) = p at read
  induction read generalizing limit with
  | manyDone =>
    cases limit with
    | zero => exact accepted
    | succ limit =>
      simp only [repeated]
      split
      next => rfl
      next => exact accepted
  | @manyMore body place middle later head tail _ ih =>
    cases same
    cases head with
    | @one _ behind c rest parts fits =>
      simp only [List.length_cons] at enough
      cases limit with
      | zero => omega
      | succ limit =>
        have fewer : rest.length ≤ limit := by omega
        have onward := ih accepted fewer rfl
        rw [repeated, run_one fits]
        simp only [List.length_cons, Nat.lt_succ_self, if_true]
        split
        next => rfl
        next none =>
          rw [none] at onward
          cases onward
  | _ => cases same

theorem after?_append (cs rest : List Char) : after? cs (cs ++ rest) = some rest := by
  induction cs with
  | nil => rfl
  | cons c cs ih => simpa [after?] using ih

/-- A loose pattern is matched wherever it has a reading that the rest accepts. -/
theorem run_isSome_of_reads {p : Pattern} (loose : Loose p) {place later : Place}
    (read : Reads p place later) {next : Place → Option α}
    (accepted : (next later).isSome = true) : (p.run place next).isSome = true := by
  induction loose generalizing place later next with
  | nothing =>
    cases read
    exact accepted
  | one _ =>
    cases read with
    | one fits => exact (congrArg Option.isSome (run_one fits _ _ _ next)).trans accepted
  | letters _ =>
    cases read with
    | letters spelled =>
      simp only [run, spelled, after?_append]
      exact accepted
  | both _ _ ihHead ihTail =>
    cases read with
    | both head tail => exact ihHead head (ihTail tail accepted)
  | either _ _ ihHere ihThere =>
    simp only [run]
    split
    next => rfl
    next none =>
      cases read with
      | eitherFirst here =>
        have found := ihHere here accepted
        rw [none] at found
        cases found
      | eitherSecond there => exact ihThere there accepted
  | anyBlanks _ => exact repeated_isSome read accepted (Nat.le_refl _)
  | someBlanks =>
    cases read with
    | both head tail =>
      cases head with
      | @one _ behind c rest parts fits =>
        have onward := repeated_isSome tail accepted (Nat.le_refl _)
        have first := run_one fits behind rest parts fun place => blanks.run place next
        exact (congrArg Option.isSome first).trans onward
  | held _ ih =>
    cases read with
    | held inside => exact ih inside accepted
  | wordEdge =>
    cases read with
    | wordEdge edge => simpa [run, edge] using accepted

/-- A place in a text, and the same place in the text printed with more blanks. -/
structure Spaced (tail : List Char) (place other : Place) : Prop where
  spread : Spread tail place.ahead other.ahead
  edge : other.behind.any isWord = place.behind.any isWord

theorem startsBlank_noWord {text : List Char} (starts : StartsBlank text) :
    text.head?.any isWord = false := by
  cases starts with
  | nothing => rfl
  | blank isBlank => simp [(blank_plain isBlank).2.1]

theorem lineFeed_noWord : isWord '\n' = false := (blank_plain (by decide)).2.1

theorem run_sameWord {gap : List Char} (some : gap ≠ []) (blank : Blank gap)
    (behind : Option Char) :
    (gap.getLast?.or behind).any isWord = (Option.some '\n').any isWord := by
  rw [List.getLast?_eq_some_getLast some]
  simp [(blank_plain (blank _ (List.getLast_mem some))).2.1, lineFeed_noWord]

section
variable {tail : List Char} (after : StartsBlank tail)
include after

theorem spread_sameWord {short long : List Char} (spread : Spread tail short long) :
    long.head?.any isWord = short.head?.any isWord := by
  cases spread with
  | done => exact startsBlank_noWord after
  | keep _ => rfl
  | @run gap _ _ some blank _ =>
    cases gap with
    | nil => exact absurd rfl some
    | cons c more =>
      simp [(blank_plain (blank c List.mem_cons_self)).2.1, lineFeed_noWord]

theorem Spaced.isWordEdge {place other : Place} (spaced : Spaced tail place other) :
    other.isWordEdge = place.isWordEdge := by
  unfold Place.isWordEdge
  rw [spaced.edge, spread_sameWord after spaced.spread]

end

section
variable {accepts : Char → Bool} (blanks : ∀ c, isBlank c = true → accepts c = true)
include blanks

theorem reads_blanks {gap rest : List Char} (blank : Blank gap) (behind : Option Char)
    (parts : List (Nat × List Char)) {later : Place}
    (read : Reads (.many (.one accepts)) ⟨gap.getLast?.or behind, rest, parts⟩ later) :
    Reads (.many (.one accepts)) ⟨behind, gap ++ rest, parts⟩ later := by
  induction gap generalizing behind with
  | nil => exact read
  | cons c more ih =>
    refine .manyMore (.one (blanks c (blank c List.mem_cons_self))) ?_
    refine ih (fun d member => blank d (List.mem_cons_of_mem c member)) (some c) ?_
    rw [← getLast?_cons_or c more behind]
    exact read

/-- A run of blanks is read in place of a line feed. -/
theorem many_spaced {tail : List Char} {place later other : Place}
    (read : Reads (.many (.one accepts)) place later) (spaced : Spaced tail place other) :
    ∃ last, Reads (.many (.one accepts)) other last ∧ Spaced tail later last := by
  generalize same : Pattern.many (.one accepts) = p at read
  induction read generalizing other with
  | manyDone =>
    cases same
    exact ⟨other, .manyDone, spaced⟩
  | manyMore head _ _ ih =>
    cases same
    cases head with
    | @one _ behind c rest parts fits =>
      obtain ⟨otherBehind, ahead, otherParts⟩ := other
      obtain ⟨spread, edge⟩ := spaced
      cases spread with
      | @keep _ _ long onward =>
        have here : Spaced tail ⟨some c, rest, parts⟩ ⟨some c, long, otherParts⟩ := ⟨onward, rfl⟩
        obtain ⟨last, read, same⟩ := ih here rfl
        exact ⟨last, .manyMore (.one fits) read, same⟩
      | @run gap _ long someGap blank onward =>
        have here : Spaced tail ⟨some '\n', rest, parts⟩
            ⟨gap.getLast?.or otherBehind, long, otherParts⟩ :=
          ⟨onward, run_sameWord someGap blank otherBehind⟩
        obtain ⟨last, read, same⟩ := ih here rfl
        exact ⟨last, reads_blanks blanks blank otherBehind otherParts read, same⟩
  | _ => cases same

end

theorem gap_spaced {tail : List Char} {place later other : Place} (read : Reads gap place later)
    (spaced : Spaced tail place other) : ∃ last, Reads gap other last ∧ Spaced tail later last := by
  have same : ∀ c, isBlank c = true → isBlank c = true := fun _ blank => blank
  cases read with
  | both head tail =>
    cases head with
    | @one _ behind c rest parts fits =>
      obtain ⟨otherBehind, ahead, otherParts⟩ := other
      obtain ⟨spread, edge⟩ := spaced
      cases spread with
      | @keep _ _ long onward =>
        have here : Spaced _ ⟨some c, rest, parts⟩ ⟨some c, long, otherParts⟩ := ⟨onward, rfl⟩
        obtain ⟨last, read, further⟩ := many_spaced same tail here
        exact ⟨last, .both (.one fits) read, further⟩
      | @run between _ long someBetween blank onward =>
        have here : Spaced _ ⟨some '\n', rest, parts⟩
            ⟨between.getLast?.or otherBehind, long, otherParts⟩ :=
          ⟨onward, run_sameWord someBetween blank otherBehind⟩
        obtain ⟨last, read, further⟩ := many_spaced same tail here
        cases between with
        | nil => exact absurd rfl someBetween
        | cons d more =>
          rw [getLast?_cons_or] at read
          have others : Blank more := fun e member => blank e (List.mem_cons_of_mem d member)
          exact ⟨last, .both (.one (blank d List.mem_cons_self))
            (reads_blanks same others (some d) otherParts read), further⟩

theorem spread_visible {tail cs rest long : List Char} (visible : ∀ c ∈ cs, isBlank c = false)
    (spread : Spread tail (cs ++ rest) long) :
    ∃ below, long = cs ++ below ∧ Spread tail rest below := by
  induction cs generalizing long with
  | nil => exact ⟨long, rfl, spread⟩
  | cons c more ih =>
    cases spread with
    | keep onward =>
      have others : ∀ d ∈ more, isBlank d = false :=
        fun d member => visible d (List.mem_cons_of_mem c member)
      obtain ⟨below, same, further⟩ := ih others onward
      exact ⟨below, by rw [same, List.cons_append], further⟩
    | run _ _ _ => exact absurd (visible '\n' List.mem_cons_self) (by decide)

/-- Whatever a loose pattern reads, it also reads where there are more blanks. -/
theorem Loose.reads {p : Pattern} (loose : Loose p) {tail : List Char} (after : StartsBlank tail)
    {place later other : Place} (read : Reads p place later) (spaced : Spaced tail place other) :
    ∃ last, Reads p other last ∧ Spaced tail later last := by
  induction loose generalizing place later other with
  | nothing =>
    cases read
    exact ⟨other, .nothing, spaced⟩
  | one visible =>
    obtain ⟨behind, ahead, parts⟩ := other
    obtain ⟨spread, edge⟩ := spaced
    cases read with
    | one fits =>
      cases spread with
      | keep onward => exact ⟨_, .one fits, onward, rfl⟩
      | run _ _ _ =>
        rw [visible '\n' (by decide)] at fits
        cases fits
  | @letters cs visible =>
    obtain ⟨behind, ahead, parts⟩ := other
    obtain ⟨spread, edge⟩ := spaced
    cases read with
    | @letters _ rest place spelled =>
      rw [spelled] at spread
      obtain ⟨below, same, onward⟩ := spread_visible visible spread
      refine ⟨_, .letters same, onward, ?_⟩
      dsimp only at edge ⊢
      cases cs.getLast? with
      | none => exact edge
      | some c => rfl
  | both _ _ ihHead ihTail =>
    cases read with
    | both head tail =>
      obtain ⟨middle, reads, same⟩ := ihHead head spaced
      obtain ⟨last, further, onward⟩ := ihTail tail same
      exact ⟨last, .both reads further, onward⟩
  | either _ _ ihHere ihThere =>
    cases read with
    | eitherFirst here =>
      obtain ⟨last, reads, same⟩ := ihHere here spaced
      exact ⟨last, .eitherFirst reads, same⟩
    | eitherSecond there =>
      obtain ⟨last, reads, same⟩ := ihThere there spaced
      exact ⟨last, .eitherSecond reads, same⟩
  | anyBlanks blanks => exact many_spaced blanks read spaced
  | someBlanks => exact gap_spaced read spaced
  | held _ ih =>
    cases read with
    | held inside =>
      obtain ⟨last, reads, same⟩ := ih inside spaced
      exact ⟨_, .held reads, same.spread, same.edge⟩
  | wordEdge =>
    cases read with
    | wordEdge edge => exact ⟨other, .wordEdge ((spaced.isWordEdge after).trans edge), spaced⟩

theorem searchFrom_here {p : Pattern} {behind : Option Char} {text : List Char}
    (found : (p.run ⟨behind, text, []⟩ some).isSome = true) :
    (p.searchFrom behind text).isSome = true := by
  cases text with
  | nil => exact found
  | cons c rest =>
    simp only [searchFrom]
    split
    next => rfl
    next none =>
      rw [none] at found
      cases found

theorem searchFrom_later {p : Pattern} {behind : Option Char} {front text : List Char}
    (found : (p.searchFrom (front.getLast?.or behind) text).isSome = true) :
    (p.searchFrom behind (front ++ text)).isSome = true := by
  induction front generalizing behind with
  | nil => exact found
  | cons c more ih =>
    rw [getLast?_cons_or] at found
    simp only [List.cons_append, searchFrom]
    split
    next => rfl
    next => exact ih found

theorem searchFrom_cases {p : Pattern} {behind : Option Char} {c : Char} {rest : List Char}
    (found : (p.searchFrom behind (c :: rest)).isSome = true) :
    (p.run ⟨behind, c :: rest, []⟩ some).isSome = true ∨
      (p.searchFrom (some c) rest).isSome = true := by
  simp only [searchFrom] at found
  split at found
  next here =>
    rw [here]
    exact Or.inl rfl
  next => exact Or.inr found

section
variable {p : Pattern} (loose : Loose p) {tail : List Char} (after : StartsBlank tail)
include loose after

theorem run_spaced {place other : Place} (spaced : Spaced tail place other)
    (found : (p.run place some).isSome = true) : (p.run other some).isSome = true := by
  obtain ⟨answer, matched⟩ := Option.isSome_iff_exists.mp found
  obtain ⟨later, read, _⟩ := run_reads matched
  obtain ⟨last, reads, _⟩ := loose.reads after read spaced
  exact run_isSome_of_reads loose reads rfl

theorem searchFrom_spaced {short long : List Char} (spread : Spread tail short long)
    {behind other : Option Char} (edge : other.any isWord = behind.any isWord)
    (found : (p.searchFrom behind short).isSome = true) :
    (p.searchFrom other long).isSome = true := by
  induction spread generalizing behind other with
  | done => exact searchFrom_here (run_spaced loose after ⟨.done, edge⟩ found)
  | @keep c short long onward ih =>
    rcases searchFrom_cases found with here | later
    · exact searchFrom_here (run_spaced loose after ⟨.keep onward, edge⟩ here)
    · have further : (p.searchFrom ([c].getLast?.or other) long).isSome = true := ih rfl later
      exact searchFrom_later further
  | @run gap short long someGap blank onward ih =>
    -- The search goes on past the whole run, for which the other text has a line feed.
    rcases searchFrom_cases found with here | later
    · exact searchFrom_here (run_spaced loose after ⟨.run someGap blank onward, edge⟩ here)
    · exact searchFrom_later (ih (run_sameWord someGap blank other) later)

/-- A loose phrase in a part of a text that is printed with more blanks is one in the whole. -/
theorem occursIn_spaced {before short long : List Char} (ends : EndsBlank before)
    (spread : Spread tail short long) (found : p.occursIn short = true) :
    p.occursIn (before ++ long) = true := by
  have edge : (before.getLast?.or none).any isWord = (none : Option Char).any isWord := by
    cases ends with
    | nothing => rfl
    | blank isBlank => simp [(blank_plain isBlank).2.1]
  exact searchFrom_later (searchFrom_spaced loose after spread edge found)

end

/-- What a loose phrase says of lines that follow each other on a sign, it says of the sign. -/
theorem occursIn_printedLines {p : Pattern} (loose : Loose p) {text : List Char}
    {earlier mine later : List (List Char)}
    (printed : printedLines text = earlier ++ (mine ++ later)) (some : mine ≠ [])
    (found : p.occursIn (upper (unlines mine)) = true) : p.occursIn (upper text) = true := by
  obtain ⟨before, rest, after, cut, ends, starts, spread⟩ := printedLines_spread printed some
  rw [cut, upper_append]
  exact occursIn_spaced loose (startsBlank_upper starts) (endsBlank_upper ends)
    (spread_upper spread) found

theorem spelled_loose (word : String) (visible : word.toList.any isBlank = false) :
    Loose (spelled word) := by
  refine .letters fun c member => ?_
  rw [List.any_eq_false] at visible
  exact Bool.eq_false_iff.mpr (visible c member)

theorem asWord_loose {p : Pattern} (inside : Loose p) : Loose (asWord p) :=
  .both (.both .wordEdge inside) .wordEdge

theorem maybe_loose {p : Pattern} (inside : Loose p) : Loose (maybe p) := .either inside .nothing

theorem digit_loose : Loose digit := .one fun _ blank => (blank_plain blank).2.2

theorem blanks_loose : Loose blanks := .anyBlanks fun _ blank => blank

theorem towPhrase_loose : Loose towPhrase := by
  have between : Loose (.many (.one fun c => isBlank c || c == '-')) :=
    .anyBlanks fun c blank => by simp [blank]
  have tow : Loose (spelled "TOW") := spelled_loose "TOW" (by decide)
  have away : Loose (spelled "AWAY") := spelled_loose "AWAY" (by decide)
  have willBe : Loose (perhaps (spelled "WILL" ++ gap ++ spelled "BE")) :=
    maybe_loose (.both (.both (.both (spelled_loose "WILL" (by decide)) .someBlanks)
      (spelled_loose "BE" (by decide))) .someBlanks)
  exact .either (asWord_loose (.both (.both tow between) away)) (asWord_loose
    (.both (.both (spelled_loose "VIOLATORS" (by decide)) .someBlanks)
      (.both willBe (spelled_loose "TOWED" (by decide)))))

theorem fineAmount_loose : Loose fineAmount := by
  have whole : Loose (digit ++ maybe (digit ++ maybe (digit ++ maybe digit))) :=
    .both digit_loose (maybe_loose (.both digit_loose (maybe_loose
      (.both digit_loose (maybe_loose digit_loose)))))
  have part : Loose (spelled "." ++ .held 2 (digit ++ digit)) :=
    .both (spelled_loose "." (by decide)) (.held (.both digit_loose digit_loose))
  exact .held (.both whole (maybe_loose part))

theorem finePhrase_loose : Loose finePhrase := by
  have dollar : Loose (spelled "$") := spelled_loose "$" (by decide)
  have word : Loose (spelled "FINE") := spelled_loose "FINE" (by decide)
  have colon : Loose (maybe (spelled ":")) := maybe_loose (spelled_loose ":" (by decide))
  have first : Loose (spelled "$" ++ blanks ++ fineAmount ++ gap ++ spelled "FINE" ++ .wordEdge) :=
    .both (.both (.both (.both (.both dollar blanks_loose) fineAmount_loose) .someBlanks) word)
      .wordEdge
  have last : Loose (.wordEdge ++ spelled "FINE" ++ blanks ++ maybe (spelled ":") ++ blanks
      ++ spelled "$" ++ blanks ++ fineAmount) :=
    .both (.both (.both (.both (.both (.both (.both .wordEdge word) blanks_loose) colon)
      blanks_loose) dollar) blanks_loose) fineAmount_loose
  exact .either first last

end Curbside.Proofs.Phrases

import Curbside.Proofs.JsonNumber

/-! Reading undoes writing. A value that is written on one line reads as itself, whatever follows
it, if its objects have no name twice, its integers are not too long, and its numbers have a place
in the binary64 format. -/

namespace Curbside.Proofs.JsonText
open Json Text Numerals Shortest JsonNumber

section
variable {c : Char} {cs rest : List Char}

theorem fourHex?_control : ∀ n < 32,
    fourHex? '0' '0' (hexDigit (n / 16)) (hexDigit (n % 16)) = some n := by
  decide

theorem hexDigits_control : ∀ n < 32,
    hexDigits 4 n = ['0', '0', hexDigit (n / 16), hexDigit (n % 16)] := by
  decide

/-- How a character is written: behind a backslash, by its number, or as it is. -/
inductive Written : Char → List Char → Prop where
  | marked {c : Char} (special : c = '"' ∨ c = '\\') : Written c ['\\', c]
  | control {c : Char} (low : c.toNat < 32) :
      Written c ['\\', 'u', '0', '0', hexDigit (c.toNat / 16), hexDigit (c.toNat % 16)]
  | plain {c : Char} (noQuote : c ≠ '"') (noMark : c ≠ '\\') (visible : ¬ c.toNat < 32) :
      Written c [c]

theorem writtenChar_written (c : Char) : Written c (writtenChar c) := by
  unfold writtenChar
  split
  next special => exact .marked (by simpa using special)
  next other =>
    simp only [Bool.or_eq_true, decide_eq_true_eq, not_or] at other
    split
    next low =>
      rw [hexDigits_control c.toNat low]
      exact .control low
    next visible => exact .plain other.1 other.2 visible

theorem charOf_control (low : c.toNat < 32) : charOf c.toNat = c := by
  have notHigh : isHighHalf c.toNat = false := by
    simp only [isHighHalf, Bool.and_eq_false_iff, decide_eq_false_iff_not]
    omega
  have notLow : isLowHalf c.toNat = false := by
    simp only [isLowHalf, Bool.and_eq_false_iff, decide_eq_false_iff_not]
    omega
  simp [charOf, notHigh, notLow]

/-- Where the text of a string goes on with an escape by number, its four digits can be read. -/
theorem escape_digits {e f g h : Char} {more : List Char}
    (same : cs.flatMap writtenChar ++ '"' :: rest = '\\' :: 'u' :: e :: f :: g :: h :: more) :
    ∃ low, fourHex? e f g h = some low := by
  cases cs with
  | nil => simp at same
  | cons d ds =>
    rw [List.flatMap_cons, List.append_assoc] at same
    have form := writtenChar_written d
    generalize writtenChar d = text at form same
    cases form with
    | marked special =>
      simp only [List.cons_append, List.cons.injEq] at same
      obtain ⟨_, again, _⟩ := same
      rcases special with quote | mark
      · rw [quote] at again
        exact absurd again (by decide)
      · rw [mark] at again
        exact absurd again (by decide)
    | control low =>
      simp only [List.cons_append, List.cons.injEq] at same
      obtain ⟨_, _, rfl, rfl, rfl, rfl, _⟩ := same
      exact ⟨_, fourHex?_control d.toNat low⟩
    | plain _ noMark _ =>
      simp only [List.cons_append, List.cons.injEq] at same
      exact absurd same.1 noMark

theorem stringBody?_control (low : c.toNat < 32) :
    stringBody? ('\\' :: 'u' :: '0' :: '0' :: hexDigit (c.toNat / 16) :: hexDigit (c.toNat % 16) ::
        (cs.flatMap writtenChar ++ '"' :: rest)) =
      (stringBody? (cs.flatMap writtenChar ++ '"' :: rest)).map
        fun (body, after) => (c :: body, after) := by
  by_cases further : ∃ e f g h more, cs.flatMap writtenChar ++ '"' :: rest =
      '\\' :: 'u' :: e :: f :: g :: h :: more
  · obtain ⟨e, f, g, h, more, same⟩ := further
    obtain ⟨number, known⟩ := escape_digits same
    have notHigh : isHighHalf c.toNat = false := by
      simp only [isHighHalf, Bool.and_eq_false_iff, decide_eq_false_iff_not]
      omega
    rw [same, stringBody?.eq_3, fourHex?_control c.toNat low, known]
    simp [notHigh, charOf_control low]
  · have alone : ∀ e f g h more, cs.flatMap writtenChar ++ '"' :: rest =
        '\\' :: 'u' :: e :: f :: g :: h :: more → False :=
      fun e f g h more same => further ⟨e, f, g, h, more, same⟩
    rw [stringBody?.eq_4 _ _ _ _ _ alone, fourHex?_control c.toNat low]
    simp [charOf_control low]

/-- The text of a string reads as the string, up to the closing quotation mark. -/
theorem stringBody?_written :
    stringBody? (cs.flatMap writtenChar ++ '"' :: rest) = some (cs, rest) := by
  induction cs with
  | nil => rw [List.flatMap_nil, List.nil_append, stringBody?.eq_2]
  | cons c cs ih =>
    rw [List.flatMap_cons, List.append_assoc]
    have form := writtenChar_written c
    generalize writtenChar c = text at form
    cases form with
    | marked special =>
      have unnumbered : c ≠ 'u' := by
        rcases special with same | same <;> rw [same] <;> decide
      have escaped : escaped? c = some c := by
        rcases special with same | same <;> rw [same] <;> rfl
      simp only [List.cons_append, List.nil_append]
      rw [stringBody?.eq_5 _ _ (fun _ _ _ _ _ _ _ _ _ same => absurd same unnumbered)
        (fun _ _ _ _ _ same => absurd same unnumbered), escaped, ih]
      rfl
    | control low =>
      simp only [List.cons_append, List.nil_append]
      rw [stringBody?_control low, ih]
      rfl
    | plain noQuote noMark visible =>
      simp only [List.cons_append, List.nil_append]
      rw [stringBody?.eq_6 _ _ noQuote (fun _ _ _ _ _ _ _ _ _ same => absurd same noMark)
        (fun _ _ _ _ _ same => absurd same noMark) (fun _ _ same => absurd same noMark),
        if_neg visible, ih]
      rfl

end

/-- A value that a text can hold: no object has a name twice, no integer is too long, and every
number has a place in the binary64 format. -/
inductive Proper : Json → Prop where
  | null : Proper .null
  | bool {value : Bool} : Proper (.bool value)
  | int {value : Int} (short : (Decimal.digitsOf value.natAbs).length ≤ longestInteger) :
      Proper (.int value)
  | float {value : Binary64} (format : InFormat value) : Proper (.float value)
  | string {value : String} : Proper (.string value)
  | array {items : List Json} (each : ∀ item ∈ items, Proper item) : Proper (.array items)
  | object {members : List (String × Json)} (distinct : (members.map Prod.fst).Nodup)
      (each : ∀ member ∈ members, Proper member.2) : Proper (.object members)

/-- A value begins with a mark that is no blank and ends nothing. -/
def Opens (cs : List Char) : Prop :=
  ∃ c rest, cs = c :: rest ∧ isJsonBlank c = false ∧ c ≠ ']' ∧ c ≠ '\x7d'

theorem opens_digit {c : Char} {rest : List Char} (digit : isPlainDigit c = true) :
    Opens (c :: rest) := by
  have unlike := isPlainDigit_ne digit
  refine ⟨c, rest, rfl, ?_, unlike ']' (by decide), unlike '\x7d' (by decide)⟩
  simp [isJsonBlank, unlike ' ' (by decide), unlike '\t' (by decide), unlike '\n' (by decide),
    unlike '\r' (by decide)]

theorem opens_numeral {numeral : Numeral} (proper : numeral.Proper) (negative : Bool) :
    Opens ((if negative then ['-'] else []) ++ numeral.text) := by
  cases negative with
  | true => exact ⟨'-', _, rfl, by decide, by decide, by decide⟩
  | false =>
    obtain ⟨c, digits, begins⟩ := List.exists_cons_of_ne_nil proper.whole.written
    have digit := proper.whole.digits c (by simp [begins])
    have text : (if false then ['-'] else []) ++ numeral.text =
        c :: (digits ++ (numeral.point ++ numeral.tail)) := by
      simp [Numeral.text, begins]
    rw [text]
    exact opens_digit digit

theorem written_opens (value : Json) : Opens (written value) := by
  cases value with
  | null => exact ⟨'n', _, rfl, by decide, by decide, by decide⟩
  | bool value =>
    cases value
    · exact ⟨'f', _, rfl, by decide, by decide, by decide⟩
    · exact ⟨'t', _, rfl, by decide, by decide, by decide⟩
  | int n =>
    have row := digitsOf_row n.natAbs
    obtain ⟨c, digits, begins⟩ := List.exists_cons_of_ne_nil row.written
    rw [written, intText]
    split
    · exact ⟨'-', _, rfl, by decide, by decide, by decide⟩
    · rw [begins]
      exact opens_digit (row.digits c (by simp [begins]))
  | float x =>
    cases x with
    | nan => exact ⟨'N', _, rfl, by decide, by decide, by decide⟩
    | infinite negative =>
      cases negative
      · exact ⟨'I', _, rfl, by decide, by decide, by decide⟩
      · exact ⟨'-', _, rfl, by decide, by decide, by decide⟩
    | finite negative units =>
      have text : written (.float (.finite negative units)) =
          Binary64.layout.write (Binary64.shortest negative units) := rfl
      rw [text, write_eq shortestLayout_plain]
      exact opens_numeral (numeralOf_proper shortestLayout_plain _) _
  | string s => exact ⟨'"', _, rfl, by decide, by decide, by decide⟩
  | array items => exact ⟨'[', _, rfl, by decide, by decide, by decide⟩
  | object members => exact ⟨'\x7b', _, rfl, by decide, by decide, by decide⟩

theorem skipBlanks_opens {cs : List Char} (opens : Opens cs) (rest : List Char) :
    skipBlanks (cs ++ rest) = cs ++ rest := by
  obtain ⟨c, more, same, solid, _⟩ := opens
  simp [same, skipBlanks, solid]

theorem opens_append {cs : List Char} (opens : Opens cs) (rest : List Char) : Opens (cs ++ rest) := by
  obtain ⟨c, more, rfl, solid, open_⟩ := opens
  exact ⟨c, more ++ rest, rfl, solid, open_⟩

theorem joined_begins (between first : List Char) (rest : List (List Char)) :
    ∃ more, joined between (first :: rest) = first ++ more := by
  cases rest with
  | nil => exact ⟨[], by simp [joined]⟩
  | cons next rest => exact ⟨between ++ joined between (next :: rest), by simp [joined]⟩

theorem items_open (item : Json) (items : List Json) :
    Opens (joined [','] (writtenItems (item :: items))) := by
  obtain ⟨more, same⟩ := joined_begins [','] (written item) (writtenItems items)
  rw [writtenItems, same]
  exact opens_append (written_opens item) more

theorem members_open (member : String × Json) (members : List (String × Json)) :
    Opens (joined [','] (writtenMembers (member :: members))) := by
  obtain ⟨more, same⟩ := joined_begins [','] (writtenString member.1 ++ ':' :: written member.2)
    (writtenMembers members)
  rw [writtenMembers, same]
  exact ⟨'"', _, rfl, by decide, by decide, by decide⟩

/-- A written value reads as itself wherever it stands, in at most as many steps as it has
characters. -/
def ReadsBack (value : Json) : Prop :=
  ∀ steps rest, (written value).length ≤ steps → Ends rest →
    value? steps (written value ++ rest) = some (value, rest)

theorem value?_string {s : String} {steps : Nat} {rest : List Char} :
    value? (steps + 1) (writtenString s ++ rest) = some (.string s, rest) := by
  have body : writtenString s ++ rest = '"' :: (s.toList.flatMap writtenChar ++ '"' :: rest) := by
    simp [writtenString]
  rw [body, value?.eq_2, stringBody?_written]
  simp [text]

theorem ends_closing {c : Char} (closing : c = ',' ∨ c = ']' ∨ c = '\x7d') (rest : List Char) :
    Ends (c :: rest) := by
  intro first same
  cases same
  exact closing

/-- The items of a row read as themselves, one after the other. -/
theorem items?_written {items : List Json} (some_ : items ≠ [])
    (each : ∀ item ∈ items, ReadsBack item) {steps : Nat} {rest : List Char}
    (enough : (joined [','] (writtenItems items)).length < steps) :
    items? steps (joined [','] (writtenItems items) ++ ']' :: rest) = some (items, rest) := by
  induction items generalizing steps with
  | nil => exact absurd rfl some_
  | cons item items ih =>
    cases steps with
    | zero => cases enough
    | succ steps =>
      have here := each item (List.mem_cons_self ..)
      cases items with
      | nil =>
        have single : joined [','] (writtenItems [item]) = written item := rfl
        rw [single] at enough ⊢
        have ends := ends_closing (Or.inr (Or.inl rfl)) rest
        rw [items?.eq_2, here steps _ (by omega) ends]
        rfl
      | cons next items =>
        have several : joined [','] (writtenItems (item :: next :: items)) =
            written item ++ ',' :: joined [','] (writtenItems (next :: items)) := by
          simp [writtenItems, joined]
        rw [several] at enough ⊢
        simp only [List.length_append, List.length_cons] at enough
        have later := ih (List.cons_ne_nil next items)
          (fun other member => each other (List.mem_cons_of_mem _ member))
          (show (joined [','] (writtenItems (next :: items))).length < steps by omega)
        have ends := ends_closing (Or.inl rfl) (joined [','] (writtenItems (next :: items)) ++ ']' :: rest)
        rw [List.append_assoc, List.cons_append, items?.eq_2, here steps _ (by omega) ends]
        have skipped := skipBlanks_opens (items_open next items) (']' :: rest)
        have comma : skipBlanks (',' :: (joined [','] (writtenItems (next :: items)) ++ ']' :: rest)) =
            ',' :: (joined [','] (writtenItems (next :: items)) ++ ']' :: rest) := rfl
        simp only [comma, skipped, later, Option.map_some]

theorem setMember_new {before : List (String × Json)} {name : String}
    (new : name ∉ before.map Prod.fst) (value : Json) :
    setMember before name value = before ++ [(name, value)] := by
  induction before with
  | nil => rfl
  | cons first before ih =>
    obtain ⟨other, old⟩ := first
    simp only [List.map_cons, List.mem_cons, not_or] at new
    rw [setMember, if_neg (fun same => new.1 same.symm), ih new.2]
    rfl

theorem writtenMember_eq (name : String) (value : Json) (rest : List Char) :
    writtenString name ++ ':' :: written value ++ rest =
      '"' :: (name.toList.flatMap writtenChar ++ '"' :: ':' :: (written value ++ rest)) := by
  simp [writtenString]

/-- The members of an object read as themselves, after those before them. -/
theorem members?_written {before members : List (String × Json)} (some_ : members ≠ [])
    (distinct : ((before ++ members).map Prod.fst).Nodup)
    (each : ∀ member ∈ members, ReadsBack member.2) {steps : Nat} {rest : List Char}
    (enough : (joined [','] (writtenMembers members)).length < steps) :
    members? steps before (joined [','] (writtenMembers members) ++ '\x7d' :: rest) =
      some (before ++ members, rest) := by
  -- What was read before stays general, since every member joins it.
  induction members generalizing steps before with
  | nil => exact absurd rfl some_
  | cons member members ih =>
    obtain ⟨name, value⟩ := member
    cases steps with
    | zero => cases enough
    | succ steps =>
      have here : ReadsBack value := each (name, value) (List.mem_cons_self ..)
      have new : name ∉ before.map Prod.fst := by
        intro again
        rw [List.map_append, List.nodup_append] at distinct
        exact distinct.2.2 name again name (by simp) rfl
      have colon : ∀ more, skipBlanks (':' :: more) = ':' :: more := fun _ => rfl
      cases members with
      | nil =>
        have single : joined [','] (writtenMembers [(name, value)]) =
            writtenString name ++ ':' :: written value := rfl
        rw [single] at enough ⊢
        simp only [List.length_append, List.length_cons] at enough
        have ends := ends_closing (Or.inr (Or.inr rfl)) rest
        rw [writtenMember_eq, members?.eq_2, stringBody?_written]
        simp only [colon, skipBlanks_opens (written_opens value), here steps _ (by omega) ends,
          setMember_new new, String.ofList_toList]
        rfl
      | cons next members =>
        have several : joined [','] (writtenMembers ((name, value) :: next :: members)) =
            writtenString name ++ ':' :: written value ++
              ',' :: joined [','] (writtenMembers (next :: members)) := by
          simp [writtenMembers, joined]
        rw [several] at enough ⊢
        simp only [List.length_append, List.length_cons] at enough
        have extended : ((before ++ [(name, value)] ++ next :: members).map Prod.fst).Nodup := by
          simpa using distinct
        have later := ih (List.cons_ne_nil next members) extended
          (fun other member => each other (List.mem_cons_of_mem _ member))
          (show (joined [','] (writtenMembers (next :: members))).length < steps by omega)
        have ends := ends_closing (Or.inl rfl)
          (joined [','] (writtenMembers (next :: members)) ++ '\x7d' :: rest)
        have skipped := skipBlanks_opens (members_open next members) ('\x7d' :: rest)
        have comma : ∀ more, skipBlanks (',' :: more) = ',' :: more := fun _ => rfl
        rw [List.append_assoc, List.cons_append, writtenMember_eq, members?.eq_2,
          stringBody?_written]
        simp only [colon, skipBlanks_opens (written_opens value), here steps _ (by omega) ends,
          setMember_new new, String.ofList_toList, comma, skipped, later]
        rw [List.append_assoc]
        rfl

/-- Nothing is written with no character at all, so that a first step can be taken. -/
theorem readsBack_of_step {value : Json}
    (reads : ∀ steps rest, (written value).length ≤ steps + 1 → Ends rest →
      value? (steps + 1) (written value ++ rest) = some (value, rest)) : ReadsBack value := by
  intro steps rest enough ends
  cases steps with
  | zero =>
    obtain ⟨c, more, same, _⟩ := written_opens value
    rw [same] at enough
    cases enough
  | succ steps => exact reads steps rest enough ends

theorem array_readsBack {items : List Json} (each : ∀ item ∈ items, ReadsBack item) :
    ReadsBack (.array items) := by
  apply readsBack_of_step
  intro steps rest enough _
  cases items with
  | nil => rfl
  | cons item items =>
    have text : written (.array (item :: items)) ++ rest =
        '[' :: (joined [','] (writtenItems (item :: items)) ++ ']' :: rest) := by
      simp [written]
    have short : (joined [','] (writtenItems (item :: items))).length < steps := by
      simp only [written, List.length_cons, List.length_append] at enough
      omega
    have opens := items_open item items
    rw [text, value?.eq_3, skipBlanks_opens opens]
    have row : items? steps (joined [','] (writtenItems (item :: items)) ++ ']' :: rest) =
        some (item :: items, rest) := items?_written (List.cons_ne_nil item items) each short
    obtain ⟨c, more, same, _, other, _⟩ := opens
    rw [same] at row ⊢
    split
    next after closed => exact absurd (List.cons.inj closed).1 other
    next =>
      rw [row]
      rfl

theorem object_readsBack {members : List (String × Json)} (distinct : (members.map Prod.fst).Nodup)
    (each : ∀ member ∈ members, ReadsBack member.2) : ReadsBack (.object members) := by
  apply readsBack_of_step
  intro steps rest enough _
  cases members with
  | nil => rfl
  | cons member members =>
    have text : written (.object (member :: members)) ++ rest =
        '\x7b' :: (joined [','] (writtenMembers (member :: members)) ++ '\x7d' :: rest) := by
      simp [written]
    have short : (joined [','] (writtenMembers (member :: members))).length < steps := by
      simp only [written, List.length_cons, List.length_append] at enough
      omega
    have opens := members_open member members
    rw [text, value?.eq_4, skipBlanks_opens opens]
    have row : members? steps [] (joined [','] (writtenMembers (member :: members)) ++ '\x7d' :: rest) =
        some (member :: members, rest) :=
      members?_written (List.cons_ne_nil member members) distinct each short
    obtain ⟨c, more, same, _, _, other⟩ := opens
    rw [same] at row ⊢
    split
    next after closed => exact absurd (List.cons.inj closed).1 other
    next =>
      rw [row]
      rfl

/-- Every value that a text can hold reads as itself. -/
theorem proper_readsBack {value : Json} (proper : Proper value) : ReadsBack value := by
  induction proper with
  | null => exact readsBack_of_step fun _ _ _ _ => rfl
  | @bool value => cases value <;> exact readsBack_of_step fun _ _ _ _ => rfl
  | int short => exact readsBack_of_step fun _ _ _ ends => value?_int short ends
  | float format => exact readsBack_of_step fun _ _ _ ends => value?_float format ends
  | string => exact readsBack_of_step fun _ _ _ _ => value?_string
  | array _ ih => exact array_readsBack ih
  | object distinct _ ih => exact object_readsBack distinct ih

theorem read?_render {value : Json} (proper : Proper value) :
    read? (render value).toList = some value := by
  have opens := written_opens value
  have skipped := skipBlanks_opens opens []
  have reads := proper_readsBack proper (2 * (written value).length + 2) [] (by omega) nofun
  rw [List.append_nil] at skipped reads
  rw [render, String.toList_ofList, read?, skipped, reads]
  rfl

end Curbside.Proofs.JsonText

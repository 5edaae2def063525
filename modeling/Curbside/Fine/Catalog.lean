import Curbside.Fine.Band
import Curbside.Json.Reader

/-! A catalog of fines is a JSON object with bands for kinds of rules. Entries that cannot be
used are passed over, and a catalog without a usable entry counts for nothing. -/

namespace Curbside.Fine

/-- A fine as any value shows it. -/
def fineOf? (value : Json) : Option Decimal.Reading := Decimal.read? value.shown

/-- A member as text, whatever its value is. -/
def shownMember (entry : Json) (name : String) (usual : String) : String :=
  match entry.member? name with
  | none => usual
  | some value => String.ofList value.shown

/-- The band in an entry, if both of its fines can be read. -/
def bandOf? (source : String) (entry : Json) : Option Band :=
  match (entry.member? "min_fine").bind fineOf?, (entry.member? "max_fine").bind fineOf? with
  | some least, some most =>
    some ⟨least, most, shownMember entry "currency" usualCurrency, shownMember entry "note" "",
      shownMember entry "source" source⟩
  | _, _ => none

/-- The bands in a catalog, if there are any. -/
def bandsOf? (catalog : Json) : Option Bands :=
  match catalog.member? "rules" with
  | some (.object entries) =>
    let source := shownMember catalog "source" builtInSource
    match entries.filterMap fun (name, entry) => (bandOf? source entry).map (name, ·) with
    | [] => none
    | bands => some bands
  | _ => none

/-- The bands in the bytes of a catalog, which are UTF-8, or the built-in ones. -/
def bandsOfBytes (bytes : ByteArray) : Bands :=
  match String.fromUTF8? bytes with
  | none => builtIn
  | some written => ((Json.read? written.toList).bind bandsOf?).getD builtIn

end Curbside.Fine

import Curbside.Fine.Catalog
import Curbside.Fine.Estimate
import Curbside.Proofs.JsonProper
import Curbside.Proofs.RuleRecord

/-! What a catalog of fines does to an estimate. A catalog that cannot be read, or that has no
entry whose fines can be read, leaves the built-in bands in force, and other entries are passed
over. A fine that reads as an infinity or as no number at all is not passed over. It breaks every
estimate that needs its band. -/

namespace Curbside.Proofs.Catalogs
open Json JsonText JsonProper RuleRecord

/-- The bands in force: those in the bytes of a catalog if there is a file to read, otherwise the
built-in ones. -/
def bandsUnder : Option ByteArray → Fine.Bands
  | none => Fine.builtIn
  | some bytes => Fine.bandsOfBytes bytes

/-- The value that a file holds. -/
inductive Holds : Option ByteArray → Json → Prop where
  | text {bytes : ByteArray} {written : String} {catalog : Json}
      (encoded : String.fromUTF8? bytes = some written)
      (reads : read? written.toList = some catalog) : Holds (some bytes) catalog

/-- An entry whose fines can both be read. -/
structure Usable (entry : Json) (least most : Decimal.Reading) : Prop where
  least : ∃ value, entry.member? "min_fine" = some value ∧ Decimal.read? value.shown = some least
  most : ∃ value, entry.member? "max_fine" = some value ∧ Decimal.read? value.shown = some most

/-- A catalog has a usable entry for a kind of rule, and with it a band. -/
inductive Offers (catalog : Json) (name : String) : Fine.Band → Prop where
  | entry {rules entry : Json} {least most : Decimal.Reading}
      (lists : catalog.member? "rules" = some rules) (found : rules.member? name = some entry)
      (usable : Usable entry least most) :
      Offers catalog name ⟨least, most, Fine.shownMember entry "currency" Fine.usualCurrency,
        Fine.shownMember entry "note" "",
        Fine.shownMember entry "source" (Fine.shownMember catalog "source" Fine.builtInSource)⟩

/-- No usable entry can be found, be it that nothing can be read. -/
def Useless (file : Option ByteArray) : Prop :=
  ∀ catalog, Holds file catalog → ∀ name band, ¬ Offers catalog name band

/-- The band that counts for a kind of rule. -/
inductive Counts (file : Option ByteArray) (name : String) (band : Fine.Band) : Prop where
  | offered {catalog : Json} (holds : Holds file catalog) (offers : Offers catalog name band)
  | builtIn (useless : Useless file) (listed : Fine.builtIn.lookup name = some band)

section
variable {entries : List (String × Json)} {name : String}

theorem lookup_absent (absent : name ∉ entries.map Prod.fst) (use : Json → Option β) :
    (entries.filterMap fun member => (use member.2).map (member.1, ·)).lookup name = none := by
  rw [List.lookup_eq_none_iff]
  intro band inside
  obtain ⟨member, listed, made⟩ := List.mem_filterMap.mp inside
  obtain ⟨_, _, same⟩ := Option.map_eq_some_iff.mp made
  rw [bne_iff_ne, ← same]
  intro found
  exact absent (List.mem_map.mpr ⟨member, listed, found.symm⟩)

/-- Where names are different, leaving members out does not bring others to light. -/
theorem lookup_filterMap (distinct : (entries.map Prod.fst).Nodup) (use : Json → Option β) :
    (entries.filterMap fun member => (use member.2).map (member.1, ·)).lookup name =
      (entries.lookup name).bind use := by
  induction entries with
  | nil => rfl
  | cons first entries ih =>
    obtain ⟨other, entry⟩ := first
    obtain ⟨absent, rest⟩ := List.nodup_cons.mp distinct
    by_cases same : name = other
    · subst same
      cases used : use entry with
      | none => simp [used, lookup_absent absent use]
      | some band => simp [used]
    · have differs : (name == other) = false := beq_eq_false_iff_ne.mpr same
      cases used : use entry with
      | none => simpa [used, List.lookup_cons, differs] using ih rest
      | some band => simpa [used, List.lookup_cons, differs] using ih rest

end

theorem bandOf?_iff {source : String} {entry : Json} {band : Fine.Band} :
    Fine.bandOf? source entry = some band ↔ ∃ least most, Usable entry least most ∧
      band = ⟨least, most, Fine.shownMember entry "currency" Fine.usualCurrency,
        Fine.shownMember entry "note" "", Fine.shownMember entry "source" source⟩ := by
  unfold Fine.bandOf?
  constructor
  · intro made
    split at made
    next least most leastRead mostRead =>
      cases made
      exact ⟨least, most, ⟨Option.bind_eq_some_iff.mp leastRead, Option.bind_eq_some_iff.mp mostRead⟩,
        rfl⟩
    next => cases made
  · intro usable
    obtain ⟨least, most, usable, same⟩ := usable
    have leastRead := Option.bind_eq_some_iff.mpr usable.least
    have mostRead := Option.bind_eq_some_iff.mpr usable.most
    unfold Fine.fineOf?
    rw [leastRead, mostRead, same]

/-- The bands in the usable ones among the entries of a catalog. -/
def listedBands (catalog : Json) (entries : List (String × Json)) : Fine.Bands :=
  entries.filterMap fun member =>
    (Fine.bandOf? (Fine.shownMember catalog "source" Fine.builtInSource) member.2).map (member.1, ·)

theorem bandsOf?_iff {catalog : Json} {bands : Fine.Bands} :
    Fine.bandsOf? catalog = some bands ↔ ∃ entries,
      catalog.member? "rules" = some (.object entries) ∧ listedBands catalog entries = bands ∧
        bands ≠ [] := by
  unfold Fine.bandsOf?
  constructor
  · intro made
    split at made
    next entries lists =>
      dsimp only at made
      split at made
      · cases made
      next _ some_ =>
        cases made
        exact ⟨entries, lists, rfl, some_⟩
    next => cases made
  · intro listed
    obtain ⟨entries, lists, made, some_⟩ := listed
    rw [lists]
    subst made
    unfold listedBands at *
    dsimp only
    split
    next none => exact absurd none some_
    next => rfl

section
variable {catalog : Json} {name : String} {band : Fine.Band}

/-- An entry is found by its name, since no name is there twice. -/
theorem offers_iff (proper : Proper catalog) :
    Offers catalog name band ↔ ∃ entries, catalog.member? "rules" = some (.object entries) ∧
      (listedBands catalog entries).lookup name = some band := by
  have found : ∀ {entries}, catalog.member? "rules" = some (.object entries) →
      (listedBands catalog entries).lookup name = (entries.lookup name).bind
        (Fine.bandOf? (Fine.shownMember catalog "source" Fine.builtInSource)) := by
    intro entries lists
    have inside : Proper (.object entries) := member?_proper proper lists
    cases inside with
    | object distinct _ => exact lookup_filterMap distinct _
  constructor
  · intro offers
    cases offers with
    | @entry rules entry least most lists member usable =>
      cases rules with
      | object entries =>
        refine ⟨entries, lists, ?_⟩
        rw [found lists, Option.bind_eq_some_iff]
        exact ⟨entry, member, bandOf?_iff.mpr ⟨least, most, usable, rfl⟩⟩
      | _ => cases member
  · intro listed
    obtain ⟨entries, lists, known⟩ := listed
    rw [found lists, Option.bind_eq_some_iff] at known
    obtain ⟨entry, member, made⟩ := known
    obtain ⟨least, most, usable, same⟩ := bandOf?_iff.mp made
    rw [same]
    exact .entry lists member usable

theorem lookup_bandsOf? (proper : Proper catalog) {bands : Fine.Bands}
    (made : Fine.bandsOf? catalog = some bands) :
    bands.lookup name = some band ↔ Offers catalog name band := by
  obtain ⟨entries, lists, same, _⟩ := bandsOf?_iff.mp made
  rw [offers_iff proper, ← same]
  constructor
  · exact fun known => ⟨entries, lists, known⟩
  · intro listed
    obtain ⟨others, again, known⟩ := listed
    rw [lists] at again
    cases again
    exact known

theorem bandsOf?_eq_none (proper : Proper catalog) :
    Fine.bandsOf? catalog = none ↔ ∀ name band, ¬ Offers catalog name band := by
  constructor
  · intro none name band offers
    obtain ⟨entries, lists, known⟩ := (offers_iff proper).mp offers
    have some_ : listedBands catalog entries ≠ [] := by
      intro empty
      rw [empty] at known
      cases known
    rw [bandsOf?_iff.mpr ⟨entries, lists, rfl, some_⟩] at none
    cases none
  · intro useless
    cases made : Fine.bandsOf? catalog with
    | none => rfl
    | some bands =>
      obtain ⟨_, _, _, some_⟩ := bandsOf?_iff.mp made
      obtain ⟨⟨name, band⟩, rest, begins⟩ := List.exists_cons_of_ne_nil some_
      have known : bands.lookup name = some band := by simp [begins]
      exact absurd ((lookup_bandsOf? proper made).mp known) (useless name band)

end

/-- The value that the bytes of a file hold, if there is one. -/
def content? (bytes : ByteArray) : Option Json :=
  (String.fromUTF8? bytes).bind fun written => read? written.toList

theorem holds_iff {bytes : ByteArray} {catalog : Json} :
    Holds (some bytes) catalog ↔ content? bytes = some catalog := by
  unfold content?
  rw [Option.bind_eq_some_iff]
  constructor
  · intro holds
    cases holds with
    | text encoded reads => exact ⟨_, encoded, reads⟩
  · intro content
    obtain ⟨_, encoded, reads⟩ := content
    exact .text encoded reads

theorem bandsOfBytes_eq (bytes : ByteArray) :
    Fine.bandsOfBytes bytes = ((content? bytes).bind Fine.bandsOf?).getD Fine.builtIn := by
  unfold Fine.bandsOfBytes content?
  cases String.fromUTF8? bytes <;> rfl

section
variable {file : Option ByteArray}

theorem Holds.proper {catalog : Json} (holds : Holds file catalog) : Proper catalog := by
  cases holds with
  | text _ reads => exact read?_proper reads

/-- Either there is nothing to use, or the bands are those of the catalog. -/
theorem bandsUnder_cases (file : Option ByteArray) :
    Useless file ∧ bandsUnder file = Fine.builtIn ∨
      ∃ catalog, Holds file catalog ∧ Fine.bandsOf? catalog = some (bandsUnder file) := by
  cases file with
  | none => exact Or.inl ⟨nofun, rfl⟩
  | some bytes =>
    rw [bandsUnder, bandsOfBytes_eq]
    cases content : content? bytes with
    | none =>
      refine Or.inl ⟨?_, rfl⟩
      intro catalog holds
      cases content.symm.trans (holds_iff.mp holds)
    | some catalog =>
      have holds : Holds (some bytes) catalog := holds_iff.mpr content
      rw [Option.bind_some]
      cases made : Fine.bandsOf? catalog with
      | some bands => exact Or.inr ⟨catalog, holds, made⟩
      | none =>
        refine Or.inl ⟨?_, rfl⟩
        intro other again
        cases content.symm.trans (holds_iff.mp again)
        exact (bandsOf?_eq_none holds.proper).mp made

theorem Holds.unique {catalog other : Json} (holds : Holds file catalog) (again : Holds file other) :
    catalog = other := by
  cases file with
  | none => cases holds
  | some bytes => exact Option.some.inj ((holds_iff.mp holds).symm.trans (holds_iff.mp again))

theorem lookup_bandsUnder {name : String} {band : Fine.Band} :
    (bandsUnder file).lookup name = some band ↔ Counts file name band := by
  rcases bandsUnder_cases file with ⟨useless, same⟩ | ⟨catalog, holds, made⟩
  · rw [same]
    constructor
    · exact .builtIn useless
    · intro counts
      cases counts with
      | offered holds offers => exact absurd offers (useless _ holds name band)
      | builtIn _ listed => exact listed
  · rw [lookup_bandsOf? holds.proper made]
    constructor
    · exact .offered holds
    · intro counts
      cases counts with
      | offered again offers => exact holds.unique again ▸ offers
      | builtIn useless _ =>
        have none := (bandsOf?_eq_none holds.proper).mpr (useless catalog holds)
        cases made.symm.trans none

end

/-- The issue that a fine raises if it is no finite number. -/
def infiniteFine (field : String) : Decimal.Reading → List Issue
  | .number _ => []
  | .notFinite => [⟨[.field field], .notFinite⟩]

/-- What becomes of an estimate. -/
inductive Estimated (file : Option ByteArray) (rule : Rule) : Except Failure (Option Fine) → Prop where
  | permissive (free : rule.isRestrictive = false) : Estimated file rule (.ok none)
  | posted {amount : Decimal} (restrictive : rule.isRestrictive = true)
      (posted : rule.provision.fine = some amount) :
      Estimated file rule (.ok (some ⟨rule.kind.name, amount, amount, Fine.usualCurrency,
        rule.severity, Fine.signSource, Fine.noteOf rule.severity⟩))
  | unlisted (restrictive : rule.isRestrictive = true) (unposted : rule.provision.fine = none)
      (unbanded : ∀ band, ¬ Counts file rule.kind.name band) : Estimated file rule (.ok none)
  | banded {band : Fine.Band} {least most : Decimal} (restrictive : rule.isRestrictive = true)
      (unposted : rule.provision.fine = none) (counts : Counts file rule.kind.name band)
      (leastFinite : band.least = .number least) (mostFinite : band.most = .number most) :
      Estimated file rule (.ok (some ⟨rule.kind.name, least, most, band.currency, rule.severity,
        band.source, some ((Fine.noteOf rule.severity).getD band.note)⟩))
  | infinite {catalog : Json} {band : Fine.Band} (restrictive : rule.isRestrictive = true)
      (unposted : rule.provision.fine = none) (holds : Holds file catalog)
      (offers : Offers catalog rule.kind.name band)
      (infinite : band.least = .notFinite ∨ band.most = .notFinite) :
      Estimated file rule
        (.error (.invalid (infiniteFine "min_fine" band.least ++ infiniteFine "max_fine" band.most)))

theorem builtIn_finite {name : String} {band : Fine.Band}
    (listed : Fine.builtIn.lookup name = some band) :
    ∃ least most, band.least = .number least ∧ band.most = .number most := by
  obtain ⟨before, after, same, _⟩ := List.lookup_eq_some_iff.mp listed
  have member : (name, band) ∈ Fine.builtIn := by simp [same]
  simp only [Fine.builtIn, List.mem_cons, Prod.mk.injEq, List.not_mem_nil, or_false] at member
  rcases member with ⟨_, rfl⟩ | ⟨_, rfl⟩ | ⟨_, rfl⟩ | ⟨_, rfl⟩ <;> exact ⟨_, _, rfl, rfl⟩

theorem Fine.ofBand_infinite {kind : String} {severity : Severity} {band : Fine.Band}
    (infinite : band.least = .notFinite ∨ band.most = .notFinite) :
    Fine.ofBand kind severity band =
      .failed (infiniteFine "min_fine" band.least ++ infiniteFine "max_fine" band.most) := by
  obtain ⟨least, most, currency, note, source⟩ := band
  cases least with
  | notFinite => cases most <;> rfl
  | number _ =>
    cases most with
    | notFinite => rfl
    | number _ => rcases infinite with same | same <;> cases same

section
variable {file : Option ByteArray} {rule : Rule}

theorem estimate_band {band : Fine.Band} (restrictive : rule.isRestrictive = true)
    (unposted : rule.provision.fine = none) (counts : Counts file rule.kind.name band) :
    Fine.estimate (bandsUnder file) rule =
      some <$> (Fine.ofBand rule.kind.name rule.severity band).toExcept := by
  unfold Fine.estimate
  rw [restrictive, unposted, lookup_bandsUnder.mpr counts]
  rfl

theorem Estimated.result {outcome : Except Failure (Option Fine)}
    (estimated : Estimated file rule outcome) : Fine.estimate (bandsUnder file) rule = outcome := by
  cases estimated with
  | permissive free =>
    unfold Fine.estimate
    rw [free]
    rfl
  | posted restrictive posted =>
    unfold Fine.estimate
    rw [restrictive, posted]
    rfl
  | unlisted restrictive unposted unbanded =>
    have unknown : (bandsUnder file).lookup rule.kind.name = none :=
      Option.eq_none_iff_forall_ne_some.mpr fun band found =>
        unbanded band (lookup_bandsUnder.mp found)
    unfold Fine.estimate
    rw [restrictive, unposted, unknown]
    rfl
  | banded restrictive unposted counts leastFinite mostFinite =>
    rw [estimate_band restrictive unposted counts, Fine.ofBand, leastFinite, mostFinite]
    rfl
  | infinite restrictive unposted holds offers infinite =>
    rw [estimate_band restrictive unposted (.offered holds offers), Fine.ofBand_infinite infinite]
    rfl

/-- Only a band of a catalog can lack a finite fine. -/
theorem Counts.estimated {band : Fine.Band} (counts : Counts file rule.kind.name band)
    (restrictive : rule.isRestrictive = true) (unposted : rule.provision.fine = none) :
    ∃ outcome, Estimated file rule outcome := by
  by_cases infinite : band.least = .notFinite ∨ band.most = .notFinite
  · cases counts with
    | offered holds offers => exact ⟨_, .infinite restrictive unposted holds offers infinite⟩
    | builtIn _ listed =>
      obtain ⟨least, most, leastFinite, mostFinite⟩ := builtIn_finite listed
      simp [leastFinite, mostFinite] at infinite
  · cases leastFinite : band.least with
    | notFinite => exact absurd (Or.inl leastFinite) infinite
    | number least =>
      cases mostFinite : band.most with
      | notFinite => exact absurd (Or.inr mostFinite) infinite
      | number most => exact ⟨_, .banded restrictive unposted counts leastFinite mostFinite⟩

theorem exists_estimated (file : Option ByteArray) (rule : Rule) :
    ∃ outcome, Estimated file rule outcome := by
  cases restrictive : rule.isRestrictive with
  | false => exact ⟨_, .permissive restrictive⟩
  | true =>
    cases posted : rule.provision.fine with
    | some amount => exact ⟨_, .posted restrictive posted⟩
    | none =>
      by_cases banded : ∃ band, Counts file rule.kind.name band
      · obtain ⟨band, counts⟩ := banded
        exact counts.estimated restrictive posted
      · exact ⟨_, .unlisted restrictive posted (not_exists.mp banded)⟩

/-- Whatever a catalog holds, this is what becomes of an estimate. It fails exactly if the band of
the rule is needed and the catalog offers one with a fine that is no finite number. -/
theorem estimate_iff {file : Option ByteArray} {rule : Rule}
    {outcome : Except Failure (Option Fine)} :
    Fine.estimate (bandsUnder file) rule = outcome ↔ Estimated file rule outcome := by
  constructor
  · intro same
    obtain ⟨other, estimated⟩ := exists_estimated file rule
    rw [← same, estimated.result]
    exact estimated
  · exact Estimated.result

end

/-- A catalog whose least fine for parking where nobody may is not a number. -/
def undefinedFine : Json :=
  .object [("rules", .object [("no_parking",
    .object [("min_fine", .float .nan), ("max_fine", .int 80)])])]

def noParking : Rule := ⟨.plain .noParking, none, Binary64.ofPlaces 9 1, "NO PARKING", false⟩

/-- A catalog that says nothing else breaks the estimate for every place where parking is
forbidden. -/
theorem undefined_fine_breaks : Acceptable noParking ∧
    Fine.estimate (bandsUnder (some (render undefinedFine).toUTF8)) noParking =
      .error (.invalid [⟨[.field "min_fine"], .notFinite⟩]) := by
  refine ⟨⟨nofun, nofun, by decide +kernel, by decide +kernel, by decide +kernel⟩, ?_⟩
  have proper : Proper undefinedFine := by
    refine .object (by simp) (List.forall_mem_singleton.mpr ?_)
    refine .object (by simp) (List.forall_mem_singleton.mpr ?_)
    refine .object (by simp) (List.forall_mem_cons.mpr ⟨.float .nan, List.forall_mem_singleton.mpr ?_⟩)
    exact .int (by decide)
  have encoded : String.fromUTF8? (render undefinedFine).toUTF8 = some (render undefinedFine) :=
    dif_pos (render undefinedFine).isValidUTF8
  have holds : Holds (some (render undefinedFine).toUTF8) undefinedFine :=
    .text encoded (read?_render proper)
  have usable : Usable (.object [("min_fine", .float .nan), ("max_fine", .int 80)]) .notFinite
      (.number (Decimal.ofInt 80)) :=
    ⟨⟨.float .nan, rfl, by decide⟩, ⟨.int 80, rfl, by decide⟩⟩
  have offers : Offers undefinedFine noParking.kind.name _ := .entry rfl rfl usable
  have estimated : Estimated (some (render undefinedFine).toUTF8) noParking _ :=
    .infinite rfl rfl holds offers (Or.inl rfl)
  exact estimated.result

end Curbside.Proofs.Catalogs

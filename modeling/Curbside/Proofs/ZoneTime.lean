import Curbside.Proofs.LocalTime
import Curbside.Proofs.Years

/-! Instants on the clocks of a zone. In a zone whose changes are months apart, the offset changes
at most once within a couple of weeks. A reading is resolved by looking up the offset at an
instant: a first pass by the highest offset of the zone, and a second pass by the lowest. -/

namespace Curbside.Proofs.ZoneTime
open Wall WallClock LocalTime Years

/-- Two changes in every year, weeks away from its ends and from each other. -/
structure Seasons (first second : Nat → Wall) : Prop where
  opens : ∀ year, yearStart year + 20 * dayLength ≤ first year
  apart : ∀ year, first year + 40 * dayLength ≤ second year
  closes : ∀ year, 1 ≤ year → second year + 20 * dayLength ≤ yearStart (year + 1)

/-- An instant lies between the two changes of some year. -/
def Between (first second : Nat → Wall) (instant : Wall) : Prop :=
  ∃ year, 1 ≤ year ∧ first year ≤ instant ∧ instant < second year

theorem near_itself (instant : Wall) :
    instant - 5 * dayLength ≤ instant ∧ instant ≤ instant + 5 * dayLength := by
  simp only [dayLength_eq, Wall]
  omega

theorem one_le_year (wall : Wall) : 1 ≤ wall.date.year := by
  simp only [Wall.date, Date.ofDayNumber]
  omega

section
variable {first second : Nat → Wall} (seasons : Seasons first second)
include seasons

theorem Seasons.ordered {year other : Nat} (started : 1 ≤ year) (before : year < other) :
    second year + 40 * dayLength ≤ first other := by
  have closed := seasons.closes year started
  have opened := seasons.opens other
  have years := yearStart_mono (show year + 1 ≤ other from before)
  simp only [dayLength_eq, Wall] at *
  omega

/-- The year of any reading nearby tells between which changes an instant can lie. -/
theorem between_iff {instant near : Wall} (behind : instant - 5 * dayLength ≤ near)
    (ahead : near ≤ instant + 5 * dayLength) :
    Between first second instant ↔
      first near.date.year ≤ instant ∧ instant < second near.date.year := by
  constructor
  · intro between
    obtain ⟨year, started, opened, unclosed⟩ := between
    have opens := seasons.opens year
    have closes := seasons.closes year started
    have same : near.date.year = year := by
      apply year_of_reading
      · simp only [dayLength_eq, Wall] at *
        omega
      · simp only [dayLength_eq, Wall] at *
        omega
    rw [same]
    exact ⟨opened, unclosed⟩
  · intro inside
    exact ⟨near.date.year, one_le_year near, inside⟩

theorem same_year {year other : Nat} {instant : Wall} (started : 1 ≤ year)
    (otherStarted : 1 ≤ other) (opened : first other ≤ instant) (unclosed : instant < second other)
    (early : first year ≤ instant + 20 * dayLength)
    (late : instant ≤ second year + 20 * dayLength) : other = year := by
  rcases Nat.lt_trichotomy other year with before | same | after
  · have ordered := seasons.ordered otherStarted before
    simp only [dayLength_eq, Wall] at *
    omega
  · exact same
  · have ordered := seasons.ordered started after
    simp only [dayLength_eq, Wall] at *
    omega

variable {center : Wall}

theorem between_after_opening {year : Nat} (started : 1 ≤ year)
    (low : center - 5 * dayLength ≤ first year) (high : first year ≤ center + 12 * dayLength)
    {instant : Wall} (early : center - 5 * dayLength ≤ instant)
    (late : instant ≤ center + 12 * dayLength) :
    Between first second instant ↔ first year ≤ instant := by
  have apart := seasons.apart year
  constructor
  · intro between
    obtain ⟨other, otherStarted, opened, unclosed⟩ := between
    have same : other = year := by
      apply same_year seasons started otherStarted opened unclosed
      · simp only [dayLength_eq, Wall] at *
        omega
      · simp only [dayLength_eq, Wall] at *
        omega
    exact same ▸ opened
  · intro opened
    refine ⟨year, started, opened, ?_⟩
    simp only [dayLength_eq, Wall] at *
    omega

theorem between_before_closing {year : Nat} (started : 1 ≤ year)
    (low : center - 5 * dayLength ≤ second year) (high : second year ≤ center + 12 * dayLength)
    {instant : Wall} (early : center - 5 * dayLength ≤ instant)
    (late : instant ≤ center + 12 * dayLength) :
    Between first second instant ↔ instant < second year := by
  have apart := seasons.apart year
  constructor
  · intro between
    obtain ⟨other, otherStarted, opened, unclosed⟩ := between
    have same : other = year := by
      apply same_year seasons started otherStarted opened unclosed
      · simp only [dayLength_eq, Wall] at *
        omega
      · simp only [dayLength_eq, Wall] at *
        omega
    exact same ▸ unclosed
  · intro unclosed
    refine ⟨year, started, ?_, unclosed⟩
    simp only [dayLength_eq, Wall] at *
    omega

omit seasons in
/-- Without a change around them, two instants lie between the same changes. -/
theorem between_steady {one other : Wall}
    (opening : ¬ ∃ year, 1 ≤ year ∧ center - 5 * dayLength ≤ first year ∧
      first year ≤ center + 12 * dayLength)
    (closing : ¬ ∃ year, 1 ≤ year ∧ center - 5 * dayLength ≤ second year ∧
      second year ≤ center + 12 * dayLength)
    (early : center - 5 * dayLength ≤ one) (late : one ≤ center + 12 * dayLength)
    (otherEarly : center - 5 * dayLength ≤ other) (otherLate : other ≤ center + 12 * dayLength)
    (between : Between first second one) : Between first second other := by
  obtain ⟨year, started, opened, unclosed⟩ := between
  have before : first year < center - 5 * dayLength := Int.not_le.mp fun low =>
    opening ⟨year, started, low, Int.le_trans opened late⟩
  have after : center + 12 * dayLength < second year := Int.not_le.mp fun high =>
    closing ⟨year, started, Int.le_of_lt (Int.lt_of_le_of_lt early unclosed), high⟩
  exact ⟨year, started, Int.le_trans before.le otherEarly, Int.lt_of_le_of_lt otherLate after⟩

/-- Around an instant there is at most one change. -/
theorem between_turns (center : Wall) : ∃ (turn : Wall) (before after : Bool),
    ∀ instant, center - 5 * dayLength ≤ instant → instant ≤ center + 12 * dayLength →
      (Between first second instant ↔ (if instant < turn then before else after) = true) := by
  by_cases opening : ∃ year, 1 ≤ year ∧ center - 5 * dayLength ≤ first year ∧
      first year ≤ center + 12 * dayLength
  · obtain ⟨year, started, low, high⟩ := opening
    refine ⟨first year, false, true, ?_⟩
    intro instant early late
    rw [between_after_opening seasons started low high early late]
    simp
  by_cases closing : ∃ year, 1 ≤ year ∧ center - 5 * dayLength ≤ second year ∧
      second year ≤ center + 12 * dayLength
  · obtain ⟨year, started, low, high⟩ := closing
    refine ⟨second year, true, false, ?_⟩
    intro instant early late
    rw [between_before_closing seasons started low high early late]
    simp
  · have early : center - 5 * dayLength ≤ center := by simp only [dayLength_eq, Wall]; omega
    have late : center ≤ center + 12 * dayLength := by simp only [dayLength_eq, Wall]; omega
    by_cases here : Between first second center
    · refine ⟨center, true, true, ?_⟩
      intro instant first last
      simp [between_steady opening closing early late first last here]
    · refine ⟨center, false, false, ?_⟩
      intro instant first last
      have away := mt (between_steady opening closing first last early late) here
      simp [away]

end

/-- A summer time whose changes keep away from the ends of the year and from each other. -/
structure RegularSummer (summer : SummerTime) : Prop where
  offset : WithinDay summer.offset
  start : Settled summer.start
  finish : Settled summer.finish
  apart : summer.start.month + 3 ≤ summer.finish.month ∨
    summer.finish.month + 3 ≤ summer.start.month

structure Regular (zone : Zone) : Prop where
  standard : WithinDay zone.standard
  summer : ∀ summer ∈ zone.summer, RegularSummer summer

instance (summer : SummerTime) : Decidable (RegularSummer summer) :=
  decidable_of_iff (WithinDay summer.offset ∧ Settled summer.start ∧ Settled summer.finish ∧
      (summer.start.month + 3 ≤ summer.finish.month ∨
        summer.finish.month + 3 ≤ summer.start.month))
    ⟨fun holds => ⟨holds.1, holds.2.1, holds.2.2.1, holds.2.2.2⟩,
      fun regular => ⟨regular.offset, regular.start, regular.finish, regular.apart⟩⟩

instance (zone : Zone) : Decidable (Regular zone) :=
  decidable_of_iff (WithinDay zone.standard ∧ ∀ summer ∈ zone.summer, RegularSummer summer)
    ⟨fun holds => ⟨holds.1, holds.2⟩, fun regular => ⟨regular.standard, regular.summer⟩⟩

theorem named_regular {name : String} {zone : Zone} (named : Zone.named name = .ok zone) :
    Regular zone := by
  have each : ∀ entry ∈ Zone.known, Regular entry.2 := by decide
  exact each (name, zone) (named_known named)

/-- The instants at which summer time starts. -/
def starts (zone : Zone) (summer : SummerTime) (year : Nat) : Wall :=
  summer.start.wallIn year - zone.standard * secondLength

def finishes (summer : SummerTime) (year : Nat) : Wall :=
  summer.finish.wallIn year - summer.offset * secondLength

/-- Whether an instant lies in the summer time of a zone. -/
def InSummer (zone : Zone) (summer : SummerTime) (instant : Wall) : Prop :=
  if summer.start.month < summer.finish.month then
    Between (starts zone summer) (finishes summer) instant
  else ¬ Between (finishes summer) (starts zone summer) instant

theorem seasons_of {one other : YearlyChange} {offset otherOffset : Int} (first : Settled one)
    (second : Settled other) (apart : one.month + 3 ≤ other.month) (own : WithinDay offset)
    (otherOwn : WithinDay otherOffset) :
    Seasons (fun year => one.wallIn year - offset * secondLength)
      (fun year => other.wallIn year - otherOffset * secondLength) := by
  obtain ⟨behind, ahead⟩ := own
  obtain ⟨otherBehind, otherAhead⟩ := otherOwn
  have length : secondLength = 1000000 := rfl
  refine ⟨?_, ?_, ?_⟩
  · intro year
    have bounds := wallIn_bounds first year
    simp only [dayLength_eq, length, Wall] at *
    omega
  · intro year
    have between := wallIn_apart first second apart year
    simp only [dayLength_eq, length, Wall] at *
    omega
  · intro year started
    have bounds := wallIn_bounds second year
    have longer := yearStart_step started
    simp only [dayLength_eq, length, Wall] at *
    omega

section
variable {zone : Zone} {summer : SummerTime} (standard : WithinDay zone.standard)
  (regular : RegularSummer summer)
include standard regular

theorem season_cases :
    summer.start.month < summer.finish.month ∧ Seasons (starts zone summer) (finishes summer) ∨
      ¬ summer.start.month < summer.finish.month ∧
        Seasons (finishes summer) (starts zone summer) := by
  rcases regular.apart with north | south
  · exact Or.inl ⟨by omega, seasons_of regular.start regular.finish north standard regular.offset⟩
  · exact Or.inr ⟨by omega, seasons_of regular.finish regular.start south regular.offset standard⟩

theorem changes_apart (year : Nat) :
    starts zone summer year + 40 * dayLength ≤ finishes summer year ∨
      finishes summer year + 40 * dayLength ≤ starts zone summer year :=
  (season_cases standard regular).imp
    (fun northern => northern.2.apart year) (fun southern => southern.2.apart year)

theorem spans_iff {instant near : Wall} (behind : instant - 5 * dayLength ≤ near)
    (ahead : near ≤ instant + 5 * dayLength) :
    SummerTime.spans (starts zone summer near.date.year) (finishes summer near.date.year)
      instant = true ↔ InSummer zone summer instant := by
  have positive : 0 < 40 * dayLength := by decide
  unfold SummerTime.spans InSummer
  rcases season_cases standard regular with ⟨northern, seasons⟩ | ⟨southern, seasons⟩
  · have apart := seasons.apart near.date.year
    have ordered : starts zone summer near.date.year < finishes summer near.date.year := by lia
    rw [if_pos northern, if_pos ordered, between_iff seasons behind ahead]
    simp
  · have apart := seasons.apart near.date.year
    have ordered : ¬ starts zone summer near.date.year < finishes summer near.date.year := by lia
    rw [if_neg southern, if_neg ordered, between_iff seasons behind ahead, Bool.not_eq_true',
      ← Bool.not_eq_true, Bool.and_eq_true, decide_eq_true_eq, decide_eq_true_eq]

theorem summer_turns (center : Wall) : ∃ (turn : Wall) (before after : Bool),
    ∀ instant, center - 5 * dayLength ≤ instant → instant ≤ center + 12 * dayLength →
      (InSummer zone summer instant ↔ (if instant < turn then before else after) = true) := by
  rcases season_cases standard regular with ⟨northern, seasons⟩ | ⟨southern, seasons⟩
  · simp only [InSummer, if_pos northern]
    exact between_turns seasons center
  · obtain ⟨turn, before, after, turns⟩ := between_turns seasons center
    refine ⟨turn, !before, !after, ?_⟩
    intro instant early late
    simp only [InSummer, if_neg southern, turns instant early late]
    split <;> simp

end

/-- The offset in force at an instant, which is a reading of a clock on universal time. -/
def offset (zone : Zone) (instant : Wall) : Int := (zone.offsetFromUniversal instant).1

def highest (zone : Zone) : Int := zone.summer.elim zone.standard fun summer =>
  max zone.standard summer.offset

def lowest (zone : Zone) : Int := zone.summer.elim zone.standard fun summer =>
  min zone.standard summer.offset

/-- The year of any reading nearby tells by which changes the offset is found. -/
theorem offset_near {zone : Zone} {summer : SummerTime} (regular : Regular zone)
    (has : zone.summer = some summer) {instant near : Wall}
    (behind : instant - 5 * dayLength ≤ near) (ahead : near ≤ instant + 5 * dayLength) :
    offset zone instant =
      if SummerTime.spans (starts zone summer near.date.year) (finishes summer near.date.year)
        instant
      then summer.offset else zone.standard := by
  have own := spans_iff regular.standard (regular.summer summer has)
    (near_itself instant).1 (near_itself instant).2
  have nearby := spans_iff regular.standard (regular.summer summer has) behind ahead
  rw [Bool.eq_iff_iff.mpr (nearby.trans own.symm)]
  simp only [offset, Zone.offsetFromUniversal, has]
  rfl

theorem spans_shifted (start finish wall span : Wall) :
    SummerTime.spans (start + span) (finish + span) wall =
      SummerTime.spans start finish (wall - span) := by
  have ordered : start + span < finish + span ↔ start < finish := by lia
  have opened : ∀ change : Wall, change + span ≤ wall ↔ change ≤ wall - span := by
    intro change
    lia
  have unclosed : ∀ change : Wall, wall < change + span ↔ wall - span < change := by
    intro change
    lia
  simp only [SummerTime.spans, ordered, opened, unclosed]

section
variable {start finish instant span : Wall} (positive : 0 < span) (short : span ≤ 4 * dayLength)
  (apart : start + 40 * dayLength ≤ finish ∨ finish + 40 * dayLength ≤ start)
include positive short apart

theorem shortly_after_finish : finish ≤ instant ∧ instant < finish + span ↔
    SummerTime.spans start finish instant = false ∧
      SummerTime.spans start finish (instant - span) = true := by
  unfold SummerTime.spans
  simp only [dayLength_eq, Wall] at *
  split
  · simp only [Bool.and_eq_false_iff, Bool.and_eq_true, decide_eq_true_eq, decide_eq_false_iff_not]
    omega
  · simp only [Bool.not_eq_false', Bool.not_eq_true', Bool.and_eq_false_iff, Bool.and_eq_true,
      decide_eq_true_eq, decide_eq_false_iff_not]
    omega

theorem shortly_after_start : start ≤ instant ∧ instant < start + span ↔
    SummerTime.spans start finish instant = true ∧
      SummerTime.spans start finish (instant - span) = false := by
  unfold SummerTime.spans
  simp only [dayLength_eq, Wall] at *
  split
  · simp only [Bool.and_eq_false_iff, Bool.and_eq_true, decide_eq_true_eq, decide_eq_false_iff_not]
    omega
  · simp only [Bool.not_eq_false', Bool.not_eq_true', Bool.and_eq_false_iff, Bool.and_eq_true,
      decide_eq_true_eq, decide_eq_false_iff_not]
    omega

end

/-- One choice of two numbers is less than another if it takes the lower and the other the higher. -/
theorem choice_lt_iff {low high : Int} (ordered : low < high) (first second : Bool) :
    (if first then high else low) < (if second then high else low) ↔
      first = false ∧ second = true := by
  cases first <;> cases second <;> simp [ordered, ordered.le]

theorem choice_gt_iff {low high : Int} (ordered : low < high) (first second : Bool) :
    (if first then low else high) < (if second then low else high) ↔
      first = true ∧ second = false := by
  cases first <;> cases second <;> simp [ordered, ordered.le]

theorem lowest_le_highest (zone : Zone) : lowest zone ≤ highest zone := by
  unfold lowest highest
  cases zone.summer with
  | none => exact Int.le_refl _
  | some summer => exact min_le_max

theorem lowest_le_offset (zone : Zone) (instant : Wall) : lowest zone ≤ offset zone instant := by
  unfold lowest offset Zone.offsetFromUniversal
  cases zone.summer with
  | none => exact Int.le_refl _
  | some summer =>
    simp only [Option.elim_some]
    split
    · exact min_le_right ..
    · exact min_le_left ..

theorem extremes_withinDay {zone : Zone} (regular : Regular zone) :
    WithinDay (lowest zone) ∧ WithinDay (highest zone) := by
  have standard := regular.standard
  cases has : zone.summer with
  | none => simpa [highest, lowest, has] using standard
  | some summer =>
    have summerOffset := (regular.summer summer has).offset
    simp only [highest, lowest, has, Option.elim_some]
    unfold WithinDay at *
    omega

/-- The offset by which a reading is resolved. -/
def resolving (zone : Zone) (secondPass : Bool) : Int :=
  if secondPass then lowest zone else highest zone

theorem offsetAt_spans {zone : Zone} {summer : SummerTime} (has : zone.summer = some summer)
    (wall : Wall) (secondPass : Bool) :
    zone.offsetAt wall secondPass =
      if SummerTime.spans (starts zone summer wall.date.year) (finishes summer wall.date.year)
        (wall - resolving zone secondPass * secondLength)
      then summer.offset else zone.standard := by
  -- Whichever offset resolves a reading, both changes come out as the clock shows them by it.
  have standardStart (start : Wall) : start - zone.standard * secondLength +
      zone.standard * secondLength = start := Int.sub_add_cancel ..
  have summerStart (start : Wall) : start - zone.standard * secondLength +
      summer.offset * secondLength =
        start + (summer.offset - zone.standard) * secondLength := by ring
  have standardFinish (finish : Wall) : finish - summer.offset * secondLength +
      zone.standard * secondLength =
        finish - (summer.offset - zone.standard) * secondLength := by ring
  have summerFinish (finish : Wall) : finish - summer.offset * secondLength +
      summer.offset * secondLength = finish := Int.sub_add_cancel ..
  rw [← spans_shifted]
  simp only [Zone.offsetAt, has, starts, finishes, resolving, highest, lowest, Option.elim_some]
  rcases le_or_gt zone.standard summer.offset with ahead | behind
  · have forward : 0 ≤ (summer.offset - zone.standard) * secondLength :=
      Int.mul_nonneg (Int.sub_nonneg.mpr ahead) (by decide)
    cases secondPass <;>
      simp [forward, ahead, standardStart, summerStart, standardFinish, summerFinish]
  · have backward : ¬ 0 ≤ (summer.offset - zone.standard) * secondLength :=
      Int.not_le.mpr (Int.mul_neg_of_neg_of_pos (Int.sub_neg_of_lt behind) (by decide))
    cases secondPass <;>
      simp [backward, behind.le, standardStart, summerStart, standardFinish, summerFinish]

/-- The reading of a first pass is resolved by the highest offset of a zone, and the reading of a
second pass by the lowest. -/
theorem offsetAt_eq {zone : Zone} (regular : Regular zone) (wall : Wall) (secondPass : Bool) :
    zone.offsetAt wall secondPass =
      offset zone (wall - resolving zone secondPass * secondLength) := by
  cases has : zone.summer with
  | none => simp [Zone.offsetAt, offset, Zone.offsetFromUniversal, has]
  | some summer =>
    obtain ⟨low, high⟩ : WithinDay (resolving zone secondPass) := by
      cases secondPass with
      | false => exact (extremes_withinDay regular).2
      | true => exact (extremes_withinDay regular).1
    have length : secondLength = 1000000 := rfl
    rw [offsetAt_spans has]
    symm
    apply offset_near regular has
    · simp only [dayLength_eq, length, Wall]
      omega
    · simp only [dayLength_eq, length, Wall]
      omega

theorem offsetAt_first {zone : Zone} (regular : Regular zone) (wall : Wall) :
    zone.offsetAt wall false = offset zone (wall - highest zone * secondLength) :=
  offsetAt_eq regular wall false

theorem shift_bounds {low high : Int} (ordered : low < high) (lowNear : WithinDay low)
    (highNear : WithinDay high) :
    (0 : Wall) < (high - low) * secondLength ∧ (high - low) * secondLength ≤ 4 * dayLength := by
  have length : secondLength = 1000000 := rfl
  simp only [WithinDay, length, dayLength_eq, Wall] at *
  omega

theorem offset_before_shift {zone : Zone} {summer : SummerTime} (regular : Regular zone)
    (has : zone.summer = some summer) (instant : Wall) :
    offset zone (instant - (highest zone - lowest zone) * secondLength) =
      if SummerTime.spans (starts zone summer instant.date.year)
        (finishes summer instant.date.year)
        (instant - (highest zone - lowest zone) * secondLength)
      then summer.offset else zone.standard := by
  obtain ⟨lowNear, highNear⟩ := extremes_withinDay regular
  have length : secondLength = 1000000 := rfl
  apply offset_near regular has
  · simp only [WithinDay, length, dayLength_eq, Wall] at *
    have ordered := lowest_le_highest zone
    omega
  · simp only [WithinDay, length, dayLength_eq, Wall] at *
    omega

/-- The clock shows a reading again where its offset was higher before. -/
theorem repeats_iff {zone : Zone} (regular : Regular zone) (instant : Wall) :
    (zone.offsetFromUniversal instant).2 = true ↔
      offset zone instant < offset zone (instant - (highest zone - lowest zone) * secondLength) := by
  cases has : zone.summer with
  | none => simp [offset, Zone.offsetFromUniversal, has]
  | some summer =>
    have near := (regular.summer summer has).offset
    have apart := changes_apart regular.standard (regular.summer summer has) instant.date.year
    rw [offset_near regular has (near_itself instant).1 (near_itself instant).2,
      offset_before_shift regular has]
    have repeats : (zone.offsetFromUniversal instant).2 =
        if 0 < (summer.offset - zone.standard) * secondLength then
          finishes summer instant.date.year ≤ instant && instant <
            finishes summer instant.date.year + (summer.offset - zone.standard) * secondLength
        else starts zone summer instant.date.year ≤ instant && instant <
          starts zone summer instant.date.year - (summer.offset - zone.standard) * secondLength := by
      simp only [Zone.offsetFromUniversal, has]
      rfl
    rw [repeats]
    simp only [highest, lowest, has, Option.elim_some]
    rcases lt_trichotomy zone.standard summer.offset with ahead | same | behind
    · obtain ⟨positive, short⟩ := shift_bounds ahead regular.standard near
      rw [if_pos positive, Bool.and_eq_true, decide_eq_true_eq, decide_eq_true_eq,
        shortly_after_finish positive short apart, max_eq_right ahead.le, min_eq_left ahead.le,
        choice_lt_iff ahead]
    · have unshifted : (summer.offset - zone.standard) * secondLength = 0 := by
        rw [same, Int.sub_self, Int.zero_mul]
      rw [unshifted, if_neg (Int.lt_irrefl _), same, Bool.and_eq_true, decide_eq_true_eq,
        decide_eq_true_eq, Int.sub_zero, ite_self, ite_self]
      simp
    · obtain ⟨positive, short⟩ := shift_bounds behind near regular.standard
      have opposite : (summer.offset - zone.standard) * secondLength =
          -((zone.standard - summer.offset) * secondLength) := by ring
      rw [opposite, if_neg (Int.not_lt.mpr (Int.neg_nonpos_of_nonneg positive.le)),
        Int.sub_neg, Bool.and_eq_true, decide_eq_true_eq, decide_eq_true_eq,
        shortly_after_start positive short apart, max_eq_left behind.le, min_eq_right behind.le,
        choice_gt_iff behind]

/-- Around an instant the offset of a zone changes at most once, at a turn. -/
structure Turns (zone : Zone) (center turn : Wall) (before after : Int) : Prop where
  extremes : before = after ∨ before = lowest zone ∧ after = highest zone ∨
    before = highest zone ∧ after = lowest zone
  offsets : ∀ instant, center - 5 * dayLength ≤ instant → instant ≤ center + 12 * dayLength →
    instant < turn ∧ offset zone instant = before ∨ turn ≤ instant ∧ offset zone instant = after

theorem exists_turn {zone : Zone} (regular : Regular zone) (center : Wall) :
    ∃ turn before after, Turns zone center turn before after := by
  cases has : zone.summer with
  | none =>
    refine ⟨center, zone.standard, zone.standard, Or.inl rfl, ?_⟩
    intro instant _ _
    have always : offset zone instant = zone.standard := by
      simp [offset, Zone.offsetFromUniversal, has]
    simpa only [always, and_true] using lt_or_ge instant center
  | some summer =>
    obtain ⟨turn, before, after, turns⟩ :=
      summer_turns regular.standard (regular.summer summer has) center
    refine ⟨turn, if before then summer.offset else zone.standard,
      if after then summer.offset else zone.standard, ?_, ?_⟩
    · simp only [highest, lowest, has, Option.elim_some]
      rcases le_total zone.standard summer.offset with ahead | behind
      · cases before <;> cases after <;> simp [ahead]
      · cases before <;> cases after <;> simp [behind]
    · intro instant early late
      have own := (spans_iff regular.standard (regular.summer summer has) (near_itself instant).1
        (near_itself instant).2).trans (turns instant early late)
      rw [offset_near regular has (near_itself instant).1 (near_itself instant).2,
        Bool.eq_iff_iff.mpr own]
      rcases lt_or_ge instant turn with sooner | later
      · exact Or.inl ⟨sooner, by rw [if_pos sooner]⟩
      · exact Or.inr ⟨later, by rw [if_neg (Int.not_lt.mpr later)]⟩

end Curbside.Proofs.ZoneTime

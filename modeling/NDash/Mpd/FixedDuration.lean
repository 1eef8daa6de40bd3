import NDash.Mpd.MultiSegmentBase
import NDash.Shared.Truncation

set_option autoImplicit false

/-!
# Segments of a fixed duration

Without a timeline, starts are truncated multiples of the duration, and the lookup and the number of
segments go by the truncated duration.
-/

namespace NDash.Mpd.MultiSegmentBase

variable {rounded : Int → Int → Int → Int} {base : MultiSegmentBase}

/-- A SegmentTemplate without a timeline whose segments take a microsecond or more. -/
structure FixedTemplate (base : MultiSegmentBase) : Prop where
  media : ∃ buildUri, base.media = .template buildUri
  unlisted : base.segmentTimeline = none
  whole : WholeScale base.timescale
  positive : 0 < base.durationUs
  -- the start number is an int32_t
  least : -2147483648 ≤ base.startNumber
  most : base.startNumber < 2147483648

def place (base : MultiSegmentBase) (n : Int) : Int := toInt32 (n - base.startNumber)

/-- By how many microseconds a segment starts behind as many truncated durations as there are
segments before it. -/
def lead (base : MultiSegmentBase) (n : Int) : Int :=
  Truncation.lead (base.duration * kMicrosPerSecond) base.timescale (base.place n)

-- By how many truncated durations.
def drift (base : MultiSegmentBase) (n : Int) : Int := (base.lead n).tdiv base.durationUs

variable (base) in
theorem place_bounds (n : Int) : -2147483648 ≤ base.place n ∧ base.place n < 2147483648 := by
  unfold place toInt32
  omega

variable (base) in
theorem drift_bounds (n : Int) : -2147483648 ≤ base.drift n ∧ base.drift n ≤ 2147483648 := by
  have drifts : (base.drift n).natAbs ≤ (base.lead n).natAbs := Int.natAbs_tdiv_le_natAbs _ _
  have leads : (base.lead n).natAbs ≤ (base.place n).natAbs := Truncation.natAbs_lead_le _
  have places := place_bounds base n
  omega

theorem drift_first : base.drift base.startNumber = 0 := by
  have first : base.place base.startNumber = 0 := by
    unfold place toInt32
    omega
  rw [drift, lead, first, Truncation.lead_zero, Int.zero_tdiv]

namespace FixedTemplate

theorem splits (template : FixedTemplate base) :
    Truncation.Splits (base.duration * kMicrosPerSecond) base.timescale := by
  rcases template.whole with divides | ⟨positive, -⟩
  · exact .inl (Int.dvd_mul_of_dvd_right divides)
  · refine .inr ⟨?_, positive⟩
    by_contra negative
    have quotient : base.durationUs ≤ (0 : Int).tdiv base.timescale :=
      Int.tdiv_le_tdiv positive (by omega)
    have := template.positive
    rw [Int.zero_tdiv] at quotient
    omega

variable (rounded) in
theorem time_eq (template : FixedTemplate base) (n : Int) :
    base.getSegmentTimeUs rounded n = base.place n * base.durationUs + base.lead n := by
  unfold getSegmentTimeUs
  simp only [template.unlisted]
  rw [scale_eq template.whole, Int.mul_assoc, Truncation.multiple_eq template.splits]
  rfl

/-- The number that the lookup of a start computes, before it is clamped. -/
theorem quotient_eq (template : FixedTemplate base) (n : Int) :
    (base.getSegmentTimeUs rounded n).tdiv base.durationUs = base.place n + base.drift n := by
  have quotient := Truncation.multiple_tdiv template.splits template.positive (base.place n)
  rw [Truncation.multiple_eq template.splits] at quotient
  rw [template.time_eq rounded]
  exact quotient

theorem lookup_eq (template : FixedTemplate base) (n periodDurationUs : Int) :
    base.getSegmentNum rounded (base.getSegmentTimeUs rounded n) periodDurationUs =
      .ok (if toInt32 (n + base.drift n) < base.getFirstSegmentNum then base.getFirstSegmentNum
        else if base.getLastSegmentNum periodDurationUs ≠ kIndexUnbounded ∧
            toInt32 (n + base.drift n) > base.getLastSegmentNum periodDurationUs then
          base.getLastSegmentNum periodDurationUs
        else toInt32 (n + base.drift n)) := by
  have number : toInt32 (base.startNumber + toInt32 (base.place n + base.drift n)) =
      toInt32 (n + base.drift n) := by
    unfold place toInt32
    omega
  unfold getSegmentNum
  simp only [template.unlisted]
  rw [template.quotient_eq, number]
  split
  · rfl
  · split <;> rfl

theorem last_lt (template : FixedTemplate base) (periodDurationUs : Int) :
    base.getLastSegmentNum periodDurationUs < 2147483648 := by
  obtain ⟨buildUri, media⟩ := template.media
  unfold getLastSegmentNum
  rw [media, template.unlisted]
  dsimp only
  split
  · decide
  · unfold toInt32
    omega

/-- A segment is looked up by its start exactly if the starts are not ahead by a whole truncated
duration, or if what they are ahead by is cut off at the last segment. -/
theorem getSegmentNum_start_iff (template : FixedTemplate base) {n periodDurationUs : Int}
    (lower : base.getFirstSegmentNum ≤ n) (upper : n ≤ base.getLastSegmentNum periodDurationUs) :
    base.getSegmentNum rounded (base.getSegmentTimeUs rounded n) periodDurationUs = .ok n ↔
      base.drift n = 0 ∨
        n = base.getLastSegmentNum periodDurationUs ∧ n ≠ kIndexUnbounded ∧
          n < toInt32 (n + base.drift n) := by
  have least := template.least
  have most := template.last_lt periodDurationUs
  have bounds := drift_bounds base n
  have first : base.getFirstSegmentNum = base.startNumber := rfl
  have moved : toInt32 (n + base.drift n) = n ↔ base.drift n = 0 := by
    unfold toInt32
    omega
  have firstStays : n = base.startNumber → base.drift n = 0 := by
    rintro rfl
    exact drift_first
  rw [template.lookup_eq, Except.ok.injEq]
  split
  · next below =>
    -- the clamp at the first segment is for numbers that have wrapped
    constructor
    · intro same
      exact .inl (firstStays (by omega))
    · rintro (still | ⟨-, -, ahead⟩)
      · have := moved.mpr still
        omega
      · omega
  · split
    · next beyond =>
      constructor
      · intro same
        exact .inr ⟨same.symm, by omega, by omega⟩
      · rintro (still | ⟨same, -⟩)
        · have := moved.mpr still
          omega
        · exact same.symm
    · next within =>
      rw [moved]
      constructor
      · exact .inl
      · rintro (still | ⟨same, bounded, ahead⟩)
        · exact still
        · exact absurd ⟨by omega, by omega⟩ within

-- 20.0009 ms in units of 100 ns: after seven and a half minutes the starts are a segment ahead.
theorem getSegmentNum_start_iff_ahead :
    let rounded : Int → Int → Int → Int := fun timestamp _ _ => timestamp
    let base : MultiSegmentBase :=
      { timescale := 10000000, duration := 200009, media := .template fun _ _ => "" }
    FixedTemplate base ∧ base.getFirstSegmentNum ≤ 22224 ∧
      22224 ≤ base.getLastSegmentNum 600000000 ∧
      base.getSegmentNum rounded (base.getSegmentTimeUs rounded 22224) 600000000 = .ok 22225 := by
  refine ⟨⟨⟨_, rfl⟩, rfl, .inr ⟨by decide, 10, rfl⟩, by decide, by decide, by decide⟩, by decide,
    by decide, by decide⟩

-- 2 s in milliseconds.
theorem getSegmentNum_start_iff_whole :
    let rounded : Int → Int → Int → Int := fun timestamp _ _ => timestamp
    let base : MultiSegmentBase :=
      { timescale := 1000, duration := 2000, media := .template fun _ _ => "" }
    base.getSegmentNum rounded (base.getSegmentTimeUs rounded 7) 60000000 = .ok 7 := by
  intro rounded base
  have template : FixedTemplate base :=
    ⟨⟨_, rfl⟩, rfl, .inl ⟨1000, rfl⟩, by decide, by decide, by decide⟩
  exact (template.getSegmentNum_start_iff (by decide) (by decide)).mpr (.inl (by decide))

end FixedTemplate

/-! How the segments cover a period -/

/-- Segments of positive length, each up to the next and the last one up to the end of the period,
and as many of them as start before it. -/
structure TilesPeriod (rounded : Int → Int → Int → Int) (base : MultiSegmentBase)
    (periodDurationUs : Int) : Prop where
  nonempty : base.getFirstSegmentNum ≤ base.getLastSegmentNum periodDurationUs
  positive : ∀ n, base.getFirstSegmentNum ≤ n → n ≤ base.getLastSegmentNum periodDurationUs →
    0 < base.getSegmentDurationUs rounded n periodDurationUs
  adjacent : ∀ n, base.getFirstSegmentNum ≤ n → n < base.getLastSegmentNum periodDurationUs →
    base.getSegmentTimeUs rounded n + base.getSegmentDurationUs rounded n periodDurationUs =
      base.getSegmentTimeUs rounded (n + 1)
  ends : base.getSegmentTimeUs rounded (base.getLastSegmentNum periodDurationUs) +
    base.getSegmentDurationUs rounded (base.getLastSegmentNum periodDurationUs) periodDurationUs =
      periodDurationUs
  starts : ∀ n, base.getFirstSegmentNum ≤ n → n ≤ base.getLastSegmentNum periodDurationUs →
    base.getSegmentTimeUs rounded n < periodDurationUs
  complete : periodDurationUs ≤
    base.getSegmentTimeUs rounded (base.getLastSegmentNum periodDurationUs + 1)

theorem ceil_bounds {value size : Int} (positive : 0 < value) (sizePos : 0 < size) :
    (ceilDivide value size - 1) * size < value ∧ value ≤ ceilDivide value size * size := by
  have rounded : ceilDivide value size = (value + size - 1) / size :=
    Int.tdiv_eq_ediv_of_nonneg (by omega)
  have below := Int.ediv_mul_le (value + size - 1) (Int.ne_of_gt sizePos)
  have above := Int.lt_ediv_add_one_mul_self (value + size - 1) sizePos
  rw [← rounded, Int.add_mul] at above
  rw [← rounded] at below
  rw [Int.sub_mul]
  omega

theorem ceil_unique {value size count : Int} (positive : 0 < value) (sizePos : 0 < size)
    (below : count * size < value) : count < ceilDivide value size := by
  have upper := (ceil_bounds positive sizePos).2
  have products : count * size < ceilDivide value size * size := by omega
  exact Int.lt_of_mul_lt_mul_right products (Int.le_of_lt sizePos)

namespace FixedTemplate

theorem place_at {i : Int} (nonneg : 0 ≤ i) (fits : i < 2147483648) :
    base.place (base.startNumber + i) = i := by
  unfold MultiSegmentBase.place toInt32
  omega

variable (rounded) in
theorem time_at (template : FixedTemplate base) {i : Int} (nonneg : 0 ≤ i) (fits : i < 2147483648) :
    base.getSegmentTimeUs rounded (base.startNumber + i) = i * base.durationUs +
      Truncation.lead (base.duration * kMicrosPerSecond) base.timescale i := by
  rw [template.time_eq, MultiSegmentBase.lead, place_at nonneg fits]

theorem last_eq (template : FixedTemplate base) {periodDurationUs : Int}
    (bounded : periodDurationUs ≠ 0) :
    base.getLastSegmentNum periodDurationUs =
      toInt32 (base.startNumber + ceilDivide periodDurationUs base.durationUs - 1) := by
  obtain ⟨buildUri, media⟩ := template.media
  unfold getLastSegmentNum
  rw [media, template.unlisted]
  dsimp only
  rw [if_neg bounded]
  unfold toInt32
  omega

variable (rounded) in
theorem duration_before (template : FixedTemplate base) {n periodDurationUs : Int}
    (before : n ≠ base.getLastSegmentNum periodDurationUs) :
    base.getSegmentDurationUs rounded n periodDurationUs = base.durationUs := by
  unfold getSegmentDurationUs
  simp only [template.unlisted]
  rw [if_neg before]

variable (rounded) in
theorem duration_last (template : FixedTemplate base) (periodDurationUs : Int) :
    base.getSegmentDurationUs rounded (base.getLastSegmentNum periodDurationUs) periodDurationUs =
      periodDurationUs - base.getSegmentTimeUs rounded (base.getLastSegmentNum periodDurationUs) := by
  unfold getSegmentDurationUs
  simp only [template.unlisted]
  rw [if_pos trivial]

-- An index beyond the greatest int32_t wraps to a start before the period.
variable (rounded) in
theorem time_wrapped (template : FixedTemplate base) :
    base.getSegmentTimeUs rounded (base.startNumber + 2147483648) < 0 := by
  have wrapped : base.place (base.startNumber + 2147483648) = -2147483648 := by
    unfold MultiSegmentBase.place toInt32
    omega
  have behind := Truncation.lead_mono template.splits (by omega : (-2147483648 : Int) ≤ 0)
  have durationPos := template.positive
  rw [Truncation.lead_zero] at behind
  rw [template.time_eq, MultiSegmentBase.lead, wrapped]
  omega

theorem span_lt (template : FixedTemplate base) {periodDurationUs : Int}
    (tiles : base.TilesPeriod rounded periodDurationUs) :
    base.getLastSegmentNum periodDurationUs < base.startNumber + 2147483648 := by
  by_contra large
  have first : base.getFirstSegmentNum = base.startNumber := rfl
  have adjacent := tiles.adjacent (base.startNumber + 2147483647) (by omega) (by omega)
  rw [template.duration_before rounded (by omega),
    template.time_at rounded (by omega : (0 : Int) ≤ 2147483647) (by omega),
    Int.add_assoc base.startNumber] at adjacent
  have wrapped := template.time_wrapped rounded
  have ahead := Truncation.lead_nonneg template.splits (by omega : (0 : Int) ≤ 2147483647)
  have durationPos := template.positive
  change _ = base.getSegmentTimeUs rounded (base.startNumber + 2147483648) at adjacent
  omega

theorem lead_of_tiles (template : FixedTemplate base) {periodDurationUs : Int}
    (tiles : base.TilesPeriod rounded periodDurationUs) {i : Nat}
    (within : base.startNumber + i ≤ base.getLastSegmentNum periodDurationUs) :
    Truncation.lead (base.duration * kMicrosPerSecond) base.timescale i = 0 := by
  have span := template.span_lt tiles
  induction i with
  | zero => exact Truncation.lead_zero
  | succ i ih =>
    have before := ih (by omega)
    have adjacent := tiles.adjacent (base.startNumber + i) (by unfold getFirstSegmentNum; omega)
      (by omega)
    rw [template.duration_before rounded (by omega), template.time_at rounded (by omega) (by omega),
      Int.add_assoc base.startNumber, template.time_at rounded (by omega) (by omega), before,
      Int.add_mul] at adjacent
    rw [Int.natCast_succ]
    omega

theorem exists_last {periodDurationUs : Int} (tiles : base.TilesPeriod rounded periodDurationUs) :
    ∃ i : Nat, base.getLastSegmentNum periodDurationUs = base.startNumber + i := by
  have nonempty := tiles.nonempty
  unfold getFirstSegmentNum at nonempty
  exact ⟨(base.getLastSegmentNum periodDurationUs - base.startNumber).toNat, by omega⟩

theorem next_lt (template : FixedTemplate base) {periodDurationUs : Int} (positive : 0 < periodDurationUs)
    (tiles : base.TilesPeriod rounded periodDurationUs) {i : Nat}
    (here : base.getLastSegmentNum periodDurationUs = base.startNumber + i) :
    (i : Int) + 1 < 2147483648 := by
  have span := template.span_lt tiles
  by_contra large
  have complete := tiles.complete
  have wrapped := template.time_wrapped rounded
  have next : base.startNumber + (i : Int) + 1 = base.startNumber + 2147483648 := by omega
  rw [here, next] at complete
  omega

theorem count_of_tiles (template : FixedTemplate base) {periodDurationUs : Int}
    (positive : 0 < periodDurationUs) (tiles : base.TilesPeriod rounded periodDurationUs) {i : Nat}
    (here : base.getLastSegmentNum periodDurationUs = base.startNumber + i) :
    ceilDivide periodDurationUs base.durationUs = i + 1 := by
  have durationPos := template.positive
  have ceil := ceil_bounds positive durationPos
  have last := template.last_eq (Int.ne_of_gt positive)
  have indexed := template.next_lt positive tiles here
  have level := template.lead_of_tiles tiles (Int.le_of_eq here.symm)
  have starts := tiles.starts _ tiles.nonempty (Int.le_refl _)
  have complete := tiles.complete
  rw [here, template.time_at rounded (by omega) (by omega), level] at starts
  rw [here, Int.add_assoc, template.time_at rounded (by omega) indexed] at complete
  -- the start behind the last is no more than twice the multiple
  have ahead : (Truncation.lead (base.duration * kMicrosPerSecond) base.timescale (i + 1)).natAbs ≤
      ((i : Int) + 1).natAbs := Truncation.natAbs_lead_le _
  have twice : (ceilDivide periodDurationUs base.durationUs - 1) * base.durationUs <
      2 * (i + 1) * base.durationUs := by
    have more := Int.mul_le_mul_of_nonneg_left (show 1 ≤ base.durationUs by omega)
      (show (0 : Int) ≤ i + 1 by omega)
    rw [Int.mul_assoc]
    omega
  have bound := Int.lt_of_mul_lt_mul_right twice (Int.le_of_lt durationPos)
  have atLeast := ceil_unique positive durationPos (show i * base.durationUs < _ by omega)
  rw [here] at last
  unfold toInt32 at last
  omega

-- No start up to the last one is ahead of the multiples.
variable (rounded) in
theorem time_of_level (template : FixedTemplate base) {count : Int} (fits : count < 2147483648)
    (level : Truncation.lead (base.duration * kMicrosPerSecond) base.timescale (count - 1) = 0)
    {i : Int} (nonneg : 0 ≤ i) (below : i < count) :
    base.getSegmentTimeUs rounded (base.startNumber + i) = i * base.durationUs := by
  have lower := Truncation.lead_nonneg template.splits nonneg
  have upper := Truncation.lead_mono template.splits (show i ≤ count - 1 by omega)
  rw [template.time_at rounded nonneg (by omega)]
  omega

theorem tiles_of_level (template : FixedTemplate base) {periodDurationUs count : Int}
    (positive : 0 < periodDurationUs) (counted : ceilDivide periodDurationUs base.durationUs = count)
    (fits : count < 2147483648) (representable : base.startNumber + count ≤ 2147483648)
    (level : Truncation.lead (base.duration * kMicrosPerSecond) base.timescale (count - 1) = 0) :
    base.TilesPeriod rounded periodDurationUs := by
  have least := template.least
  have durationPos := template.positive
  have ceil := ceil_bounds positive durationPos
  have some := ceil_unique positive durationPos (show 0 * base.durationUs < _ by omega)
  rw [counted] at ceil some
  have atLast : base.getLastSegmentNum periodDurationUs = base.startNumber + (count - 1) := by
    rw [template.last_eq (Int.ne_of_gt positive), counted, toInt32_of_range (by omega) (by omega)]
    omega
  have levels (i : Int) (nonneg : 0 ≤ i) (below : i < count) :=
    template.time_of_level rounded fits level nonneg below
  have lastTime := levels (count - 1) (by omega) (by omega)
  have lastDuration := template.duration_last rounded periodDurationUs
  rw [atLast, lastTime] at lastDuration
  constructor
  · unfold getFirstSegmentNum
    omega
  · intro n lower upper
    by_cases isLast : n = base.getLastSegmentNum periodDurationUs
    · rw [isLast, atLast, lastDuration]
      omega
    · rw [template.duration_before rounded isLast]
      exact durationPos
  · intro n lower upper
    obtain ⟨i, rfl⟩ : ∃ i, n = base.startNumber + i := ⟨n - base.startNumber, by omega⟩
    unfold getFirstSegmentNum at lower
    rw [template.duration_before rounded (by omega), levels i (by omega) (by omega),
      Int.add_assoc base.startNumber, levels (i + 1) (by omega) (by omega), Int.add_mul,
      Int.one_mul]
  · rw [atLast, lastTime, lastDuration]
    omega
  · intro n lower upper
    obtain ⟨i, rfl⟩ : ∃ i, n = base.startNumber + i := ⟨n - base.startNumber, by omega⟩
    unfold getFirstSegmentNum at lower
    rw [levels i (by omega) (by omega)]
    have ordered := Int.mul_le_mul_of_nonneg_right (show i ≤ count - 1 by omega)
      (Int.le_of_lt durationPos)
    omega
  · have ahead := Truncation.lead_nonneg template.splits (show 0 ≤ count by omega)
    have next : base.startNumber + (count - 1) + 1 = base.startNumber + count := by omega
    rw [atLast, next, template.time_at rounded (by omega) fits]
    omega

/-- The segments tile a period exactly if their number fits and the starts of all of them are
multiples of the truncated duration. -/
theorem tilesPeriod_iff (template : FixedTemplate base) {periodDurationUs : Int}
    (positive : 0 < periodDurationUs) :
    base.TilesPeriod rounded periodDurationUs ↔
      ceilDivide periodDurationUs base.durationUs < 2147483648 ∧
        base.startNumber + ceilDivide periodDurationUs base.durationUs ≤ 2147483648 ∧
        Truncation.lead (base.duration * kMicrosPerSecond) base.timescale
          (ceilDivide periodDurationUs base.durationUs - 1) = 0 := by
  constructor
  · intro tiles
    obtain ⟨i, here⟩ := exists_last tiles
    have indexed := template.next_lt positive tiles here
    have level := template.lead_of_tiles tiles (Int.le_of_eq here.symm)
    have representable := template.last_lt periodDurationUs
    rw [template.count_of_tiles positive tiles here, Int.add_sub_cancel]
    exact ⟨by omega, by omega, level⟩
  · rintro ⟨fits, representable, level⟩
    exact template.tiles_of_level positive rfl fits representable level

-- The third segment starts a microsecond behind the end of the second one.
theorem tilesPeriod_iff_gap :
    let rounded : Int → Int → Int → Int := fun timestamp _ _ => timestamp
    let base : MultiSegmentBase :=
      { timescale := 10000000, duration := 200009, media := .template fun _ _ => "" }
    FixedTemplate base ∧ ¬ base.TilesPeriod rounded 60000 := by
  intro rounded base
  refine ⟨⟨⟨_, rfl⟩, rfl, .inr ⟨by decide, 10, rfl⟩, by decide, by decide, by decide⟩, ?_⟩
  intro tiles
  exact absurd (tiles.adjacent 2 (by decide) (by decide)) (by decide)

theorem tilesPeriod_iff_whole :
    let rounded : Int → Int → Int → Int := fun timestamp _ _ => timestamp
    let base : MultiSegmentBase :=
      { timescale := 1000, duration := 2000, media := .template fun _ _ => "" }
    base.TilesPeriod rounded 61000000 := by
  intro rounded base
  have template : FixedTemplate base :=
    ⟨⟨_, rfl⟩, rfl, .inl ⟨1000, rfl⟩, by decide, by decide, by decide⟩
  exact (template.tilesPeriod_iff (by decide)).mpr (by decide)

end FixedTemplate

end NDash.Mpd.MultiSegmentBase

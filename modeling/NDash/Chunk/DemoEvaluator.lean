import Mathlib.Data.Int.ConditionallyCompleteOrder
import Mathlib.Data.List.MinMax
import Mathlib.Data.Prod.Lex
import Mathlib.Data.String.Basic
import NDash.Chunk.AdaptiveEvaluator

set_option autoImplicit false

namespace NDash.Chunk.DemoEvaluator

open Mpd (Format)
open AdaptiveEvaluator (float playoutRates IsIdeal determineIdealFormat)

-- The operator < of two ties of three.
def tieLess (first second : Int × Int × String) : Bool :=
  first.1 < second.1 || (first.1 = second.1 &&
    (first.2.1 < second.2.1 || (first.2.1 = second.2.1 && first.2.2 < second.2.2)))

/-- DemoFormatComparator. -/
def less (descendingMpor : Bool) (f1 f2 : Format) : Bool :=
  if descendingMpor then
    tieLess (f2.maxPlayoutRate, f1.bitrate, f2.id) (f1.maxPlayoutRate, f2.bitrate, f1.id)
  else tieLess (f1.maxPlayoutRate, f1.bitrate, f2.id) (f2.maxPlayoutRate, f2.bitrate, f1.id)

-- std::max_element
def maxElement (less : Format → Format → Bool) (formats : List Format) : Option Format :=
  formats.foldl (fun largest format =>
    match largest with
    | none => some format
    | some largest => if less largest format then some format else some largest) none

-- The rates are compared as floats here, and as integers by the comparator.
def selectFormat (formats : List Format) (playbackRate : Rat) : Option Format :=
  let gteFmts := formats.filter fun format => |playbackRate| ≤ float format.maxPlayoutRate
  let ltFmts := formats.filter fun format => ¬ |playbackRate| ≤ float format.maxPlayoutRate
  if gteFmts = [] then
    if ltFmts = [] then none else maxElement (less false) ltFmts
  else maxElement (less true) gteFmts

/-- The order of the comparator: by max playout rate, then by bitrate, then by id, the last one
always downwards. -/
abbrev Rank := Int ×ₗ Int ×ₗ Stringᵒᵈ

def rank (descendingMpor : Bool) (format : Format) : Rank :=
  toLex (if descendingMpor then -format.maxPlayoutRate else format.maxPlayoutRate,
    toLex (format.bitrate, OrderDual.toDual format.id))

theorem less_iff (descendingMpor : Bool) (f1 f2 : Format) :
    less descendingMpor f1 f2 = true ↔ rank descendingMpor f1 < rank descendingMpor f2 := by
  cases descendingMpor with
  | false => simp [less, tieLess, rank, Prod.Lex.toLex_lt_toLex]
  | true =>
    have same : f2.maxPlayoutRate = f1.maxPlayoutRate ↔ f1.maxPlayoutRate = f2.maxPlayoutRate := eq_comm
    simp [less, tieLess, rank, Prod.Lex.toLex_lt_toLex, same]

theorem maxElement_eq_argmax (descendingMpor : Bool) (formats : List Format) :
    maxElement (less descendingMpor) formats = formats.argmax (rank descendingMpor) := by
  unfold maxElement List.argmax
  congr 1
  funext largest format
  cases largest with
  | none => rfl
  | some largest =>
    simp only [List.argAux, less_iff]

theorem rank_le {descendingMpor : Bool} {f1 f2 : Format}
    (lower : rank descendingMpor f1 ≤ rank descendingMpor f2) :
    (if descendingMpor then f2.maxPlayoutRate ≤ f1.maxPlayoutRate
      else f1.maxPlayoutRate ≤ f2.maxPlayoutRate) ∧
    (f1.maxPlayoutRate = f2.maxPlayoutRate → f1.bitrate ≤ f2.bitrate) := by
  simp only [rank, Prod.Lex.toLex_le_toLex] at lower
  cases descendingMpor with
  | false =>
    simp only [Bool.false_eq_true, if_false] at lower ⊢
    rcases lower with rate | ⟨rate, bitrate | ⟨bitrate, -⟩⟩ <;> omega
  | true =>
    simp only [if_true] at lower ⊢
    rcases lower with rate | ⟨rate, bitrate | ⟨bitrate, -⟩⟩ <;> omega

theorem maxElement_greatest (descendingMpor : Bool) {formats : List Format}
    (offered : formats ≠ []) :
    ∃ chosen ∈ formats, maxElement (less descendingMpor) formats = some chosen ∧
      ∀ other ∈ formats, rank descendingMpor other ≤ rank descendingMpor chosen := by
  rw [maxElement_eq_argmax]
  cases found : formats.argmax (rank descendingMpor) with
  | none => exact absurd (List.argmax_eq_none.mp found) offered
  | some chosen =>
    exact ⟨chosen, List.argmax_mem found, rfl, fun other inside => List.le_of_mem_argmax inside found⟩

theorem float_mono {first second : Int} (ordered : first ≤ second) : float first ≤ float second :=
  Int.cast_le.mpr (Rounding.round_mono (by decide) ordered)

theorem float_exact {value : Int} (small : value.natAbs < 2 ^ 24) : float value = value := by
  rw [float, Rounding.round_exact (by decide) small]

theorem selectFormat_reached {formats : List Format} {playbackRate : Rat}
    (reached : ∃ format ∈ formats, |playbackRate| ≤ float format.maxPlayoutRate) :
    ∃ chosen ∈ formats, selectFormat formats playbackRate = some chosen ∧
      |playbackRate| ≤ float chosen.maxPlayoutRate ∧
      ∀ other ∈ formats, |playbackRate| ≤ float other.maxPlayoutRate →
        rank true other ≤ rank true chosen := by
  obtain ⟨format, inside, fast⟩ := reached
  have some : formats.filter (fun format => |playbackRate| ≤ float format.maxPlayoutRate) ≠ [] :=
    List.ne_nil_of_mem (List.mem_filter.mpr ⟨inside, decide_eq_true fast⟩)
  obtain ⟨chosen, kept, found, greatest⟩ := maxElement_greatest true some
  obtain ⟨member, keeps⟩ := List.mem_filter.mp kept
  refine ⟨chosen, member, ?_, of_decide_eq_true keeps, ?_⟩
  · rw [selectFormat, if_neg some, found]
  · intro other offered fits
    exact greatest other (List.mem_filter.mpr ⟨offered, decide_eq_true fits⟩)

theorem selectFormat_short {formats : List Format} {playbackRate : Rat} (offered : formats ≠ [])
    (short : ∀ format ∈ formats, float format.maxPlayoutRate < |playbackRate|) :
    ∃ chosen ∈ formats, selectFormat formats playbackRate = some chosen ∧
      ∀ other ∈ formats, rank false other ≤ rank false chosen := by
  have none : formats.filter (fun format => |playbackRate| ≤ float format.maxPlayoutRate) = [] := by
    refine List.filter_eq_nil_iff.mpr fun format inside => ?_
    simpa using short format inside
  have all : formats.filter (fun format => ¬ |playbackRate| ≤ float format.maxPlayoutRate) =
      formats := by
    refine List.filter_eq_self.mpr fun format inside => ?_
    simpa using short format inside
  obtain ⟨chosen, member, found, greatest⟩ := maxElement_greatest false offered
  refine ⟨chosen, member, ?_, greatest⟩
  simp only [selectFormat]
  rw [if_pos none, all, if_neg offered, found]

/-- Of two max playout rates that are one float, the first is the better one for the playback: the
lower one where they keep up with it, otherwise the higher one. -/
def Closer (playbackRate : Rat) (first second : Int) : Prop :=
  if |playbackRate| ≤ float first then first < second else second < first

structure Selected (formats : List Format) (playbackRate : Rat) (chosen : Format) : Prop where
  offered : chosen ∈ formats
  nearest : Nearest.IsNearest |playbackRate| (playoutRates float formats)
    (float chosen.maxPlayoutRate)
  closest : ∀ other ∈ formats, float other.maxPlayoutRate = float chosen.maxPlayoutRate →
    ¬ Closer playbackRate other.maxPlayoutRate chosen.maxPlayoutRate
  bitrate : ∀ other ∈ formats, other.maxPlayoutRate = chosen.maxPlayoutRate →
    other.bitrate ≤ chosen.bitrate

theorem selectFormat_selected {formats : List Format} (offered : formats ≠ [])
    (playbackRate : Rat) :
    ∃ chosen, selectFormat formats playbackRate = some chosen ∧
      Selected formats playbackRate chosen := by
  by_cases reached : ∃ format ∈ formats, |playbackRate| ≤ float format.maxPlayoutRate
  · obtain ⟨chosen, member, found, fast, greatest⟩ := selectFormat_reached reached
    have slower {other : Format} (inside : other ∈ formats)
        (fits : |playbackRate| ≤ float other.maxPlayoutRate) :
        chosen.maxPlayoutRate ≤ other.maxPlayoutRate := (rank_le (greatest other inside fits)).1
    refine ⟨chosen, found, member, .inl ⟨⟨⟨chosen, member, rfl⟩, fast⟩, ?_⟩, ?_, ?_⟩
    · rintro rate ⟨⟨other, inside, rfl⟩, fits⟩
      exact float_mono (slower inside fits)
    · intro other inside same
      have fits : |playbackRate| ≤ float other.maxPlayoutRate := same ▸ fast
      rw [Closer, if_pos fits]
      exact not_lt.mpr (slower inside fits)
    · intro other inside same
      exact (rank_le (greatest other inside (same ▸ fast))).2 same
  · push Not at reached
    obtain ⟨chosen, member, found, greatest⟩ := selectFormat_short offered reached
    have slower {other : Format} (inside : other ∈ formats) :
        other.maxPlayoutRate ≤ chosen.maxPlayoutRate := (rank_le (greatest other inside)).1
    refine ⟨chosen, found, member, .inr ⟨?_, ⟨chosen, member, rfl⟩, ?_⟩, ?_, ?_⟩
    · rintro rate ⟨other, inside, rfl⟩
      exact reached other inside
    · rintro rate ⟨other, inside, rfl⟩
      exact float_mono (slower inside)
    · intro other inside same
      rw [Closer, if_neg (not_le.mpr (reached other inside))]
      exact not_lt.mpr (slower inside)
    · intro other inside same
      exact (rank_le (greatest other inside)).2 same

structure FirstHighest (formats : List Format) (format : Format) : Prop where
  highest : ∀ other ∈ formats, float other.maxPlayoutRate = float format.maxPlayoutRate →
    other.bitrate ≤ format.bitrate
  first : ∃ before after, formats = before ++ format :: after ∧
    ∀ other ∈ before, float other.maxPlayoutRate = float format.maxPlayoutRate →
      other.bitrate < format.bitrate

/-- Where several max playout rates are the nearest one as floats, the first format of the highest
bitrate among them has the best rate. -/
def ToldApart (formats : List Format) (playbackRate : Rat) : Prop :=
  ∀ format, FirstHighest formats format →
    Nearest.IsNearest |playbackRate| (playoutRates float formats) (float format.maxPlayoutRate) →
    ∀ other ∈ formats, float other.maxPlayoutRate = float format.maxPlayoutRate →
      ¬ Closer playbackRate other.maxPlayoutRate format.maxPlayoutRate

theorem FirstHighest.mem {formats : List Format} {format : Format}
    (firstHighest : FirstHighest formats format) : format ∈ formats := by
  obtain ⟨before, after, shape, -⟩ := firstHighest.first
  simp [shape]

theorem FirstHighest.find {formats : List Format} {format : Format}
    (firstHighest : FirstHighest formats format) :
    formats.find? (fun other => float other.maxPlayoutRate = float format.maxPlayoutRate ∧
      other.bitrate = format.bitrate) = some format := by
  obtain ⟨before, after, shape, first⟩ := firstHighest.first
  refine List.find?_eq_some_iff_append.mpr ⟨by simp, before, after, shape, ?_⟩
  intro other inside
  simpa [imp_iff_not_or] using fun same => (first other inside same).ne

theorem FirstHighest.unique {formats : List Format} {format other : Format}
    (firstHighest : FirstHighest formats format) (firstHighest' : FirstHighest formats other)
    (same : float other.maxPlayoutRate = float format.maxPlayoutRate) : other = format := by
  have bitrate : other.bitrate = format.bitrate :=
    le_antisymm (firstHighest.highest other firstHighest'.mem same)
      (firstHighest'.highest format firstHighest.mem same.symm)
  have found := firstHighest'.find
  rw [same, bitrate, firstHighest.find] at found
  exact (Option.some.inj found).symm

theorem Closer.ne {playbackRate : Rat} {first second : Int}
    (closer : Closer playbackRate first second) : first ≠ second := by
  unfold Closer at closer
  split at closer <;> omega

theorem Closer.total {playbackRate : Rat} {first second : Int} (same : float first = float second)
    (different : first ≠ second) :
    Closer playbackRate first second ∨ Closer playbackRate second first := by
  unfold Closer
  rw [same]
  split <;> omega

theorem toldApart_of_exact {formats : List Format}
    (exact : ∀ format ∈ formats, format.maxPlayoutRate.natAbs < 2 ^ 24) (playbackRate : Rat) :
    ToldApart formats playbackRate := by
  intro format firstHighest _ other inside same closer
  rw [float_exact (exact other inside), float_exact (exact format firstHighest.mem),
    Int.cast_inj] at same
  exact closer.ne same

theorem ideal_firstHighest {formats : List Format} (offered : formats ≠ []) {limit : Int}
    (allowed : ∀ format ∈ formats, format.bitrate ≤ limit) {playbackRate : Rat} {ideal : Format}
    (determined : determineIdealFormat float formats limit playbackRate = .ok (some ideal))
    (isIdeal : IsIdeal float formats limit playbackRate ideal) : FirstHighest formats ideal := by
  have highest : ∀ other ∈ formats, float other.maxPlayoutRate = float ideal.maxPlayoutRate →
      other.bitrate ≤ ideal.bitrate := by
    intro other inside same
    rcases isIdeal.bitrate with ⟨-, greatest⟩ | ⟨exceeds, -⟩
    · exact greatest ⟨⟨other, inside, same, rfl⟩, allowed other inside⟩
    · exact absurd (allowed other inside) (not_le.mpr (exceeds _ ⟨other, inside, same, rfl⟩))
  have found := AdaptiveEvaluator.determineIdealFormat_eq_find offered determined
  obtain ⟨-, before, after, shape, earlier⟩ := List.find?_eq_some_iff_append.mp found
  refine ⟨highest, before, after, shape, ?_⟩
  intro other inside same
  refine lt_of_le_of_ne (highest other (by simp [shape, inside]) same) ?_
  intro bitrate
  simpa [same, bitrate] using earlier other inside

/-- Without a limit on the bitrate, the two evaluators have one policy, but for max playout rates
that are one float. -/
theorem selectFormat_agrees_iff {formats : List Format} (offered : formats ≠ []) {limit : Int}
    (allowed : ∀ format ∈ formats, format.bitrate ≤ limit) (playbackRate : Rat) :
    ∃ chosen ideal, selectFormat formats playbackRate = some chosen ∧
      determineIdealFormat float formats limit playbackRate = .ok (some ideal) ∧
      (chosen.maxPlayoutRate = ideal.maxPlayoutRate ∧ chosen.bitrate = ideal.bitrate ↔
        ToldApart formats playbackRate) := by
  obtain ⟨chosen, found, selected⟩ := selectFormat_selected offered playbackRate
  obtain ⟨ideal, determined, isIdeal⟩ :=
    AdaptiveEvaluator.determineIdealFormat_ideal offered limit playbackRate
  have firstHighest := ideal_firstHighest offered allowed determined isIdeal
  have rate : float chosen.maxPlayoutRate = float ideal.maxPlayoutRate :=
    selected.nearest.unique isIdeal.rate_nearest
  refine ⟨chosen, ideal, found, determined, ?_, ?_⟩
  · rintro ⟨same, -⟩ format firstHighest' nearest other inside atRate
    -- There is only one such format: the ideal one.
    obtain rfl := firstHighest.unique firstHighest' (nearest.unique isIdeal.rate_nearest)
    rw [← same]
    exact selected.closest other inside (atRate.trans rate.symm)
  · intro toldApart
    have closest := toldApart ideal firstHighest isIdeal.rate_nearest
    have same : chosen.maxPlayoutRate = ideal.maxPlayoutRate := by
      by_contra different
      rcases @Closer.total playbackRate _ _ rate different with closer | closer
      · exact closest chosen selected.offered rate closer
      · exact selected.closest ideal isIdeal.offered rate.symm closer
    exact ⟨same, le_antisymm (firstHighest.highest chosen selected.offered rate)
      (selected.bitrate ideal isIdeal.offered same.symm)⟩

theorem selectFormat_agrees_iff_trick :
    let formats : List Format :=
      [{ id := "hd", maxPlayoutRate := 1, bitrate := 5000 },
        { id := "trick-low", maxPlayoutRate := 4, bitrate := 300 },
        { id := "trick-high", maxPlayoutRate := 4, bitrate := 800 },
        { id := "preview", maxPlayoutRate := 8, bitrate := 100 }]
    ∃ chosen ideal, selectFormat formats (-2) = some chosen ∧
      determineIdealFormat float formats 5000 (-2) = .ok (some ideal) ∧
      chosen.maxPlayoutRate = ideal.maxPlayoutRate ∧ chosen.bitrate = ideal.bitrate := by
  intro formats
  obtain ⟨chosen, ideal, found, determined, agree⟩ :=
    selectFormat_agrees_iff (show formats ≠ [] by decide) (show ∀ format ∈ formats,
      format.bitrate ≤ 5000 by decide) (-2)
  exact ⟨chosen, ideal, found, determined, agree.mpr (toldApart_of_exact (by decide) (-2))⟩

-- Two rates that are one float: 2 ^ 24 and the next integer.
theorem selectFormat_disagrees :
    let slow : Format := { id := "slow", maxPlayoutRate := 16777216, bitrate := 100 }
    let fast : Format := { id := "fast", maxPlayoutRate := 16777217, bitrate := 200 }
    selectFormat [slow, fast] 1 = some slow ∧
      determineIdealFormat float [slow, fast] 200 1 = .ok (some fast) := by
  decide +kernel

end NDash.Chunk.DemoEvaluator

import Mathlib.Algebra.Order.Ring.Rat
import Mathlib.Data.Rat.Cast.Order
import NDash.Mpd.MediaPresentationDescription
import NDash.Shared.Nearest
import NDash.Shared.Rounding

set_option autoImplicit false

namespace NDash.Chunk.AdaptiveEvaluator

open Mpd (Format)
open Nearest

-- An int32_t as a float, which has 24 significant bits.
def float (value : Int) : Rat := Rounding.round 24 value

-- One round of the loop that filters the formats by their max playout rate, as `toFloat` gives it.
def filterFormat (toFloat : Int → Rat) (absRate : Rat) (filteredFormats : List Format)
    (format : Format) : List Format :=
  match filteredFormats with
  | [] => [format]
  | front :: _ =>
    let filterRate := toFloat front.maxPlayoutRate
    let currentRate := toFloat format.maxPlayoutRate
    if filterRate = currentRate then filteredFormats ++ [format]
    else if filterRate < absRate then
      if currentRate > filterRate then [format] else filteredFormats
    else if currentRate ≥ absRate ∧ currentRate < filterRate then [format]
    else filteredFormats

def searchFormat (effectiveBitrate : Int) (bestSoFar : Option Format) (format : Format) :
    Option Format :=
  match bestSoFar with
  | none => some format
  | some best =>
    if (best.bitrate > effectiveBitrate ∧ format.bitrate < best.bitrate) ∨
        (format.bitrate ≤ effectiveBitrate ∧ format.bitrate > best.bitrate) then some format
    else some best

-- The code converts with `float`; `Int.cast` compares the rates exactly.
def determineIdealFormat (toFloat : Int → Rat) (formats : List Format) (effectiveBitrate : Int)
    (playbackRate : Rat) : Except Fault (Option Format) :=
  if formats = [] then .error .checkFailed
  else
    let filteredFormats := formats.foldl (filterFormat toFloat |playbackRate|) []
    .ok (filteredFormats.foldl (searchFormat effectiveBitrate) none)

def playoutRates (toFloat : Int → Rat) (formats : List Format) : Set Rat :=
  {rate | ∃ format ∈ formats, toFloat format.maxPlayoutRate = rate}

def bitratesAt (toFloat : Int → Rat) (formats : List Format) (playoutRate : Rat) : Set Int :=
  {bitrate | ∃ format ∈ formats, toFloat format.maxPlayoutRate = playoutRate ∧
    format.bitrate = bitrate}

/-- What the evaluator is to choose: the slowest format that keeps up with the playback, or the
fastest one where none does, and of these the best one the bitrate allows. -/
structure IsIdeal (toFloat : Int → Rat) (formats : List Format) (effectiveBitrate : Int)
    (playbackRate : Rat) (format : Format) : Prop where
  offered : format ∈ formats
  playoutRate :
    IsLeast {rate | rate ∈ playoutRates toFloat formats ∧ |playbackRate| ≤ rate}
        (toFloat format.maxPlayoutRate) ∨
      (∀ rate ∈ playoutRates toFloat formats, rate < |playbackRate|) ∧
        IsGreatest (playoutRates toFloat formats) (toFloat format.maxPlayoutRate)
  bitrate :
    IsGreatest {bitrate | bitrate ∈ bitratesAt toFloat formats (toFloat format.maxPlayoutRate) ∧
        bitrate ≤ effectiveBitrate} format.bitrate ∨
      (∀ bitrate ∈ bitratesAt toFloat formats (toFloat format.maxPlayoutRate),
          effectiveBitrate < bitrate) ∧
        IsLeast (bitratesAt toFloat formats (toFloat format.maxPlayoutRate)) format.bitrate

variable {toFloat : Int → Rat}

theorem filterFormat_eq_collect (absRate : Rat) :
    filterFormat toFloat absRate = collect (fun format => toFloat format.maxPlayoutRate) absRate := by
  funext filteredFormats format
  cases filteredFormats with
  | nil => rfl
  | cons front kept =>
    simp only [filterFormat, collect, Better]
    by_cases same : toFloat front.maxPlayoutRate = toFloat format.maxPlayoutRate
    · simp [same]
    · by_cases slow : toFloat front.maxPlayoutRate < absRate
      · have above : ¬ (absRate ≤ toFloat format.maxPlayoutRate ∧
            toFloat format.maxPlayoutRate < toFloat front.maxPlayoutRate) := by
          rintro ⟨reached, lower⟩
          exact absurd (reached.trans_lt lower) slow.not_gt
        simp only [same, slow, above, gt_iff_lt, true_and, or_false, if_true, if_false]
      · simp only [same, slow, ge_iff_le, false_and, false_or, if_false]

theorem searchFormat_eq_keep (effectiveBitrate : Int) :
    searchFormat effectiveBitrate =
      keep (fun format => OrderDual.toDual format.bitrate) (OrderDual.toDual effectiveBitrate) := by
  funext bestSoFar format
  cases bestSoFar with
  | none => rfl
  | some best =>
    simp only [searchFormat, keep, Better, OrderDual.toDual_lt_toDual, OrderDual.toDual_le_toDual,
      gt_iff_lt]

theorem IsIdeal.of_nearest {formats : List Format} {effectiveBitrate : Int} {playbackRate : Rat}
    {format : Format}
    (inside : format ∈ formats.filter fun other =>
      toFloat other.maxPlayoutRate = toFloat format.maxPlayoutRate)
    (rate : IsNearest |playbackRate| (playoutRates toFloat formats)
      (toFloat format.maxPlayoutRate))
    (bitrate : IsNearest (OrderDual.toDual effectiveBitrate)
      (keys (fun other => OrderDual.toDual other.bitrate) (formats.filter fun other =>
        toFloat other.maxPlayoutRate = toFloat format.maxPlayoutRate))
      (OrderDual.toDual format.bitrate)) :
    IsIdeal toFloat formats effectiveBitrate playbackRate format where
  offered := (List.mem_filter.mp inside).1
  playoutRate := rate
  bitrate := by
    have same : bitratesAt toFloat formats (toFloat format.maxPlayoutRate) =
        {bitrate | OrderDual.toDual bitrate ∈
          keys (fun other => OrderDual.toDual other.bitrate) (formats.filter fun other =>
            toFloat other.maxPlayoutRate = toFloat format.maxPlayoutRate)} := by
      ext bitrate
      simp [bitratesAt, keys, and_assoc]
    rw [same]
    exact bitrate

theorem determineIdealFormat_ideal {formats : List Format} (offered : formats ≠ [])
    (effectiveBitrate : Int) (playbackRate : Rat) :
    ∃ format, determineIdealFormat toFloat formats effectiveBitrate playbackRate =
        .ok (some format) ∧
      IsIdeal toFloat formats effectiveBitrate playbackRate format := by
  rw [determineIdealFormat, if_neg offered, filterFormat_eq_collect, searchFormat_eq_keep]
  obtain ⟨rate, nearest, filtered⟩ :=
    collect_run (fun format : Format => toFloat format.maxPlayoutRate) |playbackRate| offered
  simp only [filtered]
  obtain ⟨fitting, inside, fits⟩ := nearest.mem
  have found : formats.filter (fun format => toFloat format.maxPlayoutRate = rate) ≠ [] :=
    List.ne_nil_of_mem (List.mem_filter.mpr ⟨inside, by simpa using fits⟩)
  obtain ⟨best, passed, chosen, bitrate⟩ := keep_run
    (fun format : Format => OrderDual.toDual format.bitrate) (OrderDual.toDual effectiveBitrate)
    found
  have atRate : toFloat best.maxPlayoutRate = rate := by
    simpa using (List.mem_filter.mp passed).2
  subst atRate
  exact ⟨best, by rw [chosen], .of_nearest passed nearest bitrate⟩

theorem determineIdealFormat_eq_find {formats : List Format} {effectiveBitrate : Int}
    {playbackRate : Rat} {ideal : Format} (offered : formats ≠ [])
    (determined : determineIdealFormat toFloat formats effectiveBitrate playbackRate =
      .ok (some ideal)) :
    formats.find? (fun format => toFloat format.maxPlayoutRate = toFloat ideal.maxPlayoutRate ∧
      format.bitrate = ideal.bitrate) = some ideal := by
  rw [determineIdealFormat, if_neg offered, filterFormat_eq_collect, searchFormat_eq_keep] at determined
  obtain ⟨rate, nearest, filtered⟩ :=
    collect_run (fun format : Format => toFloat format.maxPlayoutRate) |playbackRate| offered
  simp only [filtered, Except.ok.injEq] at determined
  have first := keep_first determined
  have atRate : toFloat ideal.maxPlayoutRate = rate := by
    simpa using (List.mem_filter.mp (List.mem_of_find?_eq_some first)).2
  rw [List.find?_filter] at first
  rw [← first]
  congr 1
  funext format
  simp [← atRate]

theorem IsIdeal.rate_nearest {formats : List Format} {effectiveBitrate : Int} {playbackRate : Rat}
    {format : Format} (ideal : IsIdeal toFloat formats effectiveBitrate playbackRate format) :
    IsNearest |playbackRate| (playoutRates toFloat formats) (toFloat format.maxPlayoutRate) :=
  ideal.playoutRate

theorem IsIdeal.bitrate_nearest {formats : List Format} {effectiveBitrate : Int}
    {playbackRate : Rat} {format : Format}
    (ideal : IsIdeal toFloat formats effectiveBitrate playbackRate format) :
    IsNearest (OrderDual.toDual effectiveBitrate)
      {bitrate | OrderDual.ofDual bitrate ∈
        bitratesAt toFloat formats (toFloat format.maxPlayoutRate)}
      (OrderDual.toDual format.bitrate) :=
  ideal.bitrate

theorem IsIdeal.same_rate {formats : List Format} {first second : Int} {playbackRate : Rat}
    {format other : Format} (ideal : IsIdeal toFloat formats first playbackRate format)
    (ideal' : IsIdeal toFloat formats second playbackRate other) :
    toFloat format.maxPlayoutRate = toFloat other.maxPlayoutRate :=
  ideal.rate_nearest.unique ideal'.rate_nearest

theorem IsIdeal.agree {formats permuted : List Format} {effectiveBitrate : Int}
    {playbackRate : Rat} {format other : Format}
    (ideal : IsIdeal toFloat formats effectiveBitrate playbackRate format)
    (same : permuted.Perm formats)
    (ideal' : IsIdeal toFloat permuted effectiveBitrate playbackRate other) :
    toFloat other.maxPlayoutRate = toFloat format.maxPlayoutRate ∧
      other.bitrate = format.bitrate := by
  have rates : playoutRates toFloat permuted = playoutRates toFloat formats := by
    simp only [playoutRates, same.mem_iff]
  have rate : toFloat other.maxPlayoutRate = toFloat format.maxPlayoutRate := by
    have nearest := ideal'.rate_nearest
    rw [rates] at nearest
    exact nearest.unique ideal.rate_nearest
  have bitrates : bitratesAt toFloat permuted (toFloat other.maxPlayoutRate) =
      bitratesAt toFloat formats (toFloat format.maxPlayoutRate) := by
    simp only [bitratesAt, same.mem_iff, rate]
  have nearest := ideal'.bitrate_nearest
  rw [bitrates] at nearest
  exact ⟨rate, OrderDual.toDual.injective (nearest.unique ideal.bitrate_nearest)⟩

theorem determineIdealFormat_isIdeal {formats : List Format} (offered : formats ≠ [])
    (effectiveBitrate : Int) (playbackRate : Rat) :
    ∃ format, determineIdealFormat Int.cast formats effectiveBitrate playbackRate =
        .ok (some format) ∧
      IsIdeal Int.cast formats effectiveBitrate playbackRate format ∧
      ∀ permuted, permuted.Perm formats → ∃ other,
        determineIdealFormat Int.cast permuted effectiveBitrate playbackRate = .ok (some other) ∧
          other.maxPlayoutRate = format.maxPlayoutRate ∧ other.bitrate = format.bitrate := by
  obtain ⟨format, chosen, ideal⟩ :=
    determineIdealFormat_ideal offered effectiveBitrate playbackRate
  refine ⟨format, chosen, ideal, ?_⟩
  intro permuted same
  have offered' : permuted ≠ [] := by
    rintro rfl
    exact offered (List.perm_nil.mp same.symm)
  obtain ⟨other, chosen', ideal'⟩ :=
    determineIdealFormat_ideal offered' effectiveBitrate playbackRate
  obtain ⟨rate, bitrate⟩ := ideal.agree same ideal'
  exact ⟨other, chosen', Int.cast_injective rate, bitrate⟩

theorem determineIdealFormat_isIdeal_trick :
    let formats : List Format :=
      [{ id := "hd", maxPlayoutRate := 1, bitrate := 5000 },
        { id := "trick-high", maxPlayoutRate := 4, bitrate := 800 },
        { id := "trick-low", maxPlayoutRate := 4, bitrate := 300 },
        { id := "preview", maxPlayoutRate := 8, bitrate := 100 }]
    determineIdealFormat Int.cast formats 500 (-2) =
        .ok (some { id := "trick-low", maxPlayoutRate := 4, bitrate := 300 }) ∧
      IsIdeal Int.cast formats 500 (-2) { id := "trick-low", maxPlayoutRate := 4, bitrate := 300 } := by
  intro formats
  have chosen : determineIdealFormat Int.cast formats 500 (-2) =
      .ok (some { id := "trick-low", maxPlayoutRate := 4, bitrate := 300 }) := by decide +kernel
  obtain ⟨format, chosen', ideal, -⟩ :=
    determineIdealFormat_isIdeal (show formats ≠ [] by decide) 500 (-2)
  rw [chosen] at chosen'
  cases chosen'
  exact ⟨chosen, ideal⟩

end NDash.Chunk.AdaptiveEvaluator

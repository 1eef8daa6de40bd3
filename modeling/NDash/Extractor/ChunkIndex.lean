import NDash.Util
import NDash.Shared.Bisection

set_option autoImplicit false

namespace NDash.Extractor

structure ChunkIndex where
  sizes : List Nat
  offsets : List Nat
  durationsUs : List Nat
  timesUs : List Nat
deriving DecidableEq, Repr

namespace ChunkIndex

def create (sizes offsets durationsUs timesUs : List Nat) : Except Fault ChunkIndex :=
  if timesUs.isEmpty then .error .checkFailed
  else .ok { sizes, offsets, durationsUs, timesUs }

-- The count and the index are int32_t.
def getChunkCount (index : ChunkIndex) : Int := toInt32 index.timesUs.length

-- std::lower_bound finds the first start time that is not before `timeUs`.
def lowerBound (index : ChunkIndex) (timeUs : Int) : Nat :=
  (index.timesUs.takeWhile fun (time : Nat) => (time : Int) < timeUs).length

def getChunkIndex (index : ChunkIndex) (timeUs : Int) : Int :=
  if timeUs < 0 then 0
  else
    let chunk := toInt32 (index.lowerBound timeUs)
    match index.timesUs[index.lowerBound timeUs]? with
    | none => chunk - 1
    | some time => if (time : Int) = timeUs then chunk else max 0 (chunk - 1)

def startTimeUs (index : ChunkIndex) (chunk : Int) : Int :=
  toInt64 (index.timesUs[chunk.toNat]?.getD 0)

theorem lowerBound_eq (index : ChunkIndex) (timeUs : Int) :
    index.lowerBound timeUs =
      index.timesUs.findIdx fun (time : Nat) => !decide ((time : Int) < timeUs) := by
  rw [lowerBound, List.takeWhile_eq_take_findIdx_not, List.length_take]
  exact Nat.min_eq_left List.findIdx_le_length

theorem lowerBound_le (index : ChunkIndex) (timeUs : Int) :
    index.lowerBound timeUs ≤ index.timesUs.length := by
  rw [lowerBound_eq]
  exact List.findIdx_le_length

/-- The chunks start one behind the other, at times an int64_t holds, and an int32_t counts them. A
sidx box lists 65535 of them at most. -/
structure Ordered (index : ChunkIndex) : Prop where
  nonempty : index.timesUs ≠ []
  increasing : index.timesUs.Pairwise (· < ·)
  representable : ∀ time ∈ index.timesUs, time < 9223372036854775808
  counted : index.timesUs.length < 2147483648

namespace Ordered

variable {index : ChunkIndex} (ordered : index.Ordered)
include ordered

theorem count : index.getChunkCount = index.timesUs.length := by
  have counted := ordered.counted
  exact toInt32_of_range (by omega) (by omega)

theorem count_pos : 0 < index.getChunkCount := by
  have positive := List.length_pos_iff.mpr ordered.nonempty
  rw [ordered.count]
  omega

theorem startTimeUs_eq {i : Nat} (within : i < index.timesUs.length) :
    index.startTimeUs i = index.timesUs[i] := by
  have bounded := ordered.representable _ (List.getElem_mem within)
  rw [startTimeUs, Int.toNat_natCast, List.getElem?_eq_getElem within, Option.getD_some]
  exact toInt64_of_range (by omega) (by omega)

theorem startTimeUs_increasing :
    Bisection.Increasing index.startTimeUs 0 (index.getChunkCount - 1) := by
  intro first second lower less upper
  rw [ordered.count] at upper
  obtain ⟨i, rfl⟩ := Int.eq_ofNat_of_zero_le lower
  obtain ⟨j, rfl⟩ := Int.eq_ofNat_of_zero_le (show 0 ≤ second by omega)
  rw [ordered.startTimeUs_eq (by omega), ordered.startTimeUs_eq (by omega)]
  exact Int.ofNat_lt.mpr (List.pairwise_iff_getElem.mp ordered.increasing i j (by omega) (by omega)
    (by omega))

theorem startTimeUs_lt {timeUs : Int} {i : Nat} (before : i < index.lowerBound timeUs) :
    index.startTimeUs i < timeUs := by
  rw [ordered.startTimeUs_eq (Nat.lt_of_lt_of_le before (index.lowerBound_le timeUs))]
  rw [lowerBound_eq] at before
  simpa using List.not_of_lt_findIdx before

theorem le_startTimeUs {timeUs : Int} (within : index.lowerBound timeUs < index.timesUs.length) :
    timeUs ≤ index.startTimeUs (index.lowerBound timeUs) := by
  have found : ¬ (index.timesUs[index.lowerBound timeUs] : Int) < timeUs := by
    simp only [lowerBound_eq] at within ⊢
    simpa using List.findIdx_getElem (w := within)
  rw [ordered.startTimeUs_eq within]
  omega

theorem startTimeUs_nonneg {chunk : Int} (lower : 0 ≤ chunk)
    (upper : chunk ≤ index.getChunkCount - 1) : 0 ≤ index.startTimeUs chunk := by
  rw [ordered.count] at upper
  obtain ⟨i, rfl⟩ := Int.eq_ofNat_of_zero_le lower
  rw [ordered.startTimeUs_eq (by omega)]
  omega

theorem lowerBound_crossed {timeUs : Int}
    (larger : ∀ chunk : Int, index.lowerBound timeUs ≤ chunk →
      chunk ≤ index.getChunkCount - 1 → timeUs < index.startTimeUs chunk) :
    Bisection.IsFloor index.startTimeUs timeUs 0 (index.getChunkCount - 1)
      (max 0 ((index.lowerBound timeUs : Int) - 1)) := by
  have nonempty := ordered.count_pos
  have within := index.lowerBound_le timeUs
  have correct : Bisection.Correct index.startTimeUs timeUs 0 (index.getChunkCount - 1)
      (.crossed (index.lowerBound timeUs) ((index.lowerBound timeUs : Int) - 1)) := by
    refine ⟨by omega, by omega, by rw [ordered.count]; omega, ?_, larger⟩
    intro chunk lower upper
    obtain ⟨i, rfl⟩ := Int.eq_ofNat_of_zero_le lower
    exact ordered.startTimeUs_lt (by omega)
  have settled := correct.crossed_isFloor (by omega)
  unfold Bisection.settle at settled
  split at settled
  · next first =>
    rw [first] at settled ⊢
    exact settled
  · next later =>
    rw [Int.max_eq_right (by omega)]
    exact settled

/-- The chunk of a time is the last one that does not start after it, or the first one. -/
theorem getChunkIndex_isFloor (timeUs : Int) :
    Bisection.IsFloor index.startTimeUs timeUs 0 (index.getChunkCount - 1)
      (index.getChunkIndex timeUs) := by
  have nonempty := ordered.count_pos
  have counted := ordered.counted
  have within := index.lowerBound_le timeUs
  have wraps : toInt32 (index.lowerBound timeUs) = index.lowerBound timeUs :=
    toInt32_of_range (by omega) (by omega)
  simp only [getChunkIndex, wraps]
  split
  · next negative =>
    have every : ∀ chunk, 0 ≤ chunk → chunk ≤ index.getChunkCount - 1 →
        timeUs < index.startTimeUs chunk := by
      intro chunk lower upper
      exact Int.lt_of_lt_of_le negative (ordered.startTimeUs_nonneg lower upper)
    refine ⟨Int.le_refl 0, by omega, ?_, .inr ⟨rfl, every⟩⟩
    intro other lower upper small
    have := every other lower upper
    omega
  · split
    · next nothing =>
      -- Every chunk starts before the time.
      have all : index.lowerBound timeUs = index.timesUs.length := by
        have := List.getElem?_eq_none_iff.mp nothing
        omega
      have larger : ∀ chunk : Int, index.lowerBound timeUs ≤ chunk →
          chunk ≤ index.getChunkCount - 1 → timeUs < index.startTimeUs chunk := by
        intro chunk lower upper
        rw [ordered.count] at upper
        omega
      have floor := ordered.lowerBound_crossed larger
      rw [all, ← ordered.count] at floor ⊢
      rwa [Int.max_eq_right (by omega)] at floor
    · next time found =>
      obtain ⟨inside, rfl⟩ := List.getElem?_eq_some_iff.mp found
      have start := ordered.startTimeUs_eq inside
      split
      · next same =>
        apply Bisection.Correct.found_isFloor ordered.startTimeUs_increasing
        exact ⟨by omega, by rw [ordered.count]; omega, by rw [start, same]⟩
      · next differs =>
        apply ordered.lowerBound_crossed
        intro chunk lower upper
        have behind := ordered.le_startTimeUs inside
        have later := ordered.startTimeUs_increasing.le (by omega) lower upper
        omega

end Ordered

end ChunkIndex

end NDash.Extractor

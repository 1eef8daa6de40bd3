import NDash.Extractor.ChunkIndex

set_option autoImplicit false

namespace NDash.Mpd

open Extractor

structure RangedUri where
  baseUri : String
  referenceUri : String
  start : Int
  length : Int
deriving DecidableEq, Repr

-- The length is an int32_t.
def RangedUri.create (baseUri referenceUri : String) (start length : Int) : RangedUri where
  baseUri
  referenceUri
  start
  length := toInt32 length

-- `resolve` is UriUtil::Resolve.
def RangedUri.getUriString (resolve : String → String → String) (uri : RangedUri) : String :=
  resolve uri.baseUri uri.referenceUri

def RangedUri.attemptMerge (resolve : String → String → String) (uri : RangedUri)
    (other : Option RangedUri) : Option RangedUri :=
  match other with
  | none => none
  | some other =>
    if uri.getUriString resolve ≠ other.getUriString resolve then none
    else if uri.length ≠ -1 ∧ uri.start + uri.length = other.start then
      some (.create uri.baseUri uri.referenceUri uri.start
        (if other.length = -1 then -1 else uri.length + other.length))
    else if other.length ≠ -1 ∧ other.start + other.length = uri.start then
      some (.create uri.baseUri uri.referenceUri other.start
        (if uri.length = -1 then -1 else other.length + uri.length))
    else none

def kIndexUnbounded : Int := -1

/-- The segments of a representation by number, with times relative to the period. -/
structure DashSegmentIndex where
  getSegmentNum : (timeUs periodDurationUs : Int) → Except Fault Int
  getTimeUs : (segmentNum : Int) → Int
  getDurationUs : (segmentNum periodDurationUs : Int) → Int
  getSegmentUrl : (segmentNum : Int) → Option RangedUri
  getFirstSegmentNum : Int
  getLastSegmentNum : (periodDurationUs : Int) → Int
  isExplicit : Bool

-- DashSingleSegmentIndex
def singleSegmentIndex (uri : RangedUri) : DashSegmentIndex where
  getSegmentNum _ _ := .ok 0
  getTimeUs _ := 0
  getDurationUs _ periodDurationUs := periodDurationUs
  getSegmentUrl _ := some uri
  getFirstSegmentNum := 0
  getLastSegmentNum _ := 0
  isExplicit := true

-- DashWrappingSegmentIndex, which reads its arrays inside their bounds only.
def wrappingSegmentIndex (chunkIndex : ChunkIndex) (uri : String) : DashSegmentIndex where
  getSegmentNum timeUs _ := .ok (chunkIndex.getChunkIndex timeUs)
  getTimeUs := chunkIndex.startTimeUs
  getDurationUs segmentNum _ := toInt64 (chunkIndex.durationsUs[segmentNum.toNat]?.getD 0)
  -- `at` throws on a number outside the arrays, a negative one included.
  getSegmentUrl segmentNum := do
    guard (0 ≤ segmentNum)
    let offset ← chunkIndex.offsets[segmentNum.toNat]?
    let size ← chunkIndex.sizes[segmentNum.toNat]?
    return .create uri "" (toInt64 offset) size
  getFirstSegmentNum := 0
  getLastSegmentNum _ := chunkIndex.getChunkCount - 1
  isExplicit := true

/-- The segment of a time is the last one that does not start after it, or the first one. -/
theorem wrappingSegmentIndex_lookup {chunkIndex : ChunkIndex} (ordered : chunkIndex.Ordered)
    (uri : String) :
    (∀ timeUs, Bisection.IsFloor chunkIndex.startTimeUs timeUs 0 (chunkIndex.getChunkCount - 1)
      (chunkIndex.getChunkIndex timeUs)) ∧
    let index := wrappingSegmentIndex chunkIndex uri
    (∀ segmentNum periodDurationUs, index.getFirstSegmentNum ≤ segmentNum →
      segmentNum ≤ index.getLastSegmentNum periodDurationUs →
      index.getSegmentNum (index.getTimeUs segmentNum) periodDurationUs = .ok segmentNum) ∧
    ∀ timeUs periodDurationUs, index.getTimeUs index.getFirstSegmentNum ≤ timeUs →
      ∃ segmentNum, index.getSegmentNum timeUs periodDurationUs = .ok segmentNum ∧
        index.getTimeUs segmentNum ≤ timeUs ∧
        (segmentNum < index.getLastSegmentNum periodDurationUs →
          timeUs < index.getTimeUs (segmentNum + 1)) := by
  refine ⟨ordered.getChunkIndex_isFloor, ?_, ?_⟩
  · intro segmentNum _ lower upper
    have floor := ordered.getChunkIndex_isFloor (chunkIndex.startTimeUs segmentNum)
    have same := floor.eq_of_key ordered.startTimeUs_increasing lower upper rfl
    exact congrArg Except.ok same
  · intro timeUs _ begun
    have floor := ordered.getChunkIndex_isFloor timeUs
    refine ⟨_, rfl, ?_, fun less => floor.target_lt (by omega) less⟩
    rcases floor.reached with reached | ⟨-, every⟩
    · exact reached
    · have := every 0 (Int.le_refl 0) (by have := ordered.count_pos; omega)
      exact absurd begun (Int.not_le.mpr this)

theorem wrappingSegmentIndex_lookup_gap :
    let index := wrappingSegmentIndex ⟨[678, 678, 678], [50, 5000, 5678], [200, 200, 200],
      [256, 456, 80000]⟩ "video"
    index.getSegmentNum (-1) 0 = .ok 0 ∧ index.getSegmentNum 79990 0 = .ok 1 ∧
      index.getSegmentNum (index.getTimeUs 2) 0 = .ok 2 := by
  refine ⟨by decide, by decide, ?_⟩
  exact (wrappingSegmentIndex_lookup ⟨by decide, by decide, by decide, by decide⟩ "video").2.1 2 0
    (by decide) (by decide)

/-- A finite numbering: the numbers from `first` to `last`, one of them for each time. -/
structure Numbering where
  first : Int
  last : Int
  numberAt : (timeUs : Int) → Int
  first_le : ∀ timeUs, first ≤ numberAt timeUs
  le_last : ∀ timeUs, numberAt timeUs ≤ last
  finite : last ≠ kIndexUnbounded
  -- the numbers are int32_t
  lower : -2147483648 ≤ first
  upper : last < 2147483648

theorem Numbering.first_le_last (numbering : Numbering) : numbering.first ≤ numbering.last :=
  Int.le_trans (numbering.first_le 0) (numbering.le_last 0)

structure DashSegmentIndex.Follows (index : DashSegmentIndex) (periodDurationUs : Int)
    (numbering : Numbering) : Prop where
  firstNum : index.getFirstSegmentNum = numbering.first
  lastNum : index.getLastSegmentNum periodDurationUs = numbering.last
  segmentNum : ∀ timeUs, index.getSegmentNum timeUs periodDurationUs =
    .ok (numbering.numberAt timeUs)
  located : ∀ segmentNum, numbering.first ≤ segmentNum → segmentNum ≤ numbering.last →
    (index.getSegmentUrl segmentNum).isSome

end NDash.Mpd

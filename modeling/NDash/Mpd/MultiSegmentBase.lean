import Mathlib.Algebra.Group.Nat.Defs
import NDash.Mpd.DashSegmentIndex
import NDash.Shared.Bisection

set_option autoImplicit false

namespace NDash.Mpd

def kMicrosPerSecond : Int := 1000000

/-- Util::ScaleLargeTimestamp; `rounded` is the conversion in floating point that it falls back on. -/
def scaleLargeTimestamp (rounded : Int → Int → Int → Int) (timestamp multiplier divisor : Int) :
    Int :=
  if divisor ≥ multiplier ∧ divisor.tmod multiplier = 0 then
    timestamp.tdiv (divisor.tdiv multiplier)
  else if divisor < multiplier ∧ multiplier.tmod divisor = 0 then
    timestamp * multiplier.tdiv divisor
  else rounded timestamp multiplier divisor

-- Timescales for which ScaleLargeTimestamp stays in the integers.
def WholeScale (timescale : Int) : Prop :=
  timescale ∣ kMicrosPerSecond ∨ 0 < timescale ∧ kMicrosPerSecond ∣ timescale

theorem scale_eq {rounded : Int → Int → Int → Int} {timescale : Int} (whole : WholeScale timescale)
    (value : Int) :
    scaleLargeTimestamp rounded value kMicrosPerSecond timescale =
      (value * kMicrosPerSecond).tdiv timescale := by
  unfold scaleLargeTimestamp
  obtain divides | ⟨positive, factor, rfl⟩ := whole
  · rw [Int.mul_tdiv_assoc value divides]
    by_cases large : timescale ≥ kMicrosPerSecond
    · have same : timescale = kMicrosPerSecond :=
        Int.le_antisymm (Int.le_of_dvd (by decide) divides) large
      subst same
      rw [if_pos ⟨large, Int.tmod_self⟩, Int.tdiv_self (by decide), Int.tdiv_one, Int.mul_one]
    · rw [if_neg (fun both => large both.1),
        if_pos ⟨by omega, Int.tmod_eq_zero_of_dvd divides⟩]
  · have factorPos : 0 < factor := Int.pos_of_mul_pos_right positive (by decide)
    have large : kMicrosPerSecond * factor ≥ kMicrosPerSecond := by
      have := Int.mul_le_mul_of_nonneg_left (show 1 ≤ factor by omega)
        (show 0 ≤ kMicrosPerSecond by decide)
      omega
    rw [if_pos ⟨large, Int.mul_tmod_right _ _⟩, Int.mul_tdiv_cancel_left _ (by decide),
      Int.mul_comm value, Int.mul_tdiv_mul_of_pos _ _ (by decide)]

def ceilDivide (numerator denominator : Int) : Int :=
  (numerator + denominator - 1).tdiv denominator

structure SegmentTimelineElement where
  startTime : Int
  duration : Int
deriving DecidableEq, Repr

/-- What a SegmentTemplate or a SegmentList adds to the class they share. `buildUri` is the media
template with the representation's id and bitrate filled in, by number and time. -/
inductive MediaSegments
  | template (buildUri : Int → Int → String)
  | list (mediaSegments : List RangedUri)

-- `segmentTimeline` and the list's `mediaSegments` are the parent's where the element has none.
structure MultiSegmentBase where
  baseUrl : String := ""
  timescale : Int := 1
  presentationTimeOffset : Int := 0
  startNumber : Int := 1
  duration : Int := 0
  segmentTimeline : Option (List SegmentTimelineElement) := none
  media : MediaSegments

namespace MultiSegmentBase

variable (rounded : Int → Int → Int → Int)

def durationUs (base : MultiSegmentBase) : Int :=
  (base.duration * kMicrosPerSecond).tdiv base.timescale

def getFirstSegmentNum (base : MultiSegmentBase) : Int := base.startNumber

def getLastSegmentNum (base : MultiSegmentBase) (periodDurationUs : Int) : Int :=
  match base.media, base.segmentTimeline with
  | .list mediaSegments, _ => toInt32 (base.startNumber + mediaSegments.length - 1)
  | .template _, some timeline => toInt32 (timeline.length + base.startNumber - 1)
  | .template _, none =>
    if periodDurationUs = 0 then kIndexUnbounded
    else
      toInt32 (base.startNumber + toInt32 (ceilDivide periodDurationUs base.durationUs) - 1)

-- The index of a number, where `at(index)` is in range.
def element (base : MultiSegmentBase) (timeline : List SegmentTimelineElement)
    (sequenceNumber : Int) : Option SegmentTimelineElement :=
  let index := toInt32 (sequenceNumber - base.startNumber)
  if index < 0 then none else timeline[index.toNat]?

def getSegmentTimeUs (base : MultiSegmentBase) (sequenceNumber : Int) : Int :=
  match base.segmentTimeline with
  | some timeline =>
    match base.element timeline sequenceNumber with
    | none => -1
    | some element =>
      scaleLargeTimestamp rounded (element.startTime - base.presentationTimeOffset)
        kMicrosPerSecond base.timescale
  | none =>
    scaleLargeTimestamp rounded (toInt32 (sequenceNumber - base.startNumber) * base.duration)
      kMicrosPerSecond base.timescale

def getSegmentDurationUs (base : MultiSegmentBase) (sequenceNumber periodDurationUs : Int) : Int :=
  match base.segmentTimeline with
  | some timeline =>
    match base.element timeline sequenceNumber with
    | none => -1
    | some element => (element.duration * kMicrosPerSecond).tdiv base.timescale
  | none =>
    if sequenceNumber = base.getLastSegmentNum periodDurationUs then
      periodDurationUs - base.getSegmentTimeUs rounded sequenceNumber
    else base.durationUs

-- The sum is an int32_t.
def midIndex (lowIndex highIndex : Int) : Int := (toInt32 (lowIndex + highIndex)).tdiv 2

-- There are no more pairs of bounds than this, so a search that takes longer repeats itself.
def searchFuel : Nat := 2 ^ 64

def getSegmentNum (base : MultiSegmentBase) (timeUs periodDurationUs : Int) : Except Fault Int :=
  let firstSegmentNum := base.getFirstSegmentNum
  let lastSegmentNum := base.getLastSegmentNum periodDurationUs
  match base.segmentTimeline with
  | none =>
    let segmentNum := toInt32 (base.startNumber + toInt32 (timeUs.tdiv base.durationUs))
    if segmentNum < firstSegmentNum then .ok firstSegmentNum
    else if lastSegmentNum ≠ kIndexUnbounded ∧ segmentNum > lastSegmentNum then .ok lastSegmentNum
    else .ok segmentNum
  | some _ =>
    match Bisection.search midIndex (base.getSegmentTimeUs rounded) timeUs searchFuel
        firstSegmentNum lastSegmentNum with
    | .found index => .ok index
    | .crossed lowIndex highIndex =>
      .ok (if lowIndex = firstSegmentNum then lowIndex else highIndex)
    | .diverged => .error .diverges

def getSegmentUri (base : MultiSegmentBase) (sequenceNumber : Int) : Option RangedUri :=
  match base.media, base.segmentTimeline with
  | .list mediaSegments, _ =>
    let index := toInt32 (sequenceNumber - base.startNumber)
    if index < 0 then none else mediaSegments[index.toNat]?
  | .template buildUri, some timeline =>
    (base.element timeline sequenceNumber).map fun element =>
      .create base.baseUrl (buildUri sequenceNumber (toInt32 element.startTime)) 0 (-1)
  | .template buildUri, none =>
    let time := toInt32 (sequenceNumber - base.startNumber) * base.duration
    some (.create base.baseUrl (buildUri sequenceNumber (toInt32 time)) 0 (-1))

def isExplicit (base : MultiSegmentBase) : Bool :=
  match base.media with
  | .list _ => true
  | .template _ => base.segmentTimeline.isSome

-- MultiSegmentRepresentation is its own index.
def index (base : MultiSegmentBase) : DashSegmentIndex where
  getSegmentNum := base.getSegmentNum rounded
  getTimeUs := base.getSegmentTimeUs rounded
  getDurationUs := base.getSegmentDurationUs rounded
  getSegmentUrl := base.getSegmentUri
  getFirstSegmentNum := base.getFirstSegmentNum
  getLastSegmentNum := base.getLastSegmentNum
  isExplicit := base.isExplicit

end MultiSegmentBase

end NDash.Mpd

import NDash.Dash.DashChunkSourceRefresh
import NDash.Mpd.SegmentTimeline

set_option autoImplicit false

namespace NDash.Mpd.MultiSegmentBase

variable (rounded : Int → Int → Int → Int)

/-- A template without a timeline, whose segments start at the multiples of their duration up to the
end of the period. The numbers, also the last one before the end of the period as a position of the
presentation, are int32_t. -/
structure Even (base : MultiSegmentBase) (duration periodEnd : Int) : Prop where
  media : ∃ buildUri, base.media = .template buildUri
  unlisted : base.segmentTimeline = none
  positive : 0 < base.durationUs
  filled : 0 < duration
  times : ∀ k : Int, 0 ≤ k → k ≤ ceilDivide duration base.durationUs →
    base.getSegmentTimeUs rounded (base.startNumber + k) = k * base.durationUs
  least : -2147483648 ≤ base.startNumber
  count : ceilDivide periodEnd base.durationUs < 2147483648
  last : base.startNumber + ceilDivide periodEnd base.durationUs < 2147483648

def Exact (base : MultiSegmentBase) (duration periodEnd timeUs : Int) : Prop :=
  match base.segmentTimeline with
  | some timeline =>
    base.Timed timeline ∧ base.Representable timeline ∧
      Bisection.Increasing (base.getSegmentTimeUs rounded) base.startNumber
        (base.startNumber + timeline.length - 1) ∧
      base.searchFits rounded timeUs periodEnd = true
  | none => base.Even rounded duration periodEnd

section

variable {rounded} {base : MultiSegmentBase} {duration periodEnd : Int}

theorem ceilDivide_bounds {numerator denominator : Int} (nonneg : 0 < numerator)
    (positive : 0 < denominator) :
    numerator ≤ ceilDivide numerator denominator * denominator ∧
      ceilDivide numerator denominator * denominator < numerator + denominator := by
  obtain ⟨quotient, divides, -, lower, upper⟩ :=
    quotient_bounds (show 0 ≤ numerator + denominator - 1 by omega) positive
  rw [ceilDivide, divides]
  omega

theorem lt_of_mul_lt {first second factor : Int} (positive : 0 < factor)
    (less : first * factor < second * factor) : first < second :=
  Int.lt_of_mul_lt_mul_right less (Int.le_of_lt positive)

theorem ceilDivide_pos {numerator denominator : Int} (nonneg : 0 < numerator)
    (positive : 0 < denominator) : 0 < ceilDivide numerator denominator := by
  have bounds := ceilDivide_bounds nonneg positive
  apply lt_of_mul_lt positive
  omega

theorem ceilDivide_mono {first second denominator : Int} (nonneg : 0 < first)
    (positive : 0 < denominator) (ordered : first ≤ second) :
    ceilDivide first denominator ≤ ceilDivide second denominator := by
  have firstBounds := ceilDivide_bounds nonneg positive
  have secondBounds := ceilDivide_bounds (show 0 < second by omega) positive
  apply Int.le_of_lt_add_one
  apply lt_of_mul_lt positive
  rw [Int.add_mul]
  omega

namespace Even

variable (even : base.Even rounded duration periodEnd)

include even

theorem last_num {length : Int} (positive : 0 < length) (inside : length ≤ periodEnd) :
    base.getLastSegmentNum length = base.startNumber + ceilDivide length base.durationUs - 1 := by
  obtain ⟨buildUri, media⟩ := even.media
  have some := ceilDivide_pos positive even.positive
  have fewer := ceilDivide_mono positive even.positive inside
  have least := even.least
  have count := even.count
  have last := even.last
  unfold getLastSegmentNum
  rw [media, even.unlisted]
  dsimp only
  have fitting : toInt32 (ceilDivide length base.durationUs) = ceilDivide length base.durationUs :=
    toInt32_of_range (by omega) (by omega)
  rw [if_neg (by omega), fitting, toInt32_of_range (by omega) (by omega)]

theorem time_eq {number : Int} (lower : base.startNumber ≤ number)
    (upper : number ≤ base.startNumber + ceilDivide duration base.durationUs) :
    base.getSegmentTimeUs rounded number = (number - base.startNumber) * base.durationUs := by
  have time := even.times (number - base.startNumber) (by omega) (by omega)
  rwa [show base.startNumber + (number - base.startNumber) = number by omega] at time

theorem increasing :
    Bisection.Increasing (base.getSegmentTimeUs rounded) base.startNumber
      (base.startNumber + ceilDivide duration base.durationUs) := by
  intro first second lower less upper
  rw [even.time_eq lower (by omega), even.time_eq (by omega) upper]
  exact Int.mul_lt_mul_of_pos_right (by omega) even.positive

theorem getSegmentNum_isFloor {timeUs : Int} (nonneg : 0 ≤ timeUs) (inside : timeUs < duration)
    (within : duration ≤ periodEnd) :
    ∃ segmentNum, base.getSegmentNum rounded timeUs periodEnd = .ok segmentNum ∧
      Bisection.IsFloor (base.getSegmentTimeUs rounded) timeUs base.startNumber
        (base.startNumber + ceilDivide duration base.durationUs - 1) segmentNum := by
  obtain ⟨quotient, divides, -, lower, upper⟩ := quotient_bounds nonneg even.positive
  have filled := ceilDivide_bounds (show 0 < duration by omega) even.positive
  have fewer : (quotient : Int) < ceilDivide duration base.durationUs := by
    apply lt_of_mul_lt even.positive
    omega
  have more := ceilDivide_mono (show 0 < duration by omega) even.positive within
  have last := even.last_num (show 0 < periodEnd by omega) (Int.le_refl _)
  have least := even.least
  have count := even.count
  have greatest := even.last
  have time := even.times quotient (by omega) (by omega)
  refine ⟨base.startNumber + quotient, ?_, by omega, by omega, ?_, .inl (by omega)⟩
  · unfold getSegmentNum
    simp only [even.unlisted, divides, getFirstSegmentNum, last]
    rw [toInt32_of_range (show -2147483648 ≤ (quotient : Int) by omega) (by omega),
      toInt32_of_range (by omega) (by omega), if_neg (by omega), if_neg (by omega)]
  · intro other least most small
    rw [even.time_eq least (by omega)] at small
    have : other - base.startNumber < quotient + 1 := by
      apply lt_of_mul_lt even.positive
      rw [Int.add_mul]
      omega
    omega

end Even

end

end NDash.Mpd.MultiSegmentBase

namespace NDash.Mpd.DashSegmentIndex

/-- The indices number the segments alike and give them the same times; where a segment is loaded
from is each one's own. -/
structure Agrees (index other : DashSegmentIndex) : Prop where
  segmentNum : index.getSegmentNum = other.getSegmentNum
  time : index.getTimeUs = other.getTimeUs
  length : index.getDurationUs = other.getDurationUs
  firstNum : index.getFirstSegmentNum = other.getFirstSegmentNum
  lastNum : index.getLastSegmentNum = other.getLastSegmentNum

end NDash.Mpd.DashSegmentIndex

namespace NDash.Dash

open Mpd

namespace PeriodHolder

structure Placed (index : DashSegmentIndex) (duration : Int) (holder : PeriodHolder) : Prop where
  held : holder.representationHolders ≠ []
  all : ∀ entry ∈ holder.representationHolders, ∃ own, entry.2.segmentIndex = some own ∧
    own.Agrees index
  properties : ∃ own : DashSegmentIndex, own.Agrees index ∧
    holder.updateRepresentationIndependentProperties duration (some own) = holder

theorem Placed.bounds {index : DashSegmentIndex} {duration endTime : Int} {holder : PeriodHolder}
    (placed : holder.Placed index duration) (isEnd : holder.getAvailableEndTime = some endTime) :
    holder.availableStartTime = holder.startTime + index.getTimeUs index.getFirstSegmentNum ∧
      holder.availableEndTime = holder.startTime +
        index.getTimeUs (index.getLastSegmentNum duration) +
        index.getDurationUs (index.getLastSegmentNum duration) duration := by
  obtain ⟨own, agrees, properties⟩ := placed.properties
  rw [← agrees.firstNum, ← agrees.lastNum, ← agrees.time, ← agrees.length]
  have bounded : holder.indexIsUnbounded = false := by
    unfold PeriodHolder.getAvailableEndTime at isEnd
    split at isEnd
    · cases isEnd
    · simpa using ‹¬ holder.indexIsUnbounded = true›
  have known : own.getLastSegmentNum duration ≠ kIndexUnbounded := by
    intro unknown
    rw [← properties] at bounded
    simp [updateRepresentationIndependentProperties, unknown] at bounded
  constructor
  · have start := congrArg PeriodHolder.availableStartTime properties
    simpa [updateRepresentationIndependentProperties, known] using start.symm
  · have stop := congrArg PeriodHolder.availableEndTime properties
    simpa [updateRepresentationIndependentProperties, known] using stop.symm

end PeriodHolder

namespace DashChunkSource

theorem Initialized.placed {data : InitializationData} {holder after : PeriodHolder}
    {index : DashSegmentIndex} {duration : Int} (initialized : Initialized data holder after)
    (placed : holder.Placed index duration) : after.Placed index duration := by
  cases initialized with
  | same => exact placed
  | given id representationHolder held =>
    refine ⟨?_, ?_, ?_⟩
    · simpa [PeriodHolder.store] using placed.held
    · intro entry member
      obtain ⟨old, isOld, rfl⟩ := List.mem_map.mp member
      by_cases same : old.1 = id
      · obtain ⟨own, used, agrees⟩ := placed.all _ (PeriodHolder.mem_of_getRepresentationHolder held)
        refine ⟨own, ?_, agrees⟩
        simp only [same, if_true, giveInitialization_eq]
        simp only at used
        rw [used, Option.some_or]
      · simpa [same] using placed.all old isOld
    · obtain ⟨own, agrees, properties⟩ := placed.properties
      exact ⟨own, agrees,
        by rw [PeriodHolder.updateRepresentationIndependentProperties_with, properties]⟩

variable (rounded : Int → Int → Int → Int)

section

variable {rounded} {source : DashChunkSource} {holder : PeriodHolder} {base : MultiSegmentBase}
  {duration target : Int}
  (finds : findPeriodHolder source.periodHolders target = .ok (some holder))
  (placed : holder.Placed (base.index rounded) duration)
  (inside : holder.availableStartTime ≤ target)

include finds placed inside

end

def Operation.Plays : Operation → Prop
  | .request _ => True
  | .loadCompleted _ _ => True
  | .manifest _ => False

def PlacedAt (number : Nat) (index : DashSegmentIndex) (duration : Int) (source : DashChunkSource) :
    Prop :=
  ∀ holder, source.periodHolders[number]? = some holder →
    holder.Placed index duration ∧ 0 ≤ holder.startTime

theorem PlacedAt.perform {number : Nat} {index : DashSegmentIndex} {duration : Int}
    {session next : Session} {operation : Operation} (numbered : session.source.Numbered)
    (placed : session.source.PlacedAt number index duration) (plays : operation.Plays)
    (performed : session.perform operation = .ok next) :
    next.source.PlacedAt number index duration := by
  cases operation with
  | request request =>
    obtain ⟨⟨out, after⟩, call, performed⟩ := bind_ok performed
    cases performed
    obtain ⟨_, _, _, _, rfl⟩ := request_source call
    exact placed
  | loadCompleted chunk data =>
    obtain ⟨after, completed, performed⟩ := bind_ok performed
    cases performed
    obtain ⟨change, rfl, initialized⟩ := onChunkLoadCompleted_initialized numbered completed
    intro holder found
    rw [List.getElem?_map] at found
    obtain ⟨old, isOld, rfl⟩ := Option.map_eq_some_iff.mp found
    have its := initialized old (List.mem_of_getElem? isOld)
    obtain ⟨itsPlaced, started⟩ := placed old isOld
    exact ⟨its.placed itsPlaced, its.startTime ▸ started⟩
  | manifest manifest => exact plays.elim

section

variable {source adopted : DashChunkSource} {now : Session} {operations : List Operation}
  {manifest : MediaPresentationDescription} {number : Nat} {period : Period} {set : AdaptationSet}
  {base : MultiSegmentBase}
  (new : source.periodHolders = [])
  (adoption : source.processManifest manifest = .ok (true, adopted))
  (listed : manifest.periods[number]? = some period)
  (selected : selectAdaptationSet period source.trackCriteria = some set)
  (indexed : ∀ representation ∈ set.representations, ∃ own, representation.index = some own ∧
    own.Agrees (base.index rounded))
  (later : Machine.Run (playing.restrict fun _ operation _ => operation.Plays)
    { source := adopted } operations now)

include new adoption listed selected indexed

include later

end

end DashChunkSource

end NDash.Dash

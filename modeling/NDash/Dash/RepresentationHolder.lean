import NDash.Extractor.ExtractorInterface
import NDash.Mpd.MediaPresentationDescription

set_option autoImplicit false

namespace NDash.Dash

open Mpd Extractor

-- Times are in microseconds.
structure RepresentationHolder where
  periodStartTime : Int
  periodDuration : Int
  representation : Representation
  segmentIndex : Option DashSegmentIndex
  mediaFormat : Option MediaFormat := none
  segmentNumShift : Int := 0

namespace RepresentationHolder

def create (periodStartTime periodDuration : Int) (representation : Representation) :
    RepresentationHolder where
  periodStartTime
  periodDuration
  representation
  segmentIndex := representation.index

def giveMediaFormat (holder : RepresentationHolder) (mediaFormat : MediaFormat) :
    RepresentationHolder :=
  { holder with mediaFormat := some mediaFormat }

def giveSegmentIndex (holder : RepresentationHolder) (segmentIndex : DashSegmentIndex) :
    RepresentationHolder :=
  { holder with segmentIndex := some segmentIndex }

def updateRepresentation (holder : RepresentationHolder) (newPeriodDuration : Int)
    (newRepresentation : Representation) : Except Fault (Bool × RepresentationHolder) :=
  let oldIndex := holder.representation.index
  let holder :=
    { holder with periodDuration := newPeriodDuration, representation := newRepresentation }
  match oldIndex with
  | none => .ok (true, holder)
  | some oldIndex =>
    let holder := { holder with segmentIndex := newRepresentation.index }
    if !oldIndex.isExplicit then .ok (true, holder)
    else
      let oldIndexLastSegmentNum := oldIndex.getLastSegmentNum holder.periodDuration
      let oldIndexEndTime := oldIndex.getTimeUs oldIndexLastSegmentNum +
        oldIndex.getDurationUs oldIndexLastSegmentNum holder.periodDuration
      match newRepresentation.index with
      | none => .error .nullPointer
      | some newIndex =>
        let newIndexFirstSegmentNum := newIndex.getFirstSegmentNum
        let newIndexStartTime := newIndex.getTimeUs newIndexFirstSegmentNum
        if oldIndexEndTime = newIndexStartTime then
          .ok (true,
            { holder with
              segmentNumShift := toInt32 (holder.segmentNumShift +
                (oldIndex.getLastSegmentNum holder.periodDuration - newIndexFirstSegmentNum + 1)) })
        else if oldIndexEndTime < newIndexStartTime then .ok (false, holder)
        else do
          let overlap ← oldIndex.getSegmentNum newIndexStartTime holder.periodDuration
          return (true,
            { holder with
              segmentNumShift :=
                toInt32 (holder.segmentNumShift + (overlap - newIndexFirstSegmentNum)) })

theorem updateRepresentation_representation {holder after : RepresentationHolder} {duration : Int}
    {representation : Representation} {updated : Bool}
    (update : holder.updateRepresentation duration representation = .ok (updated, after)) :
    after.representation = representation := by
  unfold updateRepresentation at update
  dsimp only at update
  split at update
  · cases update
    rfl
  · split at update
    · cases update
      rfl
    · split at update
      · cases update
      · split at update
        · cases update
          rfl
        · split at update
          · cases update
            rfl
          · obtain ⟨overlap, _, update⟩ := bind_ok update
            cases update
            rfl

-- The functions below are called on a holder that has an index.
def withIndex {α : Type} (holder : RepresentationHolder)
    (use : DashSegmentIndex → Except Fault α) : Except Fault α :=
  match holder.segmentIndex with
  | none => .error .nullPointer
  | some segmentIndex => use segmentIndex

def getSegmentNum (holder : RepresentationHolder) (position : Int) : Except Fault Int :=
  holder.withIndex fun segmentIndex => do
    let segmentNum ← segmentIndex.getSegmentNum (position - holder.periodStartTime)
      holder.periodDuration
    return toInt32 (segmentNum + holder.segmentNumShift)

def internalNum (holder : RepresentationHolder) (segmentNum : Int) : Int :=
  toInt32 (segmentNum - holder.segmentNumShift)

def getSegmentStartTime (holder : RepresentationHolder) (segmentNum : Int) : Except Fault Int :=
  holder.withIndex fun segmentIndex =>
    .ok (segmentIndex.getTimeUs (holder.internalNum segmentNum) + holder.periodStartTime)

def getSegmentEndTime (holder : RepresentationHolder) (segmentNum : Int) : Except Fault Int :=
  holder.withIndex fun segmentIndex =>
    .ok (segmentIndex.getTimeUs (holder.internalNum segmentNum) + holder.periodStartTime +
      segmentIndex.getDurationUs (holder.internalNum segmentNum) holder.periodDuration)

def getFirstSegmentNum (holder : RepresentationHolder) : Except Fault Int :=
  holder.withIndex fun segmentIndex => .ok segmentIndex.getFirstSegmentNum

def getLastSegmentNum (holder : RepresentationHolder) : Except Fault Int :=
  holder.withIndex fun segmentIndex => .ok (segmentIndex.getLastSegmentNum holder.periodDuration)

def isBeyondLastSegment (holder : RepresentationHolder) (segmentNum : Int) : Except Fault Bool := do
  let lastSegmentNum ← holder.getLastSegmentNum
  return lastSegmentNum ≠ kIndexUnbounded &&
    segmentNum > toInt32 (lastSegmentNum + holder.segmentNumShift)

def isBeforeFirstSegment (holder : RepresentationHolder) (segmentNum : Int) :
    Except Fault Bool := do
  let firstSegmentNum ← holder.getFirstSegmentNum
  return segmentNum < toInt32 (firstSegmentNum + holder.segmentNumShift)

def getFirstAvailableSegmentNum (holder : RepresentationHolder) : Except Fault Int := do
  let firstSegmentNum ← holder.getFirstSegmentNum
  return toInt32 (firstSegmentNum + holder.segmentNumShift)

def getSegmentUri (holder : RepresentationHolder) (segmentNum : Int) :
    Except Fault (Option RangedUri) :=
  holder.withIndex fun segmentIndex =>
    .ok (segmentIndex.getSegmentUrl (holder.internalNum segmentNum))

end RepresentationHolder

end NDash.Dash

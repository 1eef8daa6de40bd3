import NDash.Dash.PeriodHolder

set_option autoImplicit false

namespace NDash.Dash

open Mpd Extractor

/-- StaticTimeRange and DynamicTimeRange. -/
inductive TimeRange
  | static (start stop : Int)
  | dynamic (minStartTime maxEndTime timeAtStart bufferDepth : Int)
deriving DecidableEq, Repr

def TimeRange.getCurrentBounds (range : TimeRange) (now : Int) : Int × Int :=
  match range with
  | .static start stop => (start, stop)
  | .dynamic minStartTime maxEndTime timeAtStart bufferDepth =>
    let stop := min maxEndTime (now - timeAtStart)
    (if bufferDepth ≠ 0 then max minStartTime (stop - bufferDepth) else minStartTime, stop)

-- A float: what is asked of it.
structure PlaybackRate where
  isForward : Bool := true
  isNormal : Bool := true
deriving DecidableEq, Repr

structure MediaChunk where
  parentId : Int
  format : Format
  chunkIndex : Int
  startTimeUs : Int
  endTimeUs : Int
  uri : RangedUri
deriving DecidableEq, Repr

def MediaChunk.getNextChunkIndex (chunk : MediaChunk) : Int := chunk.chunkIndex + 1

def MediaChunk.getPrevChunkIndex (chunk : MediaChunk) : Int := chunk.chunkIndex - 1

-- `uri` is of the initialization data, of the index, or of both.
structure InitializationChunk where
  parentId : Int
  format : Format
  uri : RangedUri
  forInitialization : Bool
  forIndex : Bool
deriving DecidableEq, Repr

inductive Chunk
  | initialization (chunk : InitializationChunk)
  | media (chunk : MediaChunk)
deriving DecidableEq, Repr

def Chunk.format : Chunk → Format
  | .initialization chunk => chunk.format
  | .media chunk => chunk.format

structure ChunkOperationHolder where
  queueSize : Nat := 0
  chunk : Option Chunk := none
  endOfStream : Bool := false
deriving DecidableEq, Repr

structure FormatEvaluation where
  queueSize : Nat := 0
  format : Option Format := none
deriving DecidableEq, Repr

/-- FormatEvaluatorInterface::Evaluate: the queue, the playback position, the formats to choose from
and the evaluation so far. -/
abbrev Evaluator := List MediaChunk → Int → List Format → FormatEvaluation → FormatEvaluation

structure DashChunkSource where
  currentManifest : MediaPresentationDescription
  trackCriteria : TrackCriteria
  live : Bool := currentManifest.dynamic
  liveEdgeLatency : Int := 0
  startAtLiveEdge : Bool := false
  periodHolders : List PeriodHolder := []
  nextPeriodHolderIndex : Int := 0
  availableRange : Option TimeRange := some (.static 0 0)
  evaluation : FormatEvaluation := {}
  lastChunkWasInitialization : Bool := false
  fatalError : Bool := false

namespace DashChunkSource

def construct (initialManifest : MediaPresentationDescription) (liveEdgeLatency : Int)
    (startAtLiveEdge : Bool) : DashChunkSource where
  currentManifest := initialManifest
  trackCriteria := { matchesMimeType := fun _ => false }
  liveEdgeLatency
  startAtLiveEdge

def findPeriodHolder (periodHolders : List PeriodHolder) (position : Int) :
    Except Fault (Option PeriodHolder) :=
  let rec scan : List PeriodHolder → Except Fault (Option PeriodHolder)
    | [] => .ok none
    | holder :: later =>
      match holder.getAvailableEndTime with
      | none => .error .nullPointer
      | some endTime =>
        if position < endTime ∧ holder.representationHolders ≠ [] then .ok (some holder)
        else scan later
  match periodHolders with
  | [] => .error .checkFailed
  | first :: later =>
    if position < first.availableStartTime ∧ first.representationHolders ≠ [] then .ok (some first)
    else scan (first :: later)

-- Over the holders behind the one that ended. The key is read before the end is looked for.
def moveToNextPeriod : List PeriodHolder → Except Fault PeriodHolder
  | [] => .error .outOfBounds
  | holder :: later =>
    if holder.representationHolders = [] then moveToNextPeriod later else .ok holder

def moveToPrevPeriod : List PeriodHolder → Option PeriodHolder
  | [] => none
  | holder :: earlier =>
    if holder.representationHolders = [] then moveToPrevPeriod earlier else some holder

def getAvailableRange (source : DashChunkSource) : Except Fault TimeRange :=
  match source.periodHolders.head?, source.periodHolders.getLast? with
  | some first, some last =>
    if !source.currentManifest.dynamic || last.indexIsExplicit then
      match last.getAvailableEndTime with
      | none => .error .nullPointer
      | some endTime => .ok (.static first.availableStartTime endTime)
    else
      .ok (.dynamic first.availableStartTime
        -- base::TimeDelta::Max()
        (last.getAvailableEndTime.getD 9223372036854775807)
        (source.currentManifest.availabilityStartTime * 1000)
        (if source.currentManifest.timeShiftBufferDepth = -1 then 0
          else source.currentManifest.timeShiftBufferDepth * 1000))
  | _, _ => .error .outOfBounds

-- The new holders for the periods of the manifest from `index` on.
def addPeriods (criteria : TrackCriteria) (manifest : MediaPresentationDescription) :
    Nat → Nat → Int → Except Fault (List PeriodHolder × Int)
  | 0, _, nextIndex => .ok ([], nextIndex)
  | count + 1, index, nextIndex => do
    let holder ← PeriodHolder.create nextIndex manifest index criteria
    let (holders, nextIndex) ← addPeriods criteria manifest count (index + 1) (nextIndex + 1)
    return (holder :: holders, nextIndex)

def startMs (holder : PeriodHolder) : Int := holder.startTime.tdiv 1000

def removeOldPeriods (periodHolders : List PeriodHolder) (firstPeriod : Period) :
    List PeriodHolder :=
  periodHolders.dropWhile fun holder => startMs holder < firstPeriod.startMs

/-- Only the first and the last of the periods that are held can change. -/
def updatePeriods (criteria : TrackCriteria) (manifest : MediaPresentationDescription)
    (periodHolders : List PeriodHolder) : Except Fault (Bool × List PeriodHolder) :=
  match periodHolders with
  | [] => .ok (true, [])
  | first :: later => do
    let (updated, first) ← first.updatePeriod manifest 0 criteria
    if !updated then return (false, first :: later)
    else
      match later.getLast? with
      | none => return (true, [first])
      | some last =>
        let (updated, last) ← last.updatePeriod manifest later.length criteria
        return (updated, first :: later.dropLast ++ [last])

def processManifest (source : DashChunkSource) (manifest : MediaPresentationDescription) :
    Except Fault (Bool × DashChunkSource) := do
  let firstPeriod ← manifest.getPeriod 0
  let source :=
    { source with periodHolders := removeOldPeriods source.periodHolders firstPeriod }
  if source.periodHolders.length > manifest.periods.length then return (false, source)
  else
    let (updated, periodHolders) ← updatePeriods source.trackCriteria manifest source.periodHolders
    let source := { source with periodHolders }
    if !updated then return (false, { source with fatalError := true })
    else
      let (added, nextPeriodHolderIndex) ← addPeriods source.trackCriteria manifest
        (manifest.periods.length - source.periodHolders.length) source.periodHolders.length
        source.nextPeriodHolderIndex
      let source :=
        { source with
          periodHolders := source.periodHolders ++ added
          nextPeriodHolderIndex }
      let availableRange ← source.getAvailableRange
      return (true, { source with availableRange := some availableRange, currentManifest := manifest })

def enable (source : DashChunkSource) (trackCriteria : TrackCriteria)
    (fetched : Option MediaPresentationDescription) : Except Fault (Bool × DashChunkSource) :=
  { source with trackCriteria }.processManifest (fetched.getD source.currentManifest)

def disable (source : DashChunkSource) : DashChunkSource :=
  { source with
    periodHolders := []
    evaluation := { source.evaluation with format := none }
    availableRange := none
    fatalError := false }

inductive PeriodChoice
  | stop (endOfStream : Bool)
  | from (holder : PeriodHolder) (startingNewPeriod : Bool)

def liveStart (source : DashChunkSource) (bounds : Int × Int) (position : Int) :
    DashChunkSource × Int :=
  if source.live then
    let source := if position ≠ 0 then { source with startAtLiveEdge := false } else source
    (source,
      if source.startAtLiveEdge then max bounds.1 (bounds.2 - source.liveEdgeLatency)
      else max (min position (bounds.2 - 1)) bounds.1)
  else (source, position)

def followsOutside (rate : PlaybackRate) (representationHolder : RepresentationHolder)
    (previous : MediaChunk) : Except Fault Bool :=
  if rate.isForward then representationHolder.isBeyondLastSegment previous.getNextChunkIndex
  else representationHolder.isBeforeFirstSegment previous.getPrevChunkIndex

def moveOn (source : DashChunkSource) (rate : PlaybackRate) (previous : MediaChunk) :
    Except Fault PeriodChoice :=
  if rate.isForward then do
    let behind :=
      (source.periodHolders.dropWhile fun other => other.localIndex ≠ previous.parentId).tail
    let next ← moveToNextPeriod behind
    return .from next true
  else
    let before := source.periodHolders.takeWhile fun other => other.localIndex ≠ previous.parentId
    match moveToPrevPeriod before.reverse with
    | none => .ok (.stop false)
    | some earlier => .ok (.from earlier true)

def periodAfter (source : DashChunkSource) (rate : PlaybackRate) (previous : MediaChunk) :
    Except Fault PeriodChoice :=
  match source.periodHolders.find? fun holder => holder.localIndex = previous.parentId with
  | none =>
    match source.periodHolders.head? with
    | none => .error .checkFailed
    | some first => .ok (.from first true)
  | some holder =>
    if holder.indexIsUnbounded then .ok (.from holder false)
    else
      match holder.getRepresentationHolder previous.format.id with
      | none => .error .nullPointer
      | some representationHolder => do
        if ← followsOutside rate representationHolder previous then source.moveOn rate previous
        else return .from holder false

def fellOffEnd (source : DashChunkSource) (rate : PlaybackRate) (previous : MediaChunk) :
    Except Fault Bool :=
  match source.periodHolders.getLast? with
  | none => .error .checkFailed
  | some lastPeriodHolder =>
    if previous.parentId ≠ lastPeriodHolder.localIndex then .ok false
    else
      match lastPeriodHolder.getRepresentationHolder previous.format.id with
      | none => .error .nullPointer
      | some representationHolder => followsOutside rate representationHolder previous

def choosePeriodAfter (source : DashChunkSource) (rate : PlaybackRate) (bounds : Int × Int)
    (previous : MediaChunk) (position : Int) : Except Fault (PeriodChoice × Int × DashChunkSource) :=
  let nextSegmentStartTime := previous.endTimeUs
  if source.live && nextSegmentStartTime < bounds.1 then
    .ok (.stop false, position, { source with fatalError := true })
  else if source.currentManifest.dynamic && nextSegmentStartTime ≥ bounds.2 then
    .ok (.stop false, position, source)
  else do
    if ← source.fellOffEnd rate previous then
      return (.stop (!source.currentManifest.dynamic && rate.isNormal), position, source)
    else
      let choice ← source.periodAfter rate previous
      return (choice, position, source)

def choosePeriod (source : DashChunkSource) (rate : PlaybackRate) (bounds : Int × Int)
    (queue : List MediaChunk) (position : Int) :
    Except Fault (PeriodChoice × Int × DashChunkSource) :=
  match queue.getLast? with
  | none => do
    let (source, position) := source.liveStart bounds position
    match ← findPeriodHolder source.periodHolders position with
    | none => return (.stop (!source.currentManifest.dynamic), position, source)
    | some holder => return (.from holder true, position, source)
  | some previous =>
    { source with startAtLiveEdge := false }.choosePeriodAfter rate bounds previous position

def segmentToLoad (rate : PlaybackRate) (queue : List MediaChunk) (position : Int)
    (startingNewPeriod : Bool) (representationHolder : RepresentationHolder) : Except Fault Int :=
  match queue.getLast? with
  | none => representationHolder.getSegmentNum position
  | some previous =>
    if startingNewPeriod then representationHolder.getFirstAvailableSegmentNum
    else if rate.isForward then .ok previous.getNextChunkIndex
    else .ok previous.getPrevChunkIndex

def newMediaChunk (holder : PeriodHolder) (representationHolder : RepresentationHolder)
    (segmentNum : Int) : Except Fault MediaChunk := do
  let startTimeUs ← representationHolder.getSegmentStartTime segmentNum
  let endTimeUs ← representationHolder.getSegmentEndTime segmentNum
  match ← representationHolder.getSegmentUri segmentNum with
  | none => .error .nullPointer
  | some uri =>
    return { parentId := holder.localIndex, format := representationHolder.representation.format,
             chunkIndex := segmentNum, startTimeUs, endTimeUs, uri }

/-- The initialization data and the index are asked for at once where they are adjacent; otherwise
the index waits. -/
def newInitializationChunk (resolve : String → String → String) (parentId : Int)
    (representation : Representation) (initializationUri indexUri : Option RangedUri) :
    Except Fault InitializationChunk :=
  match initializationUri, indexUri with
  | some initializationUri, indexUri =>
    match initializationUri.attemptMerge resolve indexUri with
    | some mergedUri =>
      .ok { parentId, format := representation.format, uri := mergedUri,
            forInitialization := true, forIndex := true }
    | none =>
      .ok { parentId, format := representation.format, uri := initializationUri,
            forInitialization := true, forIndex := false }
  | none, some indexUri =>
    .ok { parentId, format := representation.format, uri := indexUri,
          forInitialization := false, forIndex := true }
  | none, none => .error .checkFailed

-- The evaluation is kept behind an initialization chunk.
def evaluate (source : DashChunkSource) (evaluator : Evaluator) (queue : List MediaChunk)
    (position : Int) (holder : PeriodHolder) : FormatEvaluation :=
  let evaluation := { source.evaluation with queueSize := queue.length }
  if evaluation.format.isNone || !source.lastChunkWasInitialization then
    evaluator queue position holder.formats evaluation
  else evaluation

def nextChunk (resolve : String → String → String) (rate : PlaybackRate) (queue : List MediaChunk) (position : Int)
    (holder : PeriodHolder) (startingNewPeriod : Bool) (selected : Format) :
    Except Fault Chunk :=
  match holder.getRepresentationHolder selected.id with
  | none => .error .nullPointer
  | some representationHolder =>
    let representation := representationHolder.representation
    let pendingInitializationUri :=
      if representationHolder.mediaFormat.isNone then representation.initializationUri else none
    let pendingIndexUri :=
      if representationHolder.segmentIndex.isNone then representation.indexUri else none
    if pendingInitializationUri.isSome || pendingIndexUri.isSome then do
      let chunk ← newInitializationChunk resolve holder.localIndex representation
        pendingInitializationUri pendingIndexUri
      return .initialization chunk
    else do
      let segmentNum ←
        segmentToLoad rate queue position startingNewPeriod representationHolder
      let chunk ← newMediaChunk holder representationHolder segmentNum
      return .media chunk

def Chunk.isInitialization : Chunk → Bool
  | .initialization _ => true
  | .media _ => false

def loadFrom (source : DashChunkSource) (resolve : String → String → String)
    (rate : PlaybackRate) (evaluator : Evaluator) (queue : List MediaChunk) (position : Int)
    (out : ChunkOperationHolder) (holder : PeriodHolder) (startingNewPeriod : Bool) :
    Except Fault (ChunkOperationHolder × DashChunkSource) :=
  let evaluation := source.evaluate evaluator queue position holder
  let source := { source with evaluation }
  let out := { out with queueSize := evaluation.queueSize }
  match evaluation.format with
  | none => .ok ({ out with chunk := none }, source)
  | some selected =>
    if out.queueSize = queue.length && out.chunk.any (fun chunk => chunk.format.same selected) then
      .ok (out, source)
    else do
      let chunk ← nextChunk resolve rate queue position holder startingNewPeriod selected
      return ({ out with chunk := some chunk },
        { source with lastChunkWasInitialization := Chunk.isInitialization chunk })

def getChunkOperation (source : DashChunkSource) (resolve : String → String → String)
    (rate : PlaybackRate) (evaluator : Evaluator) (now : Int) (queue : List MediaChunk)
    (position : Int) (out : ChunkOperationHolder) :
    Except Fault (ChunkOperationHolder × DashChunkSource) :=
  if source.fatalError then .ok ({ out with chunk := none }, source)
  else
    match source.availableRange with
    | none => .error .nullPointer
    | some availableRange => do
      let bounds := availableRange.getCurrentBounds now
      match ← source.choosePeriod rate bounds queue position with
      | (.stop endOfStream, _, source) =>
        return ({ out with chunk := none, endOfStream := out.endOfStream || endOfStream }, source)
      | (.from holder startingNewPeriod, position, source) =>
        source.loadFrom resolve rate evaluator queue position out holder startingNewPeriod

structure InitializationData where
  mediaFormat : Option MediaFormat := none
  seekMap : Option ChunkIndex := none
  uri : String := ""
deriving DecidableEq, Repr

def giveInitialization (representationHolder : RepresentationHolder) (data : InitializationData) :
    RepresentationHolder :=
  let representationHolder := match data.mediaFormat with
    | some mediaFormat => representationHolder.giveMediaFormat mediaFormat
    | none => representationHolder
  match representationHolder.segmentIndex, data.seekMap with
  | none, some seekMap =>
    representationHolder.giveSegmentIndex (wrappingSegmentIndex seekMap data.uri)
  | _, _ => representationHolder

theorem giveInitialization_eq (representationHolder : RepresentationHolder)
    (data : InitializationData) :
    giveInitialization representationHolder data =
      { representationHolder with
        mediaFormat := data.mediaFormat.or representationHolder.mediaFormat
        segmentIndex := representationHolder.segmentIndex.or
          (data.seekMap.map fun seekMap => wrappingSegmentIndex seekMap data.uri) } := by
  obtain ⟨start, duration, representation, segmentIndex, mediaFormat, shift⟩ := representationHolder
  obtain ⟨newFormat, seekMap, uri⟩ := data
  cases newFormat <;> cases segmentIndex <;> cases seekMap <;> rfl

def onChunkLoadCompleted (source : DashChunkSource) (chunk : InitializationChunk)
    (data : InitializationData) : Except Fault DashChunkSource :=
  match source.periodHolders.find? fun holder => holder.localIndex = chunk.parentId with
  | none => .ok source
  | some holder =>
    match holder.getRepresentationHolder chunk.format.id with
    | none => .error .nullPointer
    | some representationHolder =>
      let holder :=
        { holder with
          representationHolders := PeriodHolder.store holder.representationHolders chunk.format.id
            (giveInitialization representationHolder data) }
      .ok { source with
        periodHolders := source.periodHolders.map fun other =>
          if other.localIndex = chunk.parentId then holder else other }

end DashChunkSource

end NDash.Dash

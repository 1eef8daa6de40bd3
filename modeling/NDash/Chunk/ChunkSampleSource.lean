import NDash.Chunk.SampleQueue

set_option autoImplicit false

namespace NDash.Chunk

open Extractor

def kNoResetPending : Int := int64Min
def kEndOfTrackUs : Int := -3
def kNoDiscontinuity : Int := int64Min

inductive ChunkType
  | unspecified
  | media
  | mediaInitialization
  | drm
  | manifest
  | custom (value : Nat)
deriving DecidableEq, Repr

-- A pointer to a chunk, with the request that made it: its position and the size of the queue.
structure Chunk where
  id : Nat
  type : ChunkType
  endTimeUs : Int
  isMediaFormatFinal : Bool
  givenFormat : Option Nat
  requestedFor : Int
  requestedWith : Nat
deriving DecidableEq, Repr

def Chunk.isMediaChunk (chunk : Chunk) : Bool := chunk.type = .media

structure MediaChunk where
  chunk : Chunk
  firstSampleIndex : Nat
  mediaFormat : Option Nat
deriving DecidableEq, Repr

-- `chunk` outlives `ownedChunk` when the chunk is taken.
structure ChunkOperationHolder where
  queueSize : Int := 0
  chunk : Option Chunk := none
  ownedChunk : Option Chunk := none
  endOfStream : Bool := false
deriving DecidableEq, Repr

namespace ChunkOperationHolder

def setChunk (holder : ChunkOperationHolder) (ownedChunk : Option Chunk) : ChunkOperationHolder :=
  { holder with ownedChunk, chunk := ownedChunk }

def takeChunk (holder : ChunkOperationHolder) : Option Chunk × ChunkOperationHolder :=
  (holder.ownedChunk, { holder with ownedChunk := none })

end ChunkOperationHolder

structure ChunkSpec where
  type : ChunkType
  endTimeUs : Int := 0
  isMediaFormatFinal : Bool := false
  givenFormat : Option Nat := none
deriving DecidableEq, Repr

inductive ChunkChoice
  | keep
  | clear
  | replace (spec : ChunkSpec)
deriving DecidableEq, Repr

structure ChunkOperation where
  choice : ChunkChoice
  queueSize : Int
  endOfStream : Bool := false
deriving DecidableEq, Repr

structure Environment where
  getChunkOperation : List MediaChunk → Int → ChunkOperationHolder → ChunkOperation
  update : Int → Int → Bool → Bool
  now : Int

inductive ChunkState
  | idle
  | initialized
  | prepared
  | enabled
  | disabling
deriving DecidableEq, Repr

inductive ChunkLoadErrorReason
  | noError
  | genericError
deriving DecidableEq, Repr

inductive ReadResult
  | endOfStream
  | nothingRead
  | sampleRead
  | formatRead
deriving DecidableEq, Repr

inductive LoaderOutcome
  | complete
  | error (timestamp : Int)
  | canceled
deriving DecidableEq, Repr

structure Loading where
  chunk : Chunk
  canceled : Bool := false
deriving DecidableEq, Repr

inductive SourceFault
  | sampleQueue (fault : Fault)
  | discard (queue : SampleQueue) (index : Nat) (fault : Fault)
  | discardOutOfRange
  | emptyChunkQueue
  | nullChunk

structure MediaStart where
  chunk : Chunk
  seekPosition : Option Int
  queuedChunks : Nat
  queuedSamples : Nat
deriving DecidableEq, Repr

structure Delivery where
  sample : Option OwnedSample
  resetAt : Option Nat

structure UpstreamDiscard where
  before : SampleQueue
  index : Nat
  after : SampleQueue
  retained : List MediaChunk

-- What an observer of the source notes down; the source never reads it.
structure Observations where
  chunksMade : Nat := 0
  seekPosition : Option Int := none
  resetAt : Option Nat := some 0
  starts : List MediaStart := []
  deliveries : List Delivery := []
  discards : List UpstreamDiscard := []
  dangling : Bool := false

structure ChunkSampleSource where
  sampleQueue : SampleQueue
  mediaChunks : List MediaChunk := []
  currentLoadableHolder : ChunkOperationHolder := {}
  state : ChunkState := .idle
  downstreamPositionUs : Int := 0
  lastSeekPositionUs : Int := 0
  pendingResetPositionUs : Int := kNoResetPending
  lastPerformedBufferOperation : Int := 0
  pendingDiscontinuity : Bool := false
  loadingFinished : Bool := false
  currentLoadableErrorReason : ChunkLoadErrorReason := .noError
  currentLoadableErrorCount : Int := 0
  currentLoadableErrorTimestamp : Int := 0
  downstreamMediaFormat : Option Nat := none
  loader : Option Loading := none
  disablePosted : Bool := false
  observed : Observations := {}

namespace ChunkSampleSource

def liftQueue {α : Type} (result : Except Fault α) : Except SourceFault α :=
  result.mapError .sampleQueue

def isPendingReset (source : ChunkSampleSource) : Bool :=
  source.pendingResetPositionUs ≠ kNoResetPending

def isLoading (source : ChunkSampleSource) : Bool := source.loader.isSome

-- `moved` is a chunk that a local unique_ptr of the running function holds.
def owns (source : ChunkSampleSource) (moved : Option Chunk) (chunk : Chunk) : Bool :=
  source.currentLoadableHolder.ownedChunk.any (·.id = chunk.id) ||
    source.mediaChunks.any (·.chunk.id = chunk.id) || moved.any (·.id = chunk.id)

def dereference (source : ChunkSampleSource) (moved : Option Chunk) (chunk : Chunk) :
    ChunkSampleSource :=
  { source with
    observed.dangling := source.observed.dangling || !source.owns moved chunk }

def cancelLoading (source : ChunkSampleSource) : ChunkSampleSource :=
  { source with loader := source.loader.map fun loading => { loading with canceled := true } }

-- A loader that is busy refuses; the return value is not looked at.
def startLoading (source : ChunkSampleSource) (chunk : Chunk) : ChunkSampleSource :=
  let source := source.dereference none chunk
  if source.isLoading then source else { source with loader := some { chunk } }

def clearCurrentLoadableException (source : ChunkSampleSource) : ChunkSampleSource :=
  { source with currentLoadableErrorReason := .noError, currentLoadableErrorCount := 0 }

def clearCurrentLoadable (source : ChunkSampleSource) : ChunkSampleSource :=
  { source with
    currentLoadableHolder := source.currentLoadableHolder.setChunk none }.clearCurrentLoadableException

def getNextLoadPositionUs (source : ChunkSampleSource) : Except SourceFault Int :=
  if source.isPendingReset then .ok source.pendingResetPositionUs
  else if source.loadingFinished then .ok (-1)
  else
    match source.mediaChunks.getLast? with
    | none => .error .emptyChunkQueue
    | some last => .ok last.chunk.endTimeUs

def operationPositionUs (source : ChunkSampleSource) : Int :=
  if source.pendingResetPositionUs ≠ kNoResetPending then source.pendingResetPositionUs
  else source.downstreamPositionUs

def newChunk (source : ChunkSampleSource) (spec : ChunkSpec) : Chunk :=
  { id := source.observed.chunksMade
    type := spec.type
    endTimeUs := spec.endTimeUs
    isMediaFormatFinal := spec.isMediaFormatFinal
    givenFormat := spec.givenFormat
    requestedFor := source.operationPositionUs
    requestedWith := source.mediaChunks.length }

def consult (source : ChunkSampleSource) (moved : Option Chunk) : ChunkSampleSource :=
  match source.currentLoadableHolder.chunk with
  | none => source
  | some chunk => source.dereference moved chunk

def operation (env : Environment) (source : ChunkSampleSource) : ChunkOperation :=
  env.getChunkOperation source.mediaChunks source.operationPositionUs
    { source.currentLoadableHolder with
      endOfStream := false
      queueSize := source.mediaChunks.length }

def applyOperation (source : ChunkSampleSource) (operation : ChunkOperation) : ChunkSampleSource :=
  let holder := { source.currentLoadableHolder with
    queueSize := operation.queueSize
    endOfStream := operation.endOfStream }
  let source := { source with loadingFinished := operation.endOfStream }
  match operation.choice with
  | .keep => { source with currentLoadableHolder := holder }
  | .clear => { source with currentLoadableHolder := holder.setChunk none }
  | .replace spec =>
    { source with
      currentLoadableHolder := holder.setChunk (some (source.newChunk spec))
      observed.chunksMade := source.observed.chunksMade + 1 }

def doChunkOperation (env : Environment) (moved : Option Chunk) (source : ChunkSampleSource) :
    ChunkSampleSource :=
  let source := source.consult moved
  source.applyOperation (source.operation env)

-- A DCHECK guards the index; past it the size of the queue would be negative.
def discardUpstreamSamples (source : ChunkSampleSource) (index : Nat) :
    Except SourceFault ChunkSampleSource :=
  if source.sampleQueue.getReadIndex ≤ index ∧ index ≤ source.sampleQueue.getWriteIndex then do
    let sampleQueue ← (source.sampleQueue.discardUpstreamSamples index).mapError
      (.discard source.sampleQueue index)
    .ok { source with
      sampleQueue
      observed.discards :=
        ⟨source.sampleQueue, index, sampleQueue, source.mediaChunks⟩ :: source.observed.discards }
  else .error .discardOutOfRange

-- The size is compared as size_t, so a negative length is a huge one.
def discardUpstreamMediaChunks (source : ChunkSampleSource) (queueLength : Int) :
    Except SourceFault (Bool × ChunkSampleSource) :=
  let queueLength := (queueLength % 18446744073709551616).toNat
  match source.mediaChunks[queueLength]? with
  | none => .ok (false, source)
  | some removed => do
    let source := { source with
      loadingFinished := false
      mediaChunks := source.mediaChunks.take queueLength }
    let source ← source.discardUpstreamSamples removed.firstSampleIndex
    .ok (true, source)

def maybeStartLoading (source : ChunkSampleSource) : Except SourceFault ChunkSampleSource :=
  match source.currentLoadableHolder.chunk with
  | none => .ok source
  | some current =>
    let source := source.dereference none current
    if current.isMediaChunk then
      match source.currentLoadableHolder.takeChunk with
      | (none, _) => .error .nullChunk
      | (some taken, currentLoadableHolder) =>
        let mediaChunk : MediaChunk :=
          { chunk := taken
            firstSampleIndex := source.sampleQueue.getWriteIndex
            mediaFormat := taken.givenFormat }
        let start : MediaStart :=
          { chunk := taken
            seekPosition := source.observed.seekPosition
            queuedChunks := source.mediaChunks.length
            queuedSamples := source.sampleQueue.history.length }
        let source := { source with
          currentLoadableHolder
          mediaChunks := source.mediaChunks ++ [mediaChunk]
          pendingResetPositionUs := kNoResetPending
          observed.seekPosition := none
          observed.starts := start :: source.observed.starts }
        .ok (source.startLoading taken)
    else .ok (source.startLoading current)

def getRetryDelayMillis (errorCount : Int) : Int := min (1000000 * (errorCount - 1)) 5000000

def holdsChunk (source : ChunkSampleSource) (chunk : Chunk) : Bool :=
  source.currentLoadableHolder.chunk.any (·.id = chunk.id)

def resumeOtherChunk (env : Environment) (source : ChunkSampleSource) (backedOffChunk : Chunk) :
    Except SourceFault ChunkSampleSource := do
  let source := source.doChunkOperation env none
  let (_, source) ← source.discardUpstreamMediaChunks source.currentLoadableHolder.queueSize
  if source.holdsChunk backedOffChunk then .ok (source.startLoading backedOffChunk)
  else (source.dereference none backedOffChunk).maybeStartLoading

def withoutLast (source : ChunkSampleSource) : ChunkSampleSource :=
  { source with mediaChunks := source.mediaChunks.dropLast }

-- The last media chunk is out of the queue while the chunk source looks at it.
def doChunkOperationWithout (env : Environment) (removedChunk : MediaChunk)
    (source : ChunkSampleSource) : ChunkSampleSource :=
  let source := source.withoutLast.doChunkOperation env (some removedChunk.chunk)
  { source with mediaChunks := source.mediaChunks ++ [removedChunk] }

def resumeMediaChunk (env : Environment) (source : ChunkSampleSource) (backedOffChunk : Chunk) :
    Except SourceFault ChunkSampleSource :=
  match source.mediaChunks.head?, source.mediaChunks.getLast? with
  | some front, some removedChunk =>
    if backedOffChunk.id = front.chunk.id then .ok (source.startLoading backedOffChunk)
    else do
      let source := source.doChunkOperationWithout env removedChunk
      if source.holdsChunk backedOffChunk then .ok (source.startLoading backedOffChunk)
      else
        let source := source.dereference none backedOffChunk
        let (_, source) ← source.discardUpstreamMediaChunks source.currentLoadableHolder.queueSize
        source.clearCurrentLoadableException.maybeStartLoading
  | _, _ => .error .emptyChunkQueue

def resumeFromBackOff (env : Environment) (source : ChunkSampleSource) :
    Except SourceFault ChunkSampleSource :=
  let source := { source with currentLoadableErrorReason := .noError }
  match source.currentLoadableHolder.chunk with
  | none => .error .nullChunk
  | some backedOffChunk =>
    let source := source.dereference none backedOffChunk
    if backedOffChunk.isMediaChunk then source.resumeMediaChunk env backedOffChunk
    else source.resumeOtherChunk env backedOffChunk

def evaluateOperation (env : Environment) (source : ChunkSampleSource) :
    Except SourceFault (Int × ChunkSampleSource) := do
  let nextLoadPositionUs ← source.getNextLoadPositionUs
  if source.currentLoadableHolder.chunk.isNone && nextLoadPositionUs ≠ -1 ||
      env.now - source.lastPerformedBufferOperation > 2000000 then
    let source := { source with lastPerformedBufferOperation := env.now }.doChunkOperation env none
    let (chunksDiscarded, source) ←
      source.discardUpstreamMediaChunks source.currentLoadableHolder.queueSize
    if source.currentLoadableHolder.chunk.isNone then .ok (-1, source)
    else if chunksDiscarded then
      let nextLoadPositionUs ← source.getNextLoadPositionUs
      .ok (nextLoadPositionUs, source)
    else .ok (nextLoadPositionUs, source)
  else .ok (nextLoadPositionUs, source)

def updateLoadControl (env : Environment) (source : ChunkSampleSource) :
    Except SourceFault ChunkSampleSource :=
  if source.currentLoadableErrorReason ≠ .noError then do
    let nextLoadPositionUs ← source.getNextLoadPositionUs
    let _ := env.update source.downstreamPositionUs nextLoadPositionUs true
    if env.now - source.currentLoadableErrorTimestamp ≥
        getRetryDelayMillis source.currentLoadableErrorCount then source.resumeFromBackOff env
    else .ok source
  else if source.isLoading then do
    let nextLoadPositionUs ← source.getNextLoadPositionUs
    let _ := env.update source.downstreamPositionUs nextLoadPositionUs true
    .ok source
  else do
    let (nextLoadPositionUs, source) ← source.evaluateOperation env
    if env.update source.downstreamPositionUs nextLoadPositionUs false then
      source.maybeStartLoading
    else .ok source

def cleared (source : ChunkSampleSource) (sampleQueue : SampleQueue) : ChunkSampleSource :=
  { source with
    sampleQueue
    mediaChunks := []
    observed.resetAt := some sampleQueue.committed }.clearCurrentLoadable

def resetQueues (source : ChunkSampleSource) : Except SourceFault ChunkSampleSource := do
  let sampleQueue ← liftQueue source.sampleQueue.clear
  .ok (source.cleared sampleQueue)

def awaiting (source : ChunkSampleSource) (positionUs : Int) : ChunkSampleSource :=
  { source with pendingResetPositionUs := positionUs, loadingFinished := false }

def restartFrom (env : Environment) (positionUs : Int) (source : ChunkSampleSource) :
    Except SourceFault ChunkSampleSource :=
  if source.isLoading then .ok (source.awaiting positionUs).cancelLoading
  else do
    let source ← (source.awaiting positionUs).resetQueues
    source.updateLoadControl env

def noteSeek (source : ChunkSampleSource) (positionUs : Int) : ChunkSampleSource :=
  { source with
    observed.seekPosition := some positionUs
    observed.resetAt := none }

def register (source : ChunkSampleSource) : ChunkSampleSource :=
  { source with state := .initialized }

def prepare (sourcePrepared : Bool) (source : ChunkSampleSource) : Bool × ChunkSampleSource :=
  if source.state = .prepared then (true, source)
  else if sourcePrepared then (true, { source with state := .prepared })
  else (false, source)

def enable (env : Environment) (positionUs : Int) (source : ChunkSampleSource) :
    Except SourceFault ChunkSampleSource :=
  ({ source with
    state := .enabled
    downstreamPositionUs := positionUs
    downstreamMediaFormat := none
    lastSeekPositionUs := positionUs
    pendingDiscontinuity := false }.noteSeek positionUs).restartFrom env positionUs

def disable (source : ChunkSampleSource) : ChunkSampleSource :=
  let source := { source with state := .disabling }
  if source.isLoading then source.cancelLoading else { source with disablePosted := true }

def disableAndClear (source : ChunkSampleSource) : Except SourceFault ChunkSampleSource :=
  { source with state := .prepared, disablePosted := false }.resetQueues

def isEmpty (source : ChunkSampleSource) : Except SourceFault (Bool × ChunkSampleSource) := do
  let (empty, sampleQueue) ← liftQueue source.sampleQueue.isEmpty
  .ok (empty, { source with sampleQueue })

def continueBuffering (env : Environment) (positionUs : Int) (source : ChunkSampleSource) :
    Except SourceFault (Bool × ChunkSampleSource) := do
  let source ← { source with downstreamPositionUs := positionUs }.updateLoadControl env
  if source.loadingFinished then .ok (true, source)
  else
    let (empty, source) ← source.isEmpty
    .ok (!empty, source)

def readDiscontinuity (source : ChunkSampleSource) : Int × ChunkSampleSource :=
  if source.pendingDiscontinuity then
    (source.lastSeekPositionUs, { source with pendingDiscontinuity := false })
  else (kNoDiscontinuity, source)

def popPassed (readIndex : Nat) : List MediaChunk → List MediaChunk
  | front :: second :: rest =>
    if second.firstSampleIndex ≤ readIndex then popPassed readIndex (second :: rest)
    else front :: second :: rest
  | chunks => chunks

def popPassedChunks (source : ChunkSampleSource) (haveSamples : Bool) : ChunkSampleSource :=
  if haveSamples then
    { source with mediaChunks := popPassed source.sampleQueue.getReadIndex source.mediaChunks }
  else source

def decodeOnlyFlag (source : ChunkSampleSource) (forward : Bool) (holder : SampleHolder) :
    SampleHolder :=
  let decodeOnly :=
    if forward then decide (holder.timeUs < source.lastSeekPositionUs)
    else decide (holder.timeUs > source.lastSeekPositionUs)
  { holder with flags := holder.flags ||| if decodeOnly then kSampleFlagDecodeOnly else 0#32 }

def readSample (source : ChunkSampleSource) (forward : Bool) (holder : SampleHolder) :
    Except SourceFault (ReadResult × SampleHolder × ChunkSampleSource) := do
  let (found, holder, sampleQueue) ← liftQueue (source.sampleQueue.getSample holder)
  let source := { source with sampleQueue }
  if found then
    let delivery : Delivery :=
      { sample := sampleQueue.history[sampleQueue.getReadIndex - 1]?
        resetAt := source.observed.resetAt }
    .ok (.sampleRead, source.decodeOnlyFlag forward holder,
      { source with observed.deliveries := delivery :: source.observed.deliveries })
  else .ok (.nothingRead, holder, source)

def readChunk (empty forward : Bool) (holder : SampleHolder) (source : ChunkSampleSource) :
    Except SourceFault (ReadResult × SampleHolder × ChunkSampleSource) :=
  match source.mediaChunks with
  | [] => .error .emptyChunkQueue
  | currentChunk :: _ =>
    let known := !empty || currentChunk.chunk.isMediaFormatFinal
    if known && currentChunk.mediaFormat.isSome &&
        currentChunk.mediaFormat ≠ source.downstreamMediaFormat then
      .ok (.formatRead, holder, { source with downstreamMediaFormat := currentChunk.mediaFormat })
    else
      let downstreamMediaFormat :=
        if known && currentChunk.mediaFormat.isNone then none else source.downstreamMediaFormat
      let source := { source with downstreamMediaFormat }
      if empty then
        .ok (if source.loadingFinished then .endOfStream else .nothingRead, holder, source)
      else source.readSample forward holder

def readData (positionUs : Int) (forward : Bool) (holder : SampleHolder)
    (source : ChunkSampleSource) :
    Except SourceFault (ReadResult × SampleHolder × ChunkSampleSource) := do
  let source := { source with downstreamPositionUs := positionUs }
  if source.pendingDiscontinuity || source.isPendingReset then .ok (.nothingRead, holder, source)
  else
    let (empty, source) ← source.isEmpty
    (source.popPassedChunks !empty).readChunk empty forward holder

def seekInsideBuffer (positionUs : Int) (source : ChunkSampleSource) :
    Except SourceFault (Bool × ChunkSampleSource) :=
  if source.isPendingReset then .ok (false, source)
  else do
    let (found, sampleQueue) ← liftQueue (source.sampleQueue.skipToKeyframeBefore positionUs)
    .ok (found, { source with sampleQueue })

def seekToUs (env : Environment) (positionUs : Int) (source : ChunkSampleSource) :
    Except SourceFault ChunkSampleSource := do
  let currentPositionUs :=
    if source.isPendingReset then source.pendingResetPositionUs else source.downstreamPositionUs
  let source := { source with
    downstreamPositionUs := positionUs
    lastSeekPositionUs := positionUs }
  if currentPositionUs = positionUs then .ok source
  else
    let (inside, source) ← source.seekInsideBuffer positionUs
    if inside then
      let (empty, source) ← source.isEmpty
      .ok { source.popPassedChunks !empty with pendingDiscontinuity := true }
    else
      let source ← (source.noteSeek positionUs).restartFrom env positionUs
      .ok { source with pendingDiscontinuity := true }

def getBufferedPositionUs (source : ChunkSampleSource) : Int :=
  if source.isPendingReset then source.pendingResetPositionUs
  else if source.loadingFinished then kEndOfTrackUs
  else if source.sampleQueue.getLargestParsedTimestampUs = kInvalidTimestamp then
    source.downstreamPositionUs
  else source.sampleQueue.getLargestParsedTimestampUs

def onLoadError (timestamp : Int) (source : ChunkSampleSource) : ChunkSampleSource :=
  { source with
    currentLoadableErrorReason := .genericError
    currentLoadableErrorCount := source.currentLoadableErrorCount + 1
    currentLoadableErrorTimestamp := timestamp }

-- DoneLoad has reset the loader when the callback runs.
def loadComplete (env : Environment) (outcome : LoaderOutcome) (source : ChunkSampleSource) :
    Except SourceFault ChunkSampleSource :=
  let source := { source with loader := none }
  match source.currentLoadableHolder.chunk with
  | none => .error .nullChunk
  | some current =>
    let source := source.dereference none current
    match outcome with
    | .complete => source.clearCurrentLoadable.updateLoadControl env
    | .error timestamp => (source.onLoadError timestamp).updateLoadControl env
    | .canceled =>
      let source := source.clearCurrentLoadable
      if source.state = .enabled then source.restartFrom env source.pendingResetPositionUs
      else source.disableAndClear

def writeSampleData (src : Bytes) (allowEndOfInput : Bool) (source : ChunkSampleSource) :
    Except SourceFault ChunkSampleSource := do
  let sampleQueue ← liftQueue (source.sampleQueue.writeSampleDataFixThis src allowEndOfInput)
  .ok { source with sampleQueue }

def writeSampleMetadata (fresh : Fresh) (owner : Nat) (metadata : SampleMetadata)
    (source : ChunkSampleSource) : ChunkSampleSource :=
  { source with sampleQueue := source.sampleQueue.writeSampleMetadata fresh owner metadata }

def giveFormat (owner format : Nat) (source : ChunkSampleSource) : ChunkSampleSource :=
  { source with
    mediaChunks := source.mediaChunks.map fun media =>
      if media.chunk.id = owner then { media with mediaFormat := some format } else media }

end ChunkSampleSource

end NDash.Chunk

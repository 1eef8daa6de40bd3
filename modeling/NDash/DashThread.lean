import Mathlib.Data.Rat.Defs
import NDash.SampleHolder
import NDash.Shared.Machine

set_option autoImplicit false

namespace NDash

open Machine

inductive DashFrameType
  | invalid
  | video
  | audio
  | cc
deriving DecidableEq, Repr

inductive PlayerState
  | idle
  | preparing
  | buffering
  | ready
  | ended
deriving DecidableEq, Repr

inductive RendererState
  | released
  | unprepared
  | prepared
  | enabled
  | started
deriving DecidableEq, Repr

def RendererState.Polled (renderer : RendererState) : Prop :=
  renderer = .started ∨ renderer = .enabled

instance (renderer : RendererState) : Decidable renderer.Polled :=
  inferInstanceAs (Decidable (_ ∨ _))

-- `pssh` is what the initialization data, if there is any, has for the scheme asked for.
structure MediaFormatHolder where
  format : Option (Int × Int) := none
  drmInitData : Option (Option Bytes) := none
deriving DecidableEq, Repr

def MediaFormatHolder.pssh (holder : MediaFormatHolder) : Option Bytes := holder.drmInitData.join

structure RenderedSample where
  data : Bytes
  flags : BitVec 32 := 0#32
  timeUs : Int := 0
  durationUs : Int := 0
  cryptoInfo : CryptoInfo := {}
deriving DecidableEq, Repr

def RenderedSample.isEncrypted (sample : RenderedSample) : Bool :=
  hasFlag sample.flags kSampleFlagEncrypted

def SampleHolder.receive (holder : SampleHolder) (sample : RenderedSample) : SampleHolder :=
  { holder with
    buffer := some sample.data
    bufferLen := sample.data.length
    writtenSize := sample.data.length
    flags := sample.flags
    timeUs := sample.timeUs
    durationUs := sample.durationUs
    cryptoInfo := sample.cryptoInfo }

inductive ReadOutcome
  | formatRead (formatHolder : MediaFormatHolder)
  | sampleRead (sample : RenderedSample) (errorOccurred : Bool)
  | endOfStream
  | nothingRead
deriving DecidableEq, Repr

def firstFragmentFlag : BitVec 32 := 1#32
def lastFragmentFlag : BitVec 32 := 2#32

structure DashFrameInfo where
  type : DashFrameType := .invalid
  flags : BitVec 32 := 0#32
  pts : Int := 0
  duration : Int := 0
  frameLen : Int := 0
  keyId : Bytes := []
  iv : Bytes := []
  clearBytes : List Int := []
  encBytes : List Int := []
  width : Int := 0
  height : Int := 0
deriving DecidableEq, Repr

inductive TrackEvent
  | formatRead (formatHolder : MediaFormatHolder)
  | sampleRead (sample : RenderedSample)
  | endOfStream
  | selected (renderer : RendererState)
  | joined (pssh : Bytes) (license : Bool)
  | fragment (data : Bytes) (info : DashFrameInfo)
  | repositioned
  | playbackEnded (renderer : RendererState)
deriving DecidableEq, Repr

-- `renderer` is the state of the track's renderer, and `history` has the newest event first.
structure TrackContext where
  frameType : DashFrameType
  hasSample : Bool := false
  isEos : Bool := false
  formatHolder : MediaFormatHolder := {}
  sampleHolder : SampleHolder := { bufferReplacementEnabled := true }
  checkPssh : Bool := true
  preferTrick : Bool := false
  renderer : RendererState := .unprepared
  history : List TrackEvent := []
deriving DecidableEq, Repr

namespace TrackContext

def note (track : TrackContext) (event : TrackEvent) : TrackContext :=
  { track with history := event :: track.history }

def clearSample (track : TrackContext) : TrackContext :=
  { track with hasSample := false, sampleHolder := track.sampleHolder.clearData }

end TrackContext

def isTrick (rate : Rat) : Bool := rate ≠ 1
def isForward (rate : Rat) : Bool := 0 ≤ rate
def isNormal (rate : Rat) : Bool := rate = 1

def kMaxReadAttempts : Nat := 5

namespace TrackContext

/-- The loop of FillTrackSampleHolders over one track; the renderer has nothing to read after
`reads`. A thrown away sample does not count as an attempt. -/
def readAttempts (rate : Rat) : Nat → List ReadOutcome → TrackContext → TrackContext
  | 0, _, track => track
  | _ + 1, [], track => track
  | _ + 1, .nothingRead :: _, track => track
  | _ + 1, .endOfStream :: _, track => { track.note .endOfStream with isEos := true }
  | attempts + 1, .formatRead formatHolder :: reads, track =>
    readAttempts rate attempts reads
      { track.note (.formatRead formatHolder) with formatHolder, checkPssh := true }
  | attempts + 1, .sampleRead sample errorOccurred :: reads, track =>
    let track := { track.note (.sampleRead sample) with
      sampleHolder := track.sampleHolder.receive sample }
    if errorOccurred || track.sampleHolder.writtenSize = 0 then
      readAttempts rate attempts reads
        { track with sampleHolder := track.sampleHolder.clearData }
    else if track.sampleHolder.isDecodeOnly && (track.frameType ≠ .video || isTrick rate) then
      if !track.sampleHolder.isSyncFrame then track
      else
        readAttempts rate (attempts + 1) reads
          { track with sampleHolder := track.sampleHolder.clearData }
    else { track with hasSample := true }

/-- One track in FillTrackSampleHolders; the flag is set where the track clears `all_eos`. -/
def fill (rate : Rat) (reads : List ReadOutcome) (track : TrackContext) : Bool × TrackContext :=
  if track.isEos then (false, track)
  else if track.renderer ≠ .started ∧ track.renderer ≠ .enabled then (false, track)
  else if track.hasSample then (true, track)
  else
    (true, readAttempts rate kMaxReadAttempts reads
      { track with sampleHolder := track.sampleHolder.clearData })

end TrackContext

structure Fragment where
  track : Nat
  data : Bytes
  info : DashFrameInfo
deriving DecidableEq, Repr

/-- The results of conversions made in floating point: the 90 kHz timestamp of a time in
microseconds, and kMaxPRBuffer scaled by a rate. -/
structure Conversions where
  timestampFromUs : Int → Int
  maxPRBuffer : Rat → Int

def exactConversions : Conversions where
  timestampFromUs us := (us * 90).tdiv 1000
  maxPRBuffer rate := (5000000 * rate.num).tdiv rate.den

-- Times are in microseconds unless the name says otherwise. `manifestOffsetMs` is what the first
-- period of the manifest gives for the sample offset, `disabling` the closures that the renderers
-- hold, and `returned` has the newest fragment first.
structure DashThread where
  state : PlayerState := .idle
  tracks : List TrackContext := []
  currentTrack : Option Nat := none
  sampleHolderConsumed : Int := 0
  isEos : Bool := false
  playbackRate : Rat := 1
  mediaTimeReady : Bool := false
  decoderPosition : Int := 0
  readerPosition : Int := 0
  seekPosition : Int := 0
  initialTime : Int := 0
  decoderMediaTimeLastValueMs : Int := 0
  mediaTimeLastValueMs : Int := 0
  sampleOffsetMs : Int := -1
  manifestOffsetMs : Int := 0
  pendingDisable : List Nat := []
  disabling : List (Nat × Rat) := []
  returned : List Fragment := []

structure Selection where
  selected : Option (Nat × Int) := none
  mediaTimeTrack : Option Nat := none
deriving DecidableEq, Repr

namespace DashThread

def fillTrackSampleHolders (thread : DashThread) (reads : Nat → List ReadOutcome) :
    Bool × DashThread :=
  let filled := thread.tracks.mapIdx fun index track => track.fill thread.playbackRate (reads index)
  (filled.any (·.1), { thread with tracks := filled.map (·.2) })

def noteMediaTimeTrack (selection : Selection) (index : Nat) (frameType : DashFrameType) :
    Selection :=
  if frameType = .audio then { selection with mediaTimeTrack := some index }
  else if frameType = .video && selection.mediaTimeTrack.isNone then
    { selection with mediaTimeTrack := some index }
  else selection

def isBestByTime (thread : DashThread) (selection : Selection) (sampleTime : Int) : Bool :=
  match selection.selected with
  | none => true
  | some (_, selectedTrackTime) =>
    if isForward thread.playbackRate then sampleTime < selectedTrackTime
    else sampleTime > selectedTrackTime

def isNotTooFarAhead (conversions : Conversions) (thread : DashThread) (sampleTime : Int) : Bool :=
  let diff := sampleTime - thread.decoderPosition
  if isForward thread.playbackRate then diff ≤ conversions.maxPRBuffer thread.playbackRate
  else diff ≥ conversions.maxPRBuffer thread.playbackRate

def consider (conversions : Conversions) (thread : DashThread) (selection : Selection)
    (index : Nat) (track : TrackContext) : Selection :=
  if track.isEos || !track.hasSample then selection
  else
    let selection := noteMediaTimeTrack selection index track.frameType
    if track.frameType = .cc && !thread.mediaTimeReady then selection
    else
      let sampleTime := track.sampleHolder.timeUs
      if thread.isBestByTime selection sampleTime &&
          (!thread.mediaTimeReady || thread.isNotTooFarAhead conversions sampleTime) then
        { selection with selected := some (index, sampleTime) }
      else selection

def selectTrack (conversions : Conversions) (thread : DashThread) :
    Nat → List TrackContext → Selection → Selection
  | _, [], selection => selection
  | index, track :: tracks, selection =>
    selectTrack conversions thread (index + 1) tracks
      (thread.consider conversions selection index track)

def getNextSampleTrack (conversions : Conversions) (thread : DashThread) :
    Option (Nat × DashThread) :=
  let selection := thread.selectTrack conversions 0 thread.tracks {}
  match selection.selected with
  | none => none
  | some (index, sampleTime) =>
    if selection.mediaTimeTrack = some index then
      some (index, { thread with readerPosition := sampleTime })
    else some (index, thread)

/-- `license` is the answer of DrmSessionManager::Join. -/
def maybeCheckPssh (track : TrackContext) (license : Bool) : Except Fault (Bool × TrackContext) :=
  if !track.hasSample || !track.sampleHolder.isEncrypted then .ok (true, track)
  else if track.checkPssh then
    match track.formatHolder.pssh with
    | none => .error .nullPointer
    | some pssh =>
      let track := track.note (.joined pssh license)
      if !license then .ok (false, track) else .ok (true, { track with checkPssh := false })
  else .ok (true, track)

-- What GetSampleOffsetMs returns, computed or cached.
def offsetMs (thread : DashThread) : Int :=
  if thread.sampleOffsetMs ≠ -1 then thread.sampleOffsetMs else thread.manifestOffsetMs

def getSampleOffsetMs (thread : DashThread) : Int × DashThread :=
  if thread.sampleOffsetMs ≠ -1 then (thread.sampleOffsetMs, thread)
  else (thread.manifestOffsetMs, { thread with sampleOffsetMs := thread.manifestOffsetMs })

end DashThread

-- The subsample counts are copied by the count of clear ones.
def populateFrameInfoCrypto (fi : DashFrameInfo) (sampleHolder : SampleHolder) :
    Except Fault DashFrameInfo :=
  if !sampleHolder.isEncrypted then .ok fi
  else
    let cryptoInfo := sampleHolder.cryptoInfo
    let subsampleCount := cryptoInfo.numBytesOfClearData.length
    if cryptoInfo.numBytesOfEncryptedData.length < subsampleCount then .error .outOfBounds
    else
      .ok { fi with
        iv := cryptoInfo.iv
        keyId := cryptoInfo.key
        clearBytes := cryptoInfo.numBytesOfClearData
        encBytes := cryptoInfo.numBytesOfEncryptedData.take subsampleCount }

-- memcpy from a sample's buffer; a negative count is converted to a huge one.
def copyBytes (buffer : Option Bytes) (position count : Int) : Except Fault Bytes :=
  if count < 0 ∨ position < 0 then .error .outOfBounds
  else if position + count ≤ (buffer.getD []).length then
    .ok (((buffer.getD []).drop position.toNat).take count.toNat)
  else .error .outOfBounds

namespace DashThread

def describeFrame (conversions : Conversions) (fi : DashFrameInfo) (track : TrackContext)
    (format : Int × Int) (offsetMs : Int) : DashFrameInfo :=
  { fi with
    type := track.frameType
    width := format.1
    height := format.2
    pts := conversions.timestampFromUs (track.sampleHolder.timeUs - offsetMs * 1000)
    duration := conversions.timestampFromUs track.sampleHolder.durationUs
    frameLen := track.sampleHolder.writtenSize }

def drain (conversions : Conversions) (thread : DashThread) (bufferLen : Int) (fi : DashFrameInfo)
    (index : Nat) (track : TrackContext) : Except Fault (Int × DashThread) :=
  let sampleHolder := track.sampleHolder
  let sampleRemaining := sampleHolder.writtenSize - thread.sampleHolderConsumed
  let numToWrite := min bufferLen sampleRemaining
  (copyBytes sampleHolder.buffer thread.sampleHolderConsumed numToWrite).bind fun data =>
    match track.formatHolder.format with
    | none => .error .nullPointer
    | some format =>
      let (offsetMs, thread) := thread.getSampleOffsetMs
      let fi := describeFrame conversions fi track format offsetMs
      if numToWrite = sampleRemaining then
        let fi := { fi with flags := fi.flags ||| lastFragmentFlag }
        .ok (numToWrite, { thread with
          tracks := thread.tracks.set index (track.clearSample.note (.fragment data fi))
          sampleHolderConsumed := 0
          currentTrack := none
          returned := { track := index, data, info := fi } :: thread.returned })
      else
        .ok (numToWrite, { thread with
          tracks := thread.tracks.set index (track.note (.fragment data fi))
          sampleHolderConsumed := thread.sampleHolderConsumed + numToWrite
          returned := { track := index, data, info := fi } :: thread.returned })

def beginFrame (conversions : Conversions) (thread : DashThread) (bufferLen : Int)
    (license : Bool) (index : Nat) (track : TrackContext) : Except Fault (Int × DashThread) :=
  let track := track.note (.selected track.renderer)
  (maybeCheckPssh track license).bind fun (cleared, track) =>
    let thread := { thread with
      tracks := thread.tracks.set index track
      currentTrack := some index }
    if !cleared then .ok (0, thread)
    else
      (populateFrameInfoCrypto { flags := firstFragmentFlag } track.sampleHolder).bind fun fi =>
        thread.drain conversions bufferLen fi index track

/-- `reads` are the answers of the renderers, and `license` is that of DrmSessionManager::Join. -/
def copyFrameImpl (conversions : Conversions) (thread : DashThread) (bufferLen : Int)
    (reads : Nat → List ReadOutcome) (license : Bool) : Except Fault (Int × DashThread) :=
  if thread.state ≠ .buffering then .ok (-1, thread)
  else
    match thread.currentTrack with
    | some index =>
      match thread.tracks[index]? with
      | none => .error .nullPointer
      | some track => thread.drain conversions bufferLen {} index track
    | none =>
      let (filled, thread) := thread.fillTrackSampleHolders reads
      if !filled then
        .ok (0, { thread with
          isEos := true
          state := .ended
          tracks := thread.tracks.map fun track => track.note (.playbackEnded track.renderer) })
      else
        match thread.getNextSampleTrack conversions with
        | none => .ok (-1, thread)
        | some (index, thread) =>
          match thread.tracks[index]? with
          | none => .error .nullPointer
          | some track => thread.beginFrame conversions bufferLen license index track

end DashThread

def kMinimumSeekDistance : Nat := 2000000

namespace TrackContext

def seekRenderer (track : TrackContext) : TrackContext :=
  let track := if track.renderer = .started then { track with renderer := .enabled } else track
  if track.renderer = .enabled then { track with renderer := .started } else track

def stopRenderer (track : TrackContext) : TrackContext :=
  if track.renderer = .started then { track with renderer := .enabled } else track

def disableRenderer (track : TrackContext) : TrackContext :=
  if track.renderer = .enabled then { track with renderer := .prepared } else track

def enableForRate (rate : Rat) (track : TrackContext) : TrackContext :=
  if track.frameType = .video || isNormal rate then
    { track with
      preferTrick := isTrick rate
      renderer := .started }.clearSample
  else track

end TrackContext

namespace DashThread

def seekTarget (thread : DashThread) (timeMs : Int) (adjust : Int → Int) : Int :=
  let seekTime := (timeMs + thread.offsetMs) * 1000
  if thread.tracks.any (·.frameType = .video) then adjust seekTime else seekTime

def acceptsSeek (thread : DashThread) (timeMs : Int) (adjust : Int → Int) : Prop :=
  ¬ ((thread.seekTarget timeMs adjust - thread.decoderPosition).natAbs < kMinimumSeekDistance ∧
      timeMs ≠ 0) ∧
    isTrick thread.playbackRate = false

instance (thread : DashThread) (timeMs : Int) (adjust : Int → Int) :
    Decidable (thread.acceptsSeek timeMs adjust) :=
  inferInstanceAs (Decidable (_ ∧ _))

def seekImpl (thread : DashThread) (timeMs : Int) (adjust : Int → Int) : Int × DashThread :=
  let seekTime := thread.seekTarget timeMs adjust
  let accepted := decide (thread.acceptsSeek timeMs adjust)
  let thread := thread.getSampleOffsetMs.2
  if !accepted then (-1, thread)
  else
    let thread := { thread with
      decoderPosition := seekTime
      readerPosition := seekTime
      seekPosition := seekTime
      mediaTimeLastValueMs := seekTime
      decoderMediaTimeLastValueMs := 0 }
    if thread.state ≠ .buffering then (0, { thread with initialTime := seekTime })
    else
      (0, { thread with
        currentTrack := none
        sampleHolderConsumed := 0
        mediaTimeReady := false
        tracks := thread.tracks.map fun track =>
          (track.seekRenderer.clearSample).note .repositioned })

def setPlaybackRateDisableTracks (thread : DashThread) (targetRate : Rat) : DashThread :=
  if thread.playbackRate = targetRate then thread
  else
    let tracks := thread.tracks.map (·.stopRenderer)
    let pendingDisable :=
      (tracks.mapIdx fun index track => (index, track.renderer)).filterMap fun entry =>
        if entry.2 = .enabled then some entry.1 else none
    let thread := { thread with state := .ready, tracks, pendingDisable }
    if pendingDisable.isEmpty then thread
    else
      { thread with
        tracks := tracks.map (·.disableRenderer)
        disabling := thread.disabling ++ pendingDisable.map fun index => (index, targetRate) }

def setPlaybackRateEnableTracks (thread : DashThread) (targetRate : Rat) (disabled : Nat) :
    DashThread :=
  let thread := { thread with pendingDisable := thread.pendingDisable.erase disabled }
  if thread.pendingDisable.length > 0 then thread
  else
    { thread with
      state := .buffering
      isEos := false
      playbackRate := targetRate
      tracks := thread.tracks.map fun track => (track.enableForRate targetRate).note .repositioned
      mediaTimeReady := false
      sampleHolderConsumed := 0
      currentTrack := none }

def updateMediaTime (thread : DashThread) (newDecoderTimeMs : Int) : DashThread :=
  if newDecoderTimeMs = -1 then thread
  else
    let oldDecoderTimeMs := thread.decoderMediaTimeLastValueMs
    let thread := { thread with decoderMediaTimeLastValueMs := newDecoderTimeMs }
    if oldDecoderTimeMs = newDecoderTimeMs then thread
    else
      let (offsetMs, thread) := thread.getSampleOffsetMs
      let mediaTimeMs := newDecoderTimeMs + offsetMs
      { thread with
        mediaTimeLastValueMs := mediaTimeMs
        mediaTimeReady := true
        decoderPosition := mediaTimeMs * 1000 }

end DashThread

inductive PlayerOp
  | copyFrame (bufferLen : Int) (reads : Nat → List ReadOutcome) (license : Bool)
  | seek (timeMs : Int) (adjust : Int → Int)
  | setPlaybackRate (targetRate : Rat)
  | disabled (index : Nat) (targetRate : Rat)
  | updateMediaTime (newDecoderTimeMs : Int)

namespace DashThread

def step (conversions : Conversions) (thread : DashThread) (op : PlayerOp) :
    Option (Except Fault (Int × DashThread)) :=
  match op with
  | .copyFrame bufferLen reads license =>
    some (thread.copyFrameImpl conversions bufferLen reads license)
  | .seek timeMs adjust => some (.ok (thread.seekImpl timeMs adjust))
  | .setPlaybackRate targetRate => some (.ok (0, thread.setPlaybackRateDisableTracks targetRate))
  | .disabled index targetRate =>
    if (index, targetRate) ∈ thread.disabling then
      let thread := { thread with disabling := thread.disabling.erase (index, targetRate) }
      some (.ok (0, thread.setPlaybackRateEnableTracks targetRate index))
    else none
  | .updateMediaTime newDecoderTimeMs => some (.ok (0, thread.updateMediaTime newDecoderTimeMs))

structure Loaded (thread : DashThread) : Prop where
  buffering : thread.state = .buffering
  unselected : thread.currentTrack = none
  unconsumed : thread.sampleHolderConsumed = 0
  settled : thread.pendingDisable = [] ∧ thread.disabling = []
  unreturned : thread.returned = []
  fresh : ∀ track ∈ thread.tracks,
    track = { frameType := track.frameType, renderer := .started }

end DashThread

def playerSystem (conversions : Conversions) : System DashThread PlayerOp where
  Start thread := thread.Loaded
  Step thread op next := ∃ result, thread.step conversions op = some (.ok (result, next))

end NDash

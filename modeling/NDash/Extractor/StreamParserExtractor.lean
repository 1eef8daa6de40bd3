import NDash.Extractor.ExtractorInterface

set_option autoImplicit false

namespace NDash.Extractor

open Upstream

def kReadBufferSize : Nat := 4096

structure DecryptConfig where
  isEncrypted : Bool
  keyId : Bytes
  iv : Bytes
  subsamples : List (Int × Int)
deriving DecidableEq, Repr

structure StreamParserBuffer where
  endOfStream : Bool
  trackId : Nat
  data : Bytes
  timestampUs : Int
  durationUs : Int
  isKeyFrame : Bool
  decryptConfig : Option DecryptConfig
deriving DecidableEq, Repr

inductive EmeInitDataType
  | cenc
  | other
deriving DecidableEq, Repr

inductive ParserCallback
  | initF (durationUs : Int)
  | newConfig (mediaTracks : List MediaTrack)
  | newBuffers (audio video : List StreamParserBuffer) (text : List (Nat × List StreamParserBuffer))
  | encryptedMediaInitData (dataType : EmeInitDataType) (initData : Bytes)
  | newMediaSegment
  | endMediaSegment
  | newSidx (sizes offsets durationsUs timesUs : List Nat)
deriving DecidableEq, Repr

/-- The mp4 parser: Parse runs the callbacks in order and fails if one is refused (`refused` is the
state it is then left in) or if it finds the data malformed. -/
structure StreamParser (Parser : Type) where
  parse : Parser → Bytes → List ParserCallback × Bool × Parser
  refused : Parser → Parser
  flush : Parser → Parser

def ParserCallback.announces : ParserCallback → Bool
  | .initF _ | .encryptedMediaInitData _ _ => true
  | .newSidx _ _ _ timesUs => !timesUs.isEmpty
  | _ => false

/-- The mp4 parser on an initialization segment of one track: NewConfigF runs once, with the byte
that completes the configuration, and a flushed parser starts over. -/
structure ReadsSegment {Parser : Type} (streamParser : StreamParser Parser) (segment : Bytes)
    (track : MediaTrack) where
  received : Parser → Nat → Prop
  configured : Nat
  positive : 0 < configured
  inside : configured ≤ segment.length
  flushed : ∀ parser, received (streamParser.flush parser) 0
  parsed : ∀ parser count data, received parser count → data ≠ [] → data <+: segment.drop count →
    ∃ before after next, received next (count + data.length) ∧
      before.all ParserCallback.announces ∧ after.all ParserCallback.announces ∧
      streamParser.parse parser data =
        (if count < configured ∧ configured ≤ count + data.length then
            before ++ .newConfig [track] :: after
          else before ++ after, true, next)

def ReadsSegment.Completes {Parser : Type} {streamParser : StreamParser Parser} {segment : Bytes}
    {track : MediaTrack} (reads : ReadsSegment streamParser segment track) (count length : Nat) :
    Prop :=
  count < reads.configured ∧ reads.configured ≤ count + length

instance {Parser : Type} {streamParser : StreamParser Parser} {segment : Bytes} {track : MediaTrack}
    (reads : ReadsSegment streamParser segment track) (count length : Nat) :
    Decidable (reads.Completes count length) :=
  inferInstanceAs (Decidable (count < reads.configured ∧ reads.configured ≤ count + length))

theorem ReadsSegment.not_completes_nothing {Parser : Type} {streamParser : StreamParser Parser}
    {segment : Bytes} {track : MediaTrack} (reads : ReadsSegment streamParser segment track)
    (count : Nat) : ¬ reads.Completes count 0 := by
  intro completes
  have below := completes.1
  have above := completes.2
  omega

theorem ReadsSegment.completes_add {Parser : Type} {streamParser : StreamParser Parser}
    {segment : Bytes} {track : MediaTrack} (reads : ReadsSegment streamParser segment track)
    (count first second : Nat) :
    reads.Completes count (first + second) ↔
      reads.Completes count first ∨ reads.Completes (count + first) second := by
  unfold ReadsSegment.Completes
  omega

theorem ReadsSegment.not_completes_again {Parser : Type} {streamParser : StreamParser Parser}
    {segment : Bytes} {track : MediaTrack} (reads : ReadsSegment streamParser segment track)
    {count first : Nat} (completes : reads.Completes count first) (second : Nat) :
    ¬ reads.Completes (count + first) second := by
  intro again
  have above := completes.2
  have below := again.1
  omega

structure StreamParserExtractor (Parser : Type) where
  parser : Parser
  trackMap : List Nat := []
  output : Bool := false
  tracksRegistered : Bool := false
  isSeeking : Bool := false
  durationUs : Int := 0
  reverseFrames : Bool := false
  reversedBuffers : List StreamParserBuffer := []

namespace StreamParserExtractor

variable {Parser : Type} (streamParser : StreamParser Parser)

def init (extractor : StreamParserExtractor Parser) : StreamParserExtractor Parser :=
  { extractor with output := true }

def seek (extractor : StreamParserExtractor Parser) : StreamParserExtractor Parser :=
  { extractor with isSeeking := true, parser := streamParser.flush extractor.parser }

def initF (extractor : StreamParserExtractor Parser) (durationUs : Int) :
    StreamParserExtractor Parser :=
  { extractor with durationUs }

-- The formats of text tracks and of tracks without a valid config are not given.
def registerCalls (durationUs : Int) (trackId : Nat) (track : MediaTrack) : List OutputCall :=
  .registerTrack trackId ::
    match track.type with
    | .video | .audio => if track.validConfig then [.giveFormat { track, durationUs }] else []
    | .text | .unknown => []

def newConfigF (extractor : StreamParserExtractor Parser) (mediaTracks : List MediaTrack) :
    Bool × List OutputCall × StreamParserExtractor Parser :=
  if extractor.isSeeking then (true, [], { extractor with isSeeking := false })
  else if extractor.tracksRegistered then (false, [], extractor)
  else
    let registered := mediaTracks.zipIdx.flatMap fun (track, trackId) =>
      registerCalls extractor.durationUs trackId track
    (true, registered ++ [.doneRegisteringTracks],
      { extractor with
        trackMap := extractor.trackMap ++ List.range mediaTracks.length
        tracksRegistered := true })

def metadataOf (buffer : StreamParserBuffer) : SampleMetadata :=
  let flags := if buffer.isKeyFrame then kSampleFlagSync else 0#32
  let plain : SampleMetadata :=
    { timeUs := buffer.timestampUs
      durationUs := buffer.durationUs
      flags
      size := buffer.data.length
      offset := 0 }
  match buffer.decryptConfig with
  | none => plain
  | some config =>
    if config.isEncrypted then
      { plain with
        flags := flags ||| kSampleFlagEncrypted
        encryptionKeyId := some config.keyId
        iv := some config.iv
        numBytesClear := some (config.subsamples.map Prod.fst)
        numBytesEnc := some (config.subsamples.map Prod.snd) }
    else plain

-- The write loop repeats until all bytes are written; no bytes are no write.
def processBuffers (trackMap : List Nat) : List StreamParserBuffer → List OutputCall
  | [] => []
  | buffer :: buffers =>
    if buffer.endOfStream then []
    else if buffer.trackId ∉ trackMap then processBuffers trackMap buffers
    else
      (if buffer.data.isEmpty then [] else [.writeSampleData buffer.data]) ++
        .writeSampleMetadata (metadataOf buffer) :: processBuffers trackMap buffers

def dumpBuffers (extractor : StreamParserExtractor Parser) (buffers : List StreamParserBuffer) :
    List OutputCall × StreamParserExtractor Parser :=
  if extractor.reverseFrames then
    ([], { extractor with reversedBuffers := buffers.reverse ++ extractor.reversedBuffers })
  else (processBuffers extractor.trackMap buffers, extractor)

def newBuffersF (extractor : StreamParserExtractor Parser) (audio video : List StreamParserBuffer)
    (text : List (Nat × List StreamParserBuffer)) :
    Bool × List OutputCall × StreamParserExtractor Parser :=
  if !extractor.tracksRegistered then (false, [], extractor)
  else
    let (audioCalls, extractor) := extractor.dumpBuffers audio
    let (videoCalls, extractor) := extractor.dumpBuffers video
    (text.isEmpty, audioCalls ++ videoCalls, extractor)

def endMediaSegmentF (extractor : StreamParserExtractor Parser) :
    List OutputCall × StreamParserExtractor Parser :=
  if extractor.reverseFrames && !extractor.reversedBuffers.isEmpty then
    (processBuffers extractor.trackMap extractor.reversedBuffers,
      { extractor with reversedBuffers := [] })
  else ([], extractor)

def encryptedMediaInitDataF (dataType : EmeInitDataType) (initData : Bytes) : List OutputCall :=
  let mimeType :=
    match dataType with
    | .cenc => "video/mp4"
    | .other => "application/x-unknown-drm"
  [.setDrmInitData { mimeType, data := initData }]

def newSidx (sizes offsets durationsUs timesUs : List Nat) : Except Fault (List OutputCall) := do
  let seekMap ← ChunkIndex.create sizes offsets durationsUs timesUs
  .ok [.giveSeekMap seekMap]

def callback (extractor : StreamParserExtractor Parser) :
    ParserCallback → Except Fault (Bool × List OutputCall × StreamParserExtractor Parser)
  | .initF durationUs => .ok (true, [], extractor.initF durationUs)
  | .newConfig mediaTracks => .ok (extractor.newConfigF mediaTracks)
  | .newBuffers audio video text => .ok (extractor.newBuffersF audio video text)
  | .encryptedMediaInitData dataType initData =>
    .ok (true, encryptedMediaInitDataF dataType initData, extractor)
  | .newMediaSegment => .ok (true, [], extractor)
  | .endMediaSegment =>
    let (calls, extractor) := extractor.endMediaSegmentF
    .ok (true, calls, extractor)
  | .newSidx sizes offsets durationsUs timesUs => do
    let calls ← newSidx sizes offsets durationsUs timesUs
    .ok (true, calls, extractor)

def runCallbacks : List ParserCallback → StreamParserExtractor Parser →
    Except Fault (Bool × List OutputCall × StreamParserExtractor Parser)
  | [], extractor => .ok (true, [], extractor)
  | next :: rest, extractor => do
    let (accepted, calls, extractor) ← extractor.callback next
    if !extractor.output && !calls.isEmpty then .error .nullPointer
    else if !accepted then .ok (false, calls, extractor)
    else
      let (accepted, more, extractor) ← runCallbacks rest extractor
      .ok (accepted, calls ++ more, extractor)

def parse (extractor : StreamParserExtractor Parser) (data : Bytes) :
    Except Fault (Bool × List OutputCall × StreamParserExtractor Parser) := do
  let (callbacks, wellFormed, parser) := streamParser.parse extractor.parser data
  let (accepted, calls, extractor) ← runCallbacks callbacks extractor
  .ok (accepted && wellFormed, calls,
    { extractor with parser := if accepted then parser else streamParser.refused extractor.parser })

def accept (extractor : StreamParserExtractor Parser) (result : ReadResult) :
    Except Fault (ExtractorResult × List OutputCall × StreamParserExtractor Parser) :=
  match result with
  | .bytes [] => .ok (.continueReading, [], extractor)
  | .bytes data => do
    let (parsed, calls, extractor) ← extractor.parse streamParser data
    .ok (if parsed then .continueReading else .ioError, calls, extractor)
  | .endOfInput => .ok (.endOfInput, [], extractor)
  | .ioError => .ok (.ioError, [], extractor)

def interface : ExtractorInterface (StreamParserExtractor Parser) where
  init := init
  seek := seek streamParser
  request _ := kReadBufferSize
  accept := accept streamParser

variable {streamParser}

theorem runCallbacks_accepted {callback : ParserCallback} {calls : List OutputCall}
    {extractor next : StreamParserExtractor Parser}
    (answered : extractor.callback callback = .ok (true, calls, next))
    (connected : next.output = true) (rest : List ParserCallback) :
    runCallbacks (callback :: rest) extractor =
      (runCallbacks rest next).map fun later => (later.1, calls ++ later.2.1, later.2.2) := by
  rw [runCallbacks, answered]
  simp only [bind, Except.bind, connected]
  cases runCallbacks rest next <;> rfl

theorem runCallbacks_append {first second : List ParserCallback} {calls : List OutputCall}
    {extractor next : StreamParserExtractor Parser}
    (ran : runCallbacks first extractor = .ok (true, calls, next)) :
    runCallbacks (first ++ second) extractor =
      (runCallbacks second next).map fun later => (later.1, calls ++ later.2.1, later.2.2) := by
  induction first generalizing extractor calls with
  | nil =>
    cases ran
    rw [List.nil_append]
    cases runCallbacks second next <;> rfl
  | cons callback first ih =>
    obtain ⟨⟨accepted, early, middle⟩, answered, rest⟩ := bind_ok ran
    dsimp only at rest
    split at rest
    · cases rest
    · next connected =>
      split at rest
      · cases rest
      · next agreed =>
        obtain ⟨⟨_, more, last⟩, continued, finished⟩ := bind_ok rest
        cases finished
        simp only [List.cons_append, runCallbacks, answered, bind, Except.bind, connected, agreed,
          ih continued]
        cases runCallbacks second last with
        | error fault => rfl
        | ok later => simp [Except.map]

theorem callback_announces {callback : ParserCallback} (announces : callback.announces)
    (extractor : StreamParserExtractor Parser) :
    ∃ calls durationUs, calls.all OutputCall.informs ∧
      extractor.callback callback = .ok (true, calls, { extractor with durationUs }) := by
  cases callback with
  | initF durationUs => exact ⟨[], durationUs, rfl, rfl⟩
  | encryptedMediaInitData dataType initData => exact ⟨_, extractor.durationUs, rfl, rfl⟩
  | newSidx sizes offsets durationsUs timesUs =>
    have nonempty : timesUs.isEmpty = false := by
      simpa [ParserCallback.announces] using announces
    refine ⟨[.giveSeekMap { sizes, offsets, durationsUs, timesUs }], extractor.durationUs, rfl, ?_⟩
    simp only [StreamParserExtractor.callback, newSidx, ChunkIndex.create, nonempty]
    rfl
  | newConfig mediaTracks => cases announces
  | newBuffers audio video text => cases announces
  | newMediaSegment => cases announces
  | endMediaSegment => cases announces

theorem runCallbacks_announces {callbacks : List ParserCallback}
    (announces : callbacks.all ParserCallback.announces)
    {extractor : StreamParserExtractor Parser} (connected : extractor.output = true) :
    ∃ calls durationUs, calls.all OutputCall.informs ∧
      runCallbacks callbacks extractor = .ok (true, calls, { extractor with durationUs }) := by
  induction callbacks generalizing extractor with
  | nil => exact ⟨[], extractor.durationUs, rfl, rfl⟩
  | cons callback callbacks ih =>
    rw [List.all_cons, Bool.and_eq_true] at announces
    obtain ⟨calls, durationUs, informs, answered⟩ := callback_announces announces.1 extractor
    let next := { extractor with durationUs }
    have connectedNext : next.output = true := connected
    obtain ⟨more, last, others, ran⟩ := ih announces.2 connectedNext
    refine ⟨calls ++ more, last, ?_, ?_⟩
    · rw [List.all_append, informs, others]
      rfl
    · rw [runCallbacks_accepted answered connected, ran]
      rfl

theorem runCallbacks_configures {before after : List ParserCallback} (track : MediaTrack)
    (announcesBefore : before.all ParserCallback.announces)
    (announcesAfter : after.all ParserCallback.announces)
    {extractor : StreamParserExtractor Parser} (connected : extractor.output = true)
    (unregistered : extractor.isSeeking = true ∨ extractor.tracksRegistered = false) :
    ∃ first last durationUs finalUs, first.all OutputCall.informs ∧ last.all OutputCall.informs ∧
      runCallbacks (before ++ .newConfig [track] :: after) extractor =
        .ok (true,
          first ++ ((({ extractor with durationUs }).newConfigF [track]).2.1 ++ last),
          { (({ extractor with durationUs }).newConfigF [track]).2.2 with durationUs := finalUs }) := by
  obtain ⟨first, durationUs, informsFirst, ranBefore⟩ :=
    runCallbacks_announces announcesBefore connected
  let middle := { extractor with durationUs }
  have accepted : (middle.newConfigF [track]).1 = true := by
    rcases unregistered with seeking | unregistered
    · simp [middle, newConfigF, seeking]
    · by_cases seeking : extractor.isSeeking = true <;>
        simp [middle, newConfigF, seeking, unregistered]
  have connectedNext : (middle.newConfigF [track]).2.2.output = true := by
    unfold newConfigF
    split
    · exact connected
    · split <;> exact connected
  have answered : middle.callback (.newConfig [track]) =
      .ok (true, (middle.newConfigF [track]).2.1, (middle.newConfigF [track]).2.2) := by
    rw [← accepted]
    rfl
  obtain ⟨last, finalUs, informsLast, ranAfter⟩ :=
    runCallbacks_announces announcesAfter connectedNext
  refine ⟨first, last, durationUs, finalUs, informsFirst, informsLast, ?_⟩
  rw [runCallbacks_append ranBefore, runCallbacks_accepted answered connectedNext, ranAfter]
  rfl

end StreamParserExtractor

end NDash.Extractor

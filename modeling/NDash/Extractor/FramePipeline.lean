import NDash.Extractor.StreamParserExtractorBuffers
import NDash.Extractor.TrackPipeline

set_option autoImplicit false

namespace NDash.Extractor

open Machine Upstream

-- A chunk passes the samples of its extractor on with its own offset.
def OutputCall.offsetBy (sampleOffsetUs : Int) : OutputCall → OutputCall
  | .writeSampleMetadata metadata =>
    .writeSampleMetadata { metadata with timeUs := metadata.timeUs + sampleOffsetUs }
  | call => call

structure FrameProducer (Parser : Type) where
  extractor : StreamParserExtractor Parser
  callbacks : List SegmentCallback := []

def FrameProducer.produce {Parser : Type} (sampleOffsetUs : Int) (producer : FrameProducer Parser)
    (callback : SegmentCallback) : Except Fault (List OutputCall × FrameProducer Parser) :=
  let (calls, extractor) :=
    match callback with
    | .newBuffers audio video text => (producer.extractor.newBuffersF audio video text).2
    | .endMediaSegment => producer.extractor.endMediaSegmentF
  .ok (calls.map (OutputCall.offsetBy sampleOffsetUs),
    { extractor, callbacks := producer.callbacks ++ [callback] })

def writtenSample (sampleOffsetUs : Int) (buffer : StreamParserBuffer) : WrittenSample :=
  { metadata := { StreamParserExtractor.metadataOf buffer with
      timeUs := (StreamParserExtractor.metadataOf buffer).timeUs + sampleOffsetUs }
    bytes := buffer.data }

def StreamParserBuffer.cryptoInfo (buffer : StreamParserBuffer) : CryptoInfo :=
  match buffer.encryption with
  | none => {}
  | some config =>
    { numSubSamples := config.subsamples.length
      numBytesOfClearData := config.subsamples.map Prod.fst
      numBytesOfEncryptedData := config.subsamples.map Prod.snd
      key := config.keyId
      iv := config.iv }

structure ShownAs (sampleOffsetUs : Int) (buffer : StreamParserBuffer) (holder : SampleHolder) :
    Prop where
  timeUs : holder.timeUs = buffer.timestampUs + sampleOffsetUs
  durationUs : holder.durationUs = buffer.durationUs
  sync : holder.isSyncFrame = buffer.isKeyFrame
  encrypted : holder.isEncrypted = buffer.encryption.isSome
  content : holder.content = buffer.data
  crypto : holder.cryptoInfo = buffer.cryptoInfo

structure Showable (trackMap : List Nat) (buffer : StreamParserBuffer) : Prop where
  running : buffer.endOfStream = false
  registered : buffer.trackId ∈ trackMap
  vector : ∀ config ∈ buffer.encryption, config.iv ≠ []

section

variable {sampleOffsetUs : Int} {buffer : StreamParserBuffer} {trackMap : List Nat}

theorem writtenSample_isSync (sampleOffsetUs : Int) (buffer : StreamParserBuffer) :
    (writtenSample sampleOffsetUs buffer).isSync = buffer.isKeyFrame :=
  (metadataOf_describedBy buffer).sync

theorem writtenSample_isEncrypted (sampleOffsetUs : Int) (buffer : StreamParserBuffer) :
    (writtenSample sampleOffsetUs buffer).isEncrypted = buffer.encryption.isSome :=
  (metadataOf_describedBy buffer).encrypted

theorem writtenSample_cryptoInfo (sampleOffsetUs : Int) (buffer : StreamParserBuffer) :
    (writtenSample sampleOffsetUs buffer).cryptoInfo = buffer.cryptoInfo := by
  have described := metadataOf_describedBy buffer
  rw [WrittenSample.cryptoInfo, writtenSample_isEncrypted]
  simp only [writtenSample, described.keyId, described.iv, described.clear, described.cypher,
    StreamParserBuffer.cryptoInfo]
  cases buffer.encryption with
  | none => rfl
  | some config => simp

theorem writtenSample_exact (showable : Showable trackMap buffer) :
    (writtenSample sampleOffsetUs buffer).Exact := by
  have described := metadataOf_describedBy buffer
  refine ⟨described.offset, described.size, fun encrypted => ?_⟩
  rw [writtenSample_isEncrypted] at encrypted
  obtain ⟨config, present⟩ := Option.isSome_iff_exists.mp encrypted
  have vector := showable.vector config (by rw [present]; rfl)
  simpa only [writtenSample, described.iv, present, Option.map_some, Option.getD_some] using vector

theorem WrittenSample.PlayedAs.shownAs {holder : SampleHolder}
    (played : (writtenSample sampleOffsetUs buffer).PlayedAs holder) :
    ShownAs sampleOffsetUs buffer holder := by
  have described := metadataOf_describedBy buffer
  refine ⟨?_, played.durationUs.trans described.durationUs, ?_, ?_, played.content,
    played.crypto.trans (writtenSample_cryptoInfo sampleOffsetUs buffer)⟩
  · rw [played.timeUs, writtenSample, described.timeUs]
  · rw [SampleHolder.isSyncFrame, played.flags]
    exact described.sync
  · rw [SampleHolder.isEncrypted, played.flags]
    exact described.encrypted

theorem playable_writtenSamples (sampleOffsetUs : Int) (buffers : List StreamParserBuffer) :
    playable (buffers.map (writtenSample sampleOffsetUs)) =
      (buffers.dropWhile fun buffer => !buffer.isKeyFrame).map (writtenSample sampleOffsetUs) := by
  simp only [playable, List.dropWhile_map, Function.comp_def, writtenSample_isSync]

theorem processBuffers_samples {buffers : List StreamParserBuffer}
    (showable : ∀ buffer ∈ buffers, Showable trackMap buffer) :
    samplesOf [] ((StreamParserExtractor.processBuffers trackMap buffers).map
        (OutputCall.offsetBy sampleOffsetUs)) =
      (buffers.map (writtenSample sampleOffsetUs), []) ∧
    dataOf ((StreamParserExtractor.processBuffers trackMap buffers).map
        (OutputCall.offsetBy sampleOffsetUs)) =
      buffers.flatMap StreamParserBuffer.data := by
  induction buffers with
  | nil => exact ⟨rfl, rfl⟩
  | cons buffer buffers ih =>
    rw [List.forall_mem_cons] at showable
    obtain ⟨⟨running, registered, -⟩, later⟩ := showable
    obtain ⟨samples, data⟩ := ih later
    rw [StreamParserExtractor.processBuffers, running, if_neg Bool.false_ne_true,
      if_neg (not_not.mpr registered)]
    cases empty : buffer.data with
    | nil =>
      simp [samplesOf, dataOf, OutputCall.offsetBy, samples, data, writtenSample, empty]
    | cons byte bytes =>
      simp [samplesOf, dataOf, OutputCall.offsetBy, samples, data, writtenSample, empty]

end

def openSegment : List StreamParserBuffer → List SegmentCallback → List StreamParserBuffer
  | started, [] => started
  | started, .newBuffers audio video _ :: callbacks =>
    openSegment (started ++ (audio ++ video)) callbacks
  | _, .endMediaSegment :: callbacks => openSegment [] callbacks

theorem endedSegments_append (started : List StreamParserBuffer)
    (callbacks later : List SegmentCallback) :
    endedSegments started (callbacks ++ later) =
        endedSegments started callbacks ++ endedSegments (openSegment started callbacks) later ∧
      openSegment started (callbacks ++ later) =
        openSegment (openSegment started callbacks) later := by
  induction callbacks generalizing started with
  | nil => exact ⟨rfl, rfl⟩
  | cons callback callbacks ih =>
    cases callback with
    | newBuffers first second others => exact ih (started ++ (first ++ second))
    | endMediaSegment =>
      obtain ⟨ended, opened⟩ := ih []
      exact ⟨congrArg (started :: ·) ended, opened⟩

theorem committedOrder_newBuffers (reverseFrames : Bool) (callbacks : List SegmentCallback)
    (audio video : List StreamParserBuffer) (text : List (Nat × List StreamParserBuffer)) :
    committedOrder reverseFrames (callbacks ++ [.newBuffers audio video text]) =
      committedOrder reverseFrames callbacks ++ if reverseFrames then [] else audio ++ video := by
  cases reverseFrames with
  | false => simp [committedOrder, SegmentCallback.received]
  | true => simp [committedOrder, (endedSegments_append [] callbacks _).1, endedSegments]

theorem committedOrder_endMediaSegment (reverseFrames : Bool) (callbacks : List SegmentCallback) :
    committedOrder reverseFrames (callbacks ++ [.endMediaSegment]) =
      committedOrder reverseFrames callbacks ++
        if reverseFrames then (openSegment [] callbacks).reverse else [] := by
  cases reverseFrames with
  | false => simp [committedOrder, SegmentCallback.received]
  | true => simp [committedOrder, (endedSegments_append [] callbacks _).1, endedSegments]

section

variable {Parser : Type} {start : StreamParserExtractor Parser} {producer : FrameProducer Parser}
  {sampleOffsetUs : Int}

structure HoldsBack (start : StreamParserExtractor Parser) (producer : FrameProducer Parser) :
    Prop where
  registered : producer.extractor.tracksRegistered = true
  trackMap : producer.extractor.trackMap = start.trackMap
  reverseFrames : producer.extractor.reverseFrames = start.reverseFrames
  reversed : producer.extractor.reversedBuffers =
    if start.reverseFrames then (openSegment [] producer.callbacks).reverse else []

def Commits (sampleOffsetUs : Int) (trackMap : List Nat) (calls : List OutputCall)
    (frames : List StreamParserBuffer) : Prop :=
  (∀ buffer ∈ frames, Showable trackMap buffer) →
    samplesOf [] calls = (frames.map (writtenSample sampleOffsetUs), []) ∧
      dataOf calls = frames.flatMap StreamParserBuffer.data

theorem Commits.append {trackMap : List Nat} {first second : List OutputCall}
    {before after : List StreamParserBuffer} (commits : Commits sampleOffsetUs trackMap first before)
    (later : Commits sampleOffsetUs trackMap second after) :
    Commits sampleOffsetUs trackMap (first ++ second) (before ++ after) := by
  intro showable
  rw [List.forall_mem_append] at showable
  obtain ⟨samples, data⟩ := commits showable.1
  obtain ⟨more, rest⟩ := later showable.2
  rw [samplesOf_append, dataOf_append, samples, data, more, rest, List.map_append,
    List.flatMap_append]
  exact ⟨rfl, rfl⟩

theorem commits_nothing (sampleOffsetUs : Int) (trackMap : List Nat) :
    Commits sampleOffsetUs trackMap [] [] := fun _ => ⟨rfl, rfl⟩

theorem HoldsBack.produce (holdsBack : HoldsBack start producer) (sampleOffsetUs : Int)
    (callback : SegmentCallback) :
    ∃ calls next frames, producer.produce sampleOffsetUs callback = .ok (calls, next) ∧
      HoldsBack start next ∧ next.callbacks = producer.callbacks ++ [callback] ∧
      committedOrder start.reverseFrames next.callbacks =
        committedOrder start.reverseFrames producer.callbacks ++ frames ∧
      Commits sampleOffsetUs start.trackMap calls frames := by
  obtain ⟨registered, trackMap, reverseFrames, reversed⟩ := holdsBack
  have processed (buffers : List StreamParserBuffer) : Commits sampleOffsetUs start.trackMap
      ((StreamParserExtractor.processBuffers start.trackMap buffers).map
        (OutputCall.offsetBy sampleOffsetUs)) buffers := processBuffers_samples
  cases callback with
  | newBuffers audio video text =>
    have order := committedOrder_newBuffers start.reverseFrames producer.callbacks audio video text
    have opened := (endedSegments_append [] producer.callbacks [.newBuffers audio video text]).2
    cases reverse : start.reverseFrames with
    | true =>
      have backwards := reverseFrames.trans reverse
      rw [reverse, if_pos rfl] at order reversed
      refine ⟨[], ⟨{ producer.extractor with
          reversedBuffers := video.reverse ++ (audio.reverse ++ producer.extractor.reversedBuffers) },
        producer.callbacks ++ [.newBuffers audio video text]⟩, [], ?_,
        ⟨registered, trackMap, reverseFrames, ?_⟩, rfl, order, commits_nothing _ _⟩
      · simp only [FrameProducer.produce, StreamParserExtractor.newBuffersF,
          StreamParserExtractor.dumpBuffers, registered, backwards, if_true, Bool.not_true,
          Bool.false_eq_true, if_false]
        rfl
      · rw [reverse, if_pos rfl, opened, reversed]
        simp [openSegment]
    | false =>
      have forwards := reverseFrames.trans reverse
      rw [reverse, if_neg Bool.false_ne_true] at order reversed
      refine ⟨_, ⟨producer.extractor, producer.callbacks ++ [.newBuffers audio video text]⟩,
        audio ++ video, ?_, ⟨registered, trackMap, reverseFrames, ?_⟩, rfl, order,
        (processed audio).append (processed video)⟩
      · simp [FrameProducer.produce, StreamParserExtractor.newBuffersF,
          StreamParserExtractor.dumpBuffers, registered, forwards, trackMap]
      · rw [reverse, if_neg Bool.false_ne_true]
        exact reversed
  | endMediaSegment =>
    have order := committedOrder_endMediaSegment start.reverseFrames producer.callbacks
    have opened := (endedSegments_append [] producer.callbacks [.endMediaSegment]).2
    cases reverse : start.reverseFrames with
    | true =>
      have backwards := reverseFrames.trans reverse
      rw [reverse, if_pos rfl] at order reversed
      rw [← reversed] at order
      have emptied : { producer.extractor with reversedBuffers := [] } =
          producer.extractor.endMediaSegmentF.2 := by
        cases held : producer.extractor.reversedBuffers with
        | nil =>
          have same : { producer.extractor with reversedBuffers := [] } = producer.extractor := by
            rw [← held]
          simp [StreamParserExtractor.endMediaSegmentF, held, same]
        | cons buffer buffers => simp [StreamParserExtractor.endMediaSegmentF, held, backwards]
      have calls : producer.extractor.endMediaSegmentF.1 =
          StreamParserExtractor.processBuffers start.trackMap producer.extractor.reversedBuffers := by
        cases held : producer.extractor.reversedBuffers with
        | nil => simp [StreamParserExtractor.endMediaSegmentF, held,
            StreamParserExtractor.processBuffers]
        | cons buffer buffers =>
          simp [StreamParserExtractor.endMediaSegmentF, held, backwards, trackMap]
      refine ⟨_, ⟨{ producer.extractor with reversedBuffers := [] },
          producer.callbacks ++ [.endMediaSegment]⟩,
        producer.extractor.reversedBuffers, ?_, ⟨registered, trackMap, reverseFrames, ?_⟩, rfl, order,
        processed _⟩
      · rw [FrameProducer.produce, emptied, ← calls]
      · rw [reverse, if_pos rfl, opened]
        rfl
    | false =>
      have forwards := reverseFrames.trans reverse
      rw [reverse, if_neg Bool.false_ne_true] at order reversed
      refine ⟨[], ⟨producer.extractor, producer.callbacks ++ [.endMediaSegment]⟩, [], ?_,
        ⟨registered, trackMap, reverseFrames, ?_⟩, rfl, order, commits_nothing _ _⟩
      · simp [FrameProducer.produce, StreamParserExtractor.endMediaSegmentF, forwards]
      · rw [reverse, if_neg Bool.false_ne_true]
        exact reversed

end

/-- A stream parser extractor, the track that its chunk writes to, and the reader of the track. -/
def framePipeline {Parser : Type} (start : StreamParserExtractor Parser) (sampleOffsetUs : Int)
    (size : Nat) (uninitialized : BlockId → Nat → UInt8) (fresh : Fresh) :
    System (TrackPipeline (FrameProducer Parser)) (TrackPipelineOp SegmentCallback) :=
  trackPipeline (FrameProducer.produce sampleOffsetUs) { extractor := start } size uninitialized fresh

def TrackPipeline.frames {Parser : Type} (start : StreamParserExtractor Parser)
    (state : TrackPipeline (FrameProducer Parser)) : List StreamParserBuffer :=
  committedOrder start.reverseFrames state.producer.callbacks

section

variable {Parser : Type} {start : StreamParserExtractor Parser} {sampleOffsetUs : Int} {size : Nat}
  {uninitialized : BlockId → Nat → UInt8} {fresh : Fresh}
  {state : TrackPipeline (FrameProducer Parser)}

theorem framePipeline_commits (registered : start.tracksRegistered = true)
    (clean : start.reversedBuffers = [])
    (reachable : Reachable (framePipeline start sampleOffsetUs size uninitialized fresh) state) :
    HoldsBack start state.producer ∧
      Commits sampleOffsetUs start.trackMap state.history (state.frames start) := by
  refine Reachable.invariant (fun state => HoldsBack start state.producer ∧
    Commits sampleOffsetUs start.trackMap state.history (state.frames start)) ?_ ?_ reachable
  · rintro _ rfl
    have nothing : committedOrder start.reverseFrames [] = [] := by
      cases start.reverseFrames <;> rfl
    refine ⟨⟨registered, rfl, rfl, ?_⟩, ?_⟩
    · rw [clean]
      cases start.reverseFrames <;> rfl
    · rw [TrackPipeline.frames, nothing]
      exact commits_nothing _ _
  · rintro state op next ⟨holdsBack, commits⟩ ⟨-, applied⟩
    rcases TrackPipeline.apply_cases applied with
      ⟨callback, calls, producer, rfl, produced, history, same⟩ | ⟨-, history, same⟩
    · obtain ⟨made, reached, frames, produces, holdsNext, -, order, commitsFrames⟩ :=
        holdsBack.produce sampleOffsetUs callback
      cases produced.symm.trans produces
      rw [TrackPipeline.frames, same, history, order]
      exact ⟨holdsNext, commits.append commitsFrames⟩
    · rw [TrackPipeline.frames, same, history]
      exact ⟨holdsBack, commits⟩

theorem sendable_of_showable {calls : List OutputCall} {trackMap : List Nat}
    {frames : List StreamParserBuffer} (commits : Commits sampleOffsetUs trackMap calls frames)
    (showable : ∀ buffer ∈ frames, Showable trackMap buffer)
    (small : (frames.flatMap StreamParserBuffer.data).length < 2147483648) : Sendable calls := by
  obtain ⟨samples, data⟩ := commits showable
  refine ⟨?_, data ▸ small⟩
  rw [samples]
  intro sample member
  obtain ⟨buffer, inside, rfl⟩ := List.mem_map.mp member
  exact writtenSample_exact (showable buffer inside)

end

def TrackPipeline.shownFrames {Parser : Type} (start : StreamParserExtractor Parser)
    (state : TrackPipeline (FrameProducer Parser)) : List StreamParserBuffer :=
  (state.frames start).dropWhile fun buffer => !buffer.isKeyFrame

structure DeliversFrames {Parser : Type} (start : StreamParserExtractor Parser)
    (sampleOffsetUs : Int) (size : Nat) (uninitialized : BlockId → Nat → UInt8) (fresh : Fresh)
    (state : TrackPipeline (FrameProducer Parser)) : Prop where
  inOrder : ∃ shown rest, state.shownFrames start = shown ++ rest ∧
    List.Forall₂ (ShownAs sampleOffsetUs) shown state.delivered
  complete : ∃ writes final,
    Run (framePipeline start sampleOffsetUs size uninitialized fresh) state
      (List.replicate writes .write) final ∧ final.calls = [] ∧
    ∀ holder filled output, holder.Empty →
      final.output.getSample holder = .ok (false, filled, output) →
      List.Forall₂ (ShownAs sampleOffsetUs) (state.shownFrames start) final.delivered
  goesOn : ∀ op, state.Legal op → ∃ next,
    (framePipeline start sampleOffsetUs size uninitialized fresh).Step state op next

/-- From the frames that the parser hands over to the holders of the reader, for every order of the
writes and the reads. -/
theorem frames_reach_reader {Parser : Type} (start : StreamParserExtractor Parser)
    (registered : start.tracksRegistered = true) (clean : start.reversedBuffers = [])
    (sampleOffsetUs : Int) (size : Nat) (positive : 0 < size) (small : size < 2147483648)
    (uninitialized : BlockId → Nat → UInt8) (fresh : Fresh)
    (state : TrackPipeline (FrameProducer Parser))
    (reachable : Reachable (framePipeline start sampleOffsetUs size uninitialized fresh) state)
    (showable : ∀ buffer ∈ state.frames start, Showable start.trackMap buffer)
    (fits : ((state.frames start).flatMap StreamParserBuffer.data).length < 2147483648) :
    DeliversFrames start sampleOffsetUs size uninitialized fresh state := by
  obtain ⟨holdsBack, commits⟩ := framePipeline_commits registered clean reachable
  have samples := (commits showable).1
  have sendable := sendable_of_showable commits showable fits
  have flowing := trackPipeline_flowing positive small reachable sendable
  obtain ⟨played, -, applies⟩ := trackPipeline_delivers positive small reachable sendable
  refine ⟨?_, ?_, ?_⟩
  · obtain ⟨before, after, split, delivered⟩ := played
    rw [samples, playable_writtenSamples, List.map_eq_append_iff] at split
    obtain ⟨shown, rest, split, rfl, -⟩ := split
    rw [List.forall₂_map_left_iff] at delivered
    exact ⟨shown, rest, split, delivered.imp fun _ _ one => one.shownAs⟩
  · obtain ⟨writes, final, run, -, done, history, -⟩ :=
      trackPipeline_finishes flowing sendable
    refine ⟨writes, final, run, done, fun holder filled output empty gets => ?_⟩
    have sendableFinal : Sendable final.history := history ▸ sendable
    obtain ⟨-, exhausted, -⟩ :=
      trackPipeline_delivers positive small (reachable.run run) sendableFinal
    have all := exhausted done holder filled output empty gets
    rw [history, samples, playable_writtenSamples, List.forall₂_map_left_iff] at all
    exact all.imp fun _ _ one => one.shownAs
  · intro op legal
    by_cases produces : ∃ callback, op = .produce callback
    · obtain ⟨callback, rfl⟩ := produces
      obtain ⟨calls, producer, -, made, -⟩ := holdsBack.produce sampleOffsetUs callback
      refine ⟨{ state with producer, calls, history := state.history ++ calls }, legal, ?_⟩
      simp only [TrackPipeline.apply, made, bind, Except.bind]
    · obtain ⟨next, ran⟩ := applies op legal fun callback same => produces ⟨callback, same⟩
      exact ⟨next, legal, ran⟩

instance (holder : SampleHolder) : Decidable holder.Empty :=
  decidable_of_iff (holder.bufferReplacementEnabled = true ∧ holder.writtenSize = 0 ∧
    holder.bufferLen = 0)
    ⟨fun ⟨replaces, unwritten, lengthZero⟩ => ⟨replaces, unwritten, lengthZero⟩,
      fun empty => ⟨empty.replaces, empty.unwritten, empty.lengthZero⟩⟩

instance TrackPipeline.instDecidableLegal {Producer Event : Type} (state : TrackPipeline Producer) :
    ∀ op : TrackPipelineOp Event, Decidable (state.Legal op)
  | .produce _ => inferInstanceAs (Decidable (state.calls = []))
  | .read holder => inferInstanceAs (Decidable (holder.Empty ∧ holder.cryptoInfo = {}))
  | .write | .isEmpty => inferInstanceAs (Decidable True)

def TrackPipeline.advance {Parser : Type} (sampleOffsetUs : Int)
    (state : TrackPipeline (FrameProducer Parser)) (op : TrackPipelineOp SegmentCallback) :
    Option (TrackPipeline (FrameProducer Parser)) :=
  if state.Legal op then
    (state.apply (FrameProducer.produce sampleOffsetUs) .zero op).toOption
  else none

theorem TrackPipeline.advance_step {Parser : Type} {start : StreamParserExtractor Parser}
    {sampleOffsetUs : Int} {size : Nat} {uninitialized : BlockId → Nat → UInt8}
    {state next : TrackPipeline (FrameProducer Parser)} {op : TrackPipelineOp SegmentCallback}
    (advances : state.advance sampleOffsetUs op = some next) :
    (framePipeline start sampleOffsetUs size uninitialized .zero).Step state op next := by
  unfold advance at advances
  obtain ⟨legal, applied⟩ := Option.ite_none_right_eq_some.mp advances
  exact ⟨legal, Outcome.ok_of_toOption applied⟩

def twoFrames : SegmentCallback :=
  .newBuffers [] [⟨false, 0, [9], 10, 5, false, none⟩, ⟨false, 0, [1, 2, 3], 20, 5, true, none⟩] []

def playTwoFrames : List (TrackPipelineOp SegmentCallback) :=
  [.produce twoFrames, .write, .write, .write, .read { bufferReplacementEnabled := true }, .write,
    .write, .write, .write, .read { bufferReplacementEnabled := true }]

def TrackPipeline.shows {Parser : Type} (state : TrackPipeline (FrameProducer Parser)) :
    List (Int × Bytes) × List SegmentCallback :=
  (state.delivered.map fun holder => (holder.timeUs, holder.content), state.producer.callbacks)

-- In blocks of two bytes the keyframe straddles two of them.
theorem frames_reach_reader_keyframe :
    let start : StreamParserExtractor Unit :=
      { parser := (), trackMap := [0], output := true, tracksRegistered := true }
    ∃ state : TrackPipeline (FrameProducer Unit), state.shows = ([(120, [1, 2, 3])], [twoFrames]) ∧
      DeliversFrames start 100 2 (fun _ _ => 0) .zero state := by
  intro start
  have executed : (execute (TrackPipeline.advance 100)
      { producer := { extractor := start }, output := .initial (.initial 2 fun _ _ => 0) .zero }
      playTwoFrames).map TrackPipeline.shows = some ([(120, [1, 2, 3])], [twoFrames]) := by
    decide +kernel
  obtain ⟨state, run, shown⟩ := Option.map_eq_some_iff.mp executed
  have frames : state.frames start = twoFrames.received := by
    rw [TrackPipeline.frames, (Prod.mk.inj shown).2]
    rfl
  refine ⟨state, shown, frames_reach_reader start rfl rfl 100 2 (by decide) (by decide) _ _ state
    ((Reachable.start _ rfl).run (.of_execute (fun _ _ _ _ => TrackPipeline.advance_step) run))
    ?_ ?_⟩
  · rw [frames]
    intro buffer member
    simp only [twoFrames, SegmentCallback.received, List.nil_append, List.mem_cons,
      List.not_mem_nil, or_false] at member
    rcases member with rfl | rfl <;> exact ⟨rfl, by decide, by simp [StreamParserBuffer.encryption]⟩
  · rw [frames]
    decide

end NDash.Extractor

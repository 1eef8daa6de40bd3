import NDash.Extractor.StreamParserExtractor

set_option autoImplicit false

namespace NDash.Extractor

open Upstream

/-- A call on the track output that is registered under the id. -/
abbrev TrackCall := Nat × OutputCall

/-- WriteSampleDataFixThis of the track with the id: how many of the offered bytes it appends after
the calls made so far, or `none` if it fails. -/
abbrev TrackOutput := Nat → List TrackCall → Bytes → Option Nat

-- clear_bytes_ and encrypted_bytes_ are members that every buffer is committed through.
structure TrackWriter where
  clearBytes : List Int := []
  encryptedBytes : List Int := []
  calls : List TrackCall := []
deriving DecidableEq, Repr

namespace TrackWriter

variable (track : TrackOutput)

def writeSampleDataFixThis (writer : TrackWriter) (trackId : Nat) (data : Bytes) : TrackWriter :=
  { writer with calls := writer.calls ++ [(trackId, .writeSampleData data)] }

-- The loop that writes the data of a buffer, for fewer than `rounds` writes.
def writeSampleData (trackId : Nat) :
    Nat → TrackWriter → Bytes → Except Fault (Bool × TrackWriter)
  | 0, _, _ => .error .diverges
  | rounds + 1, writer, remain =>
    if remain = [] then .ok (true, writer)
    else
      match track trackId writer.calls remain with
      | none => .ok (false, writer)
      | some appended =>
        writeSampleData trackId rounds
          (writer.writeSampleDataFixThis trackId (remain.take appended)) (remain.drop appended)

def pushSubsample (writer : TrackWriter) (subsample : Int × Int) : TrackWriter :=
  { writer with
    clearBytes := writer.clearBytes ++ [subsample.1]
    encryptedBytes := writer.encryptedBytes ++ [subsample.2] }

def writeSampleMetadata (writer : TrackWriter) (trackId : Nat) (metadata : SampleMetadata) :
    TrackWriter :=
  { writer with calls := writer.calls ++ [(trackId, .writeSampleMetadata metadata)] }

def commit (writer : TrackWriter) (buffer : StreamParserBuffer) : TrackWriter :=
  let flags := if buffer.isKeyFrame then kSampleFlagSync else 0#32
  let writer := { writer with clearBytes := [], encryptedBytes := [] }
  let plain : SampleMetadata :=
    { timeUs := buffer.timestampUs
      durationUs := buffer.durationUs
      flags
      size := buffer.data.length
      offset := 0 }
  match buffer.decryptConfig with
  | none => writer.writeSampleMetadata buffer.trackId plain
  | some config =>
    if config.isEncrypted then
      let writer := config.subsamples.foldl pushSubsample writer
      writer.writeSampleMetadata buffer.trackId
        { plain with
          flags := flags ||| kSampleFlagEncrypted
          encryptionKeyId := some config.keyId
          iv := some config.iv
          numBytesClear := some writer.clearBytes
          numBytesEnc := some writer.encryptedBytes }
    else writer.writeSampleMetadata buffer.trackId plain

def processBuffers (rounds : Nat) (trackMap : List Nat) :
    List StreamParserBuffer → TrackWriter → Except Fault TrackWriter
  | [], writer => .ok writer
  | buffer :: buffers, writer =>
    if buffer.endOfStream then .ok writer
    else if buffer.trackId ∉ trackMap then processBuffers rounds trackMap buffers writer
    else do
      let (ok, writer) ← writeSampleData track buffer.trackId rounds writer buffer.data
      if !ok then processBuffers rounds trackMap buffers writer
      else processBuffers rounds trackMap buffers (writer.commit buffer)

end TrackWriter

inductive SegmentCallback
  | newBuffers (audio video : List StreamParserBuffer) (text : List (Nat × List StreamParserBuffer))
  | endMediaSegment
deriving DecidableEq, Repr

namespace StreamParserExtractor

variable {Parser : Type} (track : TrackOutput) (rounds : Nat)

def dumpBuffersTo (buffers : List StreamParserBuffer)
    (state : StreamParserExtractor Parser × TrackWriter) :
    Except Fault (StreamParserExtractor Parser × TrackWriter) :=
  let (extractor, writer) := state
  if extractor.reverseFrames then
    .ok ({ extractor with
        reversedBuffers := buffers.foldl (fun reversed buffer => buffer :: reversed)
          extractor.reversedBuffers }, writer)
  else do
    let writer ← writer.processBuffers track rounds extractor.trackMap buffers
    .ok (extractor, writer)

def emit (state : StreamParserExtractor Parser × TrackWriter) :
    SegmentCallback → Except Fault (StreamParserExtractor Parser × TrackWriter)
  | .newBuffers audio video _ =>
    if !state.1.tracksRegistered then .ok state
    else do
      let state ← dumpBuffersTo track rounds audio state
      dumpBuffersTo track rounds video state
  | .endMediaSegment =>
    let (extractor, writer) := state
    if extractor.reverseFrames && !extractor.reversedBuffers.isEmpty then do
      let writer ←
        writer.processBuffers track rounds extractor.trackMap extractor.reversedBuffers
      .ok ({ extractor with reversedBuffers := [] }, writer)
    else .ok state

def emitAll : List SegmentCallback → StreamParserExtractor Parser × TrackWriter →
    Except Fault (StreamParserExtractor Parser × TrackWriter)
  | [], state => .ok state
  | callback :: callbacks, state => do
    let state ← emit track rounds state callback
    emitAll callbacks state

end StreamParserExtractor

/-! What is to be committed. -/

def SegmentCallback.received : SegmentCallback → List StreamParserBuffer
  | .newBuffers audio video _ => audio ++ video
  | .endMediaSegment => []

def endedSegments : List StreamParserBuffer → List SegmentCallback → List (List StreamParserBuffer)
  | _, [] => []
  | started, .newBuffers audio video _ :: callbacks =>
    endedSegments (started ++ (audio ++ video)) callbacks
  | started, .endMediaSegment :: callbacks => started :: endedSegments [] callbacks

def committedOrder (reverseFrames : Bool) (callbacks : List SegmentCallback) :
    List StreamParserBuffer :=
  if reverseFrames then (endedSegments [] callbacks).flatMap List.reverse
  else callbacks.flatMap SegmentCallback.received

def StreamParserBuffer.encryption (buffer : StreamParserBuffer) : Option DecryptConfig :=
  buffer.decryptConfig.filter DecryptConfig.isEncrypted

structure DescribedBy (buffer : StreamParserBuffer) (metadata : SampleMetadata) : Prop where
  timeUs : metadata.timeUs = buffer.timestampUs
  durationUs : metadata.durationUs = buffer.durationUs
  sync : hasFlag metadata.flags kSampleFlagSync = buffer.isKeyFrame
  encrypted : hasFlag metadata.flags kSampleFlagEncrypted = buffer.encryption.isSome
  size : metadata.size = buffer.data.length
  offset : metadata.offset = 0
  keyId : metadata.encryptionKeyId = buffer.encryption.map DecryptConfig.keyId
  iv : metadata.iv = buffer.encryption.map DecryptConfig.iv
  clear : metadata.numBytesClear =
    buffer.encryption.map fun config => config.subsamples.map Prod.fst
  cypher : metadata.numBytesEnc =
    buffer.encryption.map fun config => config.subsamples.map Prod.snd

/-- The calls write the bytes of each buffer, in any pieces, and commit it behind them, all on the
buffer's own track. -/
def Emits : List StreamParserBuffer → List TrackCall → Prop
  | [], calls => calls = []
  | buffer :: buffers, calls =>
    ∃ (pieces : List Bytes) (metadata : SampleMetadata) (later : List TrackCall),
      pieces.flatten = buffer.data ∧ DescribedBy buffer metadata ∧
      calls = pieces.map (fun piece => (buffer.trackId, .writeSampleData piece)) ++
        (buffer.trackId, .writeSampleMetadata metadata) :: later ∧
      Emits buffers later

theorem Emits.nothing : Emits [] [] := by
  simp only [Emits]

theorem Emits.append {first second : List StreamParserBuffer} {before after : List TrackCall}
    (emits : Emits first before) (later : Emits second after) :
    Emits (first ++ second) (before ++ after) := by
  induction first generalizing before with
  | nil =>
    simp only [Emits] at emits
    subst emits
    exact later
  | cons buffer first ih =>
    obtain ⟨pieces, metadata, rest, data, described, rfl, emits⟩ := emits
    exact ⟨pieces, metadata, rest ++ after, data, described, by simp, ih emits⟩

/-- Tracks that append between one and all of the bytes they are offered. -/
def Accepts (track : TrackOutput) : Prop :=
  ∀ trackId calls data, data ≠ [] → ∃ appended, track trackId calls data = some appended ∧
    1 ≤ appended ∧ appended ≤ data.length

namespace TrackWriter

variable {track : TrackOutput}

theorem writeSampleData_writes (accepts : Accepts track) (trackId : Nat) {rounds : Nat}
    {data : Bytes} (enough : data.length < rounds) (writer : TrackWriter) :
    ∃ pieces : List Bytes, pieces.flatten = data ∧
      writeSampleData track trackId rounds writer data =
        .ok (true, { writer with
          calls := writer.calls ++ pieces.map fun piece => (trackId, .writeSampleData piece) }) := by
  induction rounds generalizing writer data with
  | zero => exact absurd enough (Nat.not_lt_zero _)
  | succ rounds ih =>
    by_cases empty : data = []
    · refine ⟨[], empty.symm, ?_⟩
      simp [writeSampleData, empty]
    · obtain ⟨appended, answered, positive, bounded⟩ := accepts trackId writer.calls data empty
      have shorter : (data.drop appended).length < rounds := by
        rw [List.length_drop]
        omega
      obtain ⟨pieces, rest, written⟩ :=
        ih shorter (writer.writeSampleDataFixThis trackId (data.take appended))
      refine ⟨data.take appended :: pieces, ?_, ?_⟩
      · rw [List.flatten_cons, rest, List.take_append_drop]
      · rw [writeSampleData, if_neg empty, answered]
        refine written.trans ?_
        simp [writeSampleDataFixThis]

theorem pushSubsamples (subsamples : List (Int × Int)) (writer : TrackWriter) :
    subsamples.foldl pushSubsample writer =
      { writer with
        clearBytes := writer.clearBytes ++ subsamples.map Prod.fst
        encryptedBytes := writer.encryptedBytes ++ subsamples.map Prod.snd } := by
  induction subsamples generalizing writer with
  | nil => simp
  | cons subsample subsamples ih =>
    rw [List.foldl_cons, ih]
    simp [pushSubsample]

-- The lists of an earlier buffer are cleared before those of this one are pushed.
theorem commit_calls (writer : TrackWriter) (buffer : StreamParserBuffer) :
    (writer.commit buffer).calls =
      writer.calls ++
        [(buffer.trackId, .writeSampleMetadata (StreamParserExtractor.metadataOf buffer))] := by
  unfold commit StreamParserExtractor.metadataOf
  cases buffer.decryptConfig with
  | none => rfl
  | some config =>
    cases encrypted : config.isEncrypted with
    | false => simp [encrypted, writeSampleMetadata]
    | true => simp [encrypted, writeSampleMetadata, pushSubsamples]

end TrackWriter

theorem hasFlag_plain (isKeyFrame : Bool) :
    hasFlag (if isKeyFrame then kSampleFlagSync else 0#32) kSampleFlagSync = isKeyFrame ∧
      hasFlag (if isKeyFrame then kSampleFlagSync else 0#32) kSampleFlagEncrypted = false := by
  cases isKeyFrame <;> decide

theorem hasFlag_encrypted (isKeyFrame : Bool) :
    hasFlag ((if isKeyFrame then kSampleFlagSync else 0#32) ||| kSampleFlagEncrypted)
        kSampleFlagSync = isKeyFrame ∧
      hasFlag ((if isKeyFrame then kSampleFlagSync else 0#32) ||| kSampleFlagEncrypted)
        kSampleFlagEncrypted = true := by
  cases isKeyFrame <;> decide

theorem metadataOf_describedBy (buffer : StreamParserBuffer) :
    DescribedBy buffer (StreamParserExtractor.metadataOf buffer) := by
  obtain ⟨_, _, _, _, _, isKeyFrame, decryptConfig⟩ := buffer
  obtain ⟨sync, clear⟩ := hasFlag_plain isKeyFrame
  cases decryptConfig with
  | none => exact ⟨rfl, rfl, sync, clear, rfl, rfl, rfl, rfl, rfl, rfl⟩
  | some config =>
    obtain ⟨isEncrypted, _, _, _⟩ := config
    cases isEncrypted with
    | false => exact ⟨rfl, rfl, sync, clear, rfl, rfl, rfl, rfl, rfl, rfl⟩
    | true =>
      obtain ⟨sync, encrypted⟩ := hasFlag_encrypted isKeyFrame
      exact ⟨rfl, rfl, sync, encrypted, rfl, rfl, rfl, rfl, rfl, rfl⟩

namespace TrackWriter

variable {track : TrackOutput}

theorem processBuffers_emits (accepts : Accepts track) {rounds : Nat} {trackMap : List Nat}
    {buffers : List StreamParserBuffer}
    (registered : ∀ buffer ∈ buffers, buffer.endOfStream = false ∧ buffer.trackId ∈ trackMap)
    (enough : ∀ buffer ∈ buffers, buffer.data.length < rounds) (writer : TrackWriter) :
    ∃ after emitted, writer.processBuffers track rounds trackMap buffers = .ok after ∧
      after.calls = writer.calls ++ emitted ∧ Emits buffers emitted := by
  induction buffers generalizing writer with
  | nil => exact ⟨writer, [], rfl, (List.append_nil _).symm, Emits.nothing⟩
  | cons buffer buffers ih =>
    obtain ⟨running, known⟩ := registered buffer List.mem_cons_self
    obtain ⟨pieces, data, written⟩ :=
      writeSampleData_writes accepts buffer.trackId (enough buffer List.mem_cons_self) writer
    obtain ⟨after, emitted, processed, calls, emits⟩ :=
      ih (fun other inside => registered other (List.mem_cons_of_mem _ inside))
        (fun other inside => enough other (List.mem_cons_of_mem _ inside))
        (commit { writer with calls := _ } buffer)
    refine ⟨after, _, ?_, ?_, pieces, _, emitted, data, metadataOf_describedBy buffer, rfl, emits⟩
    · rw [processBuffers, running, if_neg Bool.false_ne_true, if_neg (not_not.mpr known), written]
      exact processed
    · rw [calls, commit_calls]
      simp

end TrackWriter

namespace StreamParserExtractor

variable {Parser : Type} {track : TrackOutput} {rounds : Nat}

def Deliverable (trackMap : List Nat) (rounds : Nat) (buffer : StreamParserBuffer) : Prop :=
  (buffer.endOfStream = false ∧ buffer.trackId ∈ trackMap) ∧ buffer.data.length < rounds

theorem emits_deliverable (accepts : Accepts track) {trackMap : List Nat}
    {buffers : List StreamParserBuffer}
    (deliverable : ∀ buffer ∈ buffers, Deliverable trackMap rounds buffer) (writer : TrackWriter) :
    ∃ after emitted, writer.processBuffers track rounds trackMap buffers = .ok after ∧
      after.calls = writer.calls ++ emitted ∧ Emits buffers emitted :=
  TrackWriter.processBuffers_emits accepts (fun buffer inside => (deliverable buffer inside).1)
    (fun buffer inside => (deliverable buffer inside).2) writer

theorem dumpBuffersTo_forward (accepts : Accepts track) {extractor : StreamParserExtractor Parser}
    (forward : extractor.reverseFrames = false) (buffers : List StreamParserBuffer)
    (deliverable : ∀ buffer ∈ buffers, Deliverable extractor.trackMap rounds buffer)
    (writer : TrackWriter) :
    ∃ after emitted, dumpBuffersTo track rounds buffers (extractor, writer) =
        .ok (extractor, after) ∧
      after.calls = writer.calls ++ emitted ∧ Emits buffers emitted := by
  obtain ⟨after, emitted, processed, calls, emits⟩ := emits_deliverable accepts deliverable writer
  refine ⟨after, emitted, ?_, calls, emits⟩
  simp only [dumpBuffersTo, forward, processed, Bool.false_eq_true, if_false]
  rfl

theorem emit_forward (accepts : Accepts track) {extractor : StreamParserExtractor Parser}
    (forward : extractor.reverseFrames = false) (registered : extractor.tracksRegistered = true)
    {callback : SegmentCallback}
    (deliverable : ∀ buffer ∈ callback.received, Deliverable extractor.trackMap rounds buffer)
    (writer : TrackWriter) :
    ∃ after emitted, emit track rounds (extractor, writer) callback = .ok (extractor, after) ∧
      after.calls = writer.calls ++ emitted ∧ Emits callback.received emitted := by
  cases callback with
  | newBuffers audio video text =>
    obtain ⟨middle, first, dumped, calls, emits⟩ :=
      dumpBuffersTo_forward accepts forward audio
        (fun buffer inside => deliverable buffer (List.mem_append_left _ inside)) writer
    obtain ⟨after, second, dumpedToo, callsToo, emitsToo⟩ :=
      dumpBuffersTo_forward accepts forward video
        (fun buffer inside => deliverable buffer (List.mem_append_right _ inside)) middle
    refine ⟨after, first ++ second, ?_, ?_, emits.append emitsToo⟩
    · simp only [emit, registered, Bool.not_true, Bool.false_eq_true, if_false, dumped, bind,
        Except.bind]
      exact dumpedToo
    · rw [callsToo, calls, List.append_assoc]
  | endMediaSegment =>
    refine ⟨writer, [], ?_, (List.append_nil _).symm, Emits.nothing⟩
    simp [emit, forward]

theorem emitAll_forward (accepts : Accepts track) {extractor : StreamParserExtractor Parser}
    (forward : extractor.reverseFrames = false) (registered : extractor.tracksRegistered = true)
    {callbacks : List SegmentCallback}
    (deliverable : ∀ buffer ∈ callbacks.flatMap SegmentCallback.received,
      Deliverable extractor.trackMap rounds buffer) (writer : TrackWriter) :
    ∃ after emitted, emitAll track rounds callbacks (extractor, writer) = .ok after ∧
      after.2.calls = writer.calls ++ emitted ∧
      Emits (callbacks.flatMap SegmentCallback.received) emitted := by
  induction callbacks generalizing writer with
  | nil => exact ⟨(extractor, writer), [], rfl, (List.append_nil _).symm, Emits.nothing⟩
  | cons callback callbacks ih =>
    rw [List.flatMap_cons] at deliverable ⊢
    obtain ⟨middle, first, ran, calls, emits⟩ := emit_forward accepts forward registered
      (fun buffer inside => deliverable buffer (List.mem_append_left _ inside)) writer
    obtain ⟨after, later, continued, callsToo, emitsToo⟩ :=
      ih (fun buffer inside => deliverable buffer (List.mem_append_right _ inside)) middle
    refine ⟨after, first ++ later, ?_, ?_, emits.append emitsToo⟩
    · simp only [emitAll, ran, bind, Except.bind]
      exact continued
    · rw [callsToo, calls, List.append_assoc]

-- Audio and video share the queue, so a segment is the batches of both as they were received.
theorem emit_newBuffers_reverse {extractor : StreamParserExtractor Parser}
    (reverse : extractor.reverseFrames = true) (registered : extractor.tracksRegistered = true)
    (audio video : List StreamParserBuffer) (text : List (Nat × List StreamParserBuffer))
    (writer : TrackWriter) :
    emit track rounds (extractor, writer) (.newBuffers audio video text) =
      .ok ({ extractor with
        reversedBuffers := (audio ++ video).reverse ++ extractor.reversedBuffers }, writer) := by
  simp [emit, dumpBuffersTo, registered, reverse, bind, Except.bind]

theorem emit_endMediaSegment_reverse (accepts : Accepts track)
    {extractor : StreamParserExtractor Parser} (reverse : extractor.reverseFrames = true)
    (deliverable : ∀ buffer ∈ extractor.reversedBuffers,
      Deliverable extractor.trackMap rounds buffer) (writer : TrackWriter) :
    ∃ after emitted, emit track rounds (extractor, writer) .endMediaSegment =
        .ok ({ extractor with reversedBuffers := [] }, after) ∧
      after.calls = writer.calls ++ emitted ∧ Emits extractor.reversedBuffers emitted := by
  cases waiting : extractor.reversedBuffers with
  | nil =>
    refine ⟨writer, [], ?_, (List.append_nil _).symm, Emits.nothing⟩
    have same : { extractor with reversedBuffers := [] } = extractor := by rw [← waiting]
    simp [emit, waiting, same]
  | cons buffer buffers =>
    obtain ⟨after, emitted, processed, calls, emits⟩ := emits_deliverable accepts deliverable writer
    rw [waiting] at processed emits
    refine ⟨after, emitted, ?_, calls, emits⟩
    simp only [emit, reverse, waiting, List.isEmpty_cons, Bool.not_false, Bool.and_self, if_true,
      processed]
    rfl

theorem emitAll_reverse (accepts : Accepts track) (extractor : StreamParserExtractor Parser)
    (reverse : extractor.reverseFrames = true) (registered : extractor.tracksRegistered = true)
    (started : List StreamParserBuffer) (waiting : extractor.reversedBuffers = started.reverse)
    {callbacks : List SegmentCallback}
    (deliverable : ∀ buffer ∈ started ++ callbacks.flatMap SegmentCallback.received,
      Deliverable extractor.trackMap rounds buffer) (writer : TrackWriter) :
    ∃ after emitted, emitAll track rounds callbacks (extractor, writer) = .ok after ∧
      after.2.calls = writer.calls ++ emitted ∧
      Emits ((endedSegments started callbacks).flatMap List.reverse) emitted := by
  induction callbacks generalizing extractor started writer with
  | nil => exact ⟨(extractor, writer), [], rfl, (List.append_nil _).symm, Emits.nothing⟩
  | cons callback callbacks ih =>
    rw [List.flatMap_cons, ← List.append_assoc] at deliverable
    cases callback with
    | newBuffers audio video text =>
      obtain ⟨after, emitted, continued, calls, emits⟩ :=
        ih { extractor with
            reversedBuffers := (audio ++ video).reverse ++ extractor.reversedBuffers }
          reverse registered (started ++ (audio ++ video)) (by simp [waiting]) deliverable writer
      refine ⟨after, emitted, ?_, calls, emits⟩
      simp only [emitAll, emit_newBuffers_reverse reverse registered, bind, Except.bind]
      exact continued
    | endMediaSegment =>
      have held : ∀ buffer ∈ extractor.reversedBuffers,
          Deliverable extractor.trackMap rounds buffer := by
        intro buffer inside
        rw [waiting, List.mem_reverse] at inside
        exact deliverable buffer (List.mem_append_left _ (List.mem_append_left _ inside))
      obtain ⟨middle, first, ran, calls, emits⟩ :=
        emit_endMediaSegment_reverse accepts reverse held writer
      obtain ⟨after, later, continued, callsToo, emitsToo⟩ :=
        ih { extractor with reversedBuffers := [] } reverse registered [] rfl
          (fun buffer inside => deliverable buffer (List.mem_append_right _ inside)) middle
      rw [waiting] at emits
      refine ⟨after, first ++ later, ?_, ?_, emits.append emitsToo⟩
      · simp only [emitAll, ran, bind, Except.bind]
        exact continued
      · rw [callsToo, calls, List.append_assoc]

/-- Every frame of the media segments is committed once, behind its own bytes and with its own
metadata: in the order of arrival, or each segment backwards when it ends. -/
theorem emitAll_emits_committedOrder (accepts : Accepts track)
    {extractor : StreamParserExtractor Parser} (registered : extractor.tracksRegistered = true)
    (clean : extractor.reversedBuffers = []) {callbacks : List SegmentCallback}
    (deliverable : ∀ buffer ∈ callbacks.flatMap SegmentCallback.received,
      buffer.endOfStream = false ∧ buffer.trackId ∈ extractor.trackMap)
    (enough : ∀ buffer ∈ callbacks.flatMap SegmentCallback.received, buffer.data.length < rounds)
    (writer : TrackWriter) :
    ∃ after emitted, emitAll track rounds callbacks (extractor, writer) = .ok after ∧
      after.2.calls = writer.calls ++ emitted ∧
      Emits (committedOrder extractor.reverseFrames callbacks) emitted := by
  have every : ∀ buffer ∈ callbacks.flatMap SegmentCallback.received,
      Deliverable extractor.trackMap rounds buffer :=
    fun buffer inside => ⟨deliverable buffer inside, enough buffer inside⟩
  cases direction : extractor.reverseFrames with
  | false => exact emitAll_forward accepts direction registered every writer
  | true => exact emitAll_reverse accepts extractor direction registered [] clean every writer

def haltingTrack : TrackOutput := fun _ _ data => some (min 2 data.length)

theorem haltingTrack_accepts : Accepts haltingTrack := by
  intro trackId calls data nonempty
  have positive : 0 < data.length := List.length_pos_iff.mpr nonempty
  exact ⟨min 2 data.length, rfl, by omega, Nat.min_le_right _ _⟩

def clearFrame : StreamParserBuffer where
  endOfStream := false
  trackId := 0
  data := [1, 2, 3]
  timestampUs := 40
  durationUs := 20
  isKeyFrame := true
  decryptConfig := none

def encryptedFrame : StreamParserBuffer where
  endOfStream := false
  trackId := 0
  data := [4]
  timestampUs := 60
  durationUs := 20
  isKeyFrame := false
  decryptConfig := some { isEncrypted := true, keyId := [7], iv := [8], subsamples := [(0, 1)] }

def reversingExtractor : StreamParserExtractor Unit where
  parser := ()
  trackMap := [0]
  output := true
  tracksRegistered := true
  reverseFrames := true

theorem emitAll_emits_committedOrder_reversed :
    ∃ after emitted, emitAll haltingTrack 4
        [.newBuffers [clearFrame] [] [], .newBuffers [] [encryptedFrame] [], .endMediaSegment]
        (reversingExtractor, {}) = .ok after ∧
      after.2.calls = emitted ∧ Emits [encryptedFrame, clearFrame] emitted :=
  emitAll_emits_committedOrder haltingTrack_accepts rfl rfl (by decide) (by decide) {}

end StreamParserExtractor

/-! The calls that the extractor makes if every buffer is written at once. -/

def SegmentCallback.parserCallback : SegmentCallback → ParserCallback
  | .newBuffers audio video text => .newBuffers audio video text
  | .endMediaSegment => .endMediaSegment

-- The calls with adjacent writes made one, behind the bytes that wait.
def joined : Bytes → List OutputCall → List OutputCall
  | waiting, [] => if waiting.isEmpty then [] else [.writeSampleData waiting]
  | waiting, .writeSampleData data :: calls => joined (waiting ++ data) calls
  | waiting, call :: calls =>
    (if waiting.isEmpty then [] else [.writeSampleData waiting]) ++ call :: joined [] calls

theorem joined_pieces (pieces : List Bytes) (waiting : Bytes) (calls : List OutputCall) :
    joined waiting (pieces.map .writeSampleData ++ calls) =
      joined (waiting ++ pieces.flatten) calls := by
  induction pieces generalizing waiting with
  | nil => simp
  | cons piece pieces ih =>
    rw [List.map_cons, List.cons_append, joined, ih, List.flatten_cons, List.append_assoc]

theorem joined_commit (waiting : Bytes) (metadata : SampleMetadata) (calls : List OutputCall) :
    joined waiting (.writeSampleMetadata metadata :: calls) =
      (if waiting.isEmpty then [] else [.writeSampleData waiting]) ++
        .writeSampleMetadata metadata :: joined [] calls := rfl

/-- Calls on the tracks that are these ones with each write in pieces, whatever is called later. -/
def InPieces (emitted : List TrackCall) (calls : List OutputCall) : Prop :=
  ∀ later, joined [] (emitted.map Prod.snd ++ later) = calls ++ joined [] later

theorem InPieces.nothing : InPieces [] [] := fun _ => rfl

theorem InPieces.append {first second : List TrackCall} {calls more : List OutputCall}
    (before : InPieces first calls) (after : InPieces second more) :
    InPieces (first ++ second) (calls ++ more) := by
  intro later
  rw [List.map_append, List.append_assoc, before, after, List.append_assoc]

theorem InPieces.commit {emitted : List TrackCall} {calls : List OutputCall}
    (inPieces : InPieces emitted calls) (trackId : Nat) (pieces : List Bytes)
    (metadata : SampleMetadata) :
    InPieces (pieces.map (fun piece => (trackId, .writeSampleData piece)) ++
        (trackId, .writeSampleMetadata metadata) :: emitted)
      ((if pieces.flatten.isEmpty then [] else [.writeSampleData pieces.flatten]) ++
        .writeSampleMetadata metadata :: calls) := by
  intro later
  have split : (pieces.map fun piece => (trackId, OutputCall.writeSampleData piece)).map Prod.snd =
      pieces.map .writeSampleData := by
    rw [List.map_map]
    rfl
  rw [List.map_append, split, List.append_assoc, joined_pieces, List.map_cons, List.cons_append,
    joined_commit, inPieces, List.append_assoc]
  rfl

theorem TrackWriter.processBuffers_inPieces {track : TrackOutput} (accepts : Accepts track)
    {rounds : Nat} (trackMap : List Nat) {buffers : List StreamParserBuffer}
    (enough : ∀ buffer ∈ buffers, buffer.data.length < rounds) (writer : TrackWriter) :
    ∃ after emitted, writer.processBuffers track rounds trackMap buffers = .ok after ∧
      after.calls = writer.calls ++ emitted ∧
      InPieces emitted (StreamParserExtractor.processBuffers trackMap buffers) := by
  induction buffers generalizing writer with
  | nil => exact ⟨writer, [], rfl, (List.append_nil _).symm, .nothing⟩
  | cons buffer buffers ih =>
    have later : ∀ other ∈ buffers, other.data.length < rounds :=
      fun other inside => enough other (List.mem_cons_of_mem _ inside)
    unfold processBuffers StreamParserExtractor.processBuffers
    by_cases ended : buffer.endOfStream = true
    · rw [if_pos ended, if_pos ended]
      exact ⟨writer, [], rfl, (List.append_nil _).symm, .nothing⟩
    rw [if_neg ended, if_neg ended]
    by_cases known : buffer.trackId ∈ trackMap
    · rw [if_neg (not_not.mpr known), if_neg (not_not.mpr known)]
      obtain ⟨pieces, data, written⟩ :=
        writeSampleData_writes accepts buffer.trackId (enough buffer List.mem_cons_self) writer
      obtain ⟨after, emitted, processed, calls, inPieces⟩ :=
        ih later (commit { writer with calls := _ } buffer)
      rw [written, ← data]
      refine ⟨after, _, processed, ?_, inPieces.commit buffer.trackId pieces
        (StreamParserExtractor.metadataOf buffer)⟩
      rw [calls, commit_calls]
      simp
    · rw [if_pos known, if_pos known]
      exact ih later writer

namespace StreamParserExtractor

variable {Parser : Type} {track : TrackOutput} {rounds : Nat}

theorem dumpBuffersTo_refines (accepts : Accepts track) (extractor : StreamParserExtractor Parser)
    {buffers : List StreamParserBuffer} (enough : ∀ buffer ∈ buffers, buffer.data.length < rounds)
    (writer : TrackWriter) :
    ∃ after emitted, dumpBuffersTo track rounds buffers (extractor, writer) =
        .ok ((extractor.dumpBuffers buffers).2, after) ∧
      after.calls = writer.calls ++ emitted ∧ InPieces emitted (extractor.dumpBuffers buffers).1 := by
  cases direction : extractor.reverseFrames with
  | false =>
    obtain ⟨after, emitted, processed, calls, inPieces⟩ :=
      TrackWriter.processBuffers_inPieces accepts extractor.trackMap enough writer
    refine ⟨after, emitted, ?_, calls, ?_⟩
    · simp [dumpBuffersTo, dumpBuffers, direction, processed, bind, Except.bind]
    · simpa [dumpBuffers, direction] using inPieces
  | true =>
    refine ⟨writer, [], ?_, (List.append_nil _).symm, ?_⟩
    · simp [dumpBuffersTo, dumpBuffers, direction]
    · simpa [dumpBuffers, direction] using InPieces.nothing

theorem newBuffers_refines (accepts : Accepts track) (extractor : StreamParserExtractor Parser)
    {audio video : List StreamParserBuffer} (text : List (Nat × List StreamParserBuffer))
    (enough : ∀ buffer ∈ audio ++ video, buffer.data.length < rounds) (writer : TrackWriter) :
    ∃ after emitted, emit track rounds (extractor, writer) (.newBuffers audio video text) =
        .ok ((extractor.newBuffersF audio video text).2.2, after) ∧
      after.calls = writer.calls ++ emitted ∧
      InPieces emitted (extractor.newBuffersF audio video text).2.1 := by
  by_cases unregistered : (!extractor.tracksRegistered) = true
  · simp only [emit, newBuffersF, if_pos unregistered]
    exact ⟨writer, [], rfl, (List.append_nil _).symm, .nothing⟩
  simp only [emit, newBuffersF, if_neg unregistered]
  obtain ⟨middle, first, audioDumped, calls, audioPieces⟩ := dumpBuffersTo_refines accepts extractor
    (fun buffer inside => enough buffer (List.mem_append_left _ inside)) writer
  obtain ⟨after, second, videoDumped, callsToo, videoPieces⟩ :=
    dumpBuffersTo_refines accepts (extractor.dumpBuffers audio).2
      (fun buffer inside => enough buffer (List.mem_append_right _ inside)) middle
  refine ⟨after, first ++ second, ?_, ?_, audioPieces.append videoPieces⟩
  · rw [audioDumped]
    exact videoDumped
  · rw [callsToo, calls, List.append_assoc]

theorem endMediaSegment_refines (accepts : Accepts track) (extractor : StreamParserExtractor Parser)
    (enough : ∀ buffer ∈ extractor.reversedBuffers, buffer.data.length < rounds)
    (writer : TrackWriter) :
    ∃ after emitted, emit track rounds (extractor, writer) .endMediaSegment =
        .ok (extractor.endMediaSegmentF.2, after) ∧
      after.calls = writer.calls ++ emitted ∧ InPieces emitted extractor.endMediaSegmentF.1 := by
  by_cases ends : (extractor.reverseFrames && !extractor.reversedBuffers.isEmpty) = true
  · obtain ⟨after, emitted, processed, calls, inPieces⟩ :=
      TrackWriter.processBuffers_inPieces accepts extractor.trackMap enough writer
    simp only [emit, endMediaSegmentF, if_pos ends, processed]
    exact ⟨after, emitted, rfl, calls, inPieces⟩
  · simp only [emit, endMediaSegmentF, if_neg ends]
    exact ⟨writer, [], rfl, (List.append_nil _).symm, .nothing⟩

theorem dumpBuffers_holds (extractor : StreamParserExtractor Parser)
    (buffers : List StreamParserBuffer) :
    ∀ buffer ∈ (extractor.dumpBuffers buffers).2.reversedBuffers,
      buffer ∈ extractor.reversedBuffers ++ buffers := by
  intro buffer
  unfold dumpBuffers
  split <;> simp +contextual [or_comm]

theorem newBuffersF_holds (extractor : StreamParserExtractor Parser)
    (audio video : List StreamParserBuffer) (text : List (Nat × List StreamParserBuffer)) :
    ∀ buffer ∈ (extractor.newBuffersF audio video text).2.2.reversedBuffers,
      buffer ∈ extractor.reversedBuffers ++ (audio ++ video) := by
  intro buffer held
  unfold newBuffersF at held
  split at held
  · exact List.mem_append_left _ held
  · have early := dumpBuffers_holds _ video buffer held
    rw [List.mem_append] at early
    rw [← List.append_assoc, List.mem_append]
    exact early.imp_left (dumpBuffers_holds extractor audio buffer)

theorem endMediaSegmentF_holds (extractor : StreamParserExtractor Parser) :
    ∀ buffer ∈ extractor.endMediaSegmentF.2.reversedBuffers, buffer ∈ extractor.reversedBuffers := by
  intro buffer held
  unfold endMediaSegmentF at held
  split at held
  · cases held
  · exact held

theorem emit_refines (accepts : Accepts track) (extractor : StreamParserExtractor Parser)
    (callback : SegmentCallback)
    (enough : ∀ buffer ∈ extractor.reversedBuffers ++ callback.received, buffer.data.length < rounds)
    (writer : TrackWriter) :
    ∃ accepted calls next after emitted,
      extractor.callback callback.parserCallback = .ok (accepted, calls, next) ∧
        emit track rounds (extractor, writer) callback = .ok (next, after) ∧
        after.calls = writer.calls ++ emitted ∧ InPieces emitted calls ∧
        ∀ buffer ∈ next.reversedBuffers, buffer ∈ extractor.reversedBuffers ++ callback.received := by
  cases callback with
  | newBuffers audio video text =>
    obtain ⟨after, emitted, ran, calls, inPieces⟩ := newBuffers_refines accepts extractor text
      (fun buffer inside => enough buffer (List.mem_append_right _ inside)) writer
    exact ⟨_, _, _, after, emitted, rfl, ran, calls, inPieces,
      newBuffersF_holds extractor audio video text⟩
  | endMediaSegment =>
    obtain ⟨after, emitted, ran, calls, inPieces⟩ := endMediaSegment_refines accepts extractor
      (fun buffer inside => enough buffer (List.mem_append_left _ inside)) writer
    refine ⟨_, _, _, after, emitted, rfl, ran, calls, inPieces, ?_⟩
    exact fun buffer held => List.mem_append_left _ (endMediaSegmentF_holds extractor buffer held)

/-- However the tracks take the bytes, the callbacks of media segments make the calls that they make
of the extractor alone, and leave it alike. -/
theorem emitAll_refines (accepts : Accepts track) (extractor : StreamParserExtractor Parser)
    {callbacks : List SegmentCallback} {calls : List OutputCall} {final : StreamParserExtractor Parser}
    (enough : ∀ buffer ∈ extractor.reversedBuffers ++ callbacks.flatMap SegmentCallback.received,
      buffer.data.length < rounds)
    (ran : runCallbacks (callbacks.map SegmentCallback.parserCallback) extractor =
      .ok (true, calls, final)) (writer : TrackWriter) :
    ∃ after emitted, emitAll track rounds callbacks (extractor, writer) = .ok (final, after) ∧
      after.calls = writer.calls ++ emitted ∧ InPieces emitted calls := by
  induction callbacks generalizing extractor calls writer with
  | nil =>
    cases ran
    exact ⟨writer, [], rfl, (List.append_nil _).symm, .nothing⟩
  | cons callback callbacks ih =>
    rw [List.flatMap_cons, ← List.append_assoc] at enough
    obtain ⟨accepted, early, middle, between, first, answered, emits, calledFirst, inPieces, held⟩ :=
      emit_refines accepts extractor callback
        (fun buffer inside => enough buffer (List.mem_append_left _ inside)) writer
    rw [List.map_cons, runCallbacks, answered] at ran
    simp only [bind, Except.bind] at ran
    split at ran
    · cases ran
    split at ran
    · cases ran
    obtain ⟨⟨answer, more, reached⟩, continued, same⟩ := bind_ok ran
    cases same
    obtain ⟨after, second, rest, calledSecond, inPiecesToo⟩ := ih middle (fun buffer inside => by
      rcases List.mem_append.mp inside with waiting | coming
      · exact enough buffer (List.mem_append_left _ (held buffer waiting))
      · exact enough buffer (List.mem_append_right _ coming)) continued between
    refine ⟨after, first ++ second, ?_, ?_, inPieces.append inPiecesToo⟩
    · simp only [emitAll, emits, bind, Except.bind]
      exact rest
    · rw [calledSecond, calledFirst, List.append_assoc]

end StreamParserExtractor

end NDash.Extractor

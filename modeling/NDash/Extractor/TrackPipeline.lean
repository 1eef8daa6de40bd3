import Mathlib.Data.List.Forall2
import Mathlib.Data.List.TakeWhile
import NDash.Extractor.DefaultTrackOutputBytes
import NDash.Extractor.ExtractorInterface
import NDash.Shared.Machine

set_option autoImplicit false

namespace NDash.Extractor

open Machine Upstream

structure WrittenSample where
  metadata : SampleMetadata
  bytes : Bytes
deriving DecidableEq, Repr

namespace WrittenSample

def isSync (sample : WrittenSample) : Bool := hasFlag sample.metadata.flags kSampleFlagSync

def isEncrypted (sample : WrittenSample) : Bool :=
  hasFlag sample.metadata.flags kSampleFlagEncrypted

def cryptoInfo (sample : WrittenSample) : CryptoInfo :=
  if sample.isEncrypted then
    { numSubSamples := (sample.metadata.numBytesClear.getD []).length
      numBytesOfClearData := sample.metadata.numBytesClear.getD []
      numBytesOfEncryptedData := sample.metadata.numBytesEnc.getD []
      key := sample.metadata.encryptionKeyId.getD []
      iv := sample.metadata.iv.getD [] }
  else {}

structure PlayedAs (sample : WrittenSample) (holder : SampleHolder) : Prop where
  timeUs : holder.timeUs = sample.metadata.timeUs
  durationUs : holder.durationUs = sample.metadata.durationUs
  flags : holder.flags = sample.metadata.flags
  content : holder.content = sample.bytes
  crypto : holder.cryptoInfo = sample.cryptoInfo

structure Exact (sample : WrittenSample) : Prop where
  offset : sample.metadata.offset = 0
  size : sample.metadata.size = sample.bytes.length
  vector : sample.isEncrypted = true → sample.metadata.iv.getD [] ≠ []

end WrittenSample

def playable (samples : List WrittenSample) : List WrittenSample :=
  samples.dropWhile fun sample => !sample.isSync

/-- The samples that the calls commit, each with what was written since the one before, and the bytes
behind the last. -/
def samplesOf : Bytes → List OutputCall → List WrittenSample × Bytes
  | pending, [] => ([], pending)
  | pending, .writeSampleData data :: calls => samplesOf (pending ++ data) calls
  | pending, .writeSampleMetadata metadata :: calls =>
    (⟨metadata, pending⟩ :: (samplesOf [] calls).1, (samplesOf [] calls).2)
  | pending, _ :: calls => samplesOf pending calls

def dataOf : List OutputCall → Bytes
  | [] => []
  | .writeSampleData data :: calls => data ++ dataOf calls
  | _ :: calls => dataOf calls

theorem samplesOf_append (pending : Bytes) (first second : List OutputCall) :
    samplesOf pending (first ++ second) =
      ((samplesOf pending first).1 ++ (samplesOf (samplesOf pending first).2 second).1,
        (samplesOf (samplesOf pending first).2 second).2) := by
  induction first generalizing pending with
  | nil => rfl
  | cons call first ih =>
    cases call with
    | writeSampleData data => exact ih (pending ++ data)
    | writeSampleMetadata metadata =>
      simp only [List.cons_append, samplesOf, ih []]
    | registerTrack | doneRegisteringTracks | giveSeekMap | setDrmInitData | giveFormat =>
      exact ih pending

theorem dataOf_append (first second : List OutputCall) :
    dataOf (first ++ second) = dataOf first ++ dataOf second := by
  induction first with
  | nil => rfl
  | cons call first ih =>
    cases call with
    | writeSampleData data => simp only [List.cons_append, dataOf, ih, List.append_assoc]
    | writeSampleMetadata | registerTrack | doneRegisteringTracks | giveSeekMap | setDrmInitData
    | giveFormat => exact ih

/-- The calls are those the buffer is made for: fewer than 2^31 bytes, each sample committed right
behind its bytes. -/
structure Sendable (calls : List OutputCall) : Prop where
  exact : ∀ sample ∈ (samplesOf [] calls).1, sample.Exact
  small : (dataOf calls).length < 2147483648

theorem Sendable.of_append {first second : List OutputCall} (sendable : Sendable (first ++ second)) :
    Sendable first := by
  refine ⟨fun sample member => sendable.exact sample ?_, ?_⟩
  · rw [samplesOf_append]
    exact List.mem_append_left _ member
  · have small := sendable.small
    rw [dataOf_append, List.length_append] at small
    omega

structure TrackPipeline (Producer : Type) where
  producer : Producer
  output : DefaultTrackOutput
  calls : List OutputCall := []
  history : List OutputCall := []
  delivered : List SampleHolder := []

inductive TrackPipelineOp (Event : Type)
  | produce (event : Event)
  | write
  | read (holder : SampleHolder)
  | isEmpty

namespace TrackPipeline

variable {Producer Event : Type}

def write (fresh : Fresh) (state : TrackPipeline Producer) :
    Except Fault (TrackPipeline Producer) :=
  match state.calls with
  | [] => .ok state
  | .writeSampleData data :: calls =>
    if data = [] then .ok { state with calls }
    else do
      let (more, count, output) ← state.output.writeSampleDataFixThis data true
      -- A writer that is refused goes on with the next sample.
      if !more then .ok { state with output, calls := calls.tail }
      else
        .ok { state with
          output
          calls := .writeSampleData (data.drop (count.getD 0).toNat) :: calls }
  | .writeSampleMetadata metadata :: calls =>
    .ok { state with output := state.output.writeSampleMetadata fresh metadata, calls }
  | _ :: calls => .ok { state with calls }

def apply (produce : Producer → Event → Except Fault (List OutputCall × Producer)) (fresh : Fresh)
    (state : TrackPipeline Producer) :
    TrackPipelineOp Event → Except Fault (TrackPipeline Producer)
  | .produce event => do
    let (calls, producer) ← produce state.producer event
    .ok { state with producer, calls, history := state.history ++ calls }
  | .write => state.write fresh
  | .read holder => do
    let (found, holder, output) ← state.output.getSample holder
    .ok { state with
      output
      delivered := if found then state.delivered ++ [holder] else state.delivered }
  | .isEmpty => do
    let (_, output) ← state.output.isEmpty
    .ok { state with output }

-- The producer makes its calls one after the other; the reader brings a cleared holder.
def Legal (state : TrackPipeline Producer) : TrackPipelineOp Event → Prop
  | .produce _ => state.calls = []
  | .read holder => holder.Empty ∧ holder.cryptoInfo = {}
  | _ => True

end TrackPipeline

def trackPipeline {Producer Event : Type}
    (produce : Producer → Event → Except Fault (List OutputCall × Producer)) (producer : Producer)
    (size : Nat) (uninitialized : BlockId → Nat → UInt8) (fresh : Fresh) :
    System (TrackPipeline Producer) (TrackPipelineOp Event) where
  Start state := state = { producer, output := .initial (.initial size uninitialized) fresh }
  Step state op next := state.Legal op ∧ state.apply produce fresh op = .ok next

structure Holds (stream : Bytes) (sample : WrittenSample) (record : SampleRecord) : Prop where
  timeUs : record.timeUs = sample.metadata.timeUs
  durationUs : record.durationUs = sample.metadata.durationUs
  flags : record.flags = sample.metadata.flags
  keyId : record.encryptionKeyId = sample.metadata.encryptionKeyId.getD []
  iv : record.iv = sample.metadata.iv.getD []
  clear : record.numBytesClear = sample.metadata.numBytesClear.getD []
  encrypted : record.numBytesEnc = sample.metadata.numBytesEnc.getD []
  bytes : slice stream record = sample.bytes

theorem Holds.isSync {stream : Bytes} {sample : WrittenSample} {record : SampleRecord}
    (holds : Holds stream sample record) : record.isSync = sample.isSync := by
  rw [SampleRecord.isSync, WrittenSample.isSync, holds.flags]

theorem Holds.playedAs {stream : Bytes} {sample : WrittenSample} {record : SampleRecord}
    (holds : Holds stream sample record) {holder filled : SampleHolder}
    (carries : Carries filled (.ofRecord stream record)) (cleared : holder.cryptoInfo = {})
    (crypto : filled.cryptoInfo = RollingSampleBuffer.cryptoOf holder record) :
    sample.PlayedAs filled := by
  have encrypted : record.isEncrypted = sample.isEncrypted := by
    rw [SampleRecord.isEncrypted, WrittenSample.isEncrypted, holds.flags]
  refine ⟨carries.timeUs.trans holds.timeUs, carries.durationUs.trans holds.durationUs,
    carries.flags.trans holds.flags, carries.content.trans holds.bytes, ?_⟩
  rw [crypto, RollingSampleBuffer.cryptoOf, WrittenSample.cryptoInfo, encrypted, cleared,
    holds.clear, holds.encrypted, holds.keyId, holds.iv]
  rfl

theorem Holds.append {stream : Bytes} {sample : WrittenSample} {record : SampleRecord}
    (holds : Holds stream sample record) (more : Bytes) (lower : 0 ≤ record.offset)
    (nonneg : 0 ≤ record.size) (upper : record.offset + record.size ≤ stream.length) :
    Holds (stream ++ more) sample record :=
  { holds with bytes := (slice_append more lower nonneg upper).trans holds.bytes }

theorem Holds.append_all {stream : Bytes} {samples : List WrittenSample}
    {queue : List SampleRecord} {low high : Int} (laid : Laid low queue high) (lower : 0 ≤ low)
    (upper : high ≤ stream.length) (held : List.Forall₂ (Holds stream) samples queue)
    (more : Bytes) : List.Forall₂ (Holds (stream ++ more)) samples queue := by
  induction held generalizing low with
  | nil => exact .nil
  | cons holds _ ih =>
    obtain ⟨starts, nonneg, later⟩ := laid
    have ends := later.le
    exact .cons (holds.append more (by omega) nonneg (by omega)) (ih later (by omega))

theorem Holds.none_sync {stream : Bytes} {samples : List WrittenSample} {queue : List SampleRecord}
    (held : List.Forall₂ (Holds stream) samples queue)
    (skipped : ∀ record ∈ queue, record.isSync = false) : ∀ sample ∈ samples, sample.isSync = false := by
  induction held with
  | nil => exact List.forall_mem_nil _
  | cons holds _ ih =>
    rw [List.forall_mem_cons] at skipped ⊢
    exact ⟨holds.isSync.symm.trans skipped.1, ih skipped.2⟩

theorem playable_eq_nil_iff (samples : List WrittenSample) :
    playable samples = [] ↔ ∀ sample ∈ samples, sample.isSync = false := by
  rw [playable, List.dropWhile_eq_nil_iff]
  simp only [Bool.not_eq_true']

theorem playable_append (first second : List WrittenSample) :
    playable (first ++ second) =
      if playable first = [] then playable second else playable first ++ second := by
  simp only [playable, List.dropWhile_append, List.isEmpty_iff]
  congr

namespace TrackPipeline

variable {Producer Event : Type}

/-- Between the writer and the reader: `committed` is what has been committed, and `pending` the bytes
written since. -/
structure Flows (state : TrackPipeline Producer) (fifo : SampleFifo) (stream : Bytes)
    (readPosition committedEnd : Int) (committed : List WrittenSample) (pending : Bytes) : Prop where
  sound : state.output.rollingBuffer.Sound fifo stream readPosition committedEnd
  counted : stream.length + (dataOf state.calls).length = (dataOf state.history).length
  behind : stream.drop committedEnd.toNat = pending
  split : samplesOf [] state.history =
    (committed ++ (samplesOf pending state.calls).1, (samplesOf pending state.calls).2)
  bounded : fifo.consumed ≤ committed.length
  held : List.Forall₂ (Holds stream) (committed.drop fifo.consumed) fifo.queue
  played : List.Forall₂ WrittenSample.PlayedAs (playable (committed.take fifo.consumed))
    state.delivered
  needs : state.output.needKeyFrame = (playable (committed.take fifo.consumed)).isEmpty
  unspliced : state.output.spliceOutTimeUs = kInvalidTimestamp

def Flowing (state : TrackPipeline Producer) : Prop :=
  ∃ fifo stream readPosition committedEnd committed pending,
    state.Flows fifo stream readPosition committedEnd committed pending

variable {state next : TrackPipeline Producer} {fifo : SampleFifo} {stream pending : Bytes}
  {readPosition committedEnd : Int} {committed : List WrittenSample}

theorem Flows.produce (flows : state.Flows fifo stream readPosition committedEnd committed pending)
    (done : state.calls = []) (calls : List OutputCall) (producer : Producer) :
    Flows { state with producer, calls, history := state.history ++ calls } fifo stream readPosition
      committedEnd committed pending := by
  have split := flows.split
  have counted := flows.counted
  rw [done] at split counted
  refine ⟨flows.sound, ?_, flows.behind, ?_, flows.bounded, flows.held, flows.played, flows.needs,
    flows.unspliced⟩
  · rw [dataOf_append, List.length_append]
    simp only [dataOf, List.length_nil] at counted ⊢
    omega
  · rw [samplesOf_append, split]
    simp [samplesOf]

theorem Flows.skip (flows : state.Flows fifo stream readPosition committedEnd committed pending)
    {calls : List OutputCall} (data : dataOf state.calls = dataOf calls)
    (samples : samplesOf pending state.calls = samplesOf pending calls) :
    Flows { state with calls } fifo stream readPosition committedEnd committed pending := by
  refine ⟨flows.sound, ?_, flows.behind, ?_, flows.bounded, flows.held, flows.played, flows.needs,
    flows.unspliced⟩
  · rw [← data]
    exact flows.counted
  · rw [← samples]
    exact flows.split

theorem Flows.append (flows : state.Flows fifo stream readPosition committedEnd committed pending)
    (sendable : Sendable state.history) {data : Bytes} {calls : List OutputCall}
    (writes : state.calls = .writeSampleData data :: calls) :
    ∃ (count : Nat) (buffer : RollingSampleBuffer), (data ≠ [] → 0 < count) ∧
      state.output.rollingBuffer.appendDataFixThis data true = .ok (true, some (count : Int), buffer) ∧
      Flows { state with
          output := { state.output with rollingBuffer := buffer }
          calls := .writeSampleData (data.drop count) :: calls }
        fifo (stream ++ data.take count) readPosition committedEnd committed
        (pending ++ data.take count) := by
  have counted := flows.counted
  have small := sendable.small
  have inside := flows.sound.inside
  have nonneg := Int.le_trans flows.sound.nonneg flows.sound.laid.le
  have dropped := flows.sound.stored.droppedLower
  rw [writes] at counted
  simp only [dataOf, List.length_append] at counted
  have narrow : toInt32 data.length = data.length := toInt32_of_range (by omega) (by omega)
  obtain ⟨count, buffer, appends, sound, -, taken⟩ :=
    RollingSampleBuffer.appendDataFixThis_sound flows.sound true
      (show 0 ≤ toInt32 data.length by omega) (by omega)
  have split := flows.split
  rw [writes] at split
  refine ⟨count, buffer, fun some => ?_, appends, sound, ?_, ?_, ?_, flows.bounded, ?_, flows.played,
    flows.needs, flows.unspliced⟩
  · have room := RollingSampleBuffer.appendRoom_positive flows.sound.stored
    have positive := List.length_pos_iff.mpr some
    omega
  · simp only [dataOf, List.length_append, List.length_take, List.length_drop]
    omega
  · rw [List.drop_append_of_le_length (by omega), flows.behind]
  · rw [split]
    simp only [samplesOf, List.append_assoc, List.take_append_drop]
  · exact Holds.append_all flows.sound.laid flows.sound.nonneg inside flows.held (data.take count)

theorem Flows.commit (flows : state.Flows fifo stream readPosition committedEnd committed pending)
    (fresh : Fresh) (sendable : Sendable state.history) {metadata : SampleMetadata}
    {calls : List OutputCall} (writes : state.calls = .writeSampleMetadata metadata :: calls) :
    Flows { state with output := state.output.writeSampleMetadata fresh metadata, calls }
      (fifo.commit (state.output.positioned metadata).record) stream readPosition stream.length
      (committed ++ [⟨metadata, pending⟩]) [] := by
  have split := flows.split
  have counted := flows.counted
  have small := sendable.small
  have inside := flows.sound.inside
  have laid := flows.sound.laid
  have written := flows.sound.stored.written
  have nonneg := Int.le_trans flows.sound.nonneg laid.le
  rw [writes] at split counted
  simp only [samplesOf, dataOf] at split counted
  have exact : WrittenSample.Exact ⟨metadata, pending⟩ :=
    sendable.exact _ (by rw [split]; simp)
  have offset : metadata.offset = 0 := exact.offset
  have size : metadata.size = pending.length := exact.size
  have length : (pending.length : Int) = stream.length - committedEnd := by
    rw [← flows.behind, List.length_drop]
    omega
  have narrow : toInt32 metadata.size = metadata.size := toInt32_of_range (by omega) (by omega)
  have record : (state.output.positioned metadata).record =
      { metadata.record with offset := committedEnd, size := metadata.size } := by
    have position : state.output.rollingBuffer.getWritePosition - metadata.size - metadata.offset =
        committedEnd := by
      rw [RollingSampleBuffer.getWritePosition, written]
      omega
    simp only [DefaultTrackOutput.positioned, SampleMetadata.record, narrow, position]
  have ends : committedEnd + metadata.size = stream.length := by omega
  have laidNext : Laid readPosition (fifo.queue ++ [(state.output.positioned metadata).record])
      stream.length := by
    rw [record]
    have nonnegative : 0 ≤ metadata.size := by omega
    have snoc : Laid readPosition (fifo.queue ++
        [{ metadata.record with offset := committedEnd, size := metadata.size }])
        (committedEnd + metadata.size) := laid.snoc (Int.le_refl _) nonnegative
    rw [ends] at snoc
    exact snoc
  have bytes : slice stream { metadata.record with offset := committedEnd, size := metadata.size } =
      pending := by
    simp only [slice, flows.behind, size, Int.toNat_natCast, List.take_length]
  have holds : Holds stream ⟨metadata, pending⟩ (state.output.positioned metadata).record := by
    rw [record]
    exact ⟨rfl, rfl, rfl, rfl, rfl, rfl, rfl, bytes⟩
  have readable : (state.output.positioned metadata).record.Readable := by
    rw [record]
    exact exact.vector
  refine ⟨RollingSampleBuffer.commitSample_sound flows.sound fresh laidNext (Int.le_refl _) readable,
    counted, ?_, ?_, ?_, ?_, ?_, ?_, flows.unspliced⟩
  · rw [Int.toNat_natCast, List.drop_length]
  · rw [split, List.append_assoc]
    rfl
  · rw [List.length_append]
    exact Nat.le_add_right_of_le flows.bounded
  · rw [SampleFifo.commit, List.drop_append_of_le_length flows.bounded]
    exact List.rel_append flows.held (.cons holds .nil)
  · rw [SampleFifo.commit, List.take_append_of_le_length flows.bounded]
    exact flows.played
  · rw [SampleFifo.commit, List.take_append_of_le_length flows.bounded]
    exact flows.needs

theorem Flows.advance (flows : state.Flows fifo stream readPosition committedEnd committed pending)
    {output : DefaultTrackOutput} {count : Nat} {position : Int}
    (sound : output.rollingBuffer.Sound (fifo.consume count) stream position committedEnd)
    (advances : DefaultTrackOutput.Advances state.output fifo output count) :
    Flows { state with output } (fifo.consume count) stream position committedEnd committed
      pending := by
  obtain ⟨⟨holder, buffer, rfl⟩, -, inside, skipped, stays⟩ := advances
  have bounded := flows.bounded
  have length := flows.held.length_eq
  rw [List.length_drop] at length
  have same : playable (committed.take (fifo.consumed + count)) =
      playable (committed.take fifo.consumed) := by
    cases need : state.output.needKeyFrame with
    | false => rw [stays need, Nat.add_zero]
    | true =>
      have nothing : playable (committed.take fifo.consumed) = [] := by
        rw [← List.isEmpty_iff, ← flows.needs, need]
      have none := Holds.none_sync (List.forall₂_take count flows.held) skipped
      rw [List.take_add, playable_append, if_pos nothing, nothing, playable_eq_nil_iff]
      exact none
  refine ⟨sound, flows.counted, flows.behind, flows.split, ?_, ?_, ?_, ?_, flows.unspliced⟩
  · simp only [SampleFifo.consume]
    omega
  · rw [SampleFifo.consume, ← List.drop_drop]
    exact List.forall₂_drop count flows.held
  · rw [SampleFifo.consume, same]
    exact flows.played
  · rw [SampleFifo.consume, same]
    exact flows.needs

theorem Flows.take (flows : state.Flows fifo stream readPosition committedEnd committed pending)
    {buffer : RollingSampleBuffer} {position : Int} {record : SampleRecord}
    {rest : List SampleRecord} {holder filled : SampleHolder}
    (sound : buffer.Sound (fifo.consume 1) stream position committedEnd)
    (present : fifo.queue = record :: rest)
    (sync : state.output.needKeyFrame = true → record.isSync = true)
    (carries : Carries filled (.ofRecord stream record)) (cleared : holder.cryptoInfo = {})
    (crypto : filled.cryptoInfo = RollingSampleBuffer.cryptoOf holder record) :
    Flows { state with
        output := { state.output with
          rollingBuffer := buffer, needKeyFrame := false, lastReadTimeUs := filled.timeUs }
        delivered := state.delivered ++ [filled] }
      (fifo.consume 1) stream position committedEnd committed pending := by
  have held := flows.held
  rw [present] at held
  obtain ⟨sample, samples, holds, later, left⟩ := List.forall₂_cons_right_iff.mp held
  have taken : committed.take (fifo.consumed + 1) = committed.take fifo.consumed ++ [sample] := by
    rw [List.take_add, left, List.take_succ_cons, List.take_zero]
  have grown : playable (committed.take (fifo.consumed + 1)) =
      playable (committed.take fifo.consumed) ++ [sample] := by
    rw [taken, playable_append]
    split
    next nothing =>
      have starts : sample.isSync = true := by
        rw [← holds.isSync]
        refine sync ?_
        rw [flows.needs, nothing]
        rfl
      rw [nothing, List.nil_append, playable, List.dropWhile_cons_of_neg (by simp [starts])]
    next => rfl
  have length := congrArg List.length left
  rw [List.length_drop, List.length_cons] at length
  refine ⟨sound, flows.counted, flows.behind, flows.split, ?_, ?_, ?_, ?_, flows.unspliced⟩
  · simp only [SampleFifo.consume]
    omega
  · rw [SampleFifo.consume, ← List.drop_drop, left, present]
    exact later
  · rw [SampleFifo.consume, grown]
    exact List.rel_append flows.played (.cons (holds.playedAs carries cleared crypto) .nil)
  · rw [SampleFifo.consume, grown]
    simp

def work (calls : List OutputCall) : Nat := (dataOf calls).length + calls.length

theorem Flowing.write (flowing : state.Flowing) (sendable : Sendable state.history) (fresh : Fresh) :
    ∃ next, state.write fresh = .ok next ∧ next.Flowing ∧
      (state.calls ≠ [] → work next.calls < work state.calls) ∧ next.delivered = state.delivered := by
  obtain ⟨fifo, stream, readPosition, committedEnd, committed, pending, flows⟩ := flowing
  unfold TrackPipeline.write
  split
  next done => exact ⟨_, rfl, ⟨_, _, _, _, _, _, flows⟩, fun some => absurd done some, rfl⟩
  next data calls writes =>
    split
    next none =>
      subst none
      refine ⟨_, rfl, ⟨_, _, _, _, _, _, flows.skip (by simp [writes, dataOf])
        (by simp [writes, samplesOf])⟩, fun _ => ?_, rfl⟩
      simp [writes, work, dataOf]
    next some =>
      obtain ⟨count, buffer, positive, appends, appended⟩ := flows.append sendable writes
      have length := List.length_pos_iff.mpr some
      have taken := positive some
      refine ⟨_, ?_, ⟨_, _, _, _, _, _, appended⟩, fun _ => ?_, rfl⟩
      · simp [DefaultTrackOutput.writeSampleDataFixThis, appends, bind, Except.bind]
      · simp only [writes, work, dataOf, List.length_append, List.length_drop, List.length_cons]
        omega
  next metadata calls writes =>
    refine ⟨_, rfl, ⟨_, _, _, _, _, _, flows.commit fresh sendable writes⟩, fun _ => ?_, rfl⟩
    simp [writes, work, dataOf]
  next call calls notData notMetadata writes =>
    have sameData : dataOf (call :: calls) = dataOf calls := by
      cases call with
      | writeSampleData data => exact absurd rfl (notData data)
      | writeSampleMetadata metadata => exact absurd rfl (notMetadata metadata)
      | registerTrack | doneRegisteringTracks | giveSeekMap | setDrmInitData | giveFormat => rfl
    have sameSamples : samplesOf pending (call :: calls) = samplesOf pending calls := by
      cases call with
      | writeSampleData data => exact absurd rfl (notData data)
      | writeSampleMetadata metadata => exact absurd rfl (notMetadata metadata)
      | registerTrack | doneRegisteringTracks | giveSeekMap | setDrmInitData | giveFormat => rfl
    refine ⟨_, rfl, ⟨_, _, _, _, _, _, flows.skip (by rw [writes, sameData])
      (by rw [writes, sameSamples])⟩, fun _ => ?_, rfl⟩
    simp [writes, work, sameData]

variable {produce : Producer → Event → Except Fault (List OutputCall × Producer)}

theorem Flowing.read (flowing : state.Flowing) (fresh : Fresh) {holder : SampleHolder}
    (legal : state.Legal (.read holder : TrackPipelineOp Event)) :
    ∃ next, state.apply produce fresh (.read holder) = .ok next ∧ next.Flowing := by
  obtain ⟨empty, cleared⟩ := legal
  obtain ⟨fifo, stream, readPosition, committedEnd, committed, pending, flows⟩ := flowing
  rcases DefaultTrackOutput.getSample_sound flows.unspliced flows.sound empty with
    ⟨output, count, position, gets, sound, advances, -⟩ |
    ⟨filled, middle, buffer, count, start, position, record, rest, gets, reached, sound, advances,
      present, sync, carries, crypto⟩
  · refine ⟨{ state with output }, ?_, ⟨_, _, _, _, _, _, flows.advance sound advances⟩⟩
    simp [apply, gets, bind, Except.bind]
  · have advanced := flows.advance reached advances
    have need : middle.needKeyFrame = state.output.needKeyFrame := by
      obtain ⟨shown, moved, rfl⟩ := advances.same
      rfl
    refine ⟨_, ?_, ⟨_, _, _, _, _, _, advanced.take sound present (fun waits => sync (need ▸ waits))
      carries cleared crypto⟩⟩
    simp [apply, gets, bind, Except.bind]

theorem Flowing.isEmpty (flowing : state.Flowing) (fresh : Fresh) :
    ∃ next, state.apply produce fresh .isEmpty = .ok next ∧ next.Flowing := by
  obtain ⟨fifo, stream, readPosition, committedEnd, committed, pending, flows⟩ := flowing
  obtain ⟨eligible, output, count, position, finds, sound, advances, -⟩ :=
    DefaultTrackOutput.advanceToEligibleSample_sound flows.unspliced flows.sound
  refine ⟨{ state with output }, ?_, ⟨_, _, _, _, _, _, flows.advance sound advances⟩⟩
  simp [apply, DefaultTrackOutput.isEmpty, finds, bind, Except.bind]

theorem Flowing.produces (flowing : state.Flowing) (fresh : Fresh) {event : Event}
    (legal : state.Legal (.produce event))
    (applied : state.apply produce fresh (.produce event) = .ok next) : next.Flowing := by
  obtain ⟨fifo, stream, readPosition, committedEnd, committed, pending, flows⟩ := flowing
  obtain ⟨⟨calls, producer⟩, -, rest⟩ := bind_ok applied
  cases rest
  exact ⟨_, _, _, _, _, _, flows.produce legal calls producer⟩

theorem write_same {fresh : Fresh} (writes : state.write fresh = .ok next) :
    next.history = state.history ∧ next.producer = state.producer := by
  unfold TrackPipeline.write at writes
  split at writes
  next =>
    cases writes
    exact ⟨rfl, rfl⟩
  next =>
    split at writes
    next =>
      cases writes
      exact ⟨rfl, rfl⟩
    next =>
      obtain ⟨⟨more, count, output⟩, -, rest⟩ := bind_ok writes
      dsimp only at rest
      split at rest <;> cases rest <;> exact ⟨rfl, rfl⟩
  next =>
    cases writes
    exact ⟨rfl, rfl⟩
  next =>
    cases writes
    exact ⟨rfl, rfl⟩

theorem apply_cases {fresh : Fresh} {op : TrackPipelineOp Event}
    (applied : state.apply produce fresh op = .ok next) :
    (∃ event calls producer, op = .produce event ∧
      produce state.producer event = .ok (calls, producer) ∧
      next.history = state.history ++ calls ∧ next.producer = producer) ∨
    (∀ event, op ≠ .produce event) ∧ next.history = state.history ∧
      next.producer = state.producer := by
  cases op with
  | produce event =>
    obtain ⟨⟨calls, producer⟩, produced, rest⟩ := bind_ok applied
    cases rest
    exact .inl ⟨event, calls, producer, rfl, produced, rfl, rfl⟩
  | write => exact .inr ⟨by simp, write_same applied⟩
  | read holder =>
    obtain ⟨⟨found, filled, output⟩, -, rest⟩ := bind_ok applied
    cases rest
    exact .inr ⟨by simp, rfl, rfl⟩
  | isEmpty =>
    obtain ⟨⟨empty, output⟩, -, rest⟩ := bind_ok applied
    cases rest
    exact .inr ⟨by simp, rfl, rfl⟩

theorem Flowing.apply (flowing : state.Flowing) (sendable : Sendable state.history) (fresh : Fresh)
    {op : TrackPipelineOp Event} (legal : state.Legal op) (consumes : ∀ event, op ≠ .produce event) :
    ∃ next, state.apply produce fresh op = .ok next ∧ next.Flowing := by
  cases op with
  | produce event => exact absurd rfl (consumes event)
  | write =>
    obtain ⟨next, writes, flowingNext, -⟩ := flowing.write sendable fresh
    exact ⟨next, writes, flowingNext⟩
  | read holder => exact flowing.read fresh legal
  | isEmpty => exact flowing.isEmpty fresh

/-- What has been handed out, and what the queue still has, is the samples that have been committed. -/
theorem Flows.delivered (flows : state.Flows fifo stream readPosition committedEnd committed pending) :
    ∃ played rest, playable (samplesOf [] state.history).1 = played ++ rest ∧
      List.Forall₂ WrittenSample.PlayedAs played state.delivered := by
  refine ⟨playable (committed.take fifo.consumed), ?_⟩
  rw [flows.split, ← List.take_append_drop fifo.consumed committed, List.append_assoc,
    playable_append, List.take_append_drop]
  split
  next nothing =>
    have played := flows.played
    rw [nothing] at played ⊢
    exact ⟨_, rfl, played⟩
  next => exact ⟨_, rfl, flows.played⟩

theorem Flows.exhausted (flows : state.Flows fifo stream readPosition committedEnd committed pending)
    (done : state.calls = []) {holder after : SampleHolder} {output : DefaultTrackOutput}
    (empty : holder.Empty) (gets : state.output.getSample holder = .ok (false, after, output)) :
    List.Forall₂ WrittenSample.PlayedAs (playable (samplesOf [] state.history).1)
      state.delivered := by
  rcases DefaultTrackOutput.getSample_sound flows.unspliced flows.sound empty with
    ⟨next, count, position, nothing, sound, advances, ended⟩ | ⟨_, _, _, _, _, _, _, _, found, -⟩
  · have advanced := flows.advance sound advances
    have held := advanced.held.length_eq
    rw [ended, List.length_drop, List.length_nil] at held
    have played := advanced.played
    rw [List.take_of_length_le (by omega)] at played
    have split := flows.split
    rw [done] at split
    simp only [samplesOf, List.append_nil] at split
    rw [split]
    exact played
  · rw [gets] at found
    cases found

end TrackPipeline

section

variable {Producer Event : Type}
  {produce : Producer → Event → Except Fault (List OutputCall × Producer)} {producer : Producer}
  {size : Nat} {uninitialized : BlockId → Nat → UInt8} {fresh : Fresh}
  {state : TrackPipeline Producer}

theorem trackPipeline_flowing (positive : 0 < size) (small : size < 2147483648)
    (reachable : Reachable (trackPipeline produce producer size uninitialized fresh) state)
    (sendable : Sendable state.history) : state.Flowing := by
  refine Reachable.invariant (fun state => Sendable state.history → state.Flowing) ?_ ?_ reachable
    sendable
  · rintro _ rfl _
    have stored := RollingSampleBuffer.initial_stored (.initial size uninitialized) fresh rfl rfl rfl
      positive small (by intro block; simp [Allocator.initial])
    exact ⟨{}, [], 0, 0, [], [], RollingSampleBuffer.initial_sound stored, rfl, rfl, rfl,
      Nat.le_refl _, .nil, .nil, rfl, rfl⟩
  · rintro state op next flowing ⟨legal, applied⟩ sendableNext
    rcases TrackPipeline.apply_cases applied with
      ⟨event, calls, producer, rfl, -, history, -⟩ | ⟨consumes, history, -⟩
    · rw [history] at sendableNext
      exact (flowing sendableNext.of_append).produces fresh legal applied
    · rw [history] at sendableNext
      have applies : ∃ reached, state.apply produce fresh op = .ok reached ∧ reached.Flowing :=
        (flowing sendableNext).apply sendableNext fresh legal consumes
      obtain ⟨reached, ran, flowingReached⟩ := applies
      cases applied.symm.trans ran
      exact flowingReached

/-- The writer gets done with its calls whatever the reader does. -/
theorem trackPipeline_finishes (flowing : state.Flowing) (sendable : Sendable state.history) :
    ∃ writes final, Run (trackPipeline produce producer size uninitialized fresh) state
        (List.replicate writes .write) final ∧ final.Flowing ∧ final.calls = [] ∧
      final.history = state.history ∧ final.delivered = state.delivered := by
  induction left : TrackPipeline.work state.calls using Nat.strong_induction_on generalizing state with
  | _ rounds ih =>
    by_cases done : state.calls = []
    · exact ⟨0, state, .nil state, flowing, done, rfl, rfl⟩
    · obtain ⟨next, writes, flowingNext, less, delivered⟩ := flowing.write sendable fresh
      have history := (TrackPipeline.write_same writes).1
      obtain ⟨count, final, run, flowingFinal, finished, same, kept⟩ :=
        ih _ (left ▸ less done) flowingNext (history ▸ sendable) rfl
      exact ⟨count + 1, final, .cons ⟨trivial, writes⟩ run, flowingFinal, finished,
        same.trans history, kept.trans delivered⟩

/-- Whatever the order in which the two threads come to the track, the reader is handed the samples of
the calls from the first keyframe on, in order and complete, and no call fails. -/
theorem trackPipeline_delivers (positive : 0 < size) (small : size < 2147483648)
    (reachable : Reachable (trackPipeline produce producer size uninitialized fresh) state)
    (sendable : Sendable state.history) :
    (∃ played rest, playable (samplesOf [] state.history).1 = played ++ rest ∧
      List.Forall₂ WrittenSample.PlayedAs played state.delivered) ∧
    (state.calls = [] → ∀ holder after output, holder.Empty →
      state.output.getSample holder = .ok (false, after, output) →
        List.Forall₂ WrittenSample.PlayedAs (playable (samplesOf [] state.history).1)
          state.delivered) ∧
    ∀ op, state.Legal op → (∀ event, op ≠ .produce event) →
      ∃ next, state.apply produce fresh op = .ok next := by
  have flowing := trackPipeline_flowing positive small reachable sendable
  refine ⟨?_, ?_, ?_⟩
  · obtain ⟨_, _, _, _, _, _, flows⟩ := flowing
    exact flows.delivered
  · intro done holder after output empty gets
    obtain ⟨_, _, _, _, _, _, flows⟩ := flowing
    exact flows.exhausted done empty gets
  · intro op legal consumes
    obtain ⟨next, ran, -⟩ := flowing.apply sendable fresh legal consumes
    exact ⟨next, ran⟩

end

end NDash.Extractor

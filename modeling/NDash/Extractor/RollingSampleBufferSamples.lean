import NDash.Extractor.InfoQueueFifo
import NDash.Extractor.RollingSampleBufferStorage

set_option autoImplicit false

namespace NDash.Extractor

open Upstream

def Laid : Int → List SampleRecord → Int → Prop
  | low, [], high => low ≤ high
  | low, sample :: rest, high =>
    low ≤ sample.offset ∧ 0 ≤ sample.size ∧ Laid (sample.offset + sample.size) rest high

instance Laid.decidable : ∀ low queue high, Decidable (Laid low queue high)
  | low, [], high => inferInstanceAs (Decidable (low ≤ high))
  | low, sample :: rest, high =>
    have := Laid.decidable (sample.offset + sample.size) rest high
    inferInstanceAs (Decidable (low ≤ sample.offset ∧ 0 ≤ sample.size ∧
      Laid (sample.offset + sample.size) rest high))

variable {low high : Int} {queue : List SampleRecord} {sample : SampleRecord}

theorem Laid.le (laid : Laid low queue high) : low ≤ high := by
  induction queue generalizing low with
  | nil => exact laid
  | cons first rest ih =>
    obtain ⟨before, nonneg, later⟩ := laid
    have := ih later
    omega

theorem Laid.snoc (laid : Laid low queue high) (after : high ≤ sample.offset)
    (nonneg : 0 ≤ sample.size) : Laid low (queue ++ [sample]) (sample.offset + sample.size) := by
  induction queue generalizing low with
  | nil => exact ⟨Int.le_trans laid after, nonneg, Int.le_refl _⟩
  | cons first rest ih => exact ⟨laid.1, laid.2.1, ih laid.2.2⟩

theorem Laid.member (laid : Laid low queue high) (present : sample ∈ queue) :
    low ≤ sample.offset ∧ 0 ≤ sample.size ∧ sample.offset + sample.size ≤ high := by
  induction queue generalizing low with
  | nil => cases present
  | cons first rest ih =>
    obtain ⟨before, nonneg, later⟩ := laid
    cases present with
    | head => exact ⟨before, nonneg, later.le⟩
    | tail _ present =>
      have := ih later present
      omega

theorem Laid.drop (laid : Laid low queue high) {k : Nat} (found : queue[k]? = some sample) :
    low ≤ sample.offset ∧ Laid sample.offset (queue.drop k) high := by
  induction queue generalizing low k with
  | nil => simp at found
  | cons first rest ih =>
    obtain ⟨before, nonneg, later⟩ := laid
    cases k with
    | zero =>
      rw [List.getElem?_cons_zero, Option.some.injEq] at found
      subst found
      exact ⟨before, Int.le_refl _, nonneg, later⟩
    | succ k =>
      obtain ⟨further, dropped⟩ := ih later found
      exact ⟨by omega, dropped⟩

theorem Laid.next {fifo : SampleFifo} (laid : Laid low fifo.queue high)
    (present : fifo.queue = sample :: queue) :
    sample.offset + sample.size ≤ fifo.nextOffset ∧ Laid fifo.nextOffset queue high := by
  rw [present] at laid
  obtain ⟨-, -, later⟩ := laid
  cases queue with
  | nil =>
    simp only [SampleFifo.nextOffset, present, Int.add_comm sample.size]
    exact ⟨Int.le_refl _, later⟩
  | cons second rest =>
    simp only [SampleFifo.nextOffset, present]
    exact ⟨later.1, Int.le_refl _, later.2⟩

def slice (stream : Bytes) (sample : SampleRecord) : Bytes :=
  (stream.drop sample.offset.toNat).take sample.size.toNat

theorem slice_append {stream : Bytes} (more : Bytes) (lower : 0 ≤ sample.offset)
    (nonneg : 0 ≤ sample.size) (upper : sample.offset + sample.size ≤ stream.length) :
    slice (stream ++ more) sample = slice stream sample := by
  unfold slice
  rw [List.drop_append_of_le_length (by omega),
    List.take_append_of_le_length (by rw [List.length_drop]; omega)]

-- The encryption data of a sample without an IV is parsed out of its first bytes instead.
def SampleRecord.Readable (sample : SampleRecord) : Prop :=
  sample.isEncrypted = true → sample.iv ≠ []

structure CommittedSample where
  timeUs : Int
  durationUs : Int
  flags : BitVec 32
  bytes : Bytes
deriving DecidableEq, Repr

def CommittedSample.ofRecord (stream : Bytes) (sample : SampleRecord) : CommittedSample :=
  { timeUs := sample.timeUs
    durationUs := sample.durationUs
    flags := sample.flags
    bytes := slice stream sample }

structure Carries (holder : SampleHolder) (sample : CommittedSample) : Prop where
  timeUs : holder.timeUs = sample.timeUs
  durationUs : holder.durationUs = sample.durationUs
  flags : holder.flags = sample.flags
  content : holder.content = sample.bytes

theorem Laid.map_ofRecord_append {stream : Bytes} (laid : Laid low queue high) (more : Bytes)
    (lower : 0 ≤ low) (upper : high ≤ stream.length) :
    queue.map (CommittedSample.ofRecord (stream ++ more)) =
      queue.map (CommittedSample.ofRecord stream) := by
  apply List.map_congr_left
  intro sample present
  obtain ⟨before, nonneg, after⟩ := laid.member present
  have same := slice_append more (by omega) nonneg (show sample.offset + sample.size ≤ stream.length by
    omega)
  simp only [CommittedSample.ofRecord, same]

namespace RollingSampleBuffer

/-- The buffer holds the samples of `fifo`, whose bytes are slices of `stream`. -/
structure Sound (buffer : RollingSampleBuffer) (fifo : SampleFifo) (stream : Bytes)
    (readPosition committedEnd : Int) : Prop where
  stored : buffer.Stored stream
  refines : buffer.infoQueue.Refines fifo
  behind : buffer.totalBytesDropped ≤ readPosition
  laid : Laid readPosition fifo.queue committedEnd
  inside : committedEnd ≤ stream.length
  readable : ∀ sample ∈ fifo.queue, sample.Readable
  held : stream.length - buffer.totalBytesDropped < 2147483648

variable {buffer : RollingSampleBuffer} {fifo : SampleFifo} {stream : Bytes}
  {readPosition committedEnd : Int}

theorem Sound.nonneg (sound : buffer.Sound fifo stream readPosition committedEnd) : 0 ≤ readPosition :=
  Int.le_trans sound.stored.droppedLower sound.behind

theorem skipSample_stored (stored : buffer.Stored stream) (refines : buffer.infoQueue.Refines fifo)
    (nonempty : fifo.queue ≠ []) (behind : buffer.totalBytesDropped ≤ fifo.nextOffset)
    (inside : fifo.nextOffset ≤ stream.length)
    (held : stream.length - buffer.totalBytesDropped < 2147483648) :
    ∃ next, buffer.skipSample = .ok next ∧ next.Stored stream ∧
      next.infoQueue.Refines (fifo.consume 1) ∧ next.totalBytesDropped ≤ fifo.nextOffset ∧
      buffer.totalBytesDropped ≤ next.totalBytesDropped ∧
      next.infoQueue = buffer.infoQueue.moveToNextSample.2 := by
  obtain ⟨moved, offset⟩ := InfoQueue.moveToNextSample_refines refines nonempty
  obtain ⟨next, drops, storedNext, kept, further, before, -⟩ :=
    dropDownstreamTo_stored (stored.withInfoQueue buffer.infoQueue.moveToNextSample.2) 0 behind inside
      (by simp only; omega)
  refine ⟨next, ?_, storedNext, ?_, before, further, kept.infoQueue⟩
  · rw [Int.zero_mul, Int.add_zero] at drops
    simpa only [skipSample, offset] using drops
  · rw [kept.infoQueue]
    exact moved

theorem Sound.consumed (sound : buffer.Sound fifo stream readPosition committedEnd) {next : RollingSampleBuffer}
    {rest : List SampleRecord} {position : Int} {count : Nat} (stored : next.Stored stream)
    (refines : next.infoQueue.Refines (fifo.consume count)) (left : fifo.queue.drop count = rest)
    (before : next.totalBytesDropped ≤ position) (laid : Laid position rest committedEnd)
    (further : buffer.totalBytesDropped ≤ next.totalBytesDropped) :
    next.Sound (fifo.consume count) stream position committedEnd := by
  refine ⟨stored, refines, before, ?_, sound.inside, ?_, ?_⟩
  · simpa only [SampleFifo.consume, left] using laid
  · intro sample present
    exact sound.readable sample (List.mem_of_mem_drop present)
  · have := sound.held
    omega

theorem skipSample_sound (sound : buffer.Sound fifo stream readPosition committedEnd)
    (nonempty : fifo.queue ≠ []) :
    ∃ next, buffer.skipSample = .ok next ∧ next.Sound (fifo.consume 1) stream fifo.nextOffset committedEnd ∧
      next.infoQueue = buffer.infoQueue.moveToNextSample.2 := by
  obtain ⟨sample, rest, present⟩ := List.exists_cons_of_ne_nil nonempty
  obtain ⟨ends, later⟩ := sound.laid.next present
  obtain ⟨starts, nonneg, -⟩ := sound.laid.member (by simp [present] : sample ∈ fifo.queue)
  have behind := sound.behind
  have inside := sound.inside
  have below := later.le
  obtain ⟨next, skips, stored, refines, before, further, moved⟩ :=
    skipSample_stored sound.stored sound.refines nonempty (by omega) (by omega) sound.held
  exact ⟨next, skips,
    sound.consumed stored refines (by simp [present]) before later further, moved⟩

theorem readSample_empty (refines : buffer.infoQueue.Refines fifo) (empty : fifo.queue = [])
    (holder : SampleHolder) : buffer.readSample holder = .ok (false, holder, buffer) := by
  simp [readSample, peekSample, InfoQueue.peekSample_empty refines empty]

theorem readSample_eq (refines : buffer.infoQueue.Refines fifo)
    (present : fifo.queue = sample :: queue) (readable : sample.Readable) (holder : SampleHolder) :
    ∃ (extras : SampleExtrasHolder) (crypto : CryptoInfo),
      extras.getOffset = toInt32 sample.offset ∧
      buffer.readSample holder = (do
        let holder := { holder with
          timeUs := sample.timeUs
          peekSize := sample.size
          flags := sample.flags
          durationUs := sample.durationUs
          cryptoInfo := crypto }
        let (_, holder) := holder.ensureSpaceForWrite sample.size
        let (buffer, holder) ← { buffer with extrasHolder := extras }.readDataToSampleHolder
          (toInt32 sample.offset) holder holder.peekSize
        let buffer ← buffer.skipSample
        .ok (true, holder, buffer)) := by
  have same : toInt32 (toInt32 sample.offset) = toInt32 sample.offset := by
    simp only [toInt32]
    omega
  have peeks := InfoQueue.peekSample_head refines present holder buffer.extrasHolder
  cases encrypted : sample.isEncrypted with
  | false =>
    rw [encrypted] at peeks
    have plain : hasFlag sample.flags kSampleFlagEncrypted = false := encrypted
    refine ⟨{ offset := toInt32 sample.offset }, holder.cryptoInfo, same, ?_⟩
    simp only [readSample, readCryptoInfo, peekSample, peeks, SampleHolder.isEncrypted, plain, if_true, if_false,
      Bool.false_eq_true, bind, Except.bind, SampleExtrasHolder.getOffset, same]
  | true =>
    rw [encrypted] at peeks
    have flagged : hasFlag sample.flags kSampleFlagEncrypted = true := encrypted
    have vector : ¬ sample.iv.length = 0 := fun none =>
      readable encrypted (List.eq_nil_of_length_eq_zero none)
    let extras : SampleExtrasHolder :=
      { offset := toInt32 sample.offset
        encryptionKeyId := some sample.encryptionKeyId
        iv := some sample.iv
        numBytesClear := some sample.numBytesClear
        numBytesEnc := some sample.numBytesEnc }
    refine ⟨extras, (transferCryptoInfo holder extras).cryptoInfo, same, ?_⟩
    simp only [extras, readSample, readCryptoInfo, peekSample, peeks, SampleHolder.isEncrypted, flagged, if_true, if_false,
      Option.getD_some, vector, transferCryptoInfo, bind, Except.bind, SampleExtrasHolder.getOffset,
      same]

theorem checkedWrite_fault {target : SampleHolder} {data : Bytes} {fault : Fault}
    (fails : checkedWrite target data = .error fault) : fault ≠ .emptyDataQueue := by
  rintro rfl
  cases writes : target.write data with
  | error cause =>
    simp only [checkedWrite, writes, bind, Except.bind, Except.error.injEq] at fails
    unfold SampleHolder.write at writes
    grind
  | ok result =>
    simp only [checkedWrite, writes, bind, Except.bind] at fails
    split at fails <;> cases fails

theorem readDataToSampleHolder_stored (stored : buffer.Stored stream) (k : Int)
    {position length : Int} (target : SampleHolder)
    (lower : buffer.totalBytesDropped ≤ position) (nonneg : 0 ≤ length)
    (upper : position + length ≤ stream.length)
    (held : stream.length - buffer.totalBytesDropped < 2147483648) :
    ((∃ fault, buffer.readDataToSampleHolder (position + k * 4294967296) target length =
        .error fault ∧ fault ≠ .emptyDataQueue) ∧ ¬ target.Room [] length) ∨
    ∃ next holder,
      buffer.readDataToSampleHolder (position + k * 4294967296) target length = .ok (next, holder) ∧
      next.Stored stream ∧ Kept buffer next ∧ buffer.totalBytesDropped ≤ next.totalBytesDropped ∧
      next.totalBytesDropped ≤ position + length ∧
      (target.Room [] length → holder.info = target.info ∧
        holder.content = (stream.drop position.toNat).take length.toNat) := by
  have accepts (holder : SampleHolder) (data : Bytes) (room : Int) (piece : Bytes)
      (next : SampleHolder)
      (ready : target.Room [] length → holder.Room data room ∧ holder.info = target.info)
      (fits : (piece.length : Int) ≤ room) (writes : checkedWrite holder piece = .ok next)
      (roomy : target.Room [] length) :
      next.Room (data ++ piece) (room - piece.length) ∧ next.info = target.info := by
    obtain ⟨written, accepted, roomNext, same⟩ := SampleHolder.write_room (ready roomy).1 fits
    simp only [checkedWrite, accepted, bind, Except.bind, if_true, Except.ok.injEq] at writes
    subst writes
    exact ⟨roomNext, same.trans (ready roomy).2⟩
  rcases copyBlocks_stored _ accepts stored k target [] lower nonneg upper held (Nat.le_refl _)
    (fun room => ⟨room, rfl⟩) with
    ⟨fault, fails, sink, data, room, piece, ready, fits, writes⟩ |
    ⟨next, holder, copied, storedNext, kept, further, before, ready⟩
  · refine .inl ⟨⟨fault, fails, ?_⟩, ?_⟩
    · rintro rfl
      exact checkedWrite_fault writes rfl
    · intro roomy
      obtain ⟨written, accepted, -⟩ := SampleHolder.write_room (ready roomy).1 fits
      simp [checkedWrite, accepted, bind, Except.bind] at writes
  · refine .inr ⟨next, holder, copied, storedNext, kept, further, before, ?_⟩
    intro roomy
    exact ⟨(ready roomy).2, (ready roomy).1.bytes⟩

theorem readSample_sound (sound : buffer.Sound fifo stream readPosition committedEnd)
    (present : fifo.queue = sample :: queue) (holder : SampleHolder) :
    ((∃ fault, buffer.readSample holder = .error fault ∧ fault ≠ .emptyDataQueue) ∧
      ¬ holder.Empty) ∨
    ∃ filled next, buffer.readSample holder = .ok (true, filled, next) ∧
      next.Sound (fifo.consume 1) stream fifo.nextOffset committedEnd ∧
      next.infoQueue = buffer.infoQueue.moveToNextSample.2 ∧
      (holder.Empty → Carries filled (.ofRecord stream sample)) := by
  have member : sample ∈ fifo.queue := by simp [present]
  obtain ⟨ends, later⟩ := sound.laid.next present
  obtain ⟨starts, nonneg, finishes⟩ := sound.laid.member member
  have behind := sound.behind
  have inside := sound.inside
  have below := later.le
  obtain ⟨k, congruent⟩ := toInt32_congruent sample.offset
  obtain ⟨extras, crypto, -, reads⟩ :=
    readSample_eq sound.refines present (sound.readable sample member) holder
  rw [reads]
  simp only [bind]
  let peeked : SampleHolder := { holder with
    timeUs := sample.timeUs
    peekSize := sample.size
    flags := sample.flags
    durationUs := sample.durationUs
    cryptoInfo := crypto }
  have roomy (empty : holder.Empty) :
      (peeked.ensureSpaceForWrite sample.size).2.Room [] sample.size := by
    have emptyPeeked : peeked.Empty := ⟨empty.replaces, empty.unwritten, empty.lengthZero⟩
    exact SampleHolder.ensureSpaceForWrite_room emptyPeeked nonneg
  have unchanged := SampleHolder.ensureSpaceForWrite_info peeked sample.size
  simp only [SampleHolder.info, Prod.mk.injEq] at unchanged
  obtain ⟨time, duration, flags, size⟩ := unchanged
  have copied := readDataToSampleHolder_stored (sound.stored.withExtrasHolder extras) k
    (peeked.ensureSpaceForWrite sample.size).2 (Int.le_trans behind starts) nonneg (by omega)
    sound.held
  rw [← congruent] at copied
  rcases copied with ⟨⟨fault, fails, queued⟩, cramped⟩ |
    ⟨middle, filled, copies, stored, kept, further, before, content⟩
  · refine .inl ⟨⟨fault, ?_, queued⟩, fun empty => cramped (roomy empty)⟩
    simp only [peeked] at fails size
    rw [size, fails]
    rfl
  · have held := sound.held
    simp only at further
    have refinesMiddle : middle.infoQueue.Refines fifo := by
      rw [kept.infoQueue]
      exact sound.refines
    obtain ⟨next, skips, storedNext, refines, beforeNext, furtherNext, moved⟩ :=
      skipSample_stored stored refinesMiddle (by simp [present]) (by omega) (by omega) (by omega)
    refine .inr ⟨filled, next, ?_, ?_, ?_, ?_⟩
    · simp only [peeked] at copies size
      rw [size, copies]
      simp only [Except.bind, skips]
    · exact sound.consumed storedNext refines (by simp [present]) beforeNext later (by omega)
    · rw [moved, kept.infoQueue]
    · intro empty
      obtain ⟨info, bytes⟩ := content (roomy empty)
      simp only [SampleHolder.info, Prod.mk.injEq] at info
      exact ⟨info.1.trans time, info.2.1.trans duration, info.2.2.1.trans flags, bytes⟩

theorem skipToKeyframeBefore_sound (sound : buffer.Sound fifo stream readPosition committedEnd) (timeUs : Int) :
    ∃ found next, buffer.skipToKeyframeBefore timeUs = .ok (found, next) ∧
      next.infoQueue = (buffer.infoQueue.skipToKeyframeBefore timeUs).2 ∧
      next.Sound (fifo.skipToKeyframeBefore timeUs).2 stream
        (if (buffer.infoQueue.skipToKeyframeBefore timeUs).1 = -1 then readPosition
          else (buffer.infoQueue.skipToKeyframeBefore timeUs).1) committedEnd := by
  obtain ⟨refines, offset⟩ := InfoQueue.skipToKeyframeBefore_refines timeUs sound.refines
  have nonneg := sound.nonneg
  have behind := sound.behind
  have held := sound.held
  cases key : fifo.keyframeBefore timeUs with
  | none =>
    simp only [SampleFifo.skipToKeyframeBefore, key] at refines offset ⊢
    refine ⟨false, { buffer with infoQueue := (buffer.infoQueue.skipToKeyframeBefore timeUs).2 }, ?_,
      rfl, ?_⟩
    · simp [skipToKeyframeBefore, offset]
    · rw [offset, if_pos rfl]
      exact ⟨sound.stored.withInfoQueue _, refines, behind, sound.laid, sound.inside, sound.readable,
        held⟩
  | some count =>
    obtain ⟨sample, found, -⟩ := fifo.keyframeBefore_spec timeUs count key
    obtain ⟨starts, laid⟩ := sound.laid.drop found
    simp only [SampleFifo.skipToKeyframeBefore, key, found, Option.map_some, Option.getD_some]
      at refines offset ⊢
    have real : ¬ sample.offset = -1 := by omega
    have below := laid.le
    have inside := sound.inside
    obtain ⟨next, drops, storedNext, kept, further, before, -⟩ := dropDownstreamTo_stored
      (sound.stored.withInfoQueue (buffer.infoQueue.skipToKeyframeBefore timeUs).2) 0
      (show buffer.totalBytesDropped ≤ sample.offset by omega) (by omega) (by simp only; omega)
    rw [Int.zero_mul, Int.add_zero] at drops
    refine ⟨true, next, ?_, kept.infoQueue, ?_⟩
    · simp only [skipToKeyframeBefore, offset, real, if_false, drops, bind, Except.bind]
    · rw [offset, if_neg real]
      exact sound.consumed storedNext (by rw [kept.infoQueue]; exact refines) rfl before laid further

theorem commitSample_sound (sound : buffer.Sound fifo stream readPosition committedEnd) (fresh : Fresh)
    {metadata : SampleMetadata} {newEnd : Int}
    (laid : Laid readPosition (fifo.queue ++ [metadata.record]) newEnd)
    (inside : newEnd ≤ stream.length) (readable : metadata.record.Readable) :
    (buffer.commitSample fresh metadata).Sound (fifo.commit metadata.record) stream readPosition
      newEnd := by
  refine ⟨sound.stored.withInfoQueue _, ?_, sound.behind, laid, inside, ?_, sound.held⟩
  · exact InfoQueue.commitSample_refines fresh metadata sound.refines
  · intro sample present
    rcases List.mem_append.mp present with earlier | last
    · exact sound.readable sample earlier
    · rw [List.mem_singleton.mp last]
      exact readable

theorem appendDataFixThis_sound (sound : buffer.Sound fifo stream readPosition committedEnd) {src : Bytes}
    (allowEndOfInput : Bool) (nonneg : 0 ≤ toInt32 src.length)
    (small : stream.length + min (toInt32 src.length) buffer.appendRoom - buffer.totalBytesDropped <
      2147483648) :
    ∃ (count : Nat) (next : RollingSampleBuffer),
      buffer.appendDataFixThis src allowEndOfInput = .ok (true, some (count : Int), next) ∧
      next.Sound fifo (stream ++ src.take count) readPosition committedEnd ∧
      next.infoQueue = buffer.infoQueue ∧
      (count : Int) = min (toInt32 src.length) buffer.appendRoom := by
  obtain ⟨count, next, appends, stored, kept, dropped, counted⟩ :=
    appendDataFixThis_stored sound.stored allowEndOfInput nonneg
  have narrower : toInt32 src.length ≤ src.length := toInt32_le (by omega)
  have length : (stream ++ src.take count).length = stream.length + count := by
    rw [List.length_append, List.length_take]
    omega
  have inside := sound.inside
  refine ⟨count, next, appends, ⟨stored, ?_, ?_, sound.laid, ?_, sound.readable, ?_⟩, kept.infoQueue,
    counted⟩
  · rw [kept.infoQueue]
    exact sound.refines
  · rw [dropped]
    exact sound.behind
  · omega
  · omega

theorem clear_sound (sound : buffer.Sound fifo stream readPosition committedEnd) :
    ∃ next, buffer.clear = .ok next ∧ next.Sound {} [] 0 0 ∧ next.dataQueue = [] ∧
      next.infoQueue = buffer.infoQueue.clear := by
  obtain ⟨next, clears, stored, queue, dropped, blocks⟩ := clear_stored sound.stored
  refine ⟨next, clears, ⟨stored, ?_, ?_, ?_, ?_, ?_, ?_⟩, blocks, queue⟩
  · rw [queue]
    exact InfoQueue.clear_refines sound.refines
  · exact Int.le_of_eq dropped
  · exact Int.le_refl _
  · exact Int.le_refl _
  · intro sample present
    cases present
  · simp [dropped]

theorem truncate_sound (sound : buffer.Sound fifo stream readPosition committedEnd) {index : Nat}
    {position newEnd : Int} (lower : fifo.consumed ≤ index)
    (upper : index ≤ fifo.consumed + fifo.queue.length)
    (laid : Laid readPosition (fifo.queue.take (index - fifo.consumed)) newEnd)
    (below : newEnd ≤ position) (inside : position ≤ stream.length) :
    ∃ next, { buffer with infoQueue :=
        (buffer.infoQueue.discardUpstreamSamples index).2 }.truncate position = .ok next ∧
      next.Sound (fifo.discardFrom index) (stream.take position.toNat) readPosition newEnd ∧
      next.infoQueue = (buffer.infoQueue.discardUpstreamSamples index).2 := by
  have behind := sound.behind
  have nonneg := sound.nonneg
  have above := laid.le
  obtain ⟨next, truncates, stored, kept, dropped⟩ := truncate_stored
    (sound.stored.withInfoQueue (buffer.infoQueue.discardUpstreamSamples index).2)
    (show buffer.totalBytesDropped ≤ position by omega) inside sound.held
  have held := sound.held
  have length : ((stream.take position.toNat).length : Int) = position := by
    rw [List.length_take]
    omega
  simp only at dropped
  refine ⟨next, truncates, ⟨stored, ?_, ?_, laid, ?_, ?_, ?_⟩, kept.infoQueue⟩
  · rw [kept.infoQueue]
    exact InfoQueue.discardUpstreamSamples_refines index sound.refines lower upper
  · rw [dropped]
    exact behind
  · rw [length]
    exact below
  · intro sample present
    exact sound.readable sample (List.mem_of_mem_take present)
  · rw [length, dropped]
    omega

theorem initial_sound {allocator : Allocator} {fresh : Fresh}
    (stored : (initial allocator fresh).Stored []) : (initial allocator fresh).Sound {} [] 0 0 := by
  refine ⟨stored, InfoQueue.initial_refines fresh, Int.le_refl _, Int.le_refl _, Int.le_refl _, ?_, ?_⟩
  · intro sample present
    cases present
  · simp [initial]

end RollingSampleBuffer

end NDash.Extractor

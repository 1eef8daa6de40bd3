import NDash.Extractor.RollingSampleBufferQueue
import NDash.Extractor.RollingSampleBufferSamples

set_option autoImplicit false

namespace NDash.Extractor

open Upstream

/-! Samples that bring their encryption data along in front of their payload. -/

def bigEndian16 (value : UInt16) : Bytes := [(value >>> 8).toUInt8, value.toUInt8]

def bigEndian32 (value : UInt32) : Bytes :=
  [(value >>> 24).toUInt8, (value >>> 16).toUInt8, (value >>> 8).toUInt8, value.toUInt8]

-- `subsamples` is there if the subsample flag is set.
structure InBandFields where
  timeUs : Int
  durationUs : Int
  flags : BitVec 32
  key : Bytes
  iv : Bytes
  subsamples : Option (List (UInt16 × UInt32))
  payload : Bytes
deriving DecidableEq, Repr

namespace InBandFields

def signalByte (fields : InBandFields) : UInt8 :=
  (if fields.subsamples.isSome then 0x80 else 0) ||| UInt8.ofNat fields.iv.length

def subsampleData (fields : InBandFields) : Bytes :=
  match fields.subsamples with
  | none => []
  | some pairs =>
    bigEndian16 (UInt16.ofNat pairs.length) ++
      pairs.flatMap fun (clear, encrypted) => bigEndian16 clear ++ bigEndian32 encrypted

def bytes (fields : InBandFields) : Bytes :=
  fields.signalByte :: (fields.iv ++ fields.subsampleData ++ fields.payload)

def clearSizes (fields : InBandFields) : List Int :=
  match fields.subsamples with
  | none => [0]
  | some pairs => pairs.map fun pair => pair.1.toNat

def encryptedSizes (fields : InBandFields) : List Int :=
  match fields.subsamples with
  | none => [fields.payload.length]
  | some pairs => pairs.map fun pair => pair.2.toNat

end InBandFields

-- The size of a sample is an int32_t.
structure InBandSample extends InBandFields where
  encrypted : hasFlag flags kSampleFlagEncrypted = true
  shortIv : iv.length ≤ 16
  countable : ∀ pairs, subsamples = some pairs → pairs.length < 65536
  fits : toInBandFields.bytes.length < 2147483648

structure DecodedAs (sample : InBandFields) (holder : SampleHolder) : Prop where
  iv : holder.cryptoInfo.iv.take sample.iv.length = sample.iv
  clear : holder.cryptoInfo.numBytesOfClearData = sample.clearSizes
  encrypted : holder.cryptoInfo.numBytesOfEncryptedData = sample.encryptedSizes
  key : holder.cryptoInfo.key = sample.key
  content : holder.content = sample.payload

inductive InBandOp
  | commit (sample : InBandSample)
  | read

namespace RollingSampleBuffer

-- The write loop of the extractors: it offers what is left until nothing is.
def appendAll : Nat → RollingSampleBuffer → Bytes → Except Fault RollingSampleBuffer
  | 0, _, _ => .error .diverges
  | rounds + 1, buffer, bytes =>
    if bytes = [] then .ok buffer
    else do
      let (_, count, buffer) ← buffer.appendDataFixThis bytes true
      appendAll rounds buffer (bytes.drop (count.getD 0).toNat)

def inBandMetadata (sample : InBandFields) (offset : Int) : SampleMetadata :=
  { timeUs := sample.timeUs
    durationUs := sample.durationUs
    flags := sample.flags
    offset
    size := sample.bytes.length
    encryptionKeyId := some sample.key
    iv := some [] }

def enqueue (fresh : Fresh) (buffer : RollingSampleBuffer) (sample : InBandFields) :
    Except Fault RollingSampleBuffer := do
  let start := buffer.getWritePosition
  let buffer ← appendAll (sample.bytes.length + 1) buffer sample.bytes
  .ok (buffer.commitSample fresh (inBandMetadata sample start))

def DecodesAll (fresh : Fresh) (replaces : Bool) :
    List InBandOp → RollingSampleBuffer → List InBandSample → Prop
  | [], _, _ => True
  | .commit sample :: ops, buffer, queued =>
    ∃ next, enqueue fresh buffer sample.toInBandFields = .ok next ∧
      DecodesAll fresh replaces ops next (queued ++ [sample])
  | .read :: ops, buffer, [] =>
    ∃ holder next,
      buffer.readSample { bufferReplacementEnabled := replaces } = .ok (false, holder, next) ∧
        DecodesAll fresh replaces ops next []
  | .read :: ops, buffer, sample :: queued =>
    ∃ holder next,
      buffer.readSample { bufferReplacementEnabled := replaces } = .ok (true, holder, next) ∧
        DecodedAs sample.toInBandFields holder ∧ DecodesAll fresh replaces ops next queued

end RollingSampleBuffer

def InBandOp.isCommit : InBandOp → Bool
  | .commit _ => true
  | .read => false

def readsNothing : List InBandOp → Bool
  | [] => true
  | .read :: ops => readsNothing ops
  | .commit _ :: ops => ops.all InBandOp.isCommit

namespace RollingSampleBuffer

variable {buffer next : RollingSampleBuffer} {stream : Bytes} {fifo : SampleFifo}

structure Undisturbed (before after : RollingSampleBuffer) : Prop where
  scratch : after.scratch = before.scratch
  scratchPosition : after.scratchPosition = before.scratchPosition

theorem Undisturbed.trans {first second third : RollingSampleBuffer}
    (left : Undisturbed first second) (right : Undisturbed second third) : Undisturbed first third :=
  ⟨right.scratch.trans left.scratch, right.scratchPosition.trans left.scratchPosition⟩

theorem appendDataFixThis_undisturbed {src : Bytes} {allowEndOfInput result : Bool}
    {count : Option Int}
    (appends : buffer.appendDataFixThis src allowEndOfInput = .ok (result, count, next)) :
    Undisturbed buffer next := by
  have ready : Undisturbed buffer (buffer.prepareForAppend (toInt32 src.length)).2 := by
    unfold prepareForAppend
    simp only
    split_ifs <;> exact ⟨rfl, rfl⟩
  unfold appendDataFixThis at appends
  generalize buffer.prepareForAppend (toInt32 src.length) = prepared at appends ready
  obtain ⟨length, prepared⟩ := prepared
  obtain ⟨middle, copies, rest⟩ := bind_ok appends
  have copied : Undisturbed prepared middle := by
    unfold copyToLastAllocation at copies
    split at copies
    · cases copies
    split at copies
    · cases copies
    · obtain ⟨allocator, -, done⟩ := bind_ok copies
      cases done
      exact ⟨rfl, rfl⟩
  have kept := ready.trans copied
  split at rest <;> cases rest <;> exact ⟨kept.scratch, kept.scratchPosition⟩

theorem appendRoom_positive (stored : buffer.Stored stream) : 0 < buffer.appendRoom := by
  have positive := stored.positive
  have upper := stored.offsetUpper
  unfold appendRoom
  split <;> omega

theorem appendAll_stored {rounds : Nat} {bytes : Bytes} (stored : buffer.Stored stream)
    (small : bytes.length < 2147483648) (enough : bytes.length < rounds) :
    ∃ next, appendAll rounds buffer bytes = .ok next ∧ next.Stored (stream ++ bytes) ∧
      Kept buffer next ∧ next.totalBytesDropped = buffer.totalBytesDropped ∧
      Undisturbed buffer next := by
  induction rounds generalizing buffer stream bytes with
  | zero => exact absurd enough (Nat.not_lt_zero _)
  | succ rounds ih =>
    by_cases empty : bytes = []
    · subst empty
      refine ⟨buffer, ?_, ?_, Kept.refl _, rfl, rfl, rfl⟩
      · simp [appendAll]
      · rw [List.append_nil]
        exact stored
    · have positive : 0 < bytes.length := List.length_pos_iff.mpr empty
      have narrow : toInt32 bytes.length = bytes.length := toInt32_of_range (by omega) (by omega)
      have room := appendRoom_positive stored
      obtain ⟨count, middle, appends, storedMiddle, kept, dropped, counted⟩ :=
        appendDataFixThis_stored stored true (show 0 ≤ toInt32 bytes.length by omega)
      have shorter : (bytes.drop count).length < rounds := by
        rw [List.length_drop]
        omega
      have smaller : (bytes.drop count).length < 2147483648 := by
        rw [List.length_drop]
        omega
      obtain ⟨next, appended, storedNext, keptNext, droppedNext, undisturbed⟩ :=
        ih storedMiddle smaller shorter
      refine ⟨next, ?_, ?_, kept.trans keptNext, droppedNext.trans dropped,
        (appendDataFixThis_undisturbed appends).trans undisturbed⟩
      · rw [appendAll, if_neg empty, appends]
        exact appended
      · rw [List.append_assoc, List.take_append_drop] at storedNext
        exact storedNext

def inBandRecords : Int → List InBandSample → List SampleRecord
  | _, [] => []
  | offset, sample :: samples =>
    (inBandMetadata sample.toInBandFields offset).record ::
      inBandRecords (offset + sample.bytes.length) samples

theorem inBandRecords_snoc (offset : Int) (samples : List InBandSample) (sample : InBandSample) :
    inBandRecords offset (samples ++ [sample]) = inBandRecords offset samples ++
      [(inBandMetadata sample.toInBandFields
        (offset + (samples.flatMap fun sample => sample.bytes).length)).record] := by
  induction samples generalizing offset with
  | nil => simp [inBandRecords]
  | cons first samples ih =>
    simp only [List.cons_append, inBandRecords, ih, List.flatMap_cons, List.length_append]
    rw [Int.natCast_add, Int.add_assoc]

structure Unread (buffer : RollingSampleBuffer) (samples : List InBandSample) : Prop where
  stored : buffer.Stored (samples.flatMap fun sample => sample.bytes)
  undropped : buffer.totalBytesDropped = 0
  scratch : buffer.scratch = List.replicate kInitialScratchSize 0
  scratchPosition : buffer.scratchPosition = 0
  queued : ∃ fifo, buffer.infoQueue.Refines fifo ∧ fifo.queue = inBandRecords 0 samples

theorem initial_unread {size : Nat} (positive : 0 < size) (small : size < 2147483648)
    (uninitialized : BlockId → Nat → UInt8) (fresh : Fresh) :
    (initial (.initial size uninitialized) fresh).Unread [] where
  stored := initial_stored (.initial size uninitialized) fresh rfl rfl rfl positive small
    (by intro block; simp [Allocator.initial])
  undropped := rfl
  scratch := rfl
  scratchPosition := rfl
  queued := ⟨{}, InfoQueue.initial_refines fresh, rfl⟩

theorem enqueue_unread {samples : List InBandSample} (unread : buffer.Unread samples)
    (fresh : Fresh) (sample : InBandSample) :
    ∃ next, enqueue fresh buffer sample.toInBandFields = .ok next ∧
      next.Unread (samples ++ [sample]) := by
  obtain ⟨middle, appended, stored, kept, dropped, undisturbed⟩ :=
    appendAll_stored unread.stored sample.fits (Nat.lt_succ_self _)
  obtain ⟨fifo, refines, queue⟩ := unread.queued
  refine ⟨middle.commitSample fresh
      (inBandMetadata sample.toInBandFields buffer.getWritePosition), ?_, ?_,
    dropped.trans unread.undropped, undisturbed.scratch.trans unread.scratch,
    undisturbed.scratchPosition.trans unread.scratchPosition, ?_⟩
  · simp only [enqueue, appended, bind, Except.bind]
  · rw [List.flatMap_append, List.flatMap_singleton]
    exact stored.withInfoQueue _
  · refine ⟨_, InfoQueue.commitSample_refines fresh _ (kept.infoQueue ▸ refines), ?_⟩
    rw [SampleFifo.commit, queue, inBandRecords_snoc, getWritePosition, unread.stored.written,
      Int.zero_add]

theorem releaseFrontBlocks_undisturbed {count : Nat}
    (released : releaseFrontBlocks count buffer = .ok next) : Undisturbed buffer next := by
  induction count generalizing buffer with
  | zero =>
    cases released
    exact ⟨rfl, rfl⟩
  | succ count ih =>
    unfold releaseFrontBlocks at released
    split at released
    next => cases released
    next =>
      have kept := ih released
      exact ⟨kept.scratch, kept.scratchPosition⟩

theorem read_length {allocator : Allocator} {block : BlockId} {position length : Int} {data : Bytes}
    (reads : allocator.read block position length = .ok data) : (data.length : Int) = length := by
  unfold Allocator.read at reads
  split at reads
  · cases reads
  split at reads
  next bounds =>
    obtain ⟨lower, nonneg, upper⟩ := bounds
    cases reads
    rw [List.length_take, List.length_drop]
    omega
  next => cases reads

structure CopiedTo (sink final : Bytes × Nat) (count : Nat) : Prop where
  position : final.2 = sink.2 + count
  length : final.1.length = sink.1.length
  inside : 0 < count → final.2 ≤ final.1.length
  before : final.1.take sink.2 = sink.1.take sink.2

theorem copyToVector_copiedTo {sink after : Bytes × Nat} {data : Bytes}
    (copies : copyToVector sink data = .ok after) : CopiedTo sink after data.length := by
  unfold copyToVector at copies
  split at copies
  next fits =>
    cases copies
    have grown := length_overwrite fits
    refine ⟨rfl, grown, fun _ => fits.trans grown.ge, ?_⟩
    simp only [overwrite, List.append_assoc]
    rw [List.take_append_of_le_length (by rw [List.length_take]; omega), List.take_take,
      Nat.min_self]
  next => cases copies

theorem CopiedTo.trans {first second third : Bytes × Nat} {count more : Nat}
    (left : CopiedTo first second count) (right : CopiedTo second third more) :
    CopiedTo first third (count + more) where
  position := by rw [right.position, left.position, Nat.add_assoc]
  length := right.length.trans left.length
  inside := by
    intro some
    by_cases later : 0 < more
    · exact right.inside later
    · have within := left.inside (by omega)
      rw [right.length, right.position]
      omega
  before := by
    have position := left.position
    have sooner := congrArg (List.take first.2) right.before
    rw [List.take_take, List.take_take, Nat.min_eq_left (by omega)] at sooner
    exact sooner.trans left.before

theorem copyBlocks_copiedTo {rounds : Nat} {position remaining : Int} {sink final : Bytes × Nat}
    (copies : copyBlocks copyToVector rounds position remaining buffer sink = .ok (next, final)) :
    Undisturbed buffer next ∧ CopiedTo sink final remaining.toNat := by
  induction rounds generalizing buffer position remaining sink with
  | zero =>
    unfold copyBlocks at copies
    split at copies
    next done =>
      cases copies
      rw [Int.toNat_of_nonpos done]
      exact ⟨⟨rfl, rfl⟩, rfl, rfl, by simp, rfl⟩
    next => cases copies
  | succ rounds ih =>
    unfold copyBlocks at copies
    split at copies
    next done =>
      cases copies
      rw [Int.toNat_of_nonpos done]
      exact ⟨⟨rfl, rfl⟩, rfl, rfl, by simp, rfl⟩
    next =>
      obtain ⟨middle, drops, rest⟩ := bind_ok copies
      simp only at rest
      split at rest
      next => cases rest
      next =>
        obtain ⟨data, reads, rest⟩ := bind_ok rest
        obtain ⟨written, writes, rest⟩ := bind_ok rest
        obtain ⟨undisturbed, copied⟩ := ih rest
        have length := read_length reads
        have total : data.length + (remaining - min remaining
            (middle.allocationLength - toInt32 (position - middle.totalBytesDropped))).toNat =
              remaining.toNat := by omega
        rw [← total]
        exact ⟨(releaseFrontBlocks_undisturbed drops).trans undisturbed,
          (copyToVector_copiedTo writes).trans copied⟩

theorem readDataToScratch_copiedTo {position length : Int}
    (reads : buffer.readDataToScratch position length = .ok next) :
    CopiedTo (buffer.scratch, buffer.scratchPosition) (next.scratch, next.scratchPosition)
      length.toNat := by
  obtain ⟨⟨middle, sink⟩, copies, rest⟩ := bind_ok reads
  cases rest
  exact (copyBlocks_copiedTo copies).2

theorem readData_undisturbed {position length : Int} {target result : Bytes}
    (reads : buffer.readData position target length = .ok (next, result)) :
    Undisturbed buffer next := by
  obtain ⟨⟨middle, sink⟩, copies, rest⟩ := bind_ok reads
  cases rest
  exact (copyBlocks_copiedTo copies).1

-- The first byte ever read into the scratch buffer lands where the signal byte is looked for.
theorem readDataToScratch_signal {signal : UInt8} {later : Bytes}
    (stored : buffer.Stored (signal :: later)) (undropped : buffer.totalBytesDropped = 0)
    (scratch : buffer.scratch = List.replicate kInitialScratchSize 0)
    (position : buffer.scratchPosition = 0) (reads : buffer.readDataToScratch 0 1 = .ok next) :
    next.scratch.take 1 = [signal] ∧ next.scratch.length = kInitialScratchSize ∧
      next.scratchPosition = 1 := by
  have positive := stored.positive
  obtain ⟨block, rest, blocks, front⟩ : ∃ block rest, buffer.dataQueue = block :: rest ∧
      buffer.allocator.read block 0 1 = .ok [signal] := by
    have held : (0 : Int) + 1 ≤ (signal :: later).length := by
      rw [List.length_cons]
      omega
    obtain ⟨block, rest, blocks, front⟩ := stored.read_front
      (show buffer.totalBytesDropped ≤ 0 by omega) (show (0 : Int) < 1 by omega) held (by omega)
    rw [undropped] at front
    exact ⟨block, rest, blocks, front⟩
  have drops : buffer.dropDownstreamTo 0 = .ok buffer := by
    simp [dropDownstreamTo, undropped, toInt32, releaseFrontBlocks]
  have inBlock : toInt32 (0 - buffer.totalBytesDropped) = 0 := by
    rw [undropped]
    rfl
  have single : min 1 (buffer.allocationLength - 0) = 1 := by omega
  have copied : copyBlocks copyToVector 1 0 1 buffer (buffer.scratch, buffer.scratchPosition) =
      .ok (buffer, overwrite buffer.scratch 0 [signal], 1) := by
    rw [copyBlocks, if_neg (by decide)]
    simp only [drops, bind, Except.bind, blocks, inBlock, single, front, scratch, position]
    rfl
  rw [readDataToScratch, show (1 : Int).toNat = 1 from rfl, copied] at reads
  cases reads
  rw [scratch]
  exact ⟨rfl, rfl, rfl⟩

theorem signalByte_flag (fields : InBandFields) (short : fields.iv.length ≤ 16) :
    decide (fields.signalByte &&& 0x80 ≠ 0) = fields.subsamples.isSome ∧
      (fields.subsamples.isSome = true → 128 ≤ fields.signalByte.toNat) := by
  have every : ∀ length < 17, ∀ flagged : Bool,
      decide (((if flagged then 0x80 else 0) ||| UInt8.ofNat length) &&& 0x80 ≠ 0) = flagged ∧
        (flagged = true →
          128 ≤ ((if flagged then 0x80 else 0) ||| UInt8.ofNat length).toNat) := by
    decide
  exact every fields.iv.length (by omega) fields.subsamples.isSome

-- The count is read with the signal byte, which is still in front, as its high byte.
theorem readSubsampleCount_stale {offset last : Int} {count : Int} {signal : UInt8}
    (front : buffer.scratch.take 1 = [signal]) (size : buffer.scratch.length = kInitialScratchSize)
    (position : buffer.scratchPosition = 1)
    (reads : buffer.readSubsampleCount offset true = .ok (next, last, count)) :
    (256 * signal.toNat : Int) ≤ count ∧ next.scratchPosition = 2 ∧
      next.scratch.length = kInitialScratchSize := by
  obtain ⟨middle, scratchRead, rest⟩ := bind_ok reads
  obtain ⟨⟨short, after⟩, shortRead, rest⟩ := bind_ok rest
  cases rest
  obtain ⟨⟨value, read⟩, unsignedRead, rest⟩ := bind_ok shortRead
  cases rest
  have copied := readDataToScratch_copiedTo scratchRead
  have length : middle.scratch.length = 32 := copied.length.trans size
  have kept : middle.scratch.take 1 = [signal] := by
    have before := copied.before
    rw [position] at before
    exact before.trans front
  obtain ⟨second, later, scratch⟩ : ∃ second later, middle.scratch = signal :: second :: later := by
    match found : middle.scratch with
    | [] => simp [found] at length
    | [only] => simp [found] at length
    | first :: second :: later =>
      rw [found] at kept
      cases kept
      exact ⟨second, later, rfl⟩
  unfold readUnsignedFromScratch at unsignedRead
  split at unsignedRead
  next =>
    cases unsignedRead
    refine ⟨?_, rfl, length⟩
    simp [scratch]
    omega
  next => cases unsignedRead

-- The reserve leaves no room for the two bytes in front of the position.
theorem readSubsampleData_overruns {offset count : Int} {clear encrypted : List Int}
    (many : 6 ≤ count) (size : buffer.scratch.length = kInitialScratchSize)
    (position : buffer.scratchPosition = 2) {result : RollingSampleBuffer × Int × List Int × List Int} :
    buffer.readSubsampleData offset true count clear encrypted ≠ .ok result := by
  intro reads
  obtain ⟨middle, scratchRead, rest⟩ := bind_ok reads
  have copied := readDataToScratch_copiedTo scratchRead
  have enough := copied.inside (by omega)
  have reached := copied.position
  have length := copied.length
  have grows : buffer.scratch.length < (6 * count).toNat := by
    rw [size, kInitialScratchSize]
    omega
  have room : (buffer.ensureScratchCapacity (6 * count).toNat).scratch.length =
      (6 * count).toNat := by
    rw [ensureScratchCapacity, if_pos grows]
    simp [kInitialScratchSize] at size grows ⊢
    omega
  have begins : (buffer.ensureScratchCapacity (6 * count).toNat).scratchPosition = 2 := by
    rw [ensureScratchCapacity, if_pos grows]
    exact position
  dsimp only at enough reached length
  omega

/-- The first sample that is read is never decoded: without subsamples its sizes are left empty, and
with them the scratch buffer is overrun. -/
theorem readEncryptionData_first {sample : InBandSample} {samples : List InBandSample}
    (unread : buffer.Unread (sample :: samples)) {extrasHolder : SampleExtrasHolder}
    (start : extrasHolder.getOffset = 0) {holder filled : SampleHolder}
    (reads : { buffer with extrasHolder }.readEncryptionData holder = .ok (filled, next)) :
    filled.cryptoInfo.numBytesOfClearData = [] ∧ sample.subsamples = none := by
  obtain ⟨signal, signalRead, rest⟩ := bind_ok reads
  obtain ⟨⟨vector, iv⟩, vectorRead, rest⟩ := bind_ok rest
  obtain ⟨⟨counted, offset, count⟩, countRead, rest⟩ := bind_ok rest
  obtain ⟨⟨sized, last, sizes⟩, sizesRead, rest⟩ := bind_ok rest
  cases rest
  rw [start] at signalRead
  have stored := unread.stored.withExtrasHolder extrasHolder
  rw [List.flatMap_cons, InBandFields.bytes, List.cons_append] at stored
  obtain ⟨front, size, position⟩ := readDataToScratch_signal stored unread.undropped unread.scratch
    unread.scratchPosition signalRead
  have signalByte : signal.scratch.headD 0 = sample.signalByte := by
    cases found : signal.scratch with
    | nil => simp [found] at front
    | cons first later =>
      rw [found] at front
      cases front
      rfl
  obtain ⟨flag, high⟩ := signalByte_flag sample.toInBandFields sample.shortIv
  rw [signalByte, flag] at sizesRead countRead
  cases flagged : sample.subsamples.isSome with
  | true =>
    exfalso
    rw [flagged] at sizesRead countRead
    have undisturbed := readData_undisturbed vectorRead
    rw [← undisturbed.scratch] at front size
    obtain ⟨many, two, same⟩ := readSubsampleCount_stale front size
      (undisturbed.scratchPosition.trans position) countRead
    have marked := high flagged
    exact readSubsampleData_overruns (by omega) same two sizesRead
  | false =>
    rw [flagged] at sizesRead
    cases sizesRead
    exact ⟨rfl, Option.isNone_iff_eq_none.mp (Option.isSome_eq_false_iff.mp flagged)⟩

theorem ensureSpaceForWrite_cryptoInfo (holder : SampleHolder) (length : Int) :
    (holder.ensureSpaceForWrite length).2.cryptoInfo = holder.cryptoInfo := by
  unfold SampleHolder.ensureSpaceForWrite
  cases holder.buffer with
  | none => rfl
  | some old =>
    by_cases enough : holder.bufferLen - holder.writtenSize ≥ holder.writtenSize + length
    · simp [enough]
    · cases replacement : holder.createReplacementBuffer (holder.writtenSize + length) <;>
        simp [enough, replacement]

theorem checkedWrite_cryptoInfo {target written : SampleHolder} {data : Bytes}
    (writes : checkedWrite target data = .ok written) : written.cryptoInfo = target.cryptoInfo := by
  obtain ⟨⟨accepted, after⟩, first, rest⟩ := bind_ok writes
  have kept : after.cryptoInfo = target.cryptoInfo := by
    unfold SampleHolder.write at first
    grind
  dsimp only at rest
  split at rest <;> cases rest
  exact kept

theorem readSample_first {sample : InBandSample} {samples : List InBandSample}
    (unread : buffer.Unread (sample :: samples)) {holder filled : SampleHolder} {found : Bool}
    (reads : buffer.readSample holder = .ok (found, filled, next)) :
    ¬ DecodedAs sample.toInBandFields filled := by
  intro decoded
  obtain ⟨fifo, refines, queue⟩ := unread.queued
  have peeks := InfoQueue.peekSample_head refines queue holder buffer.extrasHolder
  have encrypted : (inBandMetadata sample.toInBandFields 0).record.isEncrypted = true :=
    sample.encrypted
  have flagged : hasFlag (inBandMetadata sample.toInBandFields 0).record.flags
    kSampleFlagEncrypted = true := sample.encrypted
  rw [encrypted] at peeks
  simp only [readSample, peekSample, peeks, readCryptoInfo, SampleHolder.isEncrypted, flagged,
    if_true] at reads
  obtain ⟨⟨marked, middle⟩, decrypts, rest⟩ := bind_ok reads
  obtain ⟨⟨after, written⟩, copies, rest⟩ := bind_ok rest
  obtain ⟨last, skips, rest⟩ := bind_ok rest
  cases rest
  obtain ⟨empty, plain⟩ := readEncryptionData_first unread rfl decrypts
  have kept := (copyBlocks_preserves (fun target => target.cryptoInfo = marked.cryptoInfo)
    (fun target data after same writes => (checkedWrite_cryptoInfo writes).trans same)
    (ensureSpaceForWrite_cryptoInfo _ _) copies).2
  have clear := decoded.clear
  rw [kept, empty, InBandFields.clearSizes, plain] at clear
  cases clear

theorem decodesAll_commit {fresh : Fresh} {replaces : Bool} {ops : List InBandOp}
    {sample : InBandSample} {next : RollingSampleBuffer} {queued : List InBandSample}
    (enqueued : enqueue fresh buffer sample.toInBandFields = .ok next) :
    DecodesAll fresh replaces (.commit sample :: ops) buffer queued ↔
      DecodesAll fresh replaces ops next (queued ++ [sample]) := by
  constructor
  · rintro ⟨other, same, decodes⟩
    cases enqueued.symm.trans same
    exact decodes
  · intro decodes
    exact ⟨next, enqueued, decodes⟩

theorem decodesAll_pending (fresh : Fresh) (replaces : Bool) (ops : List InBandOp)
    {sample : InBandSample} {samples : List InBandSample}
    (unread : buffer.Unread (sample :: samples)) :
    DecodesAll fresh replaces ops buffer (sample :: samples) ↔ ops.all InBandOp.isCommit = true := by
  induction ops generalizing buffer samples with
  | nil => simp [DecodesAll]
  | cons op ops ih =>
    cases op with
    | commit added =>
      obtain ⟨next, enqueued, unreadNext⟩ := enqueue_unread unread fresh added
      rw [List.cons_append] at unreadNext
      rw [decodesAll_commit enqueued]
      exact ih unreadNext
    | read =>
      constructor
      · rintro ⟨holder, next, reads, decoded, -⟩
        exact absurd decoded (readSample_first unread reads)
      · intro commits
        cases commits

theorem decodesAll_idle (fresh : Fresh) (replaces : Bool) (ops : List InBandOp)
    (unread : buffer.Unread []) :
    DecodesAll fresh replaces ops buffer [] ↔ readsNothing ops = true := by
  induction ops generalizing buffer with
  | nil => simp [DecodesAll, readsNothing]
  | cons op ops ih =>
    cases op with
    | commit sample =>
      obtain ⟨next, enqueued, unreadNext⟩ := enqueue_unread unread fresh sample
      rw [decodesAll_commit enqueued]
      exact decodesAll_pending fresh replaces ops unreadNext
    | read =>
      obtain ⟨fifo, refines, queue⟩ := unread.queued
      have reads := readSample_empty refines queue { bufferReplacementEnabled := replaces }
      have later := ih unread
      constructor
      · rintro ⟨holder, next, same, decodes⟩
        cases reads.symm.trans same
        exact later.mp decodes
      · intro nothing
        exact ⟨_, buffer, reads, later.mpr nothing⟩

/-- In-band encryption data is never decoded: the property holds only of the runs that read none. -/
theorem decodesAll_iff_readsNothing {size : Nat} (positive : 0 < size) (small : size < 2147483648)
    (uninitialized : BlockId → Nat → UInt8) (fresh : Fresh) (replaces : Bool)
    (ops : List InBandOp) :
    DecodesAll fresh replaces ops (initial (.initial size uninitialized) fresh) [] ↔
      readsNothing ops = true :=
  decodesAll_idle fresh replaces ops (initial_unread positive small uninitialized fresh)

def singleSample : InBandSample where
  timeUs := 0
  durationUs := 0
  flags := kSampleFlagEncrypted
  key := [1]
  iv := [1, 2, 3, 4, 5, 6, 7, 8]
  subsamples := none
  payload := [10, 11, 12, 13, 14, 15, 16, 17]
  encrypted := by decide
  shortIv := by decide
  countable := by simp
  fits := by decide

theorem decodesAll_iff_readsNothing_single :
    DecodesAll .zero true [.commit singleSample] (initial (.initial 4 fun _ _ => 0) .zero) [] ∧
      ¬ DecodesAll .zero true [.commit singleSample, .read]
        (initial (.initial 4 fun _ _ => 0) .zero) [] := by
  refine ⟨(decodesAll_iff_readsNothing (by decide) (by decide) _ _ _ _).mpr rfl, ?_⟩
  intro decodes
  exact absurd ((decodesAll_iff_readsNothing (by decide) (by decide) _ _ _ _).mp decodes)
    (by decide)

-- The sample is in one block; its two lists of sizes are empty instead of having one size each.
theorem not_decodesAll_single :
    ¬ DecodesAll .zero true [.commit singleSample, .read]
      (initial (.initial 1024 fun _ _ => 0) .zero) [] := by
  rw [decodesAll_idle _ _ _ (initial_unread (by decide) (by decide) _ _)]
  decide

end RollingSampleBuffer

end NDash.Extractor

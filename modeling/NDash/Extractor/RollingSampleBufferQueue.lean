import NDash.Extractor.RollingSampleBuffer
import NDash.Extractor.InfoQueueFifo

set_option autoImplicit false

namespace NDash.Extractor.RollingSampleBuffer

open Upstream

variable {buffer next : RollingSampleBuffer}

theorem releaseFrontBlocks_infoQueue {count : Nat}
    (released : releaseFrontBlocks count buffer = .ok next) : next.infoQueue = buffer.infoQueue := by
  induction count generalizing buffer with
  | zero =>
    cases released
    rfl
  | succ count ih =>
    unfold releaseFrontBlocks at released
    split at released
    next => cases released
    next =>
      have same := ih released
      exact same

theorem releaseBackBlocks_infoQueue {count : Nat}
    (released : releaseBackBlocks count buffer = .ok next) : next.infoQueue = buffer.infoQueue := by
  induction count generalizing buffer with
  | zero =>
    cases released
    rfl
  | succ count ih =>
    obtain ⟨middle, first, rest⟩ := bind_ok released
    unfold releaseBack at first
    split at first
    next => cases first
    next =>
      cases first
      have same := ih rest
      exact same

theorem dropDownstreamTo_infoQueue {position : Int}
    (drops : buffer.dropDownstreamTo position = .ok next) : next.infoQueue = buffer.infoQueue :=
  releaseFrontBlocks_infoQueue drops

theorem releaseUpstreamFrom_infoQueue {position : Int}
    (releases : buffer.releaseUpstreamFrom position = .ok next) : next.infoQueue = buffer.infoQueue := by
  obtain ⟨middle, released, rest⟩ := bind_ok releases
  cases rest
  have same := releaseBackBlocks_infoQueue released
  exact same

theorem clear_infoQueue (clears : buffer.clear = .ok next) :
    next.infoQueue = buffer.infoQueue.clear := by
  obtain ⟨middle, released, rest⟩ := bind_ok clears
  cases rest
  have same := releaseBackBlocks_infoQueue released
  exact same

theorem discardUpstreamSamples_infoQueue {index : Nat}
    (discards : buffer.discardUpstreamSamples index = .ok next) :
    next.infoQueue = (buffer.infoQueue.discardUpstreamSamples index).2 := by
  obtain ⟨left, released, rest⟩ := bind_ok discards
  split at rest
  next => cases rest
  next =>
    cases rest
    have same := releaseUpstreamFrom_infoQueue released
    exact same

theorem skipSample_infoQueue (skips : buffer.skipSample = .ok next) :
    next.infoQueue = buffer.infoQueue.moveToNextSample.2 := by
  have same := dropDownstreamTo_infoQueue skips
  exact same

theorem skipToKeyframeBefore_infoQueue {timeUs : Int} {found : Bool}
    (skips : buffer.skipToKeyframeBefore timeUs = .ok (found, next)) :
    next.infoQueue = (buffer.infoQueue.skipToKeyframeBefore timeUs).2 ∧
      (found = true ↔ (buffer.infoQueue.skipToKeyframeBefore timeUs).1 ≠ -1) := by
  unfold skipToKeyframeBefore at skips
  simp only at skips
  split at skips
  next missing =>
    cases skips
    exact ⟨rfl, by simp [missing]⟩
  next present =>
    obtain ⟨middle, drops, rest⟩ := bind_ok skips
    cases rest
    have same := dropDownstreamTo_infoQueue drops
    exact ⟨same, by simp [present]⟩

theorem copyToLastAllocation_infoQueue {src : Bytes} {length : Int}
    (copies : buffer.copyToLastAllocation src length = .ok next) :
    next.infoQueue = buffer.infoQueue := by
  unfold copyToLastAllocation at copies
  split at copies
  next => cases copies
  next =>
    split at copies
    next => cases copies
    next =>
      obtain ⟨allocator, -, rest⟩ := bind_ok copies
      cases rest
      rfl

theorem appendDataFixThis_infoQueue {src : Bytes} {allowEndOfInput result : Bool} {count : Option Int}
    (appends : buffer.appendDataFixThis src allowEndOfInput = .ok (result, count, next)) :
    next.infoQueue = buffer.infoQueue := by
  have ready : (buffer.prepareForAppend (toInt32 src.length)).2.infoQueue = buffer.infoQueue := by
    unfold prepareForAppend
    simp only
    split_ifs <;> rfl
  unfold appendDataFixThis at appends
  generalize buffer.prepareForAppend (toInt32 src.length) = prepared at appends ready
  obtain ⟨length, prepared⟩ := prepared
  obtain ⟨middle, copies, rest⟩ := bind_ok appends
  have copied := (copyToLastAllocation_infoQueue copies).trans ready
  split at rest <;> cases rest <;> exact copied

theorem copyBlocks_preserves {σ : Type} {write : σ → Bytes → Except Fault σ} (keeps : σ → Prop)
    (writes : ∀ sink data after, keeps sink → write sink data = .ok after → keeps after)
    {rounds : Nat} {position remaining : Int} {sink final : σ} (start : keeps sink)
    (copies : copyBlocks write rounds position remaining buffer sink = .ok (next, final)) :
    next.infoQueue = buffer.infoQueue ∧ keeps final := by
  induction rounds generalizing buffer position remaining sink with
  | zero =>
    unfold copyBlocks at copies
    split at copies
    next =>
      cases copies
      exact ⟨rfl, start⟩
    next => cases copies
  | succ rounds ih =>
    unfold copyBlocks at copies
    split at copies
    next =>
      cases copies
      exact ⟨rfl, start⟩
    next =>
      obtain ⟨middle, drops, rest⟩ := bind_ok copies
      simp only at rest
      split at rest
      next => cases rest
      next =>
        obtain ⟨data, -, rest⟩ := bind_ok rest
        obtain ⟨written, written_ok, rest⟩ := bind_ok rest
        obtain ⟨same, kept⟩ := ih (writes _ _ _ start written_ok) rest
        exact ⟨same.trans (dropDownstreamTo_infoQueue drops), kept⟩

theorem readData_infoQueue {position length : Int} {target result : Bytes}
    (reads : buffer.readData position target length = .ok (next, result)) :
    next.infoQueue = buffer.infoQueue := by
  obtain ⟨middle, copies, rest⟩ := bind_ok reads
  cases rest
  exact (copyBlocks_preserves (fun _ => True) (fun _ _ _ _ _ => trivial) trivial copies).1

theorem readDataToScratch_infoQueue {position length : Int}
    (reads : buffer.readDataToScratch position length = .ok next) :
    next.infoQueue = buffer.infoQueue := by
  obtain ⟨middle, copies, rest⟩ := bind_ok reads
  cases rest
  exact (copyBlocks_preserves (fun _ => True) (fun _ _ _ _ _ => trivial) trivial copies).1

theorem readUnsignedFromScratch_infoQueue {count value : Nat}
    (reads : buffer.readUnsignedFromScratch count = .ok (value, next)) :
    next.infoQueue = buffer.infoQueue := by
  unfold readUnsignedFromScratch at reads
  split at reads <;> cases reads
  rfl

theorem readUnsignedShortFromScratch_infoQueue {value : Int}
    (reads : buffer.readUnsignedShortFromScratch = .ok (value, next)) :
    next.infoQueue = buffer.infoQueue := by
  obtain ⟨⟨found, after⟩, first, rest⟩ := bind_ok reads
  simp only [Except.ok.injEq, Prod.mk.injEq] at rest
  rw [← rest.2, readUnsignedFromScratch_infoQueue first]

theorem readUnsignedIntToIntFromScratch_infoQueue {value : Int}
    (reads : buffer.readUnsignedIntToIntFromScratch = .ok (value, next)) :
    next.infoQueue = buffer.infoQueue := by
  obtain ⟨⟨found, after⟩, first, rest⟩ := bind_ok reads
  simp only [Except.ok.injEq, Prod.mk.injEq] at rest
  rw [← rest.2, readUnsignedFromScratch_infoQueue first]

theorem readSubsampleSizes_infoQueue {count left : Nat} {clear encrypted : List Int}
    {sizes : List Int × List Int}
    (reads : readSubsampleSizes count left buffer clear encrypted = .ok (next, sizes)) :
    next.infoQueue = buffer.infoQueue := by
  induction left generalizing buffer clear encrypted with
  | zero =>
    cases reads
    rfl
  | succ left ih =>
    obtain ⟨⟨short, middle⟩, first, rest⟩ := bind_ok reads
    obtain ⟨⟨long, after⟩, second, rest⟩ := bind_ok rest
    exact (ih rest).trans ((readUnsignedIntToIntFromScratch_infoQueue second).trans
      (readUnsignedShortFromScratch_infoQueue first))

theorem readSubsampleCount_infoQueue {offset : Int} {subsampleEncryption : Bool}
    {result : Int × Int}
    (reads : buffer.readSubsampleCount offset subsampleEncryption = .ok (next, result)) :
    next.infoQueue = buffer.infoQueue := by
  unfold readSubsampleCount at reads
  split at reads
  next =>
    obtain ⟨scratch, scratchRead, rest⟩ := bind_ok reads
    obtain ⟨⟨short, after⟩, shortRead, rest⟩ := bind_ok rest
    cases rest
    have same := readUnsignedShortFromScratch_infoQueue shortRead
    have read := readDataToScratch_infoQueue scratchRead
    exact same.trans read
  next =>
    cases reads
    rfl

theorem readSubsampleData_infoQueue {offset count : Int} {subsampleEncryption : Bool}
    {clear encrypted : List Int} {result : Int × List Int × List Int}
    (reads : buffer.readSubsampleData offset subsampleEncryption count clear encrypted =
      .ok (next, result)) : next.infoQueue = buffer.infoQueue := by
  unfold readSubsampleData at reads
  split at reads
  next =>
    obtain ⟨scratch, scratchRead, rest⟩ := bind_ok reads
    obtain ⟨⟨after, found⟩, subsamples, rest⟩ := bind_ok rest
    cases rest
    have grown (capacity : Nat) :
        (buffer.ensureScratchCapacity capacity).infoQueue = buffer.infoQueue := by
      unfold ensureScratchCapacity
      split_ifs <;> rfl
    have same := readSubsampleSizes_infoQueue subsamples
    have read := readDataToScratch_infoQueue scratchRead
    exact same.trans (read.trans (grown _))
  next =>
    cases reads
    rfl

theorem readEncryptionData_infoQueue {holder filled : SampleHolder}
    (reads : buffer.readEncryptionData holder = .ok (filled, next)) :
    next.infoQueue = buffer.infoQueue ∧ filled.timeUs = holder.timeUs ∧
      filled.durationUs = holder.durationUs ∧ filled.flags = holder.flags := by
  obtain ⟨signal, signalRead, rest⟩ := bind_ok reads
  obtain ⟨⟨vector, iv⟩, vectorRead, rest⟩ := bind_ok rest
  obtain ⟨⟨counted, offset, count⟩, countRead, rest⟩ := bind_ok rest
  obtain ⟨⟨sized, last, sizes⟩, sizesRead, rest⟩ := bind_ok rest
  cases rest
  refine ⟨?_, rfl, rfl, rfl⟩
  calc sized.infoQueue
    _ = counted.infoQueue := readSubsampleData_infoQueue sizesRead
    _ = vector.infoQueue := readSubsampleCount_infoQueue countRead
    _ = signal.infoQueue := readData_infoQueue vectorRead
    _ = buffer.infoQueue := readDataToScratch_infoQueue signalRead

theorem readCryptoInfo_infoQueue {holder marked : SampleHolder}
    (reads : buffer.readCryptoInfo holder = .ok (marked, next)) :
    next.infoQueue = buffer.infoQueue ∧ marked.timeUs = holder.timeUs ∧
      marked.durationUs = holder.durationUs ∧ marked.flags = holder.flags := by
  unfold readCryptoInfo at reads
  split at reads
  next =>
    split at reads
    next => exact readEncryptionData_infoQueue reads
    next =>
      cases reads
      exact ⟨rfl, rfl, rfl, rfl⟩
  next =>
    cases reads
    exact ⟨rfl, rfl, rfl, rfl⟩

def Labelled (holder : SampleHolder) (sample : SampleRecord) : Prop :=
  holder.timeUs = sample.timeUs ∧ holder.durationUs = sample.durationUs ∧ holder.flags = sample.flags

theorem readDataToSampleHolder_infoQueue {position length : Int} {target filled : SampleHolder}
    {sample : SampleRecord} (label : Labelled target sample)
    (reads : buffer.readDataToSampleHolder position target length = .ok (next, filled)) :
    next.infoQueue = buffer.infoQueue ∧ Labelled filled sample := by
  refine copyBlocks_preserves (fun holder => Labelled holder sample) ?_ label reads
  intro holder data after labelled writes
  obtain ⟨⟨written, result⟩, wrote, rest⟩ := bind_ok writes
  have same := SampleHolder.write_info wrote
  simp only [SampleHolder.info, Prod.mk.injEq] at same
  simp only at rest
  split_ifs at rest
  cases rest
  exact ⟨same.1.trans labelled.1, same.2.1.trans labelled.2.1, same.2.2.1.trans labelled.2.2⟩

theorem readSample_infoQueue {fifo : SampleFifo} (refines : buffer.infoQueue.Refines fifo)
    {holder filled : SampleHolder} {found : Bool}
    (reads : buffer.readSample holder = .ok (found, filled, next)) :
    (found = false ∧ fifo.queue = [] ∧ next.infoQueue = buffer.infoQueue) ∨
    (found = true ∧ next.infoQueue = buffer.infoQueue.moveToNextSample.2 ∧
      ∃ sample rest, fifo.queue = sample :: rest ∧ Labelled filled sample) := by
  cases present : fifo.queue with
  | nil =>
    simp only [readSample, peekSample, InfoQueue.peekSample_empty refines present] at reads
    cases reads
    exact .inl ⟨rfl, rfl, rfl⟩
  | cons sample rest =>
    have peeks := InfoQueue.peekSample_head refines present holder buffer.extrasHolder
    simp only [readSample, peekSample, peeks, if_true] at reads
    obtain ⟨⟨marked, middle⟩, encryption, reads⟩ := bind_ok reads
    obtain ⟨⟨after, copied⟩, copies, reads⟩ := bind_ok reads
    obtain ⟨last, skips, reads⟩ := bind_ok reads
    cases reads
    obtain ⟨kept, time, duration, flags⟩ := readCryptoInfo_infoQueue encryption
    have label : Labelled marked sample := ⟨time, duration, flags⟩
    have info := SampleHolder.ensureSpaceForWrite_info marked marked.peekSize
    simp only [SampleHolder.info, Prod.mk.injEq] at info
    have spaced : Labelled (marked.ensureSpaceForWrite marked.peekSize).2 sample :=
      ⟨info.1.trans label.1, info.2.1.trans label.2.1, info.2.2.1.trans label.2.2⟩
    obtain ⟨same, labelled⟩ := readDataToSampleHolder_infoQueue spaced copies
    refine .inr ⟨rfl, ?_, sample, rest, rfl, labelled⟩
    rw [skipSample_infoQueue skips, same, kept]

-- Where ReadSample begins to read: the offset that PeekSample has put in the extras holder.
def readOffset (buffer : RollingSampleBuffer) (holder : SampleHolder) : Int :=
  (buffer.peekSample holder).2.2.extrasHolder.getOffset

theorem readOffset_eq {fifo : SampleFifo} (refines : buffer.infoQueue.Refines fifo) {sample : SampleRecord}
    {rest : List SampleRecord} (present : fifo.queue = sample :: rest) (holder : SampleHolder) :
    buffer.readOffset holder = toInt32 sample.offset := by
  have peeks := InfoQueue.peekSample_head refines present holder buffer.extrasHolder
  have twice : toInt32 (toInt32 sample.offset) = toInt32 sample.offset := by
    simpa using toInt32_add sample.offset 0
  simp only [readOffset, peekSample, peeks, SampleExtrasHolder.getOffset]
  split <;> exact twice

/-- The offset of a sample passes the extras holder unchanged only below 2^31. -/
theorem readOffset_eq_committed_iff (fresh : Fresh) (fifo : SampleFifo) (buffer : RollingSampleBuffer)
    (reachable : Machine.Reachable (infoQueueSystem fresh) (buffer.infoQueue, fifo))
    (sample : SampleRecord) (rest : List SampleRecord) (present : fifo.queue = sample :: rest)
    (nonneg : 0 ≤ sample.offset) (holder : SampleHolder) :
    buffer.readOffset holder = sample.offset ↔ sample.offset < 2147483648 := by
  rw [readOffset_eq (infoQueueSystem_refines fresh reachable) present]
  exact toInt32_eq_self_iff nonneg

def committedAt (offset : Int) : RollingSampleBuffer :=
  (initial (Allocator.initial 8 fun _ _ => 0) .zero).commitSample .zero { keySample with offset }

theorem committedAt_reachable (offset : Int) :
    Machine.Reachable (infoQueueSystem .zero) ((committedAt offset).infoQueue,
      { committed := 1, queue := [SampleMetadata.record { keySample with offset }] }) :=
  (Machine.Reachable.start (infoQueueSystem .zero) rfl).next
    (.commitSample { keySample with offset }) ⟨trivial, rfl⟩

theorem readOffset_eq_committed_below : (committedAt 2147483647).readOffset { bufferReplacementEnabled := true } = 2147483647 :=
  (readOffset_eq_committed_iff .zero _ (committedAt 2147483647) (committedAt_reachable 2147483647) _ []
    rfl (by decide) _).mpr (by decide)

theorem readOffset_truncated : (committedAt 2147483648).readOffset { bufferReplacementEnabled := true } ≠ 2147483648 := by
  rw [readOffset_eq (infoQueueSystem_refines .zero (committedAt_reachable 2147483648)) rfl]
  decide

end NDash.Extractor.RollingSampleBuffer

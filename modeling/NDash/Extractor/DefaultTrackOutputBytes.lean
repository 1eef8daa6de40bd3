import NDash.Extractor.DefaultTrackOutput
import NDash.Extractor.RollingSampleBufferInBand

set_option autoImplicit false

namespace NDash.Extractor

open Upstream

variable {fifo : SampleFifo} {stream : Bytes} {readPosition committedEnd : Int}

namespace RollingSampleBuffer

variable {buffer next : RollingSampleBuffer}

theorem Sound.peekSample (sound : buffer.Sound fifo stream readPosition committedEnd)
    (holder : SampleHolder) :
    (buffer.peekSample holder).2.2.Sound fifo stream readPosition committedEnd :=
  ⟨sound.stored.withExtrasHolder _, sound.refines, sound.behind, sound.laid, sound.inside,
    sound.readable, sound.held⟩

def cryptoOf (holder : SampleHolder) (sample : SampleRecord) : CryptoInfo :=
  if sample.isEncrypted then
    { numSubSamples := sample.numBytesClear.length
      numBytesOfClearData := holder.cryptoInfo.numBytesOfClearData ++ sample.numBytesClear
      numBytesOfEncryptedData := holder.cryptoInfo.numBytesOfEncryptedData ++ sample.numBytesEnc
      key := sample.encryptionKeyId
      iv := holder.cryptoInfo.iv ++ sample.iv }
  else holder.cryptoInfo

theorem readSample_cryptoInfo {sample : SampleRecord} {rest : List SampleRecord}
    (refines : buffer.infoQueue.Refines fifo) (present : fifo.queue = sample :: rest)
    (readable : sample.Readable) {holder filled : SampleHolder} {found : Bool}
    (reads : buffer.readSample holder = .ok (found, filled, next)) :
    filled.cryptoInfo = cryptoOf holder sample := by
  have peeks := InfoQueue.peekSample_head refines present holder buffer.extrasHolder
  -- Neither the copy nor the room it makes touches what was taken over before.
  have keeps {marked : SampleHolder} {middle after : RollingSampleBuffer}
      {written : SampleHolder} {position room length : Int}
      (copies : middle.readDataToSampleHolder position (marked.ensureSpaceForWrite room).2 length =
        .ok (after, written)) :
      written.cryptoInfo = marked.cryptoInfo :=
    (copyBlocks_preserves (fun target => target.cryptoInfo = marked.cryptoInfo)
      (fun target data after same writes => (checkedWrite_cryptoInfo writes).trans same)
      (ensureSpaceForWrite_cryptoInfo _ _) copies).2
  cases encrypted : sample.isEncrypted with
  | false =>
    have plain : hasFlag sample.flags kSampleFlagEncrypted = false := encrypted
    rw [encrypted] at peeks
    simp only [readSample, readCryptoInfo, RollingSampleBuffer.peekSample, peeks,
      SampleHolder.isEncrypted, plain, if_true, if_false, Bool.false_eq_true] at reads
    obtain ⟨⟨marked, middle⟩, transfers, reads⟩ := bind_ok reads
    cases transfers
    obtain ⟨⟨after, written⟩, copies, reads⟩ := bind_ok reads
    obtain ⟨last, -, reads⟩ := bind_ok reads
    cases reads
    dsimp only at copies
    rw [keeps copies, cryptoOf, encrypted]
    rfl
  | true =>
    have flagged : hasFlag sample.flags kSampleFlagEncrypted = true := encrypted
    have vector : ¬ sample.iv.length = 0 := fun none =>
      readable encrypted (List.eq_nil_of_length_eq_zero none)
    rw [encrypted] at peeks
    simp only [readSample, readCryptoInfo, RollingSampleBuffer.peekSample, peeks,
      SampleHolder.isEncrypted, flagged, if_true, Option.getD_some, vector, if_false] at reads
    obtain ⟨⟨marked, middle⟩, transfers, reads⟩ := bind_ok reads
    cases transfers
    obtain ⟨⟨after, written⟩, copies, reads⟩ := bind_ok reads
    obtain ⟨last, -, reads⟩ := bind_ok reads
    cases reads
    dsimp only at copies
    rw [keeps copies, cryptoOf, encrypted]
    rfl

end RollingSampleBuffer

namespace DefaultTrackOutput

open RollingSampleBuffer (Sound)

variable {output next : DefaultTrackOutput}

-- The loops over PeekSample and SkipSample end: there are no more rounds than samples.
theorem skipWhile_sound (skips : SampleHolder → Bool) {rounds : Nat} {buffer : RollingSampleBuffer}
    (sound : buffer.Sound fifo stream readPosition committedEnd) (enough : fifo.queue.length ≤ rounds)
    (holder : SampleHolder) :
    ∃ skipped haveNext shown after position,
      skipWhile skips rounds buffer holder = .ok (skipped, haveNext, shown, after) ∧
        after.Sound (fifo.consume skipped) stream position committedEnd := by
  induction rounds generalizing fifo buffer holder readPosition with
  | zero =>
    have empty : fifo.queue = [] := List.eq_nil_of_length_eq_zero (Nat.le_zero.mp enough)
    have peeked := RollingSampleBuffer.peekSample_peeked sound.refines holder
    simp only [Peeked, empty] at peeked
    refine ⟨0, (buffer.peekSample holder).1, (buffer.peekSample holder).2.1,
      (buffer.peekSample holder).2.2, readPosition, ?_, ?_⟩
    · simp only [skipWhile, peeked, Bool.false_and, Bool.false_eq_true, if_false]
    · rw [SampleFifo.consume_zero]
      exact sound.peekSample holder
  | succ rounds ih =>
    have peeked := sound.peekSample holder
    by_cases goes : ((buffer.peekSample holder).1 && skips (buffer.peekSample holder).2.1) = true
    · have nonempty : fifo.queue ≠ [] := by
        intro empty
        have absent := RollingSampleBuffer.peekSample_peeked sound.refines holder
        simp only [Peeked, empty] at absent
        simp [absent] at goes
      obtain ⟨middle, skip, soundMiddle, -⟩ := RollingSampleBuffer.skipSample_sound peeked nonempty
      have fewer : (fifo.consume 1).queue.length ≤ rounds := by
        simp only [SampleFifo.consume, List.length_drop]
        omega
      obtain ⟨skipped, haveNext, shown, after, position, loops, soundAfter⟩ :=
        ih soundMiddle fewer (buffer.peekSample holder).2.1
      rw [SampleFifo.consume_consume, Nat.add_comm] at soundAfter
      refine ⟨skipped + 1, haveNext, shown, after, position, ?_, soundAfter⟩
      rw [skipWhile]
      simp only [goes, if_true, skip, bind, Except.bind, loops]
    · refine ⟨0, (buffer.peekSample holder).1, (buffer.peekSample holder).2.1,
        (buffer.peekSample holder).2.2, readPosition, ?_, ?_⟩
      · rw [skipWhile]
        simp only [goes, Bool.false_eq_true, if_false]
      · rw [SampleFifo.consume_zero]
        exact peeked

theorem advanceToSync_sound
    (sound : output.rollingBuffer.Sound fifo stream readPosition committedEnd) :
    ∃ haveNext next count position, output.advanceToSync = .ok (haveNext, next) ∧
      next.rollingBuffer.Sound (fifo.consume count) stream position committedEnd := by
  unfold advanceToSync
  cases output.needKeyFrame with
  | true =>
    have enough : fifo.queue.length ≤ output.rollingBuffer.infoQueue.queueSize :=
      Nat.le_of_eq sound.refines.size.symm
    obtain ⟨skipped, haveNext, shown, after, position, loops, soundAfter⟩ :=
      skipWhile_sound (fun holder => !holder.isSyncFrame) sound enough output.sampleInfoHolder
    simp only [if_true, loops, bind, Except.bind]
    exact ⟨_, _, skipped, position, rfl, soundAfter⟩
  | false =>
    simp only [Bool.false_eq_true, if_false]
    refine ⟨_, _, 0, readPosition, rfl, ?_⟩
    rw [SampleFifo.consume_zero]
    exact sound.peekSample output.sampleInfoHolder

/-- The reader looks past the samples that are no keyframes, where it needs one, and no further. -/
theorem advanceToEligibleSample_sound (unspliced : output.spliceOutTimeUs = kInvalidTimestamp)
    (sound : output.rollingBuffer.Sound fifo stream readPosition committedEnd) :
    ∃ eligible next count position, output.advanceToEligibleSample = .ok (eligible, next) ∧
      next.rollingBuffer.Sound (fifo.consume count) stream position committedEnd ∧
      Advances output fifo next count ∧
      if eligible then
        ∃ sample rest, (fifo.consume count).queue = sample :: rest ∧
          (output.needKeyFrame = true → sample.isSync = true)
      else (fifo.consume count).queue = [] := by
  obtain ⟨haveNext, next, reached, position, advanced, soundNext⟩ := advanceToSync_sound sound
  have done : ∃ eligible, output.advanceToEligibleSample = .ok (eligible, next) := by
    unfold advanceToEligibleSample
    simp only [advanced, bind, Except.bind]
    split_ifs
    · exact ⟨_, rfl⟩
    · exact ⟨_, rfl⟩
    · exact ⟨_, rfl⟩
  obtain ⟨eligible, finds⟩ := done
  obtain ⟨count, advances, outcome⟩ := advanceToEligibleSample_advances sound.refines finds
  -- Both say how many samples have been skipped.
  obtain rfl : count = reached := by
    have first := advances.refines.read
    have second := soundNext.refines.read
    simp only [SampleFifo.consume] at first second
    omega
  refine ⟨eligible, next, count, position, finds, soundNext, advances, ?_⟩
  cases eligible with
  | false => exact outcome.resolve_right fun spliced => spliced unspliced
  | true =>
    obtain ⟨sample, rest, present, eligible⟩ := outcome
    exact ⟨sample, rest, present, eligible.sync⟩

theorem getSample_sound (unspliced : output.spliceOutTimeUs = kInvalidTimestamp)
    (sound : output.rollingBuffer.Sound fifo stream readPosition committedEnd)
    {holder : SampleHolder} (empty : holder.Empty) :
    (∃ next count position, output.getSample holder = .ok (false, holder, next) ∧
      next.rollingBuffer.Sound (fifo.consume count) stream position committedEnd ∧
      Advances output fifo next count ∧ (fifo.consume count).queue = []) ∨
    ∃ filled middle buffer count start position sample rest,
      output.getSample holder = .ok (true, filled, { middle with
        rollingBuffer := buffer, needKeyFrame := false, lastReadTimeUs := filled.timeUs }) ∧
      middle.rollingBuffer.Sound (fifo.consume count) stream start committedEnd ∧
      buffer.Sound ((fifo.consume count).consume 1) stream position committedEnd ∧
      Advances output fifo middle count ∧ (fifo.consume count).queue = sample :: rest ∧
      (output.needKeyFrame = true → sample.isSync = true) ∧
      Carries filled (.ofRecord stream sample) ∧
      filled.cryptoInfo = RollingSampleBuffer.cryptoOf holder sample := by
  obtain ⟨eligible, middle, count, position, finds, soundMiddle, advances, outcome⟩ :=
    advanceToEligibleSample_sound unspliced sound
  cases eligible with
  | false =>
    refine .inl ⟨middle, count, position, ?_, soundMiddle, advances, outcome⟩
    simp [getSample, finds, bind, Except.bind]
  | true =>
    obtain ⟨sample, rest, present, sync⟩ := outcome
    rcases RollingSampleBuffer.readSample_sound soundMiddle present holder with
      ⟨-, notEmpty⟩ | ⟨filled, buffer, reads, soundNext, -, carries⟩
    · exact absurd empty notEmpty
    · have readable := soundMiddle.readable sample (by simp [present])
      have crypto :=
        RollingSampleBuffer.readSample_cryptoInfo soundMiddle.refines present readable reads
      refine .inr ⟨filled, middle, buffer, count, _, _, sample, rest, ?_, soundMiddle, soundNext,
        advances, present, sync, carries empty, crypto⟩
      simp [getSample, finds, reads, bind, Except.bind]

end DefaultTrackOutput

end NDash.Extractor

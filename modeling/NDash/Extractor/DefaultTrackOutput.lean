import NDash.Extractor.RollingSampleBufferQueue

set_option autoImplicit false

namespace NDash.Extractor

def kInvalidTimestamp : Int := int64Min

structure DefaultTrackOutput where
  rollingBuffer : RollingSampleBuffer
  sampleInfoHolder : SampleHolder := { bufferReplacementEnabled := false }
  needKeyFrame : Bool := true
  lastReadTimeUs : Int := kInvalidTimestamp
  spliceOutTimeUs : Int := kInvalidTimestamp
  largestParsedTimestampUs : Int := kInvalidTimestamp

namespace DefaultTrackOutput

def initial (allocator : Upstream.Allocator) (fresh : Fresh) : DefaultTrackOutput :=
  { rollingBuffer := .initial allocator fresh }

def clear (output : DefaultTrackOutput) : Except Fault DefaultTrackOutput := do
  let rollingBuffer ← output.rollingBuffer.clear
  .ok { output with
    rollingBuffer
    needKeyFrame := true
    lastReadTimeUs := kInvalidTimestamp
    spliceOutTimeUs := kInvalidTimestamp
    largestParsedTimestampUs := kInvalidTimestamp }

def getWriteIndex (output : DefaultTrackOutput) : Nat := output.rollingBuffer.getWriteIndex
def getReadIndex (output : DefaultTrackOutput) : Nat := output.rollingBuffer.getReadIndex

def peekSample (output : DefaultTrackOutput) : Bool × DefaultTrackOutput :=
  let (haveNext, sampleInfoHolder, rollingBuffer) :=
    output.rollingBuffer.peekSample output.sampleInfoHolder
  (haveNext, { output with sampleInfoHolder, rollingBuffer })

def discardUpstreamSamples (output : DefaultTrackOutput) (discardFromIndex : Nat) :
    Except Fault DefaultTrackOutput := do
  let rollingBuffer ← output.rollingBuffer.discardUpstreamSamples discardFromIndex
  let (haveNext, output) := { output with rollingBuffer }.peekSample
  .ok { output with
    largestParsedTimestampUs :=
      if haveNext then output.sampleInfoHolder.timeUs else kInvalidTimestamp }

-- The three loops over PeekSample and SkipSample, with the number of samples they skip.
def skipWhile (skips : SampleHolder → Bool) :
    Nat → RollingSampleBuffer → SampleHolder →
      Except Fault (Nat × Bool × SampleHolder × RollingSampleBuffer)
  | rounds, buffer, holder =>
    let (haveNext, holder, buffer) := buffer.peekSample holder
    if haveNext && skips holder then
      match rounds with
      | 0 => .error .diverges
      | rounds + 1 => do
        let buffer ← buffer.skipSample
        let (skipped, result) ← skipWhile skips rounds buffer holder
        .ok (skipped + 1, result)
    else .ok (0, haveNext, holder, buffer)

def advanceToSync (output : DefaultTrackOutput) : Except Fault (Bool × DefaultTrackOutput) := do
  if output.needKeyFrame then
    let (_, haveNext, sampleInfoHolder, rollingBuffer) ←
      skipWhile (fun holder => !holder.isSyncFrame) output.rollingBuffer.infoQueue.queueSize
        output.rollingBuffer output.sampleInfoHolder
    .ok (haveNext, { output with sampleInfoHolder, rollingBuffer })
  else .ok output.peekSample

def advanceToEligibleSample (output : DefaultTrackOutput) :
    Except Fault (Bool × DefaultTrackOutput) := do
  let (haveNext, output) ← output.advanceToSync
  if !haveNext then .ok (false, output)
  else if output.spliceOutTimeUs ≠ kInvalidTimestamp ∧
      output.sampleInfoHolder.timeUs ≥ output.spliceOutTimeUs then .ok (false, output)
  else .ok (true, output)

def isEmpty (output : DefaultTrackOutput) : Except Fault (Bool × DefaultTrackOutput) := do
  let (eligible, output) ← output.advanceToEligibleSample
  .ok (!eligible, output)

def getSample (output : DefaultTrackOutput) (holder : SampleHolder) :
    Except Fault (Bool × SampleHolder × DefaultTrackOutput) := do
  let (foundEligibleSample, output) ← output.advanceToEligibleSample
  if !foundEligibleSample then .ok (false, holder, output)
  else
    let (found, holder, rollingBuffer) ← output.rollingBuffer.readSample holder
    let output := { output with rollingBuffer }
    if found then
      .ok (true, holder, { output with needKeyFrame := false, lastReadTimeUs := holder.timeUs })
    else .ok (false, holder, output)

def discardUntil (output : DefaultTrackOutput) (timeUs : Int) :
    Except Fault DefaultTrackOutput := do
  let (skipped, _, sampleInfoHolder, rollingBuffer) ←
    skipWhile (fun holder => holder.timeUs < timeUs) output.rollingBuffer.infoQueue.queueSize
      output.rollingBuffer output.sampleInfoHolder
  .ok { output with
    sampleInfoHolder
    rollingBuffer
    needKeyFrame := if skipped = 0 then output.needKeyFrame else true
    lastReadTimeUs := kInvalidTimestamp }

def skipToKeyframeBefore (output : DefaultTrackOutput) (timeUs : Int) :
    Except Fault (Bool × DefaultTrackOutput) := do
  let (skipped, rollingBuffer) ← output.rollingBuffer.skipToKeyframeBefore timeUs
  .ok (skipped, { output with rollingBuffer })

-- `nextQueue` is another queue; this one's holder is used to look at both.
def configureSpliceTo (output nextQueue : DefaultTrackOutput) :
    Except Fault (Bool × DefaultTrackOutput × DefaultTrackOutput) := do
  if output.spliceOutTimeUs ≠ kInvalidTimestamp then .ok (true, output, nextQueue)
  else
    let (haveNext, output) := output.peekSample
    let firstPossibleSpliceTime :=
      if haveNext then output.sampleInfoHolder.timeUs else output.lastReadTimeUs + 1
    let (_, _, holder, nextBuffer) ←
      skipWhile (fun holder => holder.timeUs < firstPossibleSpliceTime || !holder.isSyncFrame)
        nextQueue.rollingBuffer.infoQueue.queueSize nextQueue.rollingBuffer output.sampleInfoHolder
    let (found, sampleInfoHolder, nextBuffer) := nextBuffer.peekSample holder
    let nextQueue := { nextQueue with rollingBuffer := nextBuffer }
    if found then
      .ok (true, { output with sampleInfoHolder, spliceOutTimeUs := sampleInfoHolder.timeUs },
        nextQueue)
    else .ok (false, { output with sampleInfoHolder }, nextQueue)

def writeSampleDataFixThis (output : DefaultTrackOutput) (src : Bytes) (allowEndOfInput : Bool) :
    Except Fault (Bool × Option Int × DefaultTrackOutput) := do
  let (more, written, rollingBuffer) ← output.rollingBuffer.appendDataFixThis src allowEndOfInput
  .ok (more, written, { output with rollingBuffer })

-- `offset` counts back from the write position; the size passes through int32_t.
def positioned (output : DefaultTrackOutput) (metadata : SampleMetadata) : SampleMetadata :=
  { metadata with
    offset := output.rollingBuffer.getWritePosition - metadata.size - metadata.offset
    size := toInt32 metadata.size }

def writeSampleMetadata (output : DefaultTrackOutput) (fresh : Fresh) (metadata : SampleMetadata) :
    DefaultTrackOutput :=
  { output with
    largestParsedTimestampUs := max output.largestParsedTimestampUs metadata.timeUs
    rollingBuffer := output.rollingBuffer.commitSample fresh (output.positioned metadata) }

end DefaultTrackOutput

theorem SampleFifo.consume_consume (fifo : SampleFifo) (first second : Nat) :
    (fifo.consume first).consume second = fifo.consume (first + second) := by
  simp [consume, Nat.add_assoc]

theorem SampleFifo.consume_zero (fifo : SampleFifo) : fifo.consume 0 = fifo := by
  simp [consume]

theorem SampleFifo.lt_length_of_consume {fifo : SampleFifo} {count : Nat} {sample : SampleRecord}
    {rest : List SampleRecord} (present : (fifo.consume count).queue = sample :: rest) :
    count < fifo.queue.length := by
  have size := congrArg List.length present
  simp only [SampleFifo.consume, List.length_drop, List.length_cons] at size
  omega

open RollingSampleBuffer (Labelled)

def Peeked (fifo : SampleFifo) (haveNext : Bool) (holder : SampleHolder) : Prop :=
  match fifo.queue with
  | [] => haveNext = false
  | sample :: _ => haveNext = true ∧ Labelled holder sample

theorem RollingSampleBuffer.peekSample_peeked {buffer : RollingSampleBuffer} {fifo : SampleFifo}
    (refines : buffer.infoQueue.Refines fifo) (holder : SampleHolder) :
    Peeked fifo (buffer.peekSample holder).1 (buffer.peekSample holder).2.1 := by
  unfold Peeked
  cases present : fifo.queue with
  | nil => simp only [peekSample, InfoQueue.peekSample_empty refines present]
  | cons sample rest =>
    simp only [peekSample, InfoQueue.peekSample_head refines present]
    exact ⟨trivial, rfl, rfl, rfl⟩

structure SkipsTo (fifo : SampleFifo) (skips : SampleRecord → Bool) (count : Nat) : Prop where
  inside : count ≤ fifo.queue.length
  skipped : ∀ sample ∈ fifo.queue.take count, skips sample = true
  stopped : ∀ sample rest, (fifo.consume count).queue = sample :: rest → skips sample = false

theorem SkipsTo.next {fifo : SampleFifo} {skips : SampleRecord → Bool} {count : Nat}
    {sample : SampleRecord} {rest : List SampleRecord} (present : fifo.queue = sample :: rest)
    (skip : skips sample = true) (reaches : SkipsTo (fifo.consume 1) skips count) :
    SkipsTo fifo skips (count + 1) := by
  have tail : (fifo.consume 1).queue = rest := by simp [SampleFifo.consume, present]
  obtain ⟨inside, skipped, stopped⟩ := reaches
  rw [tail] at inside skipped
  rw [SampleFifo.consume_consume, Nat.add_comm] at stopped
  refine ⟨by simpa [present] using inside, ?_, stopped⟩
  intro other member
  rw [present, List.take_succ_cons, List.mem_cons] at member
  rcases member with rfl | member
  · exact skip
  · exact skipped other member

namespace DefaultTrackOutput

variable {output next : DefaultTrackOutput} {fifo : SampleFifo}

theorem skipsTo_zero {skips : SampleHolder → Bool} {skipsSample : SampleRecord → Bool}
    (agree : ∀ holder sample, Labelled holder sample → skips holder = skipsSample sample)
    {holder : SampleHolder} {haveNext : Bool} (peeked : Peeked fifo haveNext holder)
    (stays : ¬ (haveNext && skips holder) = true) : SkipsTo fifo skipsSample 0 := by
  refine ⟨Nat.zero_le _, by simp, ?_⟩
  intro sample rest present
  rw [SampleFifo.consume_zero] at present
  simp only [Peeked, present] at peeked
  simpa [peeked.1, agree _ _ peeked.2] using stays

theorem skipWhile_refines {skips : SampleHolder → Bool} {skipsSample : SampleRecord → Bool}
    (agree : ∀ holder sample, Labelled holder sample → skips holder = skipsSample sample)
    {rounds skipped : Nat} {buffer after : RollingSampleBuffer} {holder shown : SampleHolder}
    {haveNext : Bool} (refines : buffer.infoQueue.Refines fifo)
    (loops : skipWhile skips rounds buffer holder = .ok (skipped, haveNext, shown, after)) :
    SkipsTo fifo skipsSample skipped ∧ after.infoQueue.Refines (fifo.consume skipped) ∧
      Peeked (fifo.consume skipped) haveNext shown := by
  induction rounds generalizing fifo buffer holder skipped with
  | zero =>
    have peeked := RollingSampleBuffer.peekSample_peeked refines holder
    unfold skipWhile at loops
    simp only at loops
    split at loops
    next => cases loops
    next stays =>
      cases loops
      rw [SampleFifo.consume_zero]
      exact ⟨skipsTo_zero agree peeked stays, refines, peeked⟩
  | succ rounds ih =>
    have peeked := RollingSampleBuffer.peekSample_peeked refines holder
    unfold skipWhile at loops
    simp only at loops
    split at loops
    next goes =>
      obtain ⟨middle, skip, rest⟩ := bind_ok loops
      obtain ⟨⟨count, result⟩, again, rest⟩ := bind_ok rest
      cases rest
      cases present : fifo.queue with
      | nil =>
        simp only [Peeked, present] at peeked
        simp [peeked] at goes
      | cons sample samples =>
        simp only [Peeked, present] at peeked
        have skipped : skipsSample sample = true := by
          rw [← agree _ _ peeked.2]
          exact (Bool.and_eq_true_iff.mp goes).2
        have moved := RollingSampleBuffer.skipSample_infoQueue skip
        have advanced := (InfoQueue.moveToNextSample_refines refines (by simp [present])).1
        obtain ⟨reaches, reached, shows⟩ := ih (moved ▸ advanced) again
        rw [SampleFifo.consume_consume, Nat.add_comm] at reached shows
        exact ⟨reaches.next present skipped, reached, shows⟩
    next stays =>
      cases loops
      rw [SampleFifo.consume_zero]
      exact ⟨skipsTo_zero agree peeked stays, refines, peeked⟩

structure Advances (output : DefaultTrackOutput) (fifo : SampleFifo) (next : DefaultTrackOutput)
    (count : Nat) : Prop where
  same : ∃ holder buffer,
    next = { output with sampleInfoHolder := holder, rollingBuffer := buffer }
  refines : next.rollingBuffer.infoQueue.Refines (fifo.consume count)
  inside : count ≤ fifo.queue.length
  skipped : ∀ sample ∈ fifo.queue.take count, sample.isSync = false
  stays : output.needKeyFrame = false → count = 0

structure Eligible (output : DefaultTrackOutput) (sample : SampleRecord) : Prop where
  sync : output.needKeyFrame = true → sample.isSync = true
  beforeSplice : output.spliceOutTimeUs ≠ kInvalidTimestamp → sample.timeUs < output.spliceOutTimeUs

theorem advanceToSync_advances {haveNext : Bool}
    (refines : output.rollingBuffer.infoQueue.Refines fifo)
    (advances : output.advanceToSync = .ok (haveNext, next)) :
    ∃ count, Advances output fifo next count ∧
      Peeked (fifo.consume count) haveNext next.sampleInfoHolder ∧
      (output.needKeyFrame = true → ∀ sample rest, (fifo.consume count).queue = sample :: rest →
        sample.isSync = true) := by
  unfold advanceToSync at advances
  cases need : output.needKeyFrame with
  | true =>
    simp only [need, if_true] at advances
    obtain ⟨⟨count, found, shown, buffer⟩, loops, rest⟩ := bind_ok advances
    cases rest
    have agree (holder : SampleHolder) (sample : SampleRecord) (label : Labelled holder sample) :
        (!holder.isSyncFrame) = !sample.isSync := by
      simp only [SampleHolder.isSyncFrame, SampleRecord.isSync, label.2.2]
    obtain ⟨⟨inside, skipped, stopped⟩, reached, peeked⟩ := skipWhile_refines agree refines loops
    refine ⟨count, ⟨⟨shown, buffer, by rw [need]⟩, reached, inside, ?_, by simp [need]⟩, peeked, ?_⟩
    · intro sample member
      simpa using skipped sample member
    · intro _ sample rest present
      simpa using stopped sample rest present
  | false =>
    simp only [need, Bool.false_eq_true, if_false] at advances
    cases advances
    have peeked := RollingSampleBuffer.peekSample_peeked refines output.sampleInfoHolder
    refine ⟨0, ⟨⟨_, _, rfl⟩, ?_, Nat.zero_le _, by simp, fun _ => rfl⟩, ?_, by simp⟩
    · rw [SampleFifo.consume_zero]
      exact refines
    · rw [SampleFifo.consume_zero]
      exact peeked

theorem advanceToEligibleSample_advances {eligible : Bool}
    (refines : output.rollingBuffer.infoQueue.Refines fifo)
    (advances : output.advanceToEligibleSample = .ok (eligible, next)) :
    ∃ count, Advances output fifo next count ∧
      if eligible then
        ∃ sample rest, (fifo.consume count).queue = sample :: rest ∧ Eligible output sample
      else (fifo.consume count).queue = [] ∨ output.spliceOutTimeUs ≠ kInvalidTimestamp := by
  obtain ⟨⟨haveNext, middle⟩, found, rest⟩ := bind_ok advances
  obtain ⟨count, advanced, peeked, sync⟩ := advanceToSync_advances refines found
  have unspliced : middle.spliceOutTimeUs = output.spliceOutTimeUs := by
    obtain ⟨holder, buffer, rfl⟩ := advanced.same
    rfl
  refine ⟨count, ?_⟩
  cases present : (fifo.consume count).queue with
  | nil =>
    simp only [Peeked, present] at peeked
    subst peeked
    cases rest
    exact ⟨advanced, by simp⟩
  | cons sample samples =>
    simp only [Peeked, present] at peeked
    obtain ⟨rfl, label⟩ := peeked
    simp only [Bool.not_true, Bool.false_eq_true, if_false, unspliced, label.1] at rest
    split at rest
    next spliced =>
      cases rest
      exact ⟨advanced, by simp [spliced.1]⟩
    next free =>
      cases rest
      refine ⟨advanced, ?_⟩
      simp only [if_true]
      refine ⟨sample, samples, rfl, fun need => sync need sample samples present, ?_⟩
      intro configured
      by_contra late
      exact free ⟨configured, by omega⟩

theorem getSample_advances {holder filled : SampleHolder} {found : Bool}
    (refines : output.rollingBuffer.infoQueue.Refines fifo)
    (gets : output.getSample holder = .ok (found, filled, next)) :
    ∃ count middle, Advances output fifo middle count ∧
      if found then
        ∃ sample rest, (fifo.consume count).queue = sample :: rest ∧ Eligible output sample ∧
          Labelled filled sample ∧
          next.rollingBuffer.infoQueue.Refines (fifo.consume (count + 1)) ∧
          ∃ buffer, next = { middle with
            rollingBuffer := buffer
            needKeyFrame := false
            lastReadTimeUs := sample.timeUs }
      else filled = holder ∧ next = middle := by
  obtain ⟨⟨eligible, middle⟩, advances, rest⟩ := bind_ok gets
  obtain ⟨count, advanced, outcome⟩ := advanceToEligibleSample_advances refines advances
  refine ⟨count, middle, advanced, ?_⟩
  cases eligible with
  | false =>
    cases rest
    exact ⟨rfl, rfl⟩
  | true =>
    obtain ⟨sample, samples, present, eligible⟩ := outcome
    obtain ⟨⟨read, copied, buffer⟩, reads, rest⟩ := bind_ok rest
    rcases RollingSampleBuffer.readSample_infoQueue advanced.refines reads with
      ⟨-, empty, -⟩ | ⟨rfl, moved, head, tail, shown, label⟩
    · simp [present] at empty
    · cases rest
      obtain ⟨rfl, rfl⟩ := List.cons.inj (present.symm.trans shown)
      have nonempty : (fifo.consume count).queue ≠ [] := by simp [present]
      have advance := (InfoQueue.moveToNextSample_refines advanced.refines nonempty).1
      rw [SampleFifo.consume_consume] at advance
      refine ⟨sample, samples, present, eligible, label, ?_, buffer, ?_⟩
      · exact moved ▸ advance
      · rw [label.1]

theorem discardUntil_refines {timeUs : Int} (refines : output.rollingBuffer.infoQueue.Refines fifo)
    (discards : output.discardUntil timeUs = .ok next) :
    ∃ count, SkipsTo fifo (fun sample => decide (sample.timeUs < timeUs)) count ∧
      next.rollingBuffer.infoQueue.Refines (fifo.consume count) ∧
      ∃ shown buffer, next = { output with
        sampleInfoHolder := shown
        rollingBuffer := buffer
        needKeyFrame := if count = 0 then output.needKeyFrame else true
        lastReadTimeUs := kInvalidTimestamp } := by
  obtain ⟨⟨count, found, shown, buffer⟩, loops, rest⟩ := bind_ok discards
  cases rest
  have agree (holder : SampleHolder) (sample : SampleRecord) (label : Labelled holder sample) :
      decide (holder.timeUs < timeUs) = decide (sample.timeUs < timeUs) := by
    rw [label.1]
  obtain ⟨reaches, reached, -⟩ := skipWhile_refines agree refines loops
  exact ⟨count, reaches, reached, shown, buffer, rfl⟩

theorem skipToKeyframeBefore_refines {timeUs : Int} {found : Bool}
    (refines : output.rollingBuffer.infoQueue.Refines fifo)
    (skips : output.skipToKeyframeBefore timeUs = .ok (found, next)) :
    next.rollingBuffer.infoQueue.Refines (fifo.skipToKeyframeBefore timeUs).2 ∧
      (found = true ↔ (fifo.skipToKeyframeBefore timeUs).1 ≠ -1) ∧
      ∃ buffer, next = { output with rollingBuffer := buffer } := by
  obtain ⟨⟨moved, buffer⟩, skip, rest⟩ := bind_ok skips
  cases rest
  obtain ⟨same, outcome⟩ := RollingSampleBuffer.skipToKeyframeBefore_infoQueue skip
  obtain ⟨reached, offset⟩ := InfoQueue.skipToKeyframeBefore_refines timeUs refines
  rw [offset] at outcome
  exact ⟨same ▸ reached, outcome, buffer, rfl⟩

theorem clear_refines (refines : output.rollingBuffer.infoQueue.Refines fifo)
    (clears : output.clear = .ok next) :
    next.rollingBuffer.infoQueue.Refines {} ∧ next.needKeyFrame = true := by
  obtain ⟨buffer, cleared, rest⟩ := bind_ok clears
  cases rest
  have same := RollingSampleBuffer.clear_infoQueue cleared
  exact ⟨same ▸ InfoQueue.clear_refines refines, rfl⟩

end DefaultTrackOutput

end NDash.Extractor

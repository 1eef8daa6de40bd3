import NDash.Extractor.DefaultTrackOutput

set_option autoImplicit false

namespace NDash.Chunk

open Extractor RollingSampleBuffer

structure OwnedSample where
  number : Nat
  owner : Nat
  record : SampleRecord
  bytes : Bytes
deriving DecidableEq, Repr

def OwnedSample.isSync (sample : OwnedSample) : Bool := sample.record.isSync

structure SampleQueue where
  output : DefaultTrackOutput
  history : List OwnedSample := []
  uncommitted : Bytes := []
  grown : Bool := false
  committed : Nat := 0

namespace SampleQueue

def getReadIndex (queue : SampleQueue) : Nat := queue.output.getReadIndex
def getWriteIndex (queue : SampleQueue) : Nat := queue.output.getWriteIndex
def getLargestParsedTimestampUs (queue : SampleQueue) : Int := queue.output.largestParsedTimestampUs

def advanceTo (queue : SampleQueue) (output : DefaultTrackOutput) : SampleQueue :=
  { queue with
    output
    grown := output.getReadIndex = queue.getReadIndex ∧
      (queue.grown ∨ output.rollingBuffer.infoQueue.capacity ≠
        queue.output.rollingBuffer.infoQueue.capacity) }

def clear (queue : SampleQueue) : Except Fault SampleQueue := do
  let output ← queue.output.clear
  .ok { output, committed := queue.committed }

def isEmpty (queue : SampleQueue) : Except Fault (Bool × SampleQueue) := do
  let (empty, output) ← queue.output.isEmpty
  .ok (empty, queue.advanceTo output)

def getSample (queue : SampleQueue) (holder : SampleHolder) :
    Except Fault (Bool × SampleHolder × SampleQueue) := do
  let (found, holder, output) ← queue.output.getSample holder
  .ok (found, holder, queue.advanceTo output)

def skipToKeyframeBefore (queue : SampleQueue) (timeUs : Int) :
    Except Fault (Bool × SampleQueue) := do
  let (found, output) ← queue.output.skipToKeyframeBefore timeUs
  .ok (found, queue.advanceTo output)

def discardUpstreamSamples (queue : SampleQueue) (discardFromIndex : Nat) :
    Except Fault SampleQueue := do
  let output ← queue.output.discardUpstreamSamples discardFromIndex
  .ok { queue.advanceTo output with
    history := queue.history.take discardFromIndex
    uncommitted := [] }

def writeSampleDataFixThis (queue : SampleQueue) (src : Bytes) (allowEndOfInput : Bool) :
    Except Fault SampleQueue := do
  let (_, count, output) ← queue.output.writeSampleDataFixThis src allowEndOfInput
  .ok { queue.advanceTo output with
    uncommitted := queue.uncommitted ++ src.take (count.getD 0).toNat }

def writeSampleMetadata (queue : SampleQueue) (fresh : Fresh) (owner : Nat)
    (metadata : SampleMetadata) : SampleQueue :=
  let stored := queue.output.positioned metadata
  { queue.advanceTo (queue.output.writeSampleMetadata fresh metadata) with
    history := queue.history ++
      [⟨queue.committed, owner, stored.record, queue.uncommitted.take stored.size.toNat⟩]
    uncommitted := queue.uncommitted.drop stored.size.toNat
    committed := queue.committed + 1 }

structure Tracked (queue : SampleQueue) (fifo : SampleFifo) : Prop where
  refines : queue.output.rollingBuffer.infoQueue.Refines fifo
  queued : fifo.queue = (queue.history.drop fifo.consumed).map (·.record)
  bounded : fifo.consumed ≤ queue.history.length
  unspliced : queue.output.spliceOutTimeUs = kInvalidTimestamp

variable {queue next : SampleQueue} {fifo : SampleFifo}

theorem Tracked.readIndex (tracked : queue.Tracked fifo) : queue.getReadIndex = fifo.consumed :=
  tracked.refines.read

theorem Tracked.size (tracked : queue.Tracked fifo) :
    fifo.consumed + fifo.queue.length = queue.history.length := by
  have bounded := tracked.bounded
  rw [tracked.queued, List.length_map, List.length_drop]
  omega

theorem Tracked.writeIndex (tracked : queue.Tracked fifo) :
    queue.getWriteIndex = queue.history.length := by
  rw [← tracked.size, ← tracked.refines.read, ← tracked.refines.size]
  rfl

theorem Tracked.get (tracked : queue.Tracked fifo) (count : Nat) :
    fifo.queue[count]? = (queue.history[fifo.consumed + count]?).map (·.record) := by
  rw [tracked.queued, List.getElem?_map, List.getElem?_drop]

theorem Tracked.consume (tracked : queue.Tracked fifo) {count : Nat} (output : DefaultTrackOutput)
    (inside : count ≤ fifo.queue.length)
    (refines : output.rollingBuffer.infoQueue.Refines (fifo.consume count))
    (unspliced : output.spliceOutTimeUs = kInvalidTimestamp) :
    (queue.advanceTo output).Tracked (fifo.consume count) := by
  have size := tracked.size
  refine ⟨refines, ?_, ?_, unspliced⟩
  · simp [SampleFifo.consume, tracked.queued, advanceTo]
  · simp only [SampleFifo.consume, advanceTo]
    omega

structure Skips (queue next : SampleQueue) (index : Nat) : Prop where
  history : next.history = queue.history
  committed : next.committed = queue.committed
  forward : queue.getReadIndex ≤ index
  inside : index ≤ queue.history.length
  skipped : ∀ position sample, queue.getReadIndex ≤ position → position < index →
    queue.history[position]? = some sample → sample.isSync = false

theorem advances_skips {output : DefaultTrackOutput} {count : Nat} (tracked : queue.Tracked fifo)
    (advances : DefaultTrackOutput.Advances queue.output fifo output count) :
    (queue.advanceTo output).Tracked (fifo.consume count) ∧
      Skips queue (queue.advanceTo output) (fifo.consumed + count) := by
  have size := tracked.size
  have unspliced : output.spliceOutTimeUs = kInvalidTimestamp := by
    obtain ⟨holder, buffer, rfl⟩ := advances.same
    exact tracked.unspliced
  have inside := advances.inside
  refine ⟨tracked.consume output inside advances.refines unspliced, rfl, rfl, ?_, by omega, ?_⟩
  · rw [tracked.readIndex]
    omega
  · intro position sample after before found
    rw [tracked.readIndex] at after
    obtain ⟨offset, rfl⟩ := Nat.exists_eq_add_of_le after
    refine advances.skipped sample.record ?_
    have record : fifo.queue[offset]? = some sample.record := by simp [tracked.get, found]
    have taken : (fifo.queue.take count)[offset]? = some sample.record := by
      rw [List.getElem?_take_of_lt (by omega)]
      exact record
    exact List.mem_of_getElem? taken

/-- After IsEmpty the head can be handed out, unless the queue is used up. -/
theorem isEmpty_skips {empty : Bool} (tracked : queue.Tracked fifo)
    (looks : queue.isEmpty = .ok (empty, next)) :
    (∃ fifo, next.Tracked fifo) ∧ Skips queue next next.getReadIndex ∧
      if empty then next.getReadIndex = next.history.length
      else ∃ sample, next.history[next.getReadIndex]? = some sample ∧
        (next.output.needKeyFrame = true → sample.isSync = true) := by
  obtain ⟨⟨none, output⟩, looked, rest⟩ := bind_ok looks
  cases rest
  obtain ⟨⟨eligible, output⟩, advances, rest⟩ := bind_ok looked
  cases rest
  obtain ⟨count, moved, outcome⟩ :=
    DefaultTrackOutput.advanceToEligibleSample_advances tracked.refines advances
  obtain ⟨reached, skips⟩ := advances_skips tracked moved
  have read : (queue.advanceTo output).getReadIndex = fifo.consumed + count := reached.readIndex
  have size := reached.size
  rw [read]
  refine ⟨⟨_, reached⟩, skips, ?_⟩
  cases eligible with
  | false =>
    have used : (fifo.consume count).queue = [] := by
      rcases outcome with used | spliced
      · exact used
      · exact absurd tracked.unspliced spliced
    rw [used] at size
    exact size
  | true =>
    obtain ⟨record, rest, present, eligible⟩ := outcome
    have head := reached.get 0
    rw [present, Nat.add_zero] at head
    obtain ⟨sample, found, rfl⟩ := Option.map_eq_some_iff.mp head.symm
    refine ⟨sample, found, fun need => eligible.sync ?_⟩
    obtain ⟨holder, buffer, same⟩ := moved.same
    rw [same] at need
    exact need

theorem getSample_skips {holder filled : SampleHolder} {found : Bool} (tracked : queue.Tracked fifo)
    (gets : queue.getSample holder = .ok (found, filled, next)) :
    (∃ fifo, next.Tracked fifo) ∧ ∃ index, Skips queue next index ∧
      (queue.output.needKeyFrame = false → index = queue.getReadIndex) ∧
      if found then
        next.getReadIndex = index + 1 ∧ ∃ sample, queue.history[index]? = some sample ∧
          Labelled filled sample.record
      else next.getReadIndex = index := by
  obtain ⟨⟨returned, filled, output⟩, got, rest⟩ := bind_ok gets
  cases rest
  obtain ⟨count, middle, moved, outcome⟩ :=
    DefaultTrackOutput.getSample_advances tracked.refines got
  obtain ⟨reached, skips⟩ := advances_skips tracked moved
  have stays (ready : queue.output.needKeyFrame = false) :
      fifo.consumed + count = queue.getReadIndex := by
    rw [moved.stays ready, tracked.readIndex, Nat.add_zero]
  cases found with
  | false =>
    obtain ⟨rfl, rfl⟩ := outcome
    exact ⟨⟨_, reached⟩, _, skips, stays, reached.readIndex⟩
  | true =>
    obtain ⟨record, rest, present, -, label, refines, buffer, rfl⟩ := outcome
    have unspliced := reached.unspliced
    have head := reached.get 0
    rw [present, Nat.add_zero] at head
    obtain ⟨sample, found, rfl⟩ := Option.map_eq_some_iff.mp head.symm
    have inside : count + 1 ≤ fifo.queue.length := by
      have size := congrArg List.length present
      simp only [SampleFifo.consume, List.length_drop, List.length_cons] at size
      omega
    have final := tracked.consume
      { middle with
        rollingBuffer := buffer
        needKeyFrame := false
        lastReadTimeUs := sample.record.timeUs }
      inside refines unspliced
    refine ⟨⟨_, final⟩, _, ?_, stays, final.readIndex, sample, found, label⟩
    exact ⟨rfl, rfl, skips.forward, skips.inside, skips.skipped⟩

theorem skipToKeyframeBefore_moves {timeUs : Int} {found : Bool} (tracked : queue.Tracked fifo)
    (skips : queue.skipToKeyframeBefore timeUs = .ok (found, next)) :
    (∃ fifo, next.Tracked fifo) ∧ next.history = queue.history ∧
      next.committed = queue.committed ∧ queue.getReadIndex ≤ next.getReadIndex ∧
      ((found = false ∧ next.getReadIndex = queue.getReadIndex) ∨
        ∃ sample, queue.history[next.getReadIndex]? = some sample ∧ sample.isSync = true ∧
          (found = false → sample.record.offset = -1)) := by
  obtain ⟨⟨moved, output⟩, skip, rest⟩ := bind_ok skips
  cases rest
  obtain ⟨refines, outcome, buffer, rfl⟩ :=
    DefaultTrackOutput.skipToKeyframeBefore_refines tracked.refines skip
  cases keyframe : fifo.keyframeBefore timeUs with
  | none =>
    simp only [SampleFifo.skipToKeyframeBefore, keyframe] at refines outcome
    have reached := tracked.consume { queue.output with rollingBuffer := buffer } (Nat.zero_le _)
      (fifo.consume_zero.symm ▸ refines) tracked.unspliced
    have read := reached.readIndex
    have before := tracked.readIndex
    simp only [SampleFifo.consume, Nat.add_zero] at read
    refine ⟨⟨_, reached⟩, rfl, rfl, by omega, .inl ⟨?_, by omega⟩⟩
    simpa using outcome
  | some count =>
    simp only [SampleFifo.skipToKeyframeBefore, keyframe] at refines outcome
    obtain ⟨record, present, sync⟩ := fifo.keyframeBefore_spec timeUs count keyframe
    have inside := (List.getElem?_eq_some_iff.mp present).1
    have reached := tracked.consume { queue.output with rollingBuffer := buffer }
      (Nat.le_of_lt inside) refines tracked.unspliced
    have read := reached.readIndex
    have before := tracked.readIndex
    have head := tracked.get count
    rw [present] at head
    obtain ⟨sample, found, rfl⟩ := Option.map_eq_some_iff.mp head.symm
    simp only [SampleFifo.consume] at read
    refine ⟨⟨_, reached⟩, rfl, rfl, by omega, .inr ⟨sample, ?_, sync, ?_⟩⟩
    · rw [read]
      exact found
    · intro missing
      rw [present] at outcome
      simpa [missing] using outcome

theorem discardUpstreamSamples_tracked {index : Nat} (tracked : queue.Tracked fifo)
    (lower : queue.getReadIndex ≤ index) (upper : index ≤ queue.getWriteIndex)
    (discards : queue.discardUpstreamSamples index = .ok next) :
    (∃ fifo, next.Tracked fifo) ∧ next.history = queue.history.take index ∧
      next.committed = queue.committed ∧ next.getReadIndex = queue.getReadIndex := by
  obtain ⟨output, discard, rest⟩ := bind_ok discards
  cases rest
  obtain ⟨buffer, dropped, rest⟩ := bind_ok discard
  cases rest
  have same := discardUpstreamSamples_infoQueue dropped
  rw [tracked.readIndex] at lower
  rw [tracked.writeIndex] at upper
  have size := tracked.size
  have refines := InfoQueue.discardUpstreamSamples_refines index tracked.refines lower (by omega)
  rw [← same] at refines
  refine ⟨⟨fifo.discardFrom index, refines, ?_, ?_, tracked.unspliced⟩, rfl, rfl, ?_⟩
  · simp only [SampleFifo.discardFrom, tracked.queued]
    rw [← List.map_take, List.drop_take]
  · simp only [SampleFifo.discardFrom, List.length_take]
    omega
  · rw [tracked.readIndex]
    exact refines.read

theorem clear_tracked (tracked : queue.Tracked fifo) (clears : queue.clear = .ok next) :
    next.Tracked {} ∧ next.history = [] ∧ next.committed = queue.committed ∧
      next.getReadIndex = 0 := by
  obtain ⟨output, cleared, rest⟩ := bind_ok clears
  cases rest
  obtain ⟨refines, -⟩ := DefaultTrackOutput.clear_refines tracked.refines cleared
  obtain ⟨buffer, -, rest⟩ := bind_ok cleared
  cases rest
  exact ⟨⟨refines, rfl, Nat.zero_le _, rfl⟩, rfl, rfl, refines.read⟩

theorem writeSampleDataFixThis_tracked {src : Bytes} {allowEndOfInput : Bool}
    (tracked : queue.Tracked fifo)
    (writes : queue.writeSampleDataFixThis src allowEndOfInput = .ok next) :
    next.Tracked fifo ∧ next.history = queue.history ∧ next.committed = queue.committed := by
  obtain ⟨⟨more, count, output⟩, write, rest⟩ := bind_ok writes
  cases rest
  obtain ⟨⟨more, count, buffer⟩, appends, rest⟩ := bind_ok write
  cases rest
  have same := appendDataFixThis_infoQueue appends
  obtain ⟨refines, queued, bounded, unspliced⟩ := tracked
  exact ⟨⟨same ▸ refines, queued, bounded, unspliced⟩, rfl, rfl⟩

theorem writeSampleMetadata_tracked (fresh : Fresh) (owner : Nat) (metadata : SampleMetadata)
    (tracked : queue.Tracked fifo) :
    (queue.writeSampleMetadata fresh owner metadata).Tracked
      (fifo.commit (queue.output.positioned metadata).record) := by
  obtain ⟨refines, queued, bounded, unspliced⟩ := tracked
  refine ⟨InfoQueue.commitSample_refines fresh _ refines, ?_, ?_, unspliced⟩
  · simp only [SampleFifo.commit, writeSampleMetadata, queued]
    rw [List.drop_append_of_le_length bounded, List.map_append]
    rfl
  · simp only [SampleFifo.commit, writeSampleMetadata, List.length_append]
    omega

theorem writeSampleMetadata_readIndex (fresh : Fresh) (owner : Nat) (metadata : SampleMetadata)
    (tracked : queue.Tracked fifo) :
    (queue.writeSampleMetadata fresh owner metadata).getReadIndex = queue.getReadIndex := by
  rw [(writeSampleMetadata_tracked fresh owner metadata tracked).readIndex, tracked.readIndex]
  rfl

end SampleQueue

end NDash.Chunk

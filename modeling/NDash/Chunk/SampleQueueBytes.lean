import NDash.Extractor.RollingSampleBufferDiscard
import NDash.Chunk.SampleQueue

set_option autoImplicit false

namespace NDash.Extractor

namespace Recording

variable {state : Recording} {fifo : SampleFifo}

theorem Recorded.withExtrasHolder (recorded : state.Recorded fifo)
    (extrasHolder : SampleExtrasHolder) :
    Recorded { state with buffer := { state.buffer with extrasHolder } } fifo := by
  obtain ⟨sound, total, queued, remembers⟩ := recorded
  exact ⟨{ sound with stored := sound.stored.withExtrasHolder extrasHolder }, total, queued, remembers⟩

theorem Recorded.regrow (recorded : state.Recorded fifo) {grown : Bool}
    (steady : grown = false → state.grown = false) : Recorded { state with grown } fifo :=
  { recorded with remembers := fun read same => recorded.remembers read (steady same) }

theorem Recorded.advance {middle : RollingSampleBuffer} {final : RollingSampleBuffer}
    (recorded : ((state.advanceTo middle).advanceTo final).Recorded fifo)
    (moved : middle.getReadIndex ≠ state.buffer.getReadIndex ∨
      final.getReadIndex ≠ middle.getReadIndex)
    (capacity : final.infoQueue.capacity = middle.infoQueue.capacity) :
    (state.advanceTo final).Recorded fifo := by
  refine recorded.regrow fun _ => ?_
  rcases moved with moved | moved
  · simp [advanceTo, moved, capacity]
  · simp [advanceTo, moved]

end Recording

theorem RollingSampleBuffer.peekSample_eq (buffer : RollingSampleBuffer) (holder : SampleHolder) :
    ∃ extrasHolder, (buffer.peekSample holder).2.2 = { buffer with extrasHolder } :=
  ⟨_, rfl⟩

theorem Recording.Recorded.peek {state : Recording} {fifo : SampleFifo}
    (recorded : state.Recorded fifo) (holder : SampleHolder) :
    (state.advanceTo (state.buffer.peekSample holder).2.2).Recorded fifo := by
  obtain ⟨extrasHolder, peeks⟩ := state.buffer.peekSample_eq holder
  rw [peeks]
  refine (recorded.withExtrasHolder extrasHolder).regrow fun steady => ?_
  simpa [Recording.advanceTo, RollingSampleBuffer.getReadIndex] using steady

namespace DefaultTrackOutput

variable {state : Recording} {fifo : SampleFifo}

theorem skipWhile_recorded {skips : SampleHolder → Bool} {rounds skipped : Nat}
    {after : RollingSampleBuffer} {holder shown : SampleHolder} {haveNext : Bool}
    (recorded : state.Recorded fifo)
    (loops : skipWhile skips rounds state.buffer holder = .ok (skipped, haveNext, shown, after)) :
    (state.advanceTo after).Recorded (fifo.consume skipped) ∧
      after.infoQueue.capacity = state.buffer.infoQueue.capacity := by
  induction rounds generalizing state fifo holder skipped with
  | zero =>
    unfold skipWhile at loops
    simp only at loops
    split at loops
    next => cases loops
    next =>
      cases loops
      rw [SampleFifo.consume_zero]
      exact ⟨recorded.peek holder, rfl⟩
  | succ rounds ih =>
    obtain ⟨extrasHolder, peeks⟩ := state.buffer.peekSample_eq holder
    have peeked := recorded.withExtrasHolder extrasHolder
    have shows := RollingSampleBuffer.peekSample_peeked recorded.sound.refines holder
    unfold skipWhile at loops
    simp only at loops
    split at loops
    next goes =>
      simp only [peeks] at loops
      obtain ⟨middle, skip, rest⟩ := bind_ok loops
      obtain ⟨⟨count, result⟩, again, rest⟩ := bind_ok rest
      cases rest
      have nonempty : fifo.queue ≠ [] := by
        intro empty
        simp only [Peeked, empty] at shows
        simp [shows] at goes
      obtain ⟨next, skips, sound, moved⟩ := RollingSampleBuffer.skipSample_sound peeked.sound nonempty
      cases skip.symm.trans skips
      have base := Recording.moved_recorded peeked nonempty sound moved
      obtain ⟨reached, capacity⟩ := ih base again
      rw [SampleFifo.consume_consume, Nat.add_comm] at reached
      have ring : middle.infoQueue.capacity = state.buffer.infoQueue.capacity := by
        rw [moved]
        rfl
      have further : middle.getReadIndex ≠ state.buffer.getReadIndex := by
        have reads : middle.getReadIndex = fifo.consumed + 1 := base.readIndex
        rw [reads, recorded.readIndex]
        omega
      exact ⟨reached.advance (.inl further) capacity, capacity.trans ring⟩
    next =>
      cases loops
      rw [SampleFifo.consume_zero]
      exact ⟨recorded.peek holder, rfl⟩

theorem advanceToSync_recorded {output next : DefaultTrackOutput} {haveNext : Bool}
    (recorded : state.Recorded fifo) (same : state.buffer = output.rollingBuffer)
    (advances : output.advanceToSync = .ok (haveNext, next)) :
    ∃ fifo, (state.advanceTo next.rollingBuffer).Recorded fifo := by
  unfold advanceToSync at advances
  split at advances
  next =>
    obtain ⟨⟨count, found, shown, buffer⟩, loops, rest⟩ := bind_ok advances
    cases rest
    rw [← same] at loops
    exact ⟨_, (skipWhile_recorded recorded loops).1⟩
  next =>
    cases advances
    have peeked := recorded.peek output.sampleInfoHolder
    rw [same] at peeked
    exact ⟨fifo, peeked⟩

theorem advanceToEligibleSample_recorded {output next : DefaultTrackOutput} {eligible : Bool}
    (recorded : state.Recorded fifo) (same : state.buffer = output.rollingBuffer)
    (advances : output.advanceToEligibleSample = .ok (eligible, next)) :
    ∃ fifo, (state.advanceTo next.rollingBuffer).Recorded fifo := by
  obtain ⟨⟨haveNext, middle⟩, found, rest⟩ := bind_ok advances
  have reached := advanceToSync_recorded recorded same found
  simp only at rest
  split at rest
  next =>
    cases rest
    exact reached
  next =>
    split at rest
    next =>
      cases rest
      exact reached
    next =>
      cases rest
      exact reached

end DefaultTrackOutput

end NDash.Extractor

namespace NDash.Chunk

open Extractor

def OwnedSample.committed (sample : OwnedSample) : CommittedSample :=
  { timeUs := sample.record.timeUs
    durationUs := sample.record.durationUs
    flags := sample.record.flags
    bytes := sample.bytes }

namespace SampleQueue

def recording (queue : SampleQueue) : Recording :=
  { buffer := queue.output.rollingBuffer
    history := queue.history.map (·.committed)
    uncommitted := queue.uncommitted
    grown := queue.grown }

variable {queue next : SampleQueue} {fifo : SampleFifo}

theorem isEmpty_recorded {empty : Bool} (recorded : queue.recording.Recorded fifo)
    (looks : queue.isEmpty = .ok (empty, next)) : ∃ fifo, next.recording.Recorded fifo := by
  obtain ⟨⟨_, output⟩, looked, rest⟩ := bind_ok looks
  cases rest
  obtain ⟨⟨eligible, output⟩, advances, rest⟩ := bind_ok looked
  cases rest
  exact DefaultTrackOutput.advanceToEligibleSample_recorded recorded rfl advances

theorem getSample_recorded {holder filled : SampleHolder} {found : Bool}
    (recorded : queue.recording.Recorded fifo)
    (gets : queue.getSample holder = .ok (found, filled, next)) :
    ∃ fifo, next.recording.Recorded fifo := by
  obtain ⟨⟨returned, filled, output⟩, got, rest⟩ := bind_ok gets
  cases rest
  obtain ⟨⟨eligible, middle⟩, advances, rest⟩ := bind_ok got
  obtain ⟨reached, before⟩ :=
    DefaultTrackOutput.advanceToEligibleSample_recorded recorded rfl advances
  cases eligible with
  | false =>
    cases rest
    exact ⟨reached, before⟩
  | true =>
    obtain ⟨⟨read, copied, buffer⟩, reads, rest⟩ := bind_ok rest
    cases present : reached.queue with
    | nil =>
      have empty := RollingSampleBuffer.readSample_empty before.sound.refines present holder
      cases empty.symm.trans reads
      cases rest
      exact ⟨reached, before⟩
    | cons record records =>
      rcases RollingSampleBuffer.readSample_sound before.sound present holder with
        ⟨⟨fault, fails, -⟩, -⟩ | ⟨filled, after, succeeds, sound, moved, -⟩
      · cases fails.symm.trans reads
      · cases succeeds.symm.trans reads
        cases rest
        have final := Recording.moved_recorded before (by simp [present]) sound moved
        have further : buffer.getReadIndex ≠ middle.rollingBuffer.getReadIndex := by
          have after : buffer.getReadIndex = reached.consumed + 1 := final.readIndex
          have index : middle.rollingBuffer.getReadIndex = reached.consumed := before.readIndex
          omega
        exact ⟨_, final.advance (.inr further) (by rw [moved]; rfl)⟩

theorem skipToKeyframeBefore_recorded {timeUs : Int} {found : Bool}
    (recorded : queue.recording.Recorded fifo)
    (skips : queue.skipToKeyframeBefore timeUs = .ok (found, next)) :
    (∃ fifo, next.recording.Recorded fifo) ∧
      (found = false → next.getReadIndex = queue.getReadIndex) := by
  obtain ⟨⟨moved, output⟩, skip, rest⟩ := bind_ok skips
  cases rest
  obtain ⟨refines, outcome, -⟩ :=
    DefaultTrackOutput.skipToKeyframeBefore_refines recorded.sound.refines skip
  obtain ⟨⟨_, buffer⟩, skipped, rest⟩ := bind_ok skip
  cases rest
  constructor
  · obtain ⟨after, final, applied, result⟩ :=
      Recording.skipToKeyframeBefore_recorded .zero timeUs recorded
    simp only [Recording.apply, recording, skipped, bind, Except.bind, Except.ok.injEq] at applied
    subst applied
    exact ⟨final, result⟩
  · intro missing
    have before : queue.getReadIndex = fifo.consumed := recorded.readIndex
    have after : buffer.getReadIndex = (fifo.skipToKeyframeBefore timeUs).2.consumed := refines.read
    cases keyframe : fifo.keyframeBefore timeUs with
    | none =>
      simp only [SampleFifo.skipToKeyframeBefore, keyframe] at after
      exact after.trans before.symm
    | some count =>
      obtain ⟨record, present, -⟩ := fifo.keyframeBefore_spec timeUs count keyframe
      have start := (recorded.get present).1
      simp only [SampleFifo.skipToKeyframeBefore, keyframe, present, Option.map_some,
        Option.getD_some, missing] at outcome
      simp at outcome
      omega

theorem clear_recorded (recorded : queue.recording.Recorded fifo) (clears : queue.clear = .ok next) :
    ∃ fifo, next.recording.Recorded fifo := by
  obtain ⟨output, clear, rest⟩ := bind_ok clears
  cases rest
  obtain ⟨buffer, cleared, rest⟩ := bind_ok clear
  cases rest
  obtain ⟨after, final, applied, result⟩ := Recording.clear_recorded .zero recorded
  simp only [Recording.apply, recording, cleared, bind, Except.bind, Except.ok.injEq] at applied
  subst applied
  exact ⟨final, result⟩

theorem writeSampleDataFixThis_recorded {src : Bytes} {allowEndOfInput : Bool}
    (recorded : queue.recording.Recorded fifo)
    (writes : queue.writeSampleDataFixThis src allowEndOfInput = .ok next)
    (limit : next.recording.buffer.getWritePosition - next.recording.buffer.totalBytesDropped <
      2147483648) :
    next.recording.Recorded fifo := by
  obtain ⟨⟨more, count, output⟩, write, rest⟩ := bind_ok writes
  cases rest
  obtain ⟨⟨more, count, buffer⟩, appends, rest⟩ := bind_ok write
  cases rest
  have applied : queue.recording.apply .zero (.append src allowEndOfInput) =
      .ok { queue.recording.advanceTo buffer with
        uncommitted := queue.uncommitted ++ src.take (count.getD 0).toNat } := by
    simp only [Recording.apply, recording, appends, bind, Except.bind]
  exact Recording.append_recorded .zero recorded applied limit

theorem writeSampleMetadata_recorded (fresh : Fresh) (owner : Nat) {metadata : SampleMetadata}
    (recorded : queue.recording.Recorded fifo)
    (legal : queue.recording.Legal (.commitSample (queue.output.positioned metadata)))
    (readable : (queue.output.positioned metadata).record.Readable) :
    ∃ fifo, (queue.writeSampleMetadata fresh owner metadata).recording.Recorded fifo := by
  obtain ⟨next, applied, result⟩ := Recording.commitSample_recorded fresh recorded legal readable
  cases applied
  refine ⟨fifo.commit (queue.output.positioned metadata).record, ?_⟩
  have same : (queue.writeSampleMetadata fresh owner metadata).recording.history =
      queue.recording.history ++
        [⟨metadata.timeUs, metadata.durationUs, metadata.flags,
          queue.uncommitted.take (queue.output.positioned metadata).size.toNat⟩] := by
    simp only [recording, writeSampleMetadata, List.map_append]
    rfl
  rw [show (queue.writeSampleMetadata fresh owner metadata).recording =
    { (queue.writeSampleMetadata fresh owner metadata).recording with
      history := (queue.writeSampleMetadata fresh owner metadata).recording.history } from rfl, same]
  exact result

theorem discardUpstreamSamples_recorded {index : Nat} (recorded : queue.recording.Recorded fifo)
    (lower : queue.getReadIndex ≤ index) (upper : index ≤ queue.getWriteIndex)
    (keeps : queue.recording.KeepsCut index)
    (discards : queue.discardUpstreamSamples index = .ok next) :
    ∃ fifo, next.recording.Recorded fifo := by
  obtain ⟨output, discard, rest⟩ := bind_ok discards
  cases rest
  obtain ⟨buffer, dropped, rest⟩ := bind_ok discard
  obtain ⟨extrasHolder, looked⟩ :
      ∃ extrasHolder, output.rollingBuffer = { buffer with extrasHolder } := by
    cases rest
    exact ⟨_, rfl⟩
  obtain ⟨after, again, result⟩ :=
    Recording.discardUpstreamSamples_recorded recorded ⟨lower, upper⟩ keeps
  cases dropped.symm.trans again
  refine ⟨fifo.discardFrom index, ?_⟩
  simp only [recording, List.map_take, advanceTo, DefaultTrackOutput.getReadIndex, looked]
  exact result.withExtrasHolder extrasHolder

theorem discardUpstreamSamples_succeeds {index : Nat} (recorded : queue.recording.Recorded fifo)
    (lower : queue.getReadIndex ≤ index) (upper : index ≤ queue.getWriteIndex)
    (keeps : queue.recording.KeepsCut index) :
    ∃ next, queue.discardUpstreamSamples index = .ok next := by
  obtain ⟨buffer, discards, -⟩ :=
    Recording.discardUpstreamSamples_recorded recorded ⟨lower, upper⟩ keeps
  have discarded : queue.output.rollingBuffer.discardUpstreamSamples index = .ok buffer := discards
  simp only [discardUpstreamSamples, DefaultTrackOutput.discardUpstreamSamples, discarded, bind,
    Except.bind]
  exact ⟨_, rfl⟩

end SampleQueue

end NDash.Chunk

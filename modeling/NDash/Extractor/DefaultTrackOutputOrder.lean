import NDash.Extractor.DefaultTrackOutput
import NDash.Shared.Machine

set_option autoImplicit false

namespace NDash.Extractor

open Machine RollingSampleBuffer

structure Playback where
  output : DefaultTrackOutput
  committed : List SampleRecord := []
  lastReturned : Option Nat := none
  splices : List Int := []

inductive PlaybackOp
  | writeSampleData (src : Bytes) (allowEndOfInput : Bool)
  | writeSampleMetadata (metadata : SampleMetadata)
  | getSample (holder : SampleHolder)
  | isEmpty
  | discardUntil (timeUs : Int)
  | skipToKeyframeBefore (timeUs : Int)
  | configureSpliceTo (nextQueue : DefaultTrackOutput)
  | clear

namespace Playback

def apply (fresh : Fresh) (state : Playback) : PlaybackOp → Except Fault Playback
  | .writeSampleData src allowEndOfInput => do
    let (_, _, output) ← state.output.writeSampleDataFixThis src allowEndOfInput
    .ok { state with output }
  | .writeSampleMetadata metadata =>
    .ok { state with
      output := state.output.writeSampleMetadata fresh metadata
      committed := state.committed ++ [(state.output.positioned metadata).record] }
  | .getSample holder => do
    let (found, _, output) ← state.output.getSample holder
    .ok { state with
      output
      lastReturned := if found then some (output.getReadIndex - 1) else state.lastReturned }
  | .isEmpty => do
    let (_, output) ← state.output.isEmpty
    .ok { state with output }
  | .discardUntil timeUs => do
    let output ← state.output.discardUntil timeUs
    .ok { state with output }
  | .skipToKeyframeBefore timeUs => do
    let (_, output) ← state.output.skipToKeyframeBefore timeUs
    .ok { state with output }
  | .configureSpliceTo nextQueue => do
    let (configured, output, _) ← state.output.configureSpliceTo nextQueue
    .ok { state with
      output
      splices := if configured then output.spliceOutTimeUs :: state.splices else state.splices }
  | .clear => do
    let output ← state.output.clear
    .ok { output }

end Playback

def playbackSystem (allocator : Upstream.Allocator) (fresh : Fresh) : System Playback PlaybackOp where
  Start state := state = { output := .initial allocator fresh }
  Step state op next := state.apply fresh op = .ok next

namespace Playback

-- Either the next sample follows the last one handed out, or a keyframe is due.
structure InOrder (state : Playback) (fifo : SampleFifo) : Prop where
  refines : state.output.rollingBuffer.infoQueue.Refines fifo
  queued : fifo.queue = state.committed.drop fifo.consumed
  bounded : fifo.consumed ≤ state.committed.length
  resumes : state.output.needKeyFrame = false →
    state.lastReturned.map (· + 1) = some fifo.consumed ∨
      ∃ sample rest, fifo.queue = sample :: rest ∧ sample.isSync = true
  spliced : ∀ timeUs ∈ state.splices, timeUs ≠ kInvalidTimestamp →
    state.output.spliceOutTimeUs = timeUs

variable {state next : Playback} {fifo : SampleFifo}

-- Moving the head is harmless while a keyframe is due or the new head is one.
theorem InOrder.consume (ordered : state.InOrder fifo) {count : Nat} {output : DefaultTrackOutput}
    (inside : count ≤ fifo.queue.length)
    (refines : output.rollingBuffer.infoQueue.Refines (fifo.consume count))
    (splice : output.spliceOutTimeUs = state.output.spliceOutTimeUs)
    (resumes : output.needKeyFrame = false →
      (state.output.needKeyFrame = false ∧ count = 0) ∨
        ∃ sample rest, (fifo.consume count).queue = sample :: rest ∧ sample.isSync = true) :
    InOrder { state with output } (fifo.consume count) := by
  have queued := ordered.queued
  have bounded := ordered.bounded
  have size := congrArg List.length queued
  rw [List.length_drop] at size
  refine ⟨refines, ?_, ?_, ?_, ?_⟩
  · simp [SampleFifo.consume, queued]
  · simp only [SampleFifo.consume]
    omega
  · intro ready
    rcases resumes ready with ⟨before, rfl⟩ | sync
    · rw [SampleFifo.consume_zero]
      exact ordered.resumes before
    · exact .inr sync
  · intro timeUs configured valid
    rw [splice]
    exact ordered.spliced timeUs configured valid

theorem advance_inOrder {output : DefaultTrackOutput} {count : Nat} (ordered : state.InOrder fifo)
    (advances : DefaultTrackOutput.Advances state.output fifo output count) :
    InOrder { state with output } (fifo.consume count) := by
  obtain ⟨⟨holder, buffer, rfl⟩, refines, inside, -, stays⟩ := advances
  exact ordered.consume inside refines rfl fun ready => .inl ⟨ready, stays ready⟩

theorem writeSampleData_inOrder (fresh : Fresh) {src : Bytes} {allowEndOfInput : Bool}
    (ordered : state.InOrder fifo)
    (applied : state.apply fresh (.writeSampleData src allowEndOfInput) = .ok next) :
    next.InOrder fifo := by
  obtain ⟨⟨more, count, output⟩, writes, rest⟩ := bind_ok applied
  cases rest
  obtain ⟨⟨more, count, buffer⟩, appends, rest⟩ := bind_ok writes
  cases rest
  have same := appendDataFixThis_infoQueue appends
  obtain ⟨refines, queued, bounded, resumes, spliced⟩ := ordered
  exact ⟨same ▸ refines, queued, bounded, resumes, spliced⟩

theorem writeSampleMetadata_inOrder (fresh : Fresh) {metadata : SampleMetadata}
    (ordered : state.InOrder fifo)
    (applied : state.apply fresh (.writeSampleMetadata metadata) = .ok next) :
    next.InOrder (fifo.commit (state.output.positioned metadata).record) := by
  cases applied
  obtain ⟨refines, queued, bounded, resumes, spliced⟩ := ordered
  refine ⟨InfoQueue.commitSample_refines fresh _ refines, ?_, ?_, ?_, spliced⟩
  · simp only [SampleFifo.commit, queued]
    exact (List.drop_append_of_le_length bounded).symm
  · simp only [SampleFifo.commit, List.length_append]
    omega
  · intro ready
    rcases resumes ready with follows | ⟨sample, rest, present, sync⟩
    · exact .inl follows
    · right
      refine ⟨sample, rest ++ [(state.output.positioned metadata).record], ?_, sync⟩
      simp [SampleFifo.commit, present]

theorem getSample_inOrder (fresh : Fresh) {holder : SampleHolder} (ordered : state.InOrder fifo)
    (applied : state.apply fresh (.getSample holder) = .ok next) : ∃ after, next.InOrder after := by
  obtain ⟨⟨found, filled, output⟩, gets, rest⟩ := bind_ok applied
  cases rest
  obtain ⟨count, middle, advances, outcome⟩ :=
    DefaultTrackOutput.getSample_advances ordered.refines gets
  cases found with
  | false =>
    obtain ⟨-, rfl⟩ := outcome
    exact ⟨_, advance_inOrder ordered advances⟩
  | true =>
    obtain ⟨sample, samples, present, -, -, reached, buffer, rfl⟩ := outcome
    have inside := SampleFifo.lt_length_of_consume present
    have size := congrArg List.length ordered.queued
    rw [List.length_drop] at size
    have bounded := ordered.bounded
    have read : buffer.infoQueue.absoluteReadIndex = fifo.consumed + (count + 1) := reached.read
    obtain ⟨shown, advanced, rfl⟩ := advances.same
    refine ⟨fifo.consume (count + 1), reached, ?_, ?_, fun _ => .inl ?_, ordered.spliced⟩
    · simp [SampleFifo.consume, ordered.queued]
    · simp only [SampleFifo.consume]
      omega
    · simp only [if_true, DefaultTrackOutput.getReadIndex, RollingSampleBuffer.getReadIndex,
        InfoQueue.getReadIndex, read, SampleFifo.consume, Option.map_some, Option.some.injEq]
      omega

theorem isEmpty_inOrder (fresh : Fresh) (ordered : state.InOrder fifo)
    (applied : state.apply fresh .isEmpty = .ok next) : ∃ after, next.InOrder after := by
  obtain ⟨⟨empty, output⟩, looks, rest⟩ := bind_ok applied
  cases rest
  obtain ⟨⟨eligible, advanced⟩, advances, rest⟩ := bind_ok looks
  cases rest
  obtain ⟨count, moved, -⟩ :=
    DefaultTrackOutput.advanceToEligibleSample_advances ordered.refines advances
  exact ⟨_, advance_inOrder ordered moved⟩

theorem discardUntil_inOrder (fresh : Fresh) {timeUs : Int} (ordered : state.InOrder fifo)
    (applied : state.apply fresh (.discardUntil timeUs) = .ok next) :
    ∃ after, next.InOrder after := by
  obtain ⟨output, discards, rest⟩ := bind_ok applied
  cases rest
  obtain ⟨count, reaches, reached, shown, buffer, rfl⟩ :=
    DefaultTrackOutput.discardUntil_refines ordered.refines discards
  refine ⟨_, ordered.consume reaches.inside reached rfl fun ready => .inl ?_⟩
  simp only at ready
  split at ready
  next none => exact ⟨ready, none⟩
  next => cases ready

theorem skipToKeyframeBefore_inOrder (fresh : Fresh) {timeUs : Int} (ordered : state.InOrder fifo)
    (applied : state.apply fresh (.skipToKeyframeBefore timeUs) = .ok next) :
    ∃ after, next.InOrder after := by
  obtain ⟨⟨found, output⟩, skips, rest⟩ := bind_ok applied
  cases rest
  obtain ⟨reached, -, buffer, rfl⟩ :=
    DefaultTrackOutput.skipToKeyframeBefore_refines ordered.refines skips
  cases keyframe : fifo.keyframeBefore timeUs with
  | none =>
    simp only [SampleFifo.skipToKeyframeBefore, keyframe] at reached
    obtain ⟨-, queued, bounded, resumes, spliced⟩ := ordered
    exact ⟨fifo, reached, queued, bounded, resumes, spliced⟩
  | some count =>
    simp only [SampleFifo.skipToKeyframeBefore, keyframe] at reached
    obtain ⟨sample, found, sync⟩ := fifo.keyframeBefore_spec timeUs count keyframe
    have inside := (List.getElem?_eq_some_iff.mp found).1
    refine ⟨_, ordered.consume (Nat.le_of_lt inside) reached rfl fun _ => .inr ?_⟩
    refine ⟨sample, fifo.queue.drop (count + 1), ?_, sync⟩
    rw [SampleFifo.consume, List.drop_eq_getElem_cons inside, (List.getElem?_eq_some_iff.mp found).2]

theorem configureSpliceTo_inOrder (fresh : Fresh) {nextQueue : DefaultTrackOutput}
    (ordered : state.InOrder fifo)
    (applied : state.apply fresh (.configureSpliceTo nextQueue) = .ok next) : next.InOrder fifo := by
  obtain ⟨⟨configured, output, after⟩, splices, rest⟩ := bind_ok applied
  cases rest
  obtain ⟨refines, queued, bounded, resumes, spliced⟩ := ordered
  unfold DefaultTrackOutput.configureSpliceTo at splices
  split at splices
  next already =>
    cases splices
    refine ⟨refines, queued, bounded, resumes, ?_⟩
    intro timeUs member valid
    rcases List.mem_cons.mp member with rfl | member
    · rfl
    · exact spliced timeUs member valid
  next unset =>
    have none : ∀ timeUs ∈ state.splices, timeUs = kInvalidTimestamp := by
      intro timeUs member
      by_contra valid
      exact unset fun invalid => valid ((spliced timeUs member valid).symm.trans invalid)
    obtain ⟨⟨count, found, shown, buffer⟩, -, rest⟩ := bind_ok splices
    simp only at rest
    split at rest
    next =>
      cases rest
      refine ⟨refines, queued, bounded, resumes, ?_⟩
      intro timeUs member valid
      rcases List.mem_cons.mp member with rfl | member
      · rfl
      · exact absurd (none timeUs member) valid
    next =>
      cases rest
      exact ⟨refines, queued, bounded, resumes, fun timeUs member valid =>
        absurd (none timeUs member) valid⟩

theorem clear_inOrder (fresh : Fresh) (ordered : state.InOrder fifo)
    (applied : state.apply fresh .clear = .ok next) : next.InOrder {} := by
  obtain ⟨output, clears, rest⟩ := bind_ok applied
  cases rest
  obtain ⟨refines, waits⟩ := DefaultTrackOutput.clear_refines ordered.refines clears
  exact ⟨refines, rfl, Nat.zero_le _, by simp [waits], by simp⟩

theorem apply_inOrder (fresh : Fresh) {op : PlaybackOp} (ordered : state.InOrder fifo)
    (applied : state.apply fresh op = .ok next) : ∃ after, next.InOrder after := by
  cases op with
  | writeSampleData src allowEndOfInput => exact ⟨_, writeSampleData_inOrder fresh ordered applied⟩
  | writeSampleMetadata metadata => exact ⟨_, writeSampleMetadata_inOrder fresh ordered applied⟩
  | getSample holder => exact getSample_inOrder fresh ordered applied
  | isEmpty => exact isEmpty_inOrder fresh ordered applied
  | discardUntil timeUs => exact discardUntil_inOrder fresh ordered applied
  | skipToKeyframeBefore timeUs => exact skipToKeyframeBefore_inOrder fresh ordered applied
  | configureSpliceTo nextQueue => exact ⟨_, configureSpliceTo_inOrder fresh ordered applied⟩
  | clear => exact ⟨_, clear_inOrder fresh ordered applied⟩

end Playback

theorem playbackSystem_inOrder {allocator : Upstream.Allocator} {fresh : Fresh} {state : Playback}
    (reachable : Reachable (playbackSystem allocator fresh) state) :
    ∃ fifo, state.InOrder fifo := by
  refine Reachable.invariant (fun state => ∃ fifo, state.InOrder fifo) ?_ ?_ reachable
  · rintro _ rfl
    exact ⟨{}, InfoQueue.initial_refines fresh, rfl, Nat.zero_le _,
      by simp [DefaultTrackOutput.initial], by simp⟩
  · rintro state op next ⟨fifo, ordered⟩ applied
    exact Playback.apply_inOrder fresh ordered applied

theorem getSample_decodable_in_sequence (allocator : Upstream.Allocator) (fresh : Fresh)
    (state : Playback) (reachable : Reachable (playbackSystem allocator fresh) state)
    (holder filled : SampleHolder) (output : DefaultTrackOutput)
    (returned : state.output.getSample holder = .ok (true, filled, output)) :
    ∃ index sample, output.getReadIndex = index + 1 ∧ state.committed[index]? = some sample ∧
      Labelled filled sample ∧
      (sample.isSync = true ∨ ∃ last, state.lastReturned = some last ∧ index = last + 1) ∧
      ∀ timeUs ∈ state.splices, timeUs ≠ kInvalidTimestamp → filled.timeUs < timeUs := by
  obtain ⟨fifo, ordered⟩ := playbackSystem_inOrder reachable
  obtain ⟨count, middle, advances, sample, samples, present, eligible, label, reached, -⟩ :=
    DefaultTrackOutput.getSample_advances ordered.refines returned
  have found : state.committed[fifo.consumed + count]? = some sample := by
    have first := congrArg List.head? present
    simpa [SampleFifo.consume, ordered.queued, List.head?_drop] using first
  refine ⟨fifo.consumed + count, sample, reached.read, found, label, ?_, ?_⟩
  · cases need : state.output.needKeyFrame with
    | true => exact .inl (eligible.sync need)
    | false =>
      have stays := advances.stays need
      subst stays
      rcases ordered.resumes need with follows | ⟨head, rest, queue, sync⟩
      · right
        obtain ⟨last, returned, next⟩ := Option.map_eq_some_iff.mp follows
        exact ⟨last, returned, next.symm⟩
      · left
        rw [SampleFifo.consume_zero, queue] at present
        obtain ⟨rfl, rfl⟩ := List.cons.inj present
        exact sync
  · intro timeUs configured valid
    have splice := ordered.spliced timeUs configured valid
    rw [label.1, ← splice]
    exact eligible.beforeSplice (splice ▸ valid)

def sampleAt (timeUs : Int) : SampleMetadata :=
  { timeUs, durationUs := 20, flags := kSampleFlagSync, offset := 0, size := 0 }

def queueWith (timeUs : Int) : DefaultTrackOutput :=
  (DefaultTrackOutput.initial (.initial 4 fun _ _ => 0) .zero).writeSampleMetadata .zero
    (sampleAt timeUs)

def splicedOps : List PlaybackOp :=
  [.writeSampleMetadata (sampleAt kInvalidTimestamp), .configureSpliceTo (queueWith kInvalidTimestamp)]

def Playback.advance (fresh : Fresh) (state : Playback) (op : PlaybackOp) : Option Playback :=
  (state.apply fresh op).toOption

def Playback.handsOut (state : Playback) : Option (List Int × Int) :=
  match state.output.getSample { bufferReplacementEnabled := true } with
  | .ok (true, filled, _) => some (state.splices, filled.timeUs)
  | _ => none

theorem Playback.handsOut_getSample {state : Playback} {splices : List Int} {timeUs : Int}
    (returned : state.handsOut = some (splices, timeUs)) :
    ∃ filled output, state.splices = splices ∧ filled.timeUs = timeUs ∧
      state.output.getSample { bufferReplacementEnabled := true } = .ok (true, filled, output) := by
  unfold handsOut at returned
  split at returned
  next filled output gets =>
    cases returned
    exact ⟨filled, output, rfl, rfl, gets⟩
  next => cases returned

theorem execute_reachable {ops : List PlaybackOp} {state : Playback}
    (executed : execute (Playback.advance .zero) { output := .initial (.initial 4 fun _ _ => 0) .zero }
      ops = some state) :
    Reachable (playbackSystem (.initial 4 fun _ _ => 0) .zero) state := by
  refine (Reachable.start _ rfl).run (.of_execute ?_ executed)
  intro state op next _ advances
  exact Outcome.ok_of_toOption advances

def byteSample (timeUs : Int) (flags : BitVec 32) (offset : Int) : SampleMetadata :=
  { timeUs, durationUs := 10, flags, offset, size := 1 }

-- The first sample is handed out, the next two are searched past, and a splice follows the last two.
def skippedOps : List PlaybackOp :=
  [.writeSampleData [1, 2, 3, 4] false, .writeSampleData [5] false,
    .writeSampleMetadata (byteSample 0 kSampleFlagSync 4), .writeSampleMetadata (byteSample 10 0 3),
    .writeSampleMetadata (byteSample 20 0 2), .writeSampleMetadata (byteSample 30 kSampleFlagSync 1),
    .writeSampleMetadata (byteSample 35 0 0), .getSample { bufferReplacementEnabled := true },
    .skipToKeyframeBefore 33, .configureSpliceTo (queueWith 40),
    .getSample { bufferReplacementEnabled := true }]

theorem skippedOps_result :
    (execute (Playback.advance .zero) { output := .initial (.initial 4 fun _ _ => 0) .zero }
      skippedOps).bind (fun state => state.handsOut.map (·, state.lastReturned)) =
        some (([40], 35), some 3) := by
  decide +kernel

-- The last sample follows the keyframe that was searched for.
theorem getSample_decodable_before_splice :
    ∃ (state : Playback) (filled : SampleHolder) (output : DefaultTrackOutput) (index : Nat)
      (sample : SampleRecord),
      state.splices = [40] ∧ state.lastReturned = some 3 ∧ filled.timeUs = 35 ∧
      state.output.getSample { bufferReplacementEnabled := true } = .ok (true, filled, output) ∧
      state.committed[index]? = some sample ∧
      (sample.isSync = true ∨ ∃ last, state.lastReturned = some last ∧ index = last + 1) ∧
      filled.timeUs < 40 := by
  obtain ⟨state, executed, returned⟩ := Option.bind_eq_some_iff.mp skippedOps_result
  obtain ⟨⟨splices, timeUs⟩, hands, same⟩ := Option.map_eq_some_iff.mp returned
  obtain ⟨handed, lastReturned⟩ := Prod.mk.inj same
  cases handed
  obtain ⟨filled, output, splices, time, gets⟩ := Playback.handsOut_getSample hands
  obtain ⟨index, sample, -, present, -, follows, before⟩ := getSample_decodable_in_sequence _ _ _
    (execute_reachable executed) _ _ _ gets
  exact ⟨state, filled, output, index, sample, splices, lastReturned, time, gets, present, follows,
    before 40 (by simp [splices]) (by decide)⟩

theorem splicedOps_result :
    (execute (Playback.advance .zero) { output := .initial (.initial 4 fun _ _ => 0) .zero }
      splicedOps).bind Playback.handsOut = some ([kInvalidTimestamp], kInvalidTimestamp) := by
  decide +kernel

theorem getSample_ignores_splice_at_invalid_timestamp :
    ∃ (state : Playback) (filled : SampleHolder) (output : DefaultTrackOutput),
      Reachable (playbackSystem (.initial 4 fun _ _ => 0) .zero) state ∧
      kInvalidTimestamp ∈ state.splices ∧
      state.output.getSample { bufferReplacementEnabled := true } = .ok (true, filled, output) ∧
      kInvalidTimestamp ≤ filled.timeUs := by
  obtain ⟨state, executed, returned⟩ := Option.bind_eq_some_iff.mp splicedOps_result
  obtain ⟨filled, output, splices, time, gets⟩ := Playback.handsOut_getSample returned
  refine ⟨state, filled, output, execute_reachable executed, by simp [splices], gets, ?_⟩
  rw [time]

end NDash.Extractor

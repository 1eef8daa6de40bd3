import NDash.Chunk.ScheduleAligned
import NDash.Chunk.ChunkSampleSourceRuns

set_option autoImplicit false

namespace NDash.Chunk

open Extractor Outcome Machine Schedule Upstream

def ChunkSampleSource.KeepsSamples (source : ChunkSampleSource) (op : SourceOp)
    (next : ChunkSampleSource) : Prop :=
  op.Reported ∧ source.Writes .ofSamples op ∧
    ∀ discard ∈ next.observed.discards, discard.before.recording.KeepsCut discard.index

section Reachable

variable {size : Nat} {uninitialized : BlockId → Nat → UInt8} {fresh : Fresh}
  {source : ChunkSampleSource}

theorem ChunkSampleSource.initial_aligned (positive : 0 < size) (small : size < 2147483648)
    (uninitialized : BlockId → Nat → UInt8) (fresh : Fresh) :
    (initial (.initial size uninitialized) fresh).schedule.Aligned :=
  .of_empty rfl rfl rfl ⟨{}, Recording.initial_recorded positive small uninitialized fresh⟩ (by
    simp [schedule, initial])

theorem ChunkSampleSource.inRange (sound : source.schedule.Sound .ofSamples)
    (aligned : source.schedule.Aligned) (unpassed : source.schedule.Unpassed) :
    source.schedule.InRange .ofSamples := by
  obtain ⟨fifo, tracked⟩ := sound.tracked
  obtain ⟨recording, recorded⟩ := aligned.recorded
  intro removed member
  have upper : removed.firstSampleIndex ≤ source.schedule.queue.getWriteIndex := by
    rw [tracked.writeIndex]
    exact aligned.upper removed (List.mem_of_mem_tail member)
  refine ⟨unpassed removed member, upper, ?_⟩
  intro fault failed keeps
  obtain ⟨next, discards⟩ := SampleQueue.discardUpstreamSamples_succeeds recorded
    (unpassed removed member) upper keeps
  cases discards.symm.trans failed

theorem ChunkSampleSource.apply_kept (fresh : Fresh) {op : SourceOp}
    (sound : source.schedule.Sound .ofSamples) (aligned : source.schedule.Aligned)
    (unpassed : source.schedule.Unpassed) (legal : source.Legal op) (reported : op.Reported)
    (writes : source.Writes .ofSamples op) :
    Ensures (ChunkSampleSource.Tolerated .ofSamples) (source.apply fresh op) fun next =>
      Relation.ReflTransGen (Step fresh .ofSamples) source.schedule next.schedule :=
  apply_reaches sound legal False.elim (fun _ => reported)
    (fun _ => inRange sound aligned unpassed) False.elim writes

theorem reachable_aligned (positive : 0 < size) (small : size < 2147483648)
    (reachable : Reachable ((sourceSystem (.initial size uninitialized) fresh).restrict
      ChunkSampleSource.KeepsSamples) source) :
    source.schedule.Sound .ofSamples ∧ source.schedule.Aligned ∧ source.schedule.Unpassed := by
  refine reachable.invariant (fun source => source.schedule.Sound .ofSamples ∧
    source.schedule.Aligned ∧ source.schedule.Unpassed) ?_ ?_
  · rintro _ rfl
    refine ⟨ChunkSampleSource.initial_sound _ _ fresh,
      ChunkSampleSource.initial_aligned positive small uninitialized fresh, ?_⟩
    simp [Unpassed, ChunkSampleSource.schedule, ChunkSampleSource.initial]
  · rintro source op next ⟨sound, aligned, unpassed⟩ ⟨⟨legal, applied⟩, reported, writes, known⟩
    have steps := (ChunkSampleSource.apply_kept fresh sound aligned unpassed legal reported
      writes).ok applied
    exact ⟨steps_sound steps sound, steps_aligned steps sound aligned unpassed known⟩

end Reachable

/-- Chunk boundaries agree with the samples, and a discard leaves those of the retained chunks. -/
theorem chunkSampleSource_keeps_boundaries (size : Nat) (positive : 0 < size)
    (small : size < 2147483648) (uninitialized : BlockId → Nat → UInt8) (fresh : Fresh)
    (source : ChunkSampleSource)
    (reachable : Reachable ((sourceSystem (.initial size uninitialized) fresh).restrict
      ChunkSampleSource.KeepsSamples) source) :
    source.mediaChunks.Pairwise
        (fun earlier later => earlier.firstSampleIndex ≤ later.firstSampleIndex) ∧
      (∀ media ∈ source.mediaChunks, media.firstSampleIndex ≤ source.sampleQueue.getWriteIndex) ∧
      (∀ media ∈ source.mediaChunks.tail,
        source.sampleQueue.getReadIndex ≤ media.firstSampleIndex) ∧
      (∀ op, source.Legal op → op.Reported → source.Writes .ofSamples op →
        source.apply fresh op ≠ .error .discardOutOfRange ∧
        ∀ queue index fault, source.apply fresh op = .error (.discard queue index fault) →
          ¬ queue.recording.KeepsCut index) ∧
      ∀ discard ∈ source.observed.discards, discard.Exact := by
  obtain ⟨sound, aligned, unpassed⟩ := reachable_aligned positive small reachable
  obtain ⟨fifo, tracked⟩ := sound.tracked
  refine ⟨?_, ?_, unpassed, ?_, aligned.discards⟩
  · exact aligned.ordered.imp fun precedes => precedes.1
  · intro media member
    have write : source.sampleQueue.getWriteIndex = source.sampleQueue.history.length :=
      tracked.writeIndex
    rw [write]
    exact aligned.upper media member
  · intro op legal reported writes
    have ensured := ChunkSampleSource.apply_kept fresh sound aligned unpassed legal reported writes
    constructor
    · intro failed
      exact ensured.error failed ⟨trivial, trivial⟩
    · intro queue index fault failed
      exact ensured.error failed trivial trivial

instance (queue : SampleQueue) (owner : Nat) (metadata : SampleMetadata) :
    Decidable (queue.Commits owner metadata) :=
  decidable_of_iff
    (((queue.output.positioned metadata).offset = (bytesOf queue.recording.history).length ∧
        0 ≤ (queue.output.positioned metadata).size ∧
        (queue.output.positioned metadata).size ≤ queue.recording.uncommitted.length) ∧
      ((queue.output.positioned metadata).record.isEncrypted = true →
        (queue.output.positioned metadata).record.iv ≠ []) ∧
      ((∀ sample ∈ queue.history, sample.owner ≠ owner) →
        (queue.output.positioned metadata).record.isSync = true))
    ⟨fun ⟨legal, readable, first⟩ => ⟨legal, readable, first⟩,
      fun commits => ⟨commits.legal, commits.readable, commits.first⟩⟩

instance (source : ChunkSampleSource) (op : SourceOp) : Decidable (source.Writes .ofSamples op) :=
  match op with
  | .writeSampleData src allowEndOfInput =>
    match written : source.sampleQueue.writeSampleDataFixThis src allowEndOfInput with
    | .error _ => .isTrue (by simp [ChunkSampleSource.Writes, written])
    | .ok queue =>
      decidable_of_iff (queue.recording.buffer.getWritePosition -
        queue.recording.buffer.totalBytesDropped < 2147483648)
        (by simp [ChunkSampleSource.Writes, written, Premises.ofSamples])
  | .writeSampleMetadata metadata =>
    match running : source.loader with
    | none => .isTrue (by simp [ChunkSampleSource.Writes, running])
    | some loading =>
      decidable_of_iff (source.sampleQueue.Commits loading.chunk.id metadata)
        (by simp [ChunkSampleSource.Writes, running, Premises.ofSamples])
  | .register => .isTrue trivial
  | .prepare _ => .isTrue trivial
  | .enable _ _ => .isTrue trivial
  | .disable => .isTrue trivial
  | .disableAndClear => .isTrue trivial
  | .continueBuffering _ _ => .isTrue trivial
  | .readDiscontinuity => .isTrue trivial
  | .readData _ _ _ => .isTrue trivial
  | .seekToUs _ _ => .isTrue trivial
  | .getBufferedPositionUs => .isTrue trivial
  | .loadComplete _ _ => .isTrue trivial
  | .giveFormat _ => .isTrue trivial

instance (state : Recording) (index : Nat) : Decidable (state.KeepsCut index) := by
  unfold Recording.KeepsCut Recording.KnowsCut
  infer_instance

def ChunkSampleSource.advanceKeeping (fresh : Fresh) (source : ChunkSampleSource) (op : SourceOp) :
    Option ChunkSampleSource :=
  (source.advance fresh op).filter fun next => source.Writes .ofSamples op ∧
    ∀ discard ∈ next.observed.discards, discard.before.recording.KeepsCut discard.index

theorem reachable_of_advanceKeeping {allocator : Allocator} {fresh : Fresh} {ops : List SourceOp}
    {source : ChunkSampleSource}
    (executed : execute (ChunkSampleSource.advanceKeeping fresh) (.initial allocator fresh) ops =
      some source) (reported : ∀ op ∈ ops, op.Reported) :
    Reachable ((sourceSystem allocator fresh).restrict ChunkSampleSource.KeepsSamples) source := by
  refine (Reachable.start _ rfl).run (.of_execute ?_ executed)
  intro source op next member advances
  obtain ⟨advanced, kept⟩ := Option.filter_eq_some_iff.mp advances
  obtain ⟨writes, known⟩ := of_decide_eq_true kept
  exact ⟨ChunkSampleSource.advance_step allocator advanced, reported op member, writes, known⟩

def replaceOps (late : List SourceOp) : List SourceOp :=
  enableOps mediaSpec 0 ++ sampleOps 40 ++
    .loadComplete (answering (.replace mediaSpec) 0) .complete :: late

def dropSecond : SourceOp := .loadComplete (answering (.replace mediaSpec) 0) (.error 0)

theorem replaceOps_reported {late : List SourceOp} (reported : ∀ op ∈ late, op.Reported) :
    ∀ op ∈ replaceOps late, op.Reported := by
  simpa [replaceOps, enableOps, sampleOps, SourceOp.Reported, answering_reports, or_imp,
    forall_and] using reported

theorem keptRun_result :
    (execute (ChunkSampleSource.advanceKeeping .zero) (.initial (.initial 4 fun _ _ => 0) .zero)
      (replaceOps (sampleOps 60 ++ [dropSecond]))).map (fun source =>
        source.observed.discards.map fun discard => (discard.index, discard.kept.length)) =
      some [(1, 1)] := by
  decide +kernel

theorem chunkSampleSource_keeps_first_sample :
    ∃ (source : ChunkSampleSource) (discard : UpstreamDiscard),
      discard ∈ source.observed.discards ∧ discard.index = 1 ∧ discard.kept.length = 1 ∧
        discard.Exact := by
  obtain ⟨source, executed, result⟩ := Option.map_eq_some_iff.mp keptRun_result
  obtain ⟨discard, others, discards, same, -⟩ := List.map_eq_cons_iff.mp result
  simp only [Prod.mk.injEq] at same
  have logged : discard ∈ source.observed.discards := by simp [discards]
  have reachable := reachable_of_advanceKeeping executed (replaceOps_reported (by
    simp [sampleOps, dropSecond, SourceOp.Reported, answering_reports]))
  have kept := (chunkSampleSource_keeps_boundaries 4 (by decide) (by decide) (fun _ _ => 0) .zero
    source reachable).2.2.2.2 discard logged
  exact ⟨source, discard, logged, same.1, same.2, kept⟩

theorem lostRun_result :
    ((execute (ChunkSampleSource.advanceKeeping .zero) (.initial (.initial 4 fun _ _ => 0) .zero)
      (replaceOps [])).map fun source =>
        (decide (source.Legal dropSecond), match source.apply .zero dropSecond with
        | .error (.discard queue index .emptyDataQueue) =>
          some (queue.getReadIndex, index, queue.getWriteIndex)
        | _ => none)) =
      some (true, some (0, 1, 1)) := by
  decide +kernel

theorem chunkSampleSource_loses_first_sample :
    ∃ source op queue, Reachable ((sourceSystem (.initial 4 fun _ _ => 0) .zero).restrict
        ChunkSampleSource.KeepsSamples) source ∧
      source.Legal op ∧ op.Reported ∧ source.Writes .ofSamples op ∧
      source.apply .zero op = .error (.discard queue 1 .emptyDataQueue) ∧
      queue.getReadIndex = 0 ∧ queue.getWriteIndex = 1 := by
  obtain ⟨source, executed, result⟩ := Option.map_eq_some_iff.mp lostRun_result
  simp only [Prod.mk.injEq, decide_eq_true_eq] at result
  obtain ⟨legal, failed⟩ := result
  split at failed
  next queue index applied =>
    simp only [Option.some.injEq, Prod.mk.injEq] at failed
    obtain ⟨read, rfl, write⟩ := failed
    exact ⟨source, dropSecond, queue, reachable_of_advanceKeeping executed
      (replaceOps_reported (by simp)), legal, answering_reports _ _, trivial, applied, read, write⟩
  next => cases failed

end NDash.Chunk

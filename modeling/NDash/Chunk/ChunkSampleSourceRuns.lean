import NDash.Chunk.ChunkSampleSourceSystem

set_option autoImplicit false

namespace NDash.Chunk

open Extractor Outcome Machine Schedule

-- What is assumed of the calls and the answers alone; the writes of a load may be any.
def Premises.ofCalls (positioned reported keeps : Prop) : Premises :=
  { positioned, reported, keeps, inRange := False }

section Reachable

variable {positioned reported keeps : Prop} {allocator : Upstream.Allocator} {fresh : Fresh}
  {source : ChunkSampleSource}

def Premises.Met (positioned reported keeps : Prop) (source : ChunkSampleSource) (op : SourceOp) :
    Prop :=
  (positioned → op.Positioned) ∧ (reported → op.Reported) ∧ (keeps → source.KeepsBackedOff op)

theorem ChunkSampleSource.apply_met (fresh : Fresh) {op : SourceOp}
    (sound : source.schedule.Sound (.ofCalls positioned reported keeps)) (legal : source.Legal op)
    (met : Premises.Met positioned reported keeps source op) :
    Ensures (ChunkSampleSource.Tolerated (.ofCalls positioned reported keeps))
      (source.apply fresh op) fun next => Relation.ReflTransGen
        (Step fresh (.ofCalls positioned reported keeps)) source.schedule next.schedule := by
  obtain ⟨atPosition, isReported, keepsOther⟩ := met
  refine ChunkSampleSource.apply_reaches sound legal atPosition isReported False.elim keepsOther ?_
  cases op <;> simp [ChunkSampleSource.Writes, Premises.ofCalls]

theorem reachable_sound {condition : ChunkSampleSource → SourceOp → ChunkSampleSource → Prop}
    (met : ∀ source op next, condition source op next →
      Premises.Met positioned reported keeps source op)
    (reachable : Reachable ((sourceSystem allocator fresh).restrict condition) source) :
    source.schedule.Sound (.ofCalls positioned reported keeps) := by
  refine reachable.invariant
    (fun source => source.schedule.Sound (.ofCalls positioned reported keeps)) ?_ ?_
  · rintro _ rfl
    exact ChunkSampleSource.initial_sound _ allocator fresh
  · rintro source op next sound ⟨⟨legal, applied⟩, holds⟩
    have steps := (ChunkSampleSource.apply_met fresh sound legal (met source op next holds)).ok applied
    exact steps_sound steps sound

end Reachable

-- The chunk source and the clock of the runs below: one answer, whatever is asked.
def answering (choice : ChunkChoice) (now : Int) : Environment :=
  { getChunkOperation := fun queue _ _ => { choice, queueSize := min queue.length 8 }
    update := fun _ _ loading => !loading
    now }

theorem answering_reports (choice : ChunkChoice) (now : Int) : (answering choice now).Reports := by
  intro queue position holder nonempty
  have positive := List.length_pos_iff.mpr nonempty
  simp only [answering]
  omega

theorem ChunkSampleSource.advance_step (allocator : Upstream.Allocator) {fresh : Fresh}
    {source next : ChunkSampleSource} {op : SourceOp} (advances : source.advance fresh op = some next) :
    (sourceSystem allocator fresh).Step source op next := by
  unfold advance at advances
  obtain ⟨legal, applied⟩ := Option.ite_none_right_eq_some.mp advances
  exact ⟨legal, Outcome.ok_of_toOption applied⟩

theorem run_of_advance (allocator : Upstream.Allocator) {fresh : Fresh} {ops : List SourceOp}
    {first last : ChunkSampleSource}
    (executed : execute (ChunkSampleSource.advance fresh) first ops = some last) :
    Run (sourceSystem allocator fresh) first ops last :=
  .of_execute (fun _ _ _ _ advances => ChunkSampleSource.advance_step allocator advances) executed

theorem reachable_of_advance {allocator : Upstream.Allocator} {fresh : Fresh} {ops : List SourceOp}
    {source : ChunkSampleSource}
    {condition : ChunkSampleSource → SourceOp → ChunkSampleSource → Prop}
    (executed : execute (ChunkSampleSource.advance fresh) (.initial allocator fresh) ops = some source)
    (always : ∀ op ∈ ops, ∀ before after, condition before op after) :
    Reachable ((sourceSystem allocator fresh).restrict condition) source :=
  (Reachable.start _ rfl).run ((run_of_advance allocator executed).restrict always)

/-- Enabled and with no reset pending, there is a chunk at the front and at the back. -/
theorem chunkSampleSource_keeps_chunk (allocator : Upstream.Allocator) (fresh : Fresh)
    (source : ChunkSampleSource)
    (reachable : Reachable ((sourceSystem allocator fresh).restrict fun _ op _ =>
      op.Positioned ∧ op.Reported) source) :
    (source.state = .enabled → source.isPendingReset = false → source.mediaChunks ≠ []) ∧
      (source.state = .enabled → ∀ loading, source.loader = some loading →
        loading.chunk.isMediaChunk = true →
        source.mediaChunks.getLast?.map (·.chunk) = some loading.chunk) ∧
      ∀ op, source.Legal op → op.Positioned → op.Reported →
        source.apply fresh op ≠ .error .emptyChunkQueue ∧
          source.apply fresh op ≠ .error .nullChunk := by
  have sound : source.schedule.Sound (.ofCalls True True False) := by
    refine reachable_sound ?_ reachable
    rintro _ op _ ⟨positioned, reported⟩
    exact ⟨fun _ => positioned, fun _ => reported, False.elim⟩
  refine ⟨?_, ?_, ?_⟩
  · intro enabled unset
    rw [ChunkSampleSource.isPendingReset_eq] at unset
    have settled : source.pending = none := by simpa using unset
    exact sound.queued trivial trivial enabled settled
  · intro _ loading running media
    obtain ⟨chunk, held, keeps⟩ := sound.busy (.inl (by simp [ChunkSampleSource.schedule, running]))
    cases held.symm.trans (sound.loading loading running).2
    rw [Keeps, if_pos media] at keeps
    exact keeps.2
  · intro op legal positioned reported
    have ensured := ChunkSampleSource.apply_met fresh sound legal
      ⟨fun _ => positioned, fun _ => reported, False.elim⟩
    constructor
    · intro failed
      exact ensured.error failed ⟨trivial, trivial⟩
    · intro failed
      exact ensured.error failed

def mediaSpec : ChunkSpec := { type := .media, endTimeUs := 4000000 }

def enableOps (spec : ChunkSpec) (positionUs : Int) : List SourceOp :=
  [.register, .prepare true, .enable (answering (.replace spec) 0) positionUs]

theorem mediaRun_result :
    (execute (ChunkSampleSource.advance .zero) (.initial (.initial 4 fun _ _ => 0) .zero)
      (enableOps mediaSpec 0)).map (fun source => (source.state, source.isPendingReset)) =
      some (.enabled, false) := by
  decide +kernel

theorem chunkSampleSource_keeps_first_chunk :
    ∃ source : ChunkSampleSource, source.state = .enabled ∧ source.isPendingReset = false ∧
      source.mediaChunks ≠ [] := by
  obtain ⟨source, executed, result⟩ := Option.map_eq_some_iff.mp mediaRun_result
  simp only [Prod.mk.injEq] at result
  have chunks := (chunkSampleSource_keeps_chunk (.initial 4 fun _ _ => 0) .zero source
    (reachable_of_advance executed (by
      simp [enableOps, SourceOp.Positioned, SourceOp.Reported, answering_reports, kNoResetPending,
        int64Min]))).1 result.1 result.2
  exact ⟨source, result.1, result.2, chunks⟩

theorem preparedRun_result :
    (execute (ChunkSampleSource.advance .zero) (.initial (.initial 4 fun _ _ => 0) .zero)
      [.register, .prepare true]).map (fun source =>
        (source.state, match source.apply .zero (.enable (answering (.replace mediaSpec) 0)
          kNoResetPending) with
        | .error .emptyChunkQueue => true
        | _ => false)) =
      some (.prepared, true) := by
  decide +kernel

theorem chunkSampleSource_enables_without_chunk :
    ∃ source env, Reachable (sourceSystem (.initial 4 fun _ _ => 0) .zero) source ∧
      source.Legal (.enable env kNoResetPending) ∧ env.Reports ∧
      source.apply .zero (.enable env kNoResetPending) = .error .emptyChunkQueue := by
  obtain ⟨source, executed, result⟩ := Option.map_eq_some_iff.mp preparedRun_result
  simp only [Prod.mk.injEq] at result
  refine ⟨source, answering (.replace mediaSpec) 0, ?_, result.1, answering_reports _ _, ?_⟩
  · exact (Reachable.start _ rfl).run (run_of_advance _ executed)
  · have failed := result.2
    split at failed
    next applied => exact applied
    next => cases failed

section Delivery

namespace ChunkSampleSource

variable {source next : ChunkSampleSource} {fifo : SampleFifo} {forward : Bool}
  {holder filled : SampleHolder}

def HandsOut (source : ChunkSampleSource) (filled : SampleHolder) (next : ChunkSampleSource) : Prop :=
  ∃ sample : OwnedSample, filled.timeUs = sample.record.timeUs ∧
    filled.durationUs = sample.record.durationUs ∧
    next.observed.deliveries =
      ⟨some sample, source.observed.resetAt⟩ :: source.observed.deliveries

theorem readSample_handsOut
    (reads : source.readSample forward holder = .ok (.sampleRead, filled, next))
    (tracked : source.sampleQueue.Tracked fifo) : source.HandsOut filled next := by
  obtain ⟨⟨found, got, queue⟩, gets, rest⟩ := bind_ok reads
  obtain ⟨-, index, skips, -, outcome⟩ := SampleQueue.getSample_skips tracked (liftQueue_ok gets)
  cases found with
  | false => cases rest
  | true =>
    cases rest
    obtain ⟨read, sample, present, time, duration, -⟩ := outcome
    refine ⟨sample, time, duration, ?_⟩
    rw [read, Nat.add_sub_cancel, skips.history, present]

theorem readChunk_handsOut {empty : Bool}
    (reads : source.readChunk empty forward holder = .ok (.sampleRead, filled, next))
    (tracked : source.sampleQueue.Tracked fifo) : source.HandsOut filled next := by
  unfold readChunk at reads
  split at reads
  next => cases reads
  next =>
    simp only at reads
    split at reads
    next => cases reads
    next =>
      split at reads
      next =>
        split at reads <;> cases reads
      next =>
        have handsOut := readSample_handsOut reads tracked
        exact handsOut

theorem readData_handsOut {position : Int}
    (reads : source.readData position forward holder = .ok (.sampleRead, filled, next))
    (tracked : source.sampleQueue.Tracked fifo) : source.HandsOut filled next := by
  unfold readData at reads
  simp only at reads
  split at reads
  next => cases reads
  next =>
    obtain ⟨⟨empty, looked⟩, looks, rest⟩ := bind_ok reads
    obtain ⟨⟨_, queue⟩, lifted, same⟩ := bind_ok looks
    cases same
    obtain ⟨⟨reached, tracked⟩, -⟩ := SampleQueue.isEmpty_skips tracked (liftQueue_ok lifted)
    cases empty with
    | true =>
      have handsOut := readChunk_handsOut rest tracked
      exact handsOut
    | false =>
      have handsOut := readChunk_handsOut rest tracked
      exact handsOut

end ChunkSampleSource

end Delivery

/-- The last seek wins, and nothing of before its reset is handed out. -/
theorem chunkSampleSource_last_seek_wins (allocator : Upstream.Allocator) (fresh : Fresh)
    (source : ChunkSampleSource)
    (reachable : Reachable ((sourceSystem allocator fresh).restrict fun _ op _ => op.Positioned)
      source) :
    (∀ positionUs forward holder filled next, source.state = .enabled →
        source.readData positionUs forward holder = .ok (.sampleRead, filled, next) →
        ∃ reset sample, source.observed.resetAt = some reset ∧ reset ≤ sample.number ∧
          filled.timeUs = sample.record.timeUs ∧ filled.durationUs = sample.record.durationUs ∧
          next.observed.deliveries = ⟨some sample, some reset⟩ :: source.observed.deliveries) ∧
      ∀ start ∈ source.observed.starts, ∀ position, start.seekPosition = some position →
        start.queuedChunks = 0 ∧ start.queuedSamples = 0 ∧
          start.chunk.requestedFor = position ∧ start.chunk.requestedWith = 0 := by
  have sound {source : ChunkSampleSource} (reachable : Reachable ((sourceSystem allocator
      fresh).restrict fun _ op _ => op.Positioned) source) :
      source.schedule.Sound (.ofCalls True False False) := by
    refine reachable_sound ?_ reachable
    intro _ op _ positioned
    exact ⟨fun _ => positioned, False.elim, False.elim⟩
  refine ⟨?_, ?_⟩
  · intro position forward holder filled next enabled reads
    obtain ⟨fifo, tracked⟩ := (sound reachable).tracked
    obtain ⟨sample, time, duration, delivered⟩ :=
      ChunkSampleSource.readData_handsOut reads tracked
    have step : ((sourceSystem allocator fresh).restrict fun _ op _ => op.Positioned).Step source
        (.readData position forward holder) next := by
      refine ⟨⟨enabled, ?_⟩, trivial⟩
      simp [ChunkSampleSource.apply, reads, Except.map]
    obtain ⟨reset, same, resetAt, found, later⟩ :=
      (sound (reachable.next _ step)).deliveries trivial ⟨some sample, source.observed.resetAt⟩
        (by simp [ChunkSampleSource.schedule, delivered])
    simp only [Option.some.injEq] at resetAt found
    subst found
    exact ⟨reset, sample, resetAt, later, time, duration, resetAt ▸ delivered⟩
  · intro start member position wanted
    obtain ⟨requestedFor, requestedWith, chunks, samples⟩ :=
      (sound reachable).starts trivial start member position wanted
    exact ⟨chunks, samples, requestedFor, requestedWith⟩

def sampleOps (timeUs : Int) : List SourceOp :=
  [.writeSampleData [1, 2] false,
    .writeSampleMetadata
      { timeUs, durationUs := 20, flags := kSampleFlagSync, offset := 0, size := 2 }]

-- A seek while a load runs, with a sample committed before it.
def seekOps (positionUs : Int) : List SourceOp :=
  enableOps mediaSpec 0 ++ sampleOps 40 ++
    [.seekToUs (answering (.replace mediaSpec) 0) positionUs, .readDiscontinuity]

def ChunkSampleSource.reads (source : ChunkSampleSource) : Option (Option Nat × Option Int × Int) :=
  match source.readData 0 true { bufferReplacementEnabled := true } with
  | .ok (.sampleRead, filled, _) =>
    some (source.observed.resetAt, source.observed.seekPosition, filled.timeUs)
  | _ => none

theorem ChunkSampleSource.reads_readData {source : ChunkSampleSource} {resetAt : Option Nat}
    {seekPosition : Option Int} {timeUs : Int}
    (returned : source.reads = some (resetAt, seekPosition, timeUs)) :
    ∃ filled next, source.observed.resetAt = resetAt ∧ source.observed.seekPosition = seekPosition ∧
      filled.timeUs = timeUs ∧
      source.readData 0 true { bufferReplacementEnabled := true } =
        .ok (.sampleRead, filled, next) := by
  unfold reads at returned
  split at returned
  next filled next reads =>
    cases returned
    exact ⟨filled, next, rfl, rfl, rfl, reads⟩
  next => cases returned

theorem restartedRun_result :
    (execute (ChunkSampleSource.advance .zero) (.initial (.initial 4 fun _ _ => 0) .zero)
      (seekOps 8000000 ++ .loadComplete (answering (.replace mediaSpec) 0) .canceled ::
        sampleOps 8000000)).bind (fun source =>
          source.reads.map fun read => (source.state, read)) =
      some (.enabled, some 1, none, 8000000) := by
  decide +kernel

theorem chunkSampleSource_reads_after_restart :
    ∃ (source : ChunkSampleSource) (filled : SampleHolder) (next : ChunkSampleSource)
      (sample : OwnedSample),
      source.readData 0 true { bufferReplacementEnabled := true } =
        .ok (.sampleRead, filled, next) ∧
      source.observed.resetAt = some 1 ∧ 1 ≤ sample.number ∧
      filled.timeUs = sample.record.timeUs := by
  obtain ⟨source, executed, result⟩ := Option.bind_eq_some_iff.mp restartedRun_result
  obtain ⟨⟨resetAt, seekPosition, timeUs⟩, returned, same⟩ := Option.map_eq_some_iff.mp result
  simp only [Prod.mk.injEq] at same
  obtain ⟨enabled, rfl, rfl, rfl⟩ := same
  obtain ⟨filled, next, noted, -, -, reads⟩ := ChunkSampleSource.reads_readData returned
  obtain ⟨reset, sample, resetAt, later, time, -⟩ :=
    (chunkSampleSource_last_seek_wins (.initial 4 fun _ _ => 0) .zero source
      (reachable_of_advance executed (by
        simp [seekOps, enableOps, sampleOps, SourceOp.Positioned, kNoResetPending,
          int64Min]))).1 _ _ _ _ _ enabled reads
  cases noted.symm.trans resetAt
  exact ⟨source, filled, next, sample, reads, noted, later, time⟩

theorem leakingRun_result :
    (execute (ChunkSampleSource.advance .zero) (.initial (.initial 4 fun _ _ => 0) .zero)
      (seekOps kNoResetPending)).bind (fun source =>
        source.reads.map fun read => (source.state, read)) =
      some (.enabled, none, some kNoResetPending, 40) := by
  decide +kernel

theorem chunkSampleSource_reads_before_reset :
    ∃ source filled next, Reachable (sourceSystem (.initial 4 fun _ _ => 0) .zero) source ∧
      source.state = .enabled ∧ source.observed.seekPosition = some kNoResetPending ∧
      source.observed.resetAt = none ∧
      source.readData 0 true { bufferReplacementEnabled := true } =
        .ok (.sampleRead, filled, next) := by
  obtain ⟨source, executed, result⟩ := Option.bind_eq_some_iff.mp leakingRun_result
  obtain ⟨⟨resetAt, seekPosition, timeUs⟩, returned, same⟩ := Option.map_eq_some_iff.mp result
  simp only [Prod.mk.injEq] at same
  obtain ⟨enabled, rfl, rfl, rfl⟩ := same
  obtain ⟨filled, next, noted, sought, -, reads⟩ := ChunkSampleSource.reads_readData returned
  exact ⟨source, filled, next, (Reachable.start _ rfl).run (run_of_advance _ executed), enabled,
    sought, noted, reads⟩

/-- No chunk is used once it is destroyed, if a resumed chunk that is not a media chunk is kept. -/
theorem chunkSampleSource_owns_chunks (allocator : Upstream.Allocator) (fresh : Fresh)
    (source : ChunkSampleSource)
    (reachable : Reachable ((sourceSystem allocator fresh).restrict fun source op _ =>
      source.KeepsBackedOff op) source) :
    source.observed.dangling = false ∧
      ∀ loading, source.loader = some loading → source.owns none loading.chunk = true := by
  have owned : source.schedule.Sound (.ofCalls False False True) ∧
      source.schedule.observed.dangling = false := by
    refine reachable.invariant (fun source => source.schedule.Sound (.ofCalls False False True) ∧
      source.schedule.observed.dangling = false) ?_ ?_
    · rintro _ rfl
      exact ⟨ChunkSampleSource.initial_sound _ allocator fresh, rfl⟩
    · rintro source op next ⟨sound, owned⟩ ⟨⟨legal, applied⟩, keeps⟩
      have steps := (ChunkSampleSource.apply_met fresh sound legal
        ⟨False.elim, False.elim, fun _ => keeps⟩).ok applied
      exact ⟨steps_sound steps sound, steps_owned steps trivial owned⟩
  refine ⟨owned.2, ?_⟩
  intro loading running
  exact ChunkSampleSource.owns_loadable owned.1 none (owned.1.loading loading running).2

def initializationSpec : ChunkSpec := { type := .mediaInitialization }

def resumeOps (choice : ChunkChoice) : List SourceOp :=
  enableOps initializationSpec 0 ++ [.loadComplete (answering choice 0) (.error 0)]

theorem resumedRun_result (choice : ChunkChoice) (listed : choice ∈ [.keep, .replace mediaSpec]) :
    (execute (ChunkSampleSource.advance .zero) (.initial (.initial 4 fun _ _ => 0) .zero)
      (resumeOps choice)).map (fun source =>
        (source.loader.map (·.chunk.id), source.observed.dangling)) =
      if choice = .keep then some (some 0, false) else some (some 1, true) := by
  simp only [List.mem_cons, List.not_mem_nil, or_false] at listed
  rcases listed with rfl | rfl
  · decide +kernel
  · decide +kernel

theorem chunkSampleSource_owns_resumed_chunk :
    ∃ (source : ChunkSampleSource) (loading : Loading), source.loader = some loading ∧
      source.observed.dangling = false ∧ source.owns none loading.chunk = true := by
  obtain ⟨source, executed, result⟩ := Option.map_eq_some_iff.mp (resumedRun_result .keep (by decide))
  simp only [Prod.mk.injEq] at result
  obtain ⟨loading, running, -⟩ := Option.map_eq_some_iff.mp result.1
  have reachable : Reachable ((sourceSystem (.initial 4 fun _ _ => 0) .zero).restrict
      fun source op _ => source.KeepsBackedOff op) source := by
    refine reachable_of_advance executed ?_
    simp [resumeOps, enableOps, ChunkSampleSource.KeepsBackedOff, ChunkSampleSource.KeepsOther,
      ChunkSampleSource.operation, answering]
  obtain ⟨owned, loads⟩ := chunkSampleSource_owns_chunks _ .zero source reachable
  exact ⟨source, loading, running, owned, loads loading running⟩

theorem chunkSampleSource_uses_replaced_chunk :
    ∃ source, Reachable (sourceSystem (.initial 4 fun _ _ => 0) .zero) source ∧
      source.observed.dangling = true := by
  obtain ⟨source, executed, result⟩ :=
    Option.map_eq_some_iff.mp (resumedRun_result (.replace mediaSpec) (by decide))
  simp only [Prod.mk.injEq] at result
  exact ⟨source, (Reachable.start _ rfl).run (run_of_advance _ executed), result.2⟩

end NDash.Chunk

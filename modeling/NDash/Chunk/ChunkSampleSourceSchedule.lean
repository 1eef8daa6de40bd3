import NDash.Shared.Outcome
import NDash.Chunk.ScheduleSound

set_option autoImplicit false

namespace NDash.Chunk

open Extractor Outcome Relation Schedule

-- The chunk source may shorten a queue, but leaves a chunk to play from.
def Environment.Reports (env : Environment) : Prop :=
  ∀ queue position holder, queue ≠ [] →
    1 ≤ (env.getChunkOperation queue position holder).queueSize ∧
      (env.getChunkOperation queue position holder).queueSize ≤ queue.length ∧
      (env.getChunkOperation queue position holder).queueSize < 2147483648

namespace ChunkSampleSource

def pending (source : ChunkSampleSource) : Option Int := target source.pendingResetPositionUs

def schedule (source : ChunkSampleSource) : Schedule :=
  { phase := source.state
    posted := source.disablePosted
    queue := source.sampleQueue
    chunks := source.mediaChunks
    loadable := source.currentLoadableHolder.chunk
    owned := source.currentLoadableHolder.ownedChunk
    loader := source.loader
    backedOff := source.currentLoadableErrorReason ≠ .noError
    pending := source.pending
    observed := source.observed }

def Tolerated (premises : Premises) : SourceFault → Prop
  | .sampleQueue _ => True
  | .discard queue index _ => premises.reported → premises.inRange → premises.fails queue index
  | .discardOutOfRange => ¬ (premises.reported ∧ premises.inRange)
  | .emptyChunkQueue => ¬ (premises.reported ∧ premises.positioned)
  | .nullChunk => False

def Arrives (fresh : Fresh) (premises : Premises) (start : Schedule) (next : ChunkSampleSource) : Prop :=
  ReflTransGen (Step fresh premises) start next.schedule ∧ next.state = .enabled

def Reaches (fresh : Fresh) (premises : Premises) (start : Schedule)
    (result : Except SourceFault ChunkSampleSource) : Prop :=
  Ensures (Tolerated premises) result (Arrives fresh premises start)

variable {fresh : Fresh} {premises : Premises} {env : Environment}
  {source : ChunkSampleSource}

theorem liftQueue_ensures {α : Type} {result : Except Fault α} {post : α → Prop}
    (meets : ∀ value, result = .ok value → post value) :
    Ensures (Tolerated premises) (liftQueue result) post := by
  cases result with
  | error fault => trivial
  | ok value => exact meets value rfl

theorem liftQueue_ok {α : Type} {result : Except Fault α} {value : α}
    (lifted : liftQueue result = .ok value) : result = .ok value := by
  cases result with
  | error fault => cases lifted
  | ok returned =>
    cases lifted
    rfl

theorem isPendingReset_eq (source : ChunkSampleSource) :
    source.isPendingReset = source.pending.isSome := by
  unfold isPendingReset pending target
  split <;> simp [*]

theorem operationPositionUs_pending {position : Int} (wanted : source.pending = some position) :
    source.operationPositionUs = position := by
  unfold pending target at wanted
  unfold operationPositionUs
  split at wanted
  next => cases wanted
  next waiting =>
    rw [if_pos waiting]
    exact Option.some.inj wanted

theorem dereference_owned {moved : Option Chunk} {chunk : Chunk}
    (owned : source.owns moved chunk = true) : source.dereference moved chunk = source := by
  simp [dereference, owned]

theorem owns_queued {media : MediaChunk} (member : media ∈ source.mediaChunks)
    (moved : Option Chunk) : source.owns moved media.chunk = true := by
  have found : source.mediaChunks.any (·.chunk.id = media.chunk.id) = true :=
    List.any_eq_true.mpr ⟨media, member, by simp⟩
  simp [owns, found]

theorem owns_loadable (sound : source.schedule.Sound premises) {chunk : Chunk} (moved : Option Chunk)
    (held : source.currentLoadableHolder.chunk = some chunk) : source.owns moved chunk = true := by
  have kept : source.currentLoadableHolder.ownedChunk = some chunk ∨
      ∃ media ∈ source.mediaChunks, media.chunk = chunk := by
    by_cases busy : source.schedule.Busy
    · obtain ⟨loadable, present, keeps⟩ := sound.busy busy
      cases held.symm.trans present
      unfold Keeps at keeps
      split at keeps
      next =>
        obtain ⟨media, last, rfl⟩ := Option.map_eq_some_iff.mp keeps.2
        exact .inr ⟨media, List.mem_of_getLast? last, rfl⟩
      next => exact .inl keeps
    · exact .inl ((sound.idle busy).symm.trans held)
  rcases kept with owned | ⟨media, member, rfl⟩
  · simp [owns, owned]
  · exact owns_queued member moved

theorem consult_eq (sound : source.schedule.Sound premises) (moved : Option Chunk) :
    source.consult moved = source := by
  unfold consult
  split
  next => rfl
  next chunk held => exact dereference_owned (owns_loadable sound moved held)

theorem getNextLoadPositionUs_ensures (sound : source.schedule.Sound premises)
    (enabled : source.state = .enabled) :
    Ensures (Tolerated premises) source.getNextLoadPositionUs fun _ => True := by
  unfold getNextLoadPositionUs
  split
  next => trivial
  next settled =>
    split
    next => trivial
    next =>
      split
      next empty =>
        have unpending : source.pending = none := by
          rw [isPendingReset_eq] at settled
          simpa using settled
        rintro ⟨reported, positioned⟩
        exact sound.queued reported positioned enabled unpending (List.getLast?_eq_none_iff.mp empty)
      next => trivial

structure SameCourse (source next : ChunkSampleSource) : Prop where
  state : next.state = source.state
  holder : next.currentLoadableHolder = source.currentLoadableHolder
  loader : next.loader = source.loader
  errorReason : next.currentLoadableErrorReason = source.currentLoadableErrorReason

theorem discardUpstreamSamples_ensures {index : Nat}
    (inRange : premises.reported → premises.inRange → CutsAt premises source.sampleQueue index) :
    Ensures (Tolerated premises) (source.discardUpstreamSamples index) fun next =>
      (source.sampleQueue.getReadIndex ≤ index ∧ index ≤ source.sampleQueue.getWriteIndex) ∧
        ∃ queue, source.sampleQueue.discardUpstreamSamples index = .ok queue ∧
          next = { source with
            sampleQueue := queue
            observed.discards :=
              ⟨source.sampleQueue, index, queue, source.mediaChunks⟩ :: source.observed.discards } := by
  unfold discardUpstreamSamples
  split
  next bounds =>
    cases discards : source.sampleQueue.discardUpstreamSamples index with
    | error fault => exact fun reported ranged => (inRange reported ranged).fails fault discards
    | ok queue => exact ⟨bounds, queue, rfl, rfl⟩
  next bounds =>
    rintro ⟨reported, ranged⟩
    exact bounds ⟨(inRange reported ranged).lower, (inRange reported ranged).upper⟩

def retained (queueLength : Int) : Nat := (queueLength % 18446744073709551616).toNat

theorem discardUpstreamMediaChunks_cuts {queueLength : Int}
    (positive : premises.reported → source.mediaChunks ≠ [] → 0 < retained queueLength)
    (inRange : premises.inRange → source.schedule.InRange premises) :
    Ensures (Tolerated premises) (source.discardUpstreamMediaChunks queueLength) fun result =>
      (source.mediaChunks[retained queueLength]? = none ∧ result = (false, source)) ∨
        SameCourse source result.2 ∧ ∃ removed queue,
          source.schedule.Cuts premises (retained queueLength) removed queue ∧
          result.2.schedule =
            source.schedule.discardFrom (retained queueLength) removed.firstSampleIndex queue := by
  unfold discardUpstreamMediaChunks
  rw [← retained]
  simp only
  split
  next missing => exact .inl ⟨missing, rfl⟩
  next removed found =>
    have nonempty : source.mediaChunks ≠ [] := by
      intro empty
      simp [empty] at found
    have tail (reported : premises.reported) : removed ∈ source.mediaChunks.tail := by
      have shifted : source.mediaChunks.tail[retained queueLength - 1]? = some removed := by
        rw [List.getElem?_tail, Nat.sub_add_cancel (positive reported nonempty)]
        exact found
      exact List.mem_of_getElem? shifted
    refine Ensures.bind (discardUpstreamSamples_ensures ?_) ?_
    · intro reported ranged
      exact inRange ranged removed (tail reported)
    · rintro _ ⟨⟨after, before⟩, queue, discards, rfl⟩
      refine .inr ⟨⟨rfl, rfl, rfl, rfl⟩, removed, queue, ?_, rfl⟩
      exact ⟨fun reported => positive reported nonempty, found, after, before, discards⟩

theorem startLoading_eq {chunk : Chunk} (owned : source.owns none chunk = true)
    (unloaded : source.loader = none) :
    source.startLoading chunk = { source with loader := some { chunk } } := by
  unfold startLoading
  rw [dereference_owned owned]
  simp [isLoading, unloaded]

structure Idle (premises : Premises) (source : ChunkSampleSource) : Prop where
  sound : source.schedule.Sound premises
  enabled : source.state = .enabled
  unloaded : source.loader = none
  steady : source.currentLoadableErrorReason = .noError

theorem Idle.unbacked (idle : source.Idle premises) : source.schedule.backedOff = false := by
  simp [schedule, idle.steady]

theorem Idle.moved (idle : source.Idle premises) {next : ChunkSampleSource}
    (steps : ReflTransGen (Step fresh premises) source.schedule next.schedule)
    (state : next.state = source.state) (loader : next.loader = source.loader)
    (errorReason : next.currentLoadableErrorReason = source.currentLoadableErrorReason) :
    next.Idle premises :=
  ⟨steps_sound steps idle.sound, state.trans idle.enabled, loader.trans idle.unloaded,
    errorReason.trans idle.steady⟩

theorem schedule_loading (steady : source.currentLoadableErrorReason = .noError) (chunk : Chunk) :
    { source with loader := some { chunk } }.schedule =
      { source.schedule with loader := some { chunk }, backedOff := false } := by
  simp [schedule, steady, pending]

theorem startLoading_reaches {chunk : Chunk} (idle : source.Idle premises)
    (held : source.currentLoadableHolder.chunk = some chunk) (other : chunk.isMediaChunk = false) :
    Arrives fresh premises source.schedule (source.startLoading chunk) := by
  rw [startLoading_eq (owns_loadable idle.sound none held) idle.unloaded]
  refine ⟨?_, idle.enabled⟩
  rw [schedule_loading idle.steady]
  exact .single (.run idle.enabled idle.unloaded held fun _ => other)

theorem maybeStartLoading_reaches (idle : source.Idle premises) :
    Reaches fresh premises source.schedule source.maybeStartLoading := by
  unfold maybeStartLoading
  split
  next => exact ⟨.refl, idle.enabled⟩
  next current held =>
    simp only [dereference_owned (owns_loadable idle.sound none held)]
    have owned : source.currentLoadableHolder.ownedChunk = some current :=
      (idle.sound.idle_of idle.unloaded idle.unbacked).symm.trans held
    split
    next media =>
      simp only [ChunkOperationHolder.takeChunk, owned]
      rw [startLoading_eq]
      · have start : Step fresh premises source.schedule (source.schedule.startMedia
            ⟨current, source.sampleQueue.getWriteIndex, current.givenFormat⟩) :=
          .startMedia idle.enabled idle.unloaded idle.unbacked held media rfl
        exact ⟨.single start, idle.enabled⟩
      · simp [owns]
      · exact idle.unloaded
    next other =>
      exact startLoading_reaches idle held (by simpa using other)

-- What the chunk source answers in its holder.
theorem applyOperation_reaches (idle : source.Idle premises) (operation : ChunkOperation) :
    ReflTransGen (Step fresh premises) source.schedule (source.applyOperation operation).schedule := by
  unfold applyOperation
  cases operation.choice with
  | keep => exact .refl
  | clear => exact .single (.choose idle.enabled idle.unloaded idle.unbacked rfl)
  | replace spec =>
    refine .single (.choose idle.enabled idle.unloaded idle.unbacked ⟨rfl, rfl, ?_⟩)
    intro position wanted
    exact ⟨operationPositionUs_pending wanted, rfl⟩

theorem applyOperation_same (source : ChunkSampleSource) (operation : ChunkOperation) :
    (source.applyOperation operation).state = source.state ∧
      (source.applyOperation operation).loader = source.loader ∧
      (source.applyOperation operation).currentLoadableErrorReason =
        source.currentLoadableErrorReason ∧
      (source.applyOperation operation).mediaChunks = source.mediaChunks ∧
      (source.applyOperation operation).sampleQueue = source.sampleQueue ∧
      (source.applyOperation operation).currentLoadableHolder.queueSize = operation.queueSize := by
  unfold applyOperation
  cases operation.choice <;> exact ⟨rfl, rfl, rfl, rfl, rfl, rfl⟩

theorem operation_reported (reports : env.Reports) (source : ChunkSampleSource)
    (nonempty : source.mediaChunks ≠ []) :
    0 < retained (source.operation env).queueSize ∧
      retained (source.operation env).queueSize ≤ source.mediaChunks.length := by
  obtain ⟨lower, upper, small⟩ := reports source.mediaChunks source.operationPositionUs
    { source.currentLoadableHolder with
      endOfStream := false
      queueSize := source.mediaChunks.length } nonempty
  unfold retained operation
  omega

theorem doChunkOperation_discards (fresh : Fresh) (idle : source.Idle premises)
    (reports : premises.reported → env.Reports) (inRange : premises.inRange → source.schedule.InRange premises) :
    Ensures (Tolerated premises)
      ((source.doChunkOperation env none).discardUpstreamMediaChunks
        (source.doChunkOperation env none).currentLoadableHolder.queueSize) fun result =>
      ReflTransGen (Step fresh premises) source.schedule result.2.schedule ∧ result.2.Idle premises ∧
        result.2.currentLoadableHolder =
          (source.applyOperation (source.operation env)).currentLoadableHolder := by
  simp only [doChunkOperation, consult_eq idle.sound]
  have steps : ReflTransGen (Step fresh premises) source.schedule
      (source.applyOperation (source.operation env)).schedule :=
    applyOperation_reaches idle (source.operation env)
  obtain ⟨state, loader, errorReason, chunks, queue, queueSize⟩ :=
    source.applyOperation_same (source.operation env)
  have after := idle.moved steps state loader errorReason
  generalize source.applyOperation (source.operation env) = answered at *
  refine (discardUpstreamMediaChunks_cuts ?_ ?_).weaken ?_
  · intro reported nonempty
    rw [queueSize]
    rw [chunks] at nonempty
    exact (operation_reported (reports reported) source nonempty).1
  · simpa only [InRange, schedule, chunks, queue] using inRange
  · rintro ⟨discarded, next⟩ (⟨-, unchanged⟩ | ⟨course, removed, cut, cuts, reached⟩)
    · cases unchanged
      exact ⟨steps, after, rfl⟩
    · have step : Step fresh premises answered.schedule next.schedule := by
        rw [reached]
        exact .discard after.enabled after.unloaded after.unbacked cuts
      exact ⟨steps.tail step, after.moved (.single step) course.state course.loader course.errorReason,
        course.holder⟩

theorem evaluateOperation_reaches (fresh : Fresh) (idle : source.Idle premises)
    (reports : premises.reported → env.Reports) (inRange : premises.inRange → source.schedule.InRange premises) :
    Ensures (Tolerated premises) (source.evaluateOperation env) fun result =>
      ReflTransGen (Step fresh premises) source.schedule result.2.schedule ∧ result.2.Idle premises := by
  refine Ensures.bind (getNextLoadPositionUs_ensures idle.sound idle.enabled) fun position _ => ?_
  split
  next =>
    have timed : Idle premises { source with lastPerformedBufferOperation := env.now } :=
      ⟨idle.sound, idle.enabled, idle.unloaded, idle.steady⟩
    refine Ensures.bind (doChunkOperation_discards fresh timed reports inRange) ?_
    rintro ⟨discarded, next⟩ ⟨steps, after, -⟩
    simp only
    split
    next => exact ⟨steps, after⟩
    next =>
      split
      next =>
        refine Ensures.bind (getNextLoadPositionUs_ensures after.sound after.enabled) ?_
        intro position _
        exact ⟨steps, after⟩
      next => exact ⟨steps, after⟩
  next => exact ⟨.refl, idle⟩

theorem Reaches.trans {start middle : Schedule} {result : Except SourceFault ChunkSampleSource}
    (steps : ReflTransGen (Step fresh premises) start middle)
    (reaches : Reaches fresh premises middle result) :
    Reaches fresh premises start result :=
  reaches.weaken fun _ rest => ⟨steps.trans rest.1, rest.2⟩

structure BackedOff (premises : Premises) (source : ChunkSampleSource) (chunk : Chunk) : Prop where
  sound : source.schedule.Sound premises
  enabled : source.state = .enabled
  failed : source.currentLoadableErrorReason ≠ .noError
  held : source.currentLoadableHolder.chunk = some chunk

theorem BackedOff.backed {chunk : Chunk} (backedOff : source.BackedOff premises chunk) :
    source.schedule.backedOff = true := by
  simp [schedule, backedOff.failed]

theorem BackedOff.unloaded {chunk : Chunk} (backedOff : source.BackedOff premises chunk) :
    source.loader = none :=
  backedOff.sound.unloaded backedOff.backed

theorem BackedOff.keeps {chunk : Chunk} (backedOff : source.BackedOff premises chunk) :
    source.schedule.Keeps chunk := by
  obtain ⟨loadable, present, keeps⟩ := backedOff.sound.busy (.inr backedOff.backed)
  cases backedOff.held.symm.trans present
  exact keeps

theorem schedule_forgiven (source : ChunkSampleSource) :
    { source with currentLoadableErrorReason := .noError }.schedule =
      { source.schedule with backedOff := false } := rfl

theorem holdsChunk_kept {chunk : Chunk} (held : source.currentLoadableHolder.chunk = some chunk)
    (operation : ChunkOperation) (choice : operation.choice = .keep) :
    (source.applyOperation operation).currentLoadableHolder.chunk = some chunk := by
  simp [applyOperation, choice, held]

theorem holdsChunk_applyOperation (source : ChunkSampleSource) {chunk : Chunk}
    (held : source.currentLoadableHolder.chunk = some chunk)
    (numbered : chunk.id < source.observed.chunksMade) (operation : ChunkOperation) :
    (source.applyOperation operation).holdsChunk chunk = true ↔ operation.choice = .keep := by
  unfold applyOperation holdsChunk
  cases operation.choice with
  | keep => simp [held]
  | clear => simp [ChunkOperationHolder.setChunk]
  | replace spec =>
    simp only [ChunkOperationHolder.setChunk, newChunk, Option.any_some, decide_eq_true_eq,
      reduceCtorEq, iff_false]
    omega

theorem dereference_reaches (may : ¬ premises.keeps) (source : ChunkSampleSource) (moved : Option Chunk)
    (chunk : Chunk) :
    ReflTransGen (Step fresh premises) source.schedule (source.dereference moved chunk).schedule := by
  cases owned : source.owns moved chunk with
  | true =>
    rw [dereference_owned owned]
  | false =>
    have gone : source.dereference moved chunk = { source with observed.dangling := true } := by
      simp [dereference, owned]
    rw [gone]
    exact .single (.dangle may)

theorem resumeOtherChunk_reaches {chunk : Chunk} (backedOff : source.BackedOff premises chunk)
    (other : chunk.isMediaChunk = false) (reports : premises.reported → env.Reports)
    (inRange : premises.inRange → source.schedule.InRange premises)
    (keeps : premises.keeps → (source.operation env).choice = .keep) :
    Reaches fresh premises source.schedule
      ({ source with currentLoadableErrorReason := .noError }.resumeOtherChunk env chunk) := by
  have forgive : Step fresh premises source.schedule
      { source with currentLoadableErrorReason := .noError }.schedule := by
    rw [schedule_forgiven]
    exact .forgive backedOff.enabled backedOff.backed backedOff.held other
  refine Reaches.trans (.single forgive) ?_
  have idle : Idle premises { source with currentLoadableErrorReason := .noError } :=
    ⟨forgive.sound backedOff.sound, backedOff.enabled, backedOff.unloaded, rfl⟩
  have choice : ({ source with currentLoadableErrorReason := .noError }.operation env).choice =
      (source.operation env).choice := rfl
  rw [← choice] at keeps
  have ranged : premises.inRange →
      { source with currentLoadableErrorReason := .noError }.schedule.InRange premises := inRange
  have held : { source with currentLoadableErrorReason := .noError }.currentLoadableHolder.chunk =
      some chunk := backedOff.held
  generalize { source with currentLoadableErrorReason := .noError } = forgiven at *
  have kept := forgiven.holdsChunk_applyOperation held (idle.sound.numbered chunk held)
    (forgiven.operation env)
  refine Ensures.bind (doChunkOperation_discards fresh idle reports ranged) ?_
  rintro ⟨discarded, next⟩ ⟨steps, after, holder⟩
  have same : next.holdsChunk chunk =
      (forgiven.applyOperation (forgiven.operation env)).holdsChunk chunk := by
    unfold holdsChunk
    rw [holder]
  simp only
  split
  next holds =>
    have choice := kept.mp (same.symm.trans holds)
    have stays := holdsChunk_kept held (forgiven.operation env) choice
    rw [← holder] at stays
    obtain ⟨started, enabled⟩ := startLoading_reaches after stays other
    exact ⟨steps.trans started, enabled⟩
  next gone =>
    have may : ¬ premises.keeps := by
      intro required
      refine gone ?_
      rw [same]
      exact kept.mpr (keeps required)
    have touched : ReflTransGen (Step fresh premises) next.schedule
        (next.dereference none chunk).schedule := dereference_reaches may next none chunk
    exact Reaches.trans (steps.trans touched)
      (maybeStartLoading_reaches (after.moved touched rfl rfl rfl))

theorem applyOperation_replaced (source : ChunkSampleSource) (operation : ChunkOperation)
    (choice : operation.choice ≠ .keep) :
    ∃ candidate made, source.schedule.Made candidate made ∧
      (source.applyOperation operation).schedule =
        { source.schedule with
          loadable := candidate
          owned := candidate
          observed.chunksMade := made } := by
  unfold applyOperation
  cases chosen : operation.choice with
  | keep => exact absurd chosen choice
  | clear => exact ⟨none, source.observed.chunksMade, rfl, rfl⟩
  | replace spec =>
    refine ⟨some (source.newChunk spec), source.observed.chunksMade + 1, ⟨rfl, rfl, ?_⟩, rfl⟩
    intro position wanted
    exact ⟨operationPositionUs_pending wanted, rfl⟩

theorem resume_reaches {chunk : Chunk} (backedOff : source.BackedOff premises chunk)
    {answered : ChunkSampleSource} (steady : answered.currentLoadableErrorReason = .noError)
    (unloaded : answered.loader = none) (owned : answered.owns none chunk = true)
    (same : answered.schedule = { source.schedule with backedOff := false }) :
    Arrives fresh premises source.schedule (answered.startLoading chunk) := by
  rw [startLoading_eq owned unloaded]
  refine ⟨?_, (congrArg Schedule.phase same).trans backedOff.enabled⟩
  rw [schedule_loading steady, same]
  exact .single (.run backedOff.enabled backedOff.unloaded backedOff.held (by simp [backedOff.backed]))

theorem BackedOff.last {chunk : Chunk} (backedOff : source.BackedOff premises chunk)
    (media : chunk.isMediaChunk = true) :
    source.mediaChunks.getLast?.map (·.chunk) = some chunk := by
  have keeps := backedOff.keeps
  rw [Keeps, if_pos media] at keeps
  exact keeps.2

theorem replaceMedia_reaches {chunk : Chunk} (backedOff : source.BackedOff premises chunk)
    (media : chunk.isMediaChunk = true) {answered : ChunkSampleSource} {queueLength : Int}
    {candidate : Option Chunk} {made : Nat}
    (same : answered.schedule = { source.schedule with
      loadable := candidate
      owned := candidate
      backedOff := false
      observed.chunksMade := made })
    (fits : source.schedule.Made candidate made) (steady : answered.currentLoadableErrorReason = .noError)
    (shorter : premises.reported →
      0 < retained queueLength ∧ retained queueLength < source.mediaChunks.length)
    (inRange : premises.inRange → source.schedule.InRange premises) :
    Reaches fresh premises source.schedule
      (do
        let (_, answered) ← answered.discardUpstreamMediaChunks queueLength
        answered.clearCurrentLoadableException.maybeStartLoading) := by
  have chunks : answered.mediaChunks = source.mediaChunks := congrArg Schedule.chunks same
  have queue : answered.sampleQueue = source.sampleQueue := congrArg Schedule.queue same
  have ranged : premises.inRange → answered.schedule.InRange premises := by
    rw [same]
    exact inRange
  have idle {next : ChunkSampleSource} (step : Step fresh premises source.schedule next.schedule)
      (course : SameCourse answered next) :
      next.clearCurrentLoadableException.schedule = next.schedule ∧
        next.clearCurrentLoadableException.Idle premises := by
    have calm : next.currentLoadableErrorReason = .noError := course.errorReason.trans steady
    have forgiven : next.clearCurrentLoadableException.schedule = next.schedule := by
      simp only [clearCurrentLoadableException, schedule, calm]
      rfl
    refine ⟨forgiven, ?_, ?_, ?_, rfl⟩
    · rw [forgiven]
      exact step.sound backedOff.sound
    · exact course.state.trans ((congrArg Schedule.phase same).trans backedOff.enabled)
    · exact course.loader.trans ((congrArg Schedule.loader same).trans backedOff.unloaded)
  refine Ensures.bind (discardUpstreamMediaChunks_cuts (fun reported _ => (shorter reported).1)
    ranged) ?_
  rintro ⟨discarded, next⟩ (⟨missing, unchanged⟩ | ⟨course, removed, cut, cuts, reached⟩)
  · cases unchanged
    rw [chunks, List.getElem?_eq_none_iff] at missing
    have unreported : ¬ premises.reported := by
      intro reported
      have inside := (shorter reported).2
      omega
    have step : Step fresh premises source.schedule answered.schedule := by
      rw [same]
      exact .abandonMedia unreported backedOff.enabled backedOff.unloaded backedOff.backed fits
    obtain ⟨forgiven, idle⟩ := idle step ⟨rfl, rfl, rfl, rfl⟩
    refine Reaches.trans (.single step) ?_
    rw [← forgiven]
    exact maybeStartLoading_reaches idle
  · rw [same] at cuts
    have step : Step fresh premises source.schedule next.schedule := by
      rw [reached, same]
      exact .replaceMedia backedOff.enabled backedOff.unloaded backedOff.backed backedOff.held media fits
        ⟨cuts.positive, cuts.found, cuts.lower, cuts.upper, cuts.discards⟩
    obtain ⟨forgiven, idle⟩ := idle step course
    refine Reaches.trans (.single step) ?_
    rw [← forgiven]
    exact maybeStartLoading_reaches idle

structure Removable (source : ChunkSampleSource) (removed : MediaChunk) : Prop where
  held : source.currentLoadableHolder.chunk = some removed.chunk
  numbered : removed.chunk.id < source.observed.chunksMade
  last : source.mediaChunks.getLast? = some removed

theorem Removable.whole {removed : MediaChunk} (removable : source.Removable removed) :
    source.mediaChunks.dropLast ++ [removed] = source.mediaChunks := by
  obtain ⟨initial, chunks⟩ := List.getLast?_eq_some_iff.mp removable.last
  simp [chunks]

theorem doChunkOperationWithout_eq {removed : MediaChunk} (removable : source.Removable removed) :
    source.doChunkOperationWithout env removed =
      { source.withoutLast.applyOperation (source.withoutLast.operation env) with
        mediaChunks := source.mediaChunks } := by
  have looked : source.withoutLast.consult (some removed.chunk) = source.withoutLast := by
    simp only [consult, withoutLast, removable.held]
    exact dereference_owned (by simp [owns])
  simp only [doChunkOperationWithout, doChunkOperation, looked]
  rw [(source.withoutLast.applyOperation_same _).2.2.2.1]
  simp only [withoutLast, removable.whole]

theorem doChunkOperationWithout_same {removed : MediaChunk} (env : Environment)
    (removable : source.Removable removed) :
    (source.doChunkOperationWithout env removed).loader = source.loader ∧
      (source.doChunkOperationWithout env removed).currentLoadableErrorReason =
        source.currentLoadableErrorReason ∧
      (source.doChunkOperationWithout env removed).mediaChunks = source.mediaChunks ∧
      (source.doChunkOperationWithout env removed).currentLoadableHolder.queueSize =
        (source.withoutLast.operation env).queueSize := by
  rw [doChunkOperationWithout_eq removable]
  obtain ⟨-, loader, errorReason, -, -, queueSize⟩ :=
    source.withoutLast.applyOperation_same (source.withoutLast.operation env)
  exact ⟨loader, errorReason, rfl, queueSize⟩

theorem doChunkOperationWithout_answers {removed : MediaChunk} (env : Environment)
    (removable : source.Removable removed) (settled : source.pending = none) :
    if (source.doChunkOperationWithout env removed).holdsChunk removed.chunk then
      (source.doChunkOperationWithout env removed).schedule = source.schedule
    else
      ∃ candidate made, source.schedule.Made candidate made ∧
        (source.doChunkOperationWithout env removed).schedule =
          { source.schedule with
            loadable := candidate
            owned := candidate
            observed.chunksMade := made } := by
  rw [doChunkOperationWithout_eq removable]
  have kept := holdsChunk_applyOperation source.withoutLast removable.held removable.numbered
    (source.withoutLast.operation env)
  split
  next holds =>
    have choice := kept.mp holds
    simp only [applyOperation, choice]
    rfl
  next gone =>
    obtain ⟨candidate, made, fits, reached⟩ := source.withoutLast.applyOperation_replaced
      (source.withoutLast.operation env) fun choice => gone (kept.mpr choice)
    refine ⟨candidate, made, ?_, ?_⟩
    · cases candidate with
      | none => exact fits
      | some chunk =>
        refine ⟨fits.1, fits.2.1, ?_⟩
        intro position wanted
        cases settled.symm.trans wanted
    · exact congrArg (fun schedule : Schedule => { schedule with chunks := source.mediaChunks }) reached

theorem resumeMediaChunk_reaches {chunk : Chunk} (backedOff : source.BackedOff premises chunk)
    (media : chunk.isMediaChunk = true) (reports : premises.reported → env.Reports)
    (inRange : premises.inRange → source.schedule.InRange premises) :
    Reaches fresh premises source.schedule
      ({ source with currentLoadableErrorReason := .noError }.resumeMediaChunk env chunk) := by
  obtain ⟨removed, last, same⟩ := Option.map_eq_some_iff.mp (backedOff.last media)
  subst same
  have nonempty : source.mediaChunks ≠ [] := by
    intro empty
    simp [empty] at last
  have settled : source.pending = none := by
    cases wanted : source.pending with
    | none => rfl
    | some position =>
      have emptied := backedOff.sound.emptied backedOff.enabled position wanted
        (by simp [schedule, backedOff.unloaded])
      exact absurd emptied.1 nonempty
  obtain ⟨front, others, chunks⟩ := List.exists_cons_of_ne_nil nonempty
  have removable : Removable { source with currentLoadableErrorReason := .noError } removed :=
    ⟨backedOff.held, backedOff.sound.numbered _ backedOff.held, last⟩
  obtain ⟨loader, errorReason, queue, queueSize⟩ := doChunkOperationWithout_same env removable
  have answers := doChunkOperationWithout_answers env removable settled
  simp only [resumeMediaChunk, last]
  rw [show source.mediaChunks.head? = some front by simp [chunks]]
  simp only
  split
  next =>
    exact resume_reaches backedOff rfl backedOff.unloaded
      (owns_loadable backedOff.sound none backedOff.held) (schedule_forgiven source)
  next differs =>
    have longer : source.withoutLast.mediaChunks ≠ [] := by
      intro short
      have whole : source.mediaChunks.dropLast ++ [removed] = source.mediaChunks := removable.whole
      rw [show source.mediaChunks.dropLast = [] from short, chunks] at whole
      exact differs (by rw [(List.cons.inj whole).1])
    have size : source.withoutLast.mediaChunks.length < source.mediaChunks.length := by
      simp [withoutLast, chunks]
    have member : removed ∈ ({ source with currentLoadableErrorReason := .noError
        }.doChunkOperationWithout env removed).mediaChunks := by
      rw [queue]
      exact List.mem_of_getLast? last
    split
    next holds =>
      rw [if_pos holds] at answers
      exact resume_reaches backedOff errorReason (loader.trans backedOff.unloaded)
        (owns_queued member none) answers
    next gone =>
      rw [if_neg gone] at answers
      obtain ⟨candidate, made, fits, reached⟩ := answers
      rw [dereference_owned (owns_queued member none)]
      refine replaceMedia_reaches backedOff media reached fits errorReason ?_ inRange
      intro reported
      obtain ⟨lower, upper⟩ := operation_reported (reports reported) source.withoutLast longer
      rw [queueSize]
      exact ⟨lower, Nat.lt_of_le_of_lt upper size⟩

def Resumes (env : Environment) (source : ChunkSampleSource) : Prop :=
  source.currentLoadableErrorReason ≠ .noError ∧
    env.now - source.currentLoadableErrorTimestamp ≥
      getRetryDelayMillis source.currentLoadableErrorCount

-- A chunk that is not a media chunk is not replaced when its load is resumed.
def KeepsOther (env : Environment) (source : ChunkSampleSource) : Prop :=
  source.Resumes env → ∀ chunk, source.currentLoadableHolder.chunk = some chunk →
    chunk.isMediaChunk = false → (source.operation env).choice = .keep

theorem resumeFromBackOff_reaches {chunk : Chunk} (backedOff : source.BackedOff premises chunk)
    (reports : premises.reported → env.Reports) (inRange : premises.inRange → source.schedule.InRange premises)
    (resumes : source.Resumes env) (keeps : premises.keeps → source.KeepsOther env) :
    Reaches fresh premises source.schedule (source.resumeFromBackOff env) := by
  have owned : { source with currentLoadableErrorReason := .noError }.owns none chunk = true :=
    owns_loadable backedOff.sound none backedOff.held
  simp only [resumeFromBackOff, backedOff.held, dereference_owned owned]
  split
  next media => exact resumeMediaChunk_reaches backedOff media reports inRange
  next other =>
    have other : chunk.isMediaChunk = false := by simpa using other
    refine resumeOtherChunk_reaches backedOff other reports inRange ?_
    exact fun required => keeps required resumes chunk backedOff.held other

theorem updateLoadControl_reaches (sound : source.schedule.Sound premises) (enabled : source.state = .enabled)
    (reports : premises.reported → env.Reports) (inRange : premises.inRange → source.schedule.InRange premises)
    (keeps : premises.keeps → source.KeepsOther env) :
    Reaches fresh premises source.schedule (source.updateLoadControl env) := by
  unfold updateLoadControl
  split
  next failed =>
    obtain ⟨chunk, held, -⟩ := sound.busy (.inr (by simp [schedule, failed]))
    refine Ensures.bind (getNextLoadPositionUs_ensures sound enabled) fun position _ => ?_
    simp only
    split
    next elapsed =>
      exact resumeFromBackOff_reaches ⟨sound, enabled, failed, held⟩ reports inRange
        ⟨failed, elapsed⟩ keeps
    next => exact ⟨.refl, enabled⟩
  next calm =>
    split
    next =>
      refine Ensures.bind (getNextLoadPositionUs_ensures sound enabled) fun position _ => ?_
      exact ⟨.refl, enabled⟩
    next idle =>
      have idle : source.Idle premises :=
        ⟨sound, enabled, by simpa [isLoading] using idle, by simpa using calm⟩
      refine Ensures.bind (evaluateOperation_reaches fresh idle reports inRange) ?_
      rintro ⟨position, next⟩ ⟨steps, after⟩
      simp only
      split
      next => exact Reaches.trans steps (maybeStartLoading_reaches after)
      next => exact ⟨steps, after.enabled⟩

end ChunkSampleSource

end NDash.Chunk

import NDash.Shared.Machine
import NDash.Chunk.ChunkSampleSourceSchedule

set_option autoImplicit false

namespace NDash.Chunk

open Extractor Outcome Relation Machine Schedule

inductive SourceOp
  | register
  | prepare (sourcePrepared : Bool)
  | enable (env : Environment) (positionUs : Int)
  | disable
  | disableAndClear
  | continueBuffering (env : Environment) (positionUs : Int)
  | readDiscontinuity
  | readData (positionUs : Int) (forward : Bool) (holder : SampleHolder)
  | seekToUs (env : Environment) (positionUs : Int)
  | getBufferedPositionUs
  | loadComplete (env : Environment) (outcome : LoaderOutcome)
  | writeSampleData (src : Bytes) (allowEndOfInput : Bool)
  | writeSampleMetadata (metadata : SampleMetadata)
  | giveFormat (format : Nat)

namespace ChunkSampleSource

def apply (fresh : Fresh) (source : ChunkSampleSource) :
    SourceOp → Except SourceFault ChunkSampleSource
  | .register => .ok source.register
  | .prepare sourcePrepared => .ok (source.prepare sourcePrepared).2
  | .enable env positionUs => source.enable env positionUs
  | .disable => .ok source.disable
  | .disableAndClear => source.disableAndClear
  | .continueBuffering env positionUs => (source.continueBuffering env positionUs).map (·.2)
  | .readDiscontinuity => .ok source.readDiscontinuity.2
  | .readData positionUs forward holder => (source.readData positionUs forward holder).map (·.2.2)
  | .seekToUs env positionUs => source.seekToUs env positionUs
  | .getBufferedPositionUs => .ok source
  | .loadComplete env outcome => source.loadComplete env outcome
  | .writeSampleData src allowEndOfInput => source.writeSampleData src allowEndOfInput
  | .writeSampleMetadata metadata =>
    match source.loader with
    | none => .ok source
    | some loading => .ok (source.writeSampleMetadata fresh loading.chunk.id metadata)
  | .giveFormat format =>
    match source.loader with
    | none => .ok source
    | some loading => .ok (source.giveFormat loading.chunk.id format)

def LoadsMedia (source : ChunkSampleSource) : Prop :=
  ∃ loading, source.loader = some loading ∧ loading.chunk.isMediaChunk = true

-- The calls the DCHECKs allow, and a loader that calls back once for each load it accepted.
def Legal (source : ChunkSampleSource) : SourceOp → Prop
  | .register => source.state = .idle
  | .prepare _ => source.state = .initialized ∨ source.state = .prepared
  | .enable _ _ => source.state = .prepared
  | .disable => source.state = .enabled
  | .disableAndClear => source.disablePosted = true
  | .continueBuffering _ _ => source.state = .enabled
  | .readDiscontinuity => True
  | .readData _ _ _ => source.state = .enabled
  | .seekToUs _ _ => source.state = .enabled
  | .getBufferedPositionUs => source.state = .enabled
  | .loadComplete _ outcome => ∃ loading, source.loader = some loading ∧
      (outcome = .canceled ↔ loading.canceled = true)
  | .writeSampleData _ _ => source.LoadsMedia
  | .writeSampleMetadata _ => source.LoadsMedia
  | .giveFormat _ => source.LoadsMedia

instance (source : ChunkSampleSource) : Decidable source.LoadsMedia :=
  decidable_of_iff (source.loader.any (·.chunk.isMediaChunk) = true) (Option.any_eq_true _ _)

instance (source : ChunkSampleSource) (op : SourceOp) : Decidable (source.Legal op) :=
  match op with
  | .register => inferInstanceAs (Decidable (source.state = .idle))
  | .prepare _ => inferInstanceAs (Decidable (source.state = .initialized ∨ source.state = .prepared))
  | .enable _ _ => inferInstanceAs (Decidable (source.state = .prepared))
  | .disable => inferInstanceAs (Decidable (source.state = .enabled))
  | .disableAndClear => inferInstanceAs (Decidable (source.disablePosted = true))
  | .continueBuffering _ _ => inferInstanceAs (Decidable (source.state = .enabled))
  | .readDiscontinuity => inferInstanceAs (Decidable True)
  | .readData _ _ _ => inferInstanceAs (Decidable (source.state = .enabled))
  | .seekToUs _ _ => inferInstanceAs (Decidable (source.state = .enabled))
  | .getBufferedPositionUs => inferInstanceAs (Decidable (source.state = .enabled))
  | .loadComplete _ outcome =>
    decidable_of_iff
      (source.loader.any (fun loading => outcome = .canceled ↔ loading.canceled = true) = true)
      (by simp only [Option.any_eq_true, decide_eq_true_eq, Legal])
  | .writeSampleData _ _ => inferInstanceAs (Decidable source.LoadsMedia)
  | .writeSampleMetadata _ => inferInstanceAs (Decidable source.LoadsMedia)
  | .giveFormat _ => inferInstanceAs (Decidable source.LoadsMedia)

def advance (fresh : Fresh) (source : ChunkSampleSource) (op : SourceOp) : Option ChunkSampleSource :=
  if source.Legal op then (source.apply fresh op).toOption else none

def initial (allocator : Upstream.Allocator) (fresh : Fresh) : ChunkSampleSource :=
  { sampleQueue := { output := .initial allocator fresh } }

end ChunkSampleSource

def sourceSystem (allocator : Upstream.Allocator) (fresh : Fresh) :
    System ChunkSampleSource SourceOp where
  Start source := source = .initial allocator fresh
  Step source op next := source.Legal op ∧ source.apply fresh op = .ok next

-- No call asks for the position that stands for no pending reset.
def SourceOp.Positioned : SourceOp → Prop
  | .enable _ positionUs => positionUs ≠ kNoResetPending
  | .seekToUs _ positionUs => positionUs ≠ kNoResetPending
  | _ => True

def SourceOp.Reported : SourceOp → Prop
  | .enable env _ => env.Reports
  | .continueBuffering env _ => env.Reports
  | .seekToUs env _ => env.Reports
  | .loadComplete env _ => env.Reports
  | _ => True

namespace ChunkSampleSource

def KeepsBackedOff (source : ChunkSampleSource) : SourceOp → Prop
  | .continueBuffering env positionUs =>
    { source with downstreamPositionUs := positionUs }.KeepsOther env
  | .loadComplete env (.error timestamp) =>
    ({ source with loader := none }.onLoadError timestamp).KeepsOther env
  | _ => True

variable {fresh : Fresh} {premises : Premises} {env : Environment}
  {source : ChunkSampleSource}

theorem initial_sound (premises : Premises) (allocator : Upstream.Allocator) (fresh : Fresh) :
    (initial allocator fresh).schedule.Sound premises where
  tracked := ⟨{}, InfoQueue.initial_refines fresh, rfl, Nat.zero_le _, rfl⟩
  numbered := nofun
  loading := nofun
  busy := by simp [Busy, schedule, initial]
  idle := fun _ => rfl
  queued := nofun
  emptied := nofun
  canceled := nofun
  aimed := nofun
  awaited := nofun
  kept := by simp [schedule, initial]
  disabling := nofun
  posted := nofun
  resting := fun _ _ => ⟨rfl, rfl, rfl, rfl⟩
  starts := by simp [StartsFit, schedule, initial]
  deliveries := by simp [DeliveriesFit, schedule, initial]

theorem resetQueues_ensures (source : ChunkSampleSource) :
    Ensures (Tolerated premises) source.resetQueues fun next =>
      ∃ queue, source.sampleQueue.clear = .ok queue ∧ next = source.cleared queue := by
  refine Ensures.bind (liftQueue_ensures fun _ clears => clears) fun queue clears => ?_
  exact ⟨queue, clears, rfl⟩

theorem schedule_cleared (source : ChunkSampleSource) (queue : SampleQueue) :
    (source.cleared queue).schedule =
      { source.schedule with
        queue
        chunks := []
        loadable := none
        owned := none
        backedOff := false
        observed.resetAt := some queue.committed } := rfl

theorem schedule_awaiting (source : ChunkSampleSource) (position : Int) :
    (source.awaiting position).schedule =
      { source.schedule with pending := target position } := rfl

theorem restartFrom_resets {start : Schedule} {position : Int} (sound : start.Sound premises)
    (enabled : source.state = .enabled) (unloaded : source.loader = none) (reports : premises.reported → env.Reports)
    (step : ∀ queue, source.sampleQueue.clear = .ok queue →
      Step fresh premises start (source.schedule.restart queue position)) :
    Reaches fresh premises start (source.restartFrom env position) := by
  unfold restartFrom
  simp only [isLoading, unloaded, Option.isSome_none, Bool.false_eq_true, if_false]
  refine Ensures.bind (resetQueues_ensures _) ?_
  rintro _ ⟨queue, clears, rfl⟩
  have reset := step queue clears
  have same : ((source.awaiting position).cleared queue).schedule =
      source.schedule.restart queue position := by
    rw [schedule_cleared, schedule_awaiting]
    rfl
  rw [← same] at reset
  refine Reaches.trans (.single reset)
    (updateLoadControl_reaches (reset.sound sound) enabled reports ?_ ?_)
  · intro _
    rw [same]
    simp [InRange, Schedule.restart]
  · rintro - ⟨failed, -⟩
    exact absurd rfl failed

theorem enable_reaches {position : Int} (sound : source.schedule.Sound premises)
    (prepared : source.state = .prepared)
    (valid : premises.positioned → position ≠ kNoResetPending) (reports : premises.reported → env.Reports) :
    Reaches fresh premises source.schedule (source.enable env position) := by
  obtain ⟨-, -, unloaded, -⟩ := sound.resting (by simp [schedule, prepared])
    (by simp [schedule, prepared])
  refine restartFrom_resets sound rfl unloaded reports fun queue clears => ?_
  have step : Step fresh premises source.schedule
      ({ source.schedule with phase := .enabled, observed.seekPosition := some position }.restart
        queue position) := .enable prepared valid clears
  exact step

theorem seekFailed_reaches (fresh : Fresh) (source : ChunkSampleSource) {missed : SampleQueue} {position : Int}
    (sound : source.schedule.Sound premises) (enabled : source.state = .enabled)
    (valid : premises.positioned → position ≠ kNoResetPending) (reports : premises.reported → env.Reports)
    (queue : source.schedule.Missed missed) :
    Reaches fresh premises source.schedule
      (({ source with sampleQueue := missed }.noteSeek position).restartFrom env position) := by
  rcases Option.eq_none_or_eq_some source.loader with running | ⟨loading, running⟩
  · refine restartFrom_resets sound enabled running reports fun cleared clears => ?_
    have step : Step fresh premises source.schedule
        ({ source.schedule with observed.seekPosition := some position }.restart cleared position) :=
      .seekRestart enabled valid running queue clears
    exact step
  · have step : Step fresh premises source.schedule
        { source.schedule with
          queue := missed
          loader := some { loading with canceled := true }
          pending := target position
          observed.seekPosition := some position
          observed.resetAt := none } := .seekCancel enabled valid running queue
    have waiting : ({ source with sampleQueue := missed }.noteSeek position).isLoading = true := by
      simp [isLoading, noteSeek, running]
    simp only [restartFrom, waiting, if_true]
    have canceled : (({ source with sampleQueue := missed }.noteSeek position).awaiting
        position).cancelLoading.schedule =
        { (({ source with sampleQueue := missed }.noteSeek position).awaiting position).schedule with
          loader := source.loader.map fun loading => { loading with canceled := true } } := rfl
    refine ⟨.single ?_, enabled⟩
    rw [canceled, schedule_awaiting, running]
    exact step

theorem popPassed_reaches (schedule : Schedule) (enabled : schedule.phase = .enabled) :
    ReflTransGen (Step fresh premises) schedule
      { schedule with chunks := popPassed schedule.queue.getReadIndex schedule.chunks } := by
  generalize present : schedule.chunks = chunks
  induction chunks generalizing schedule with
  | nil =>
    rw [popPassed.eq_2 _ _ (by simp), ← present]
  | cons front others ih =>
    cases others with
    | nil =>
      rw [popPassed.eq_2 _ _ (by simp), ← present]
    | cons second others =>
      unfold popPassed
      split
      next passed =>
        have pop : Step fresh premises schedule { schedule with chunks := second :: others } :=
          .pop enabled present passed
        have rest := ih { schedule with chunks := second :: others } enabled rfl
        exact .head pop rest
      next =>
        rw [← present]

theorem isEmpty_ensures (source : ChunkSampleSource) :
    Ensures (Tolerated premises) source.isEmpty fun result =>
      ∃ queue, source.sampleQueue.isEmpty = .ok (result.1, queue) ∧
        result.2 = { source with sampleQueue := queue } := by
  refine Ensures.bind (liftQueue_ensures fun _ looks => looks) ?_
  rintro ⟨empty, queue⟩ looks
  exact ⟨queue, looks, rfl⟩

theorem continueBuffering_reaches {position : Int} (sound : source.schedule.Sound premises)
    (enabled : source.state = .enabled) (reports : premises.reported → env.Reports)
    (inRange : premises.inRange → source.schedule.InRange premises)
    (keeps : premises.keeps → { source with downstreamPositionUs := position }.KeepsOther env) :
    Ensures (Tolerated premises) (source.continueBuffering env position) fun result =>
      ReflTransGen (Step fresh premises) source.schedule result.2.schedule := by
  have updated : Reaches fresh premises source.schedule
      ({ source with downstreamPositionUs := position }.updateLoadControl env) :=
    updateLoadControl_reaches sound enabled reports inRange keeps
  refine Ensures.bind updated fun next ⟨steps, enabled⟩ => ?_
  split
  next => exact steps
  next =>
    refine Ensures.bind (isEmpty_ensures next) ?_
    rintro ⟨empty, _⟩ ⟨queue, looks, rfl⟩
    have look : Step fresh premises next.schedule { next.schedule with queue } := .look enabled looks
    exact steps.tail look

theorem readSample_reaches (source : ChunkSampleSource) {forward : Bool} {holder : SampleHolder}
    {sample : OwnedSample} (enabled : source.state = .enabled) (settled : source.pending = none)
    (head : source.sampleQueue.history[source.sampleQueue.getReadIndex]? = some sample)
    (sync : source.sampleQueue.output.needKeyFrame = true → sample.isSync = true)
    (unpassed : ∀ second, source.mediaChunks[1]? = some second →
      source.sampleQueue.getReadIndex < second.firstSampleIndex) :
    Ensures (Tolerated premises) (source.readSample forward holder) fun result =>
      ReflTransGen (Step fresh premises) source.schedule result.2.2.schedule := by
  refine Ensures.bind (liftQueue_ensures fun _ gets => gets) ?_
  rintro ⟨found, filled, queue⟩ gets
  simp only
  split
  next read =>
    subst read
    exact .single (.deliver enabled settled head sync unpassed gets)
  next unread =>
    have missing : found = false := by simpa using unread
    subst missing
    exact .single (.getNothing enabled gets)

structure Deliverable (source : ChunkSampleSource) : Prop where
  head : ∃ sample, source.sampleQueue.history[source.sampleQueue.getReadIndex]? = some sample ∧
    (source.sampleQueue.output.needKeyFrame = true → sample.isSync = true)
  unpassed : ∀ second, source.mediaChunks[1]? = some second →
    source.sampleQueue.getReadIndex < second.firstSampleIndex

theorem readChunk_reaches (fresh : Fresh) (source : ChunkSampleSource)
    {empty forward : Bool} {holder : SampleHolder} (sound : source.schedule.Sound premises) (enabled : source.state = .enabled)
    (settled : source.pending = none) (ready : empty = false → source.Deliverable) :
    Ensures (Tolerated premises) (source.readChunk empty forward holder) fun result =>
      ReflTransGen (Step fresh premises) source.schedule result.2.2.schedule := by
  unfold readChunk
  split
  next none =>
    rintro ⟨reported, positioned⟩
    exact sound.queued reported positioned enabled settled none
  next currentChunk others chunks =>
    simp only
    split
    next => exact .refl
    next =>
      split
      next => exact .refl
      next filled =>
        obtain ⟨⟨sample, head, sync⟩, unpassed⟩ := ready (by simpa using filled)
        exact readSample_reaches _ enabled settled head sync unpassed

theorem readData_reaches {position : Int} {forward : Bool} {holder : SampleHolder}
    (sound : source.schedule.Sound premises) (enabled : source.state = .enabled) :
    Ensures (Tolerated premises) (source.readData position forward holder) fun result =>
      ReflTransGen (Step fresh premises) source.schedule result.2.2.schedule := by
  unfold readData
  simp only
  split
  next => exact .refl
  next ready =>
    have settled : source.pending = none := by
      have unset : source.isPendingReset = false := by
        simp only [Bool.or_eq_true, not_or, Bool.not_eq_true] at ready
        exact ready.2
      rw [isPendingReset_eq] at unset
      simpa using unset
    refine Ensures.bind (isEmpty_ensures _) ?_
    rintro ⟨empty, _⟩ ⟨queue, looks, rfl⟩
    obtain ⟨fifo, tracked⟩ := sound.tracked
    obtain ⟨-, -, outcome⟩ := SampleQueue.isEmpty_skips tracked looks
    have look : Step fresh premises source.schedule { source.schedule with queue } :=
      .look enabled looks
    cases empty with
    | true =>
      refine Ensures.weaken (readChunk_reaches fresh _ (look.sound sound) enabled settled (by simp)) ?_
      intro result steps
      exact .head look steps
    | false =>
      have pops : ReflTransGen (Step fresh premises) { source.schedule with queue }
          { source.schedule with
            queue
            chunks := popPassed queue.getReadIndex source.mediaChunks } :=
        popPassed_reaches { source.schedule with queue } enabled
      refine Ensures.weaken (readChunk_reaches fresh _ (steps_sound (.head look pops) sound)
        enabled settled fun _ => ⟨outcome, fun second found => Schedule.popPassed_spec _ source.mediaChunks found⟩) ?_
      intro result steps
      exact .head look (pops.trans steps)

theorem seekInsideBuffer_ensures {position : Int} (source : ChunkSampleSource) :
    Ensures (Tolerated premises) (source.seekInsideBuffer position) fun result =>
      ∃ queue, result.2 = { source with sampleQueue := queue } ∧
        if result.1 then
          source.pending = none ∧ source.sampleQueue.skipToKeyframeBefore position = .ok (true, queue)
        else source.schedule.Missed queue := by
  unfold seekInsideBuffer
  split
  next => exact ⟨source.sampleQueue, rfl, .inl rfl⟩
  next unset =>
    rw [isPendingReset_eq] at unset
    refine Ensures.bind (liftQueue_ensures fun _ skips => skips) ?_
    rintro ⟨found, queue⟩ skips
    refine ⟨queue, rfl, ?_⟩
    cases found with
    | true => exact ⟨by simpa using unset, skips⟩
    | false => exact .inr ⟨position, skips⟩

theorem seekToUs_reaches {position : Int} (sound : source.schedule.Sound premises)
    (enabled : source.state = .enabled)
    (valid : premises.positioned → position ≠ kNoResetPending) (reports : premises.reported → env.Reports) :
    Reaches fresh premises source.schedule (source.seekToUs env position) := by
  unfold seekToUs
  simp only
  generalize (if source.isPendingReset then source.pendingResetPositionUs
    else source.downstreamPositionUs) = currentPosition
  split
  next => exact ⟨.refl, enabled⟩
  next =>
    refine Ensures.bind (seekInsideBuffer_ensures _) ?_
    rintro ⟨inside, _⟩ ⟨found, rfl, outcome⟩
    cases inside with
    | true =>
      obtain ⟨settled, skips⟩ := outcome
      refine Ensures.bind (isEmpty_ensures _) ?_
      rintro ⟨empty, _⟩ ⟨queue, looks, rfl⟩
      refine ⟨.single ?_, ?_⟩
      · have step : Step fresh premises source.schedule
            { source.schedule with
              queue
              chunks := if empty then source.schedule.chunks
                else popPassed queue.getReadIndex source.schedule.chunks } :=
          .seekInside enabled settled skips looks
        cases empty <;> exact step
      · cases empty <;> exact enabled
    | false =>
      refine Ensures.bind (seekFailed_reaches fresh
        { source with downstreamPositionUs := position, lastSeekPositionUs := position }
        sound enabled valid reports outcome) ?_
      rintro next ⟨steps, enabled⟩
      exact ⟨steps, enabled⟩

theorem disable_steps (enabled : source.state = .enabled) :
    Step fresh premises source.schedule source.disable.schedule := by
  have step : Step fresh premises source.schedule
      { source.schedule with
        phase := .disabling
        posted := source.loader.isNone || source.disablePosted
        loader := source.loader.map fun loading => { loading with canceled := true } } :=
    .disable enabled
  rcases Option.eq_none_or_eq_some source.loader with running | ⟨loading, running⟩
  · simpa [disable, isLoading, running, schedule, pending] using step
  · simpa [disable, cancelLoading, isLoading, running, schedule, pending] using step

theorem disableAndClear_rests (source : ChunkSampleSource) :
    Ensures (Tolerated premises) source.disableAndClear fun next =>
      ∃ queue, source.sampleQueue.clear = .ok queue ∧
        next.schedule = source.schedule.rest queue := by
  refine Ensures.weaken (resetQueues_ensures _) ?_
  rintro _ ⟨queue, clears, rfl⟩
  exact ⟨queue, clears, rfl⟩

theorem disableAndClear_reaches (sound : source.schedule.Sound premises)
    (posted : source.disablePosted = true) :
    Ensures (Tolerated premises) source.disableAndClear fun next =>
      ReflTransGen (Step fresh premises) source.schedule next.schedule := by
  obtain ⟨disabling, unloaded⟩ := sound.posted posted
  refine Ensures.weaken (disableAndClear_rests source) ?_
  rintro next ⟨queue, clears, rests⟩
  have step : Step fresh premises source.schedule
      ({ source.schedule with loader := none }.rest queue) := .disabled disabling clears
  rw [← unloaded] at step
  rw [rests]
  exact .single step

structure Called (premises : Premises) (source : ChunkSampleSource) (loading : Loading) : Prop where
  sound : source.schedule.Sound premises
  running : source.loader = some loading
  held : source.currentLoadableHolder.chunk = some loading.chunk
  steady : source.currentLoadableErrorReason = .noError

theorem called {loading : Loading} (sound : source.schedule.Sound premises)
    (running : source.loader = some loading) : source.Called premises loading := by
  obtain ⟨steady, held⟩ := sound.loading loading running
  exact ⟨sound, running, held, by simpa [schedule] using steady⟩

theorem Called.phase {loading : Loading} (called : source.Called premises loading) :
    source.state = .enabled ∨ source.state = .disabling := by
  by_contra neither
  rw [not_or] at neither
  obtain ⟨-, -, unloaded, -⟩ := called.sound.resting neither.1 neither.2
  cases called.running.symm.trans unloaded

theorem Called.enabled {loading : Loading} (called : source.Called premises loading)
    (uncanceled : loading.canceled = false) : source.state = .enabled := by
  refine called.phase.resolve_right fun disabling => ?_
  have canceled := called.sound.disabling disabling loading called.running
  simp [uncanceled] at canceled

theorem Called.started {loading : Loading} (called : source.Called premises loading)
    (uncanceled : loading.canceled = false) :
    source.schedule.loader = some { chunk := loading.chunk } := by
  rw [← uncanceled]
  exact called.running

theorem onLoadCompleted_reaches {loading : Loading} (called : source.Called premises loading)
    (uncanceled : loading.canceled = false) (reports : premises.reported → env.Reports)
    (inRange : premises.inRange → source.schedule.InRange premises) :
    Reaches fresh premises source.schedule
      ({ source with loader := none }.clearCurrentLoadable.updateLoadControl env) := by
  have enabled := called.enabled uncanceled
  have step : Step fresh premises source.schedule
      { source.schedule with loader := none, loadable := none, owned := none } :=
    .completed enabled (called.started uncanceled)
  have same : { source with loader := none }.clearCurrentLoadable.schedule =
      { source.schedule with loader := none, loadable := none, owned := none } := by
    have steady : source.schedule.backedOff = false := by simp [schedule, called.steady]
    exact congrArg (fun backedOff => { source.schedule with
      loader := none
      loadable := none
      owned := none
      backedOff }) steady.symm
  rw [← same] at step
  refine Reaches.trans (.single step)
    (updateLoadControl_reaches (step.sound called.sound) enabled reports ?_ ?_)
  · exact inRange
  · rintro - ⟨failed, -⟩
    exact absurd rfl failed

theorem onLoadError_reaches {loading : Loading} {timestamp : Int} (called : source.Called premises loading)
    (uncanceled : loading.canceled = false) (reports : premises.reported → env.Reports)
    (inRange : premises.inRange → source.schedule.InRange premises)
    (keeps : premises.keeps → ({ source with loader := none }.onLoadError timestamp).KeepsOther env) :
    Reaches fresh premises source.schedule
      (({ source with loader := none }.onLoadError timestamp).updateLoadControl env) := by
  have enabled := called.enabled uncanceled
  have step : Step fresh premises source.schedule
      ({ source with loader := none }.onLoadError timestamp).schedule :=
    .failed enabled (called.started uncanceled)
  exact Reaches.trans (.single step)
    (updateLoadControl_reaches (step.sound called.sound) enabled reports inRange keeps)

theorem onLoadCanceled_reaches {loading : Loading} (called : source.Called premises loading)
    (canceled : loading.canceled = true) (enabled : source.state = .enabled)
    (reports : premises.reported → env.Reports) :
    Reaches fresh premises source.schedule
      ({ source with loader := none }.clearCurrentLoadable.restartFrom env
        source.pendingResetPositionUs) := by
  have running : source.schedule.loader = some { chunk := loading.chunk, canceled := true } := by
    rw [← canceled]
    exact called.running
  refine restartFrom_resets called.sound enabled rfl reports fun queue clears => ?_
  have step : Step fresh premises source.schedule
      ({ source.schedule with loader := none }.restart queue source.pendingResetPositionUs) :=
    .canceled enabled running rfl clears
  exact step

theorem onLoadDisabled_reaches (disabling : source.state = .disabling) :
    Ensures (Tolerated premises) { source with loader := none }.clearCurrentLoadable.disableAndClear
      fun next => ReflTransGen (Step fresh premises) source.schedule next.schedule := by
  refine Ensures.weaken (disableAndClear_rests _) ?_
  rintro next ⟨queue, clears, rests⟩
  have step : Step fresh premises source.schedule
      ({ source.schedule with loader := none }.rest queue) := .disabled disabling clears
  rw [rests]
  exact .single step

theorem loadComplete_reaches {outcome : LoaderOutcome} (sound : source.schedule.Sound premises)
    (legal : source.Legal (.loadComplete env outcome)) (reports : premises.reported → env.Reports)
    (inRange : premises.inRange → source.schedule.InRange premises)
    (keeps : premises.keeps → source.KeepsBackedOff (.loadComplete env outcome)) :
    Ensures (Tolerated premises) (source.loadComplete env outcome) fun next =>
      ReflTransGen (Step fresh premises) source.schedule next.schedule := by
  obtain ⟨loading, running, cancels⟩ := legal
  have called := called sound running
  have owned : { source with loader := none }.owns none loading.chunk = true :=
    owns_loadable sound none called.held
  simp only [loadComplete, called.held, dereference_owned owned]
  cases outcome with
  | complete =>
    have uncanceled : loading.canceled = false := by simpa using cancels
    have reached : Reaches fresh premises source.schedule _ :=
      onLoadCompleted_reaches called uncanceled reports inRange
    exact reached.weaken fun _ arrives => arrives.1
  | error timestamp =>
    have uncanceled : loading.canceled = false := by simpa using cancels
    have reached : Reaches fresh premises source.schedule _ :=
      onLoadError_reaches called uncanceled reports inRange keeps
    exact reached.weaken fun _ arrives => arrives.1
  | canceled =>
    have canceled := cancels.mp rfl
    simp only
    split
    next enabled =>
      have reached : Reaches fresh premises source.schedule _ :=
        onLoadCanceled_reaches called canceled enabled reports
      exact reached.weaken fun _ arrives => arrives.1
    next disabled =>
      exact onLoadDisabled_reaches (called.phase.resolve_left disabled)

-- What a premise asks of the writes of the running load.
def Writes (premises : Premises) (source : ChunkSampleSource) : SourceOp → Prop
  | .writeSampleData src allowEndOfInput =>
    ∀ queue, source.sampleQueue.writeSampleDataFixThis src allowEndOfInput = .ok queue →
      premises.appends queue
  | .writeSampleMetadata metadata =>
    ∀ loading, source.loader = some loading →
      premises.commits source.sampleQueue loading.chunk.id metadata
  | _ => True

/-- Every call and callback is a run of steps of the schedule. -/
theorem apply_reaches {op : SourceOp} (sound : source.schedule.Sound premises) (legal : source.Legal op)
    (positioned : premises.positioned → op.Positioned) (reported : premises.reported → op.Reported)
    (inRange : premises.inRange → source.schedule.InRange premises)
    (keeps : premises.keeps → source.KeepsBackedOff op) (writes : source.Writes premises op) :
    Ensures (Tolerated premises) (source.apply fresh op) fun next =>
      ReflTransGen (Step fresh premises) source.schedule next.schedule := by
  cases op with
  | register =>
    have idle : source.schedule.phase = .idle := legal
    have step : Step fresh premises source.schedule source.register.schedule :=
      .prepare (by simp [idle]) (by simp [idle]) (by simp [register]) (by simp [register])
    exact .single step
  | prepare sourcePrepared =>
    simp only [apply, ChunkSampleSource.prepare]
    split
    next => exact .refl
    next unprepared =>
      have initialized : source.schedule.phase = .initialized := legal.resolve_right unprepared
      split
      next =>
        have step : Step fresh premises source.schedule { source with state := .prepared }.schedule :=
          .prepare (by simp [initialized]) (by simp [initialized]) (by simp) (by simp)
        exact .single step
      next => exact .refl
  | enable env position =>
    have reached : Reaches fresh premises source.schedule _ :=
      enable_reaches sound legal positioned reported
    exact reached.weaken fun _ arrives => arrives.1
  | disable => exact .single (disable_steps legal)
  | disableAndClear => exact disableAndClear_reaches sound legal
  | continueBuffering env position =>
    exact Ensures.map (continueBuffering_reaches sound legal reported inRange keeps)
  | readDiscontinuity =>
    simp only [apply, ChunkSampleSource.readDiscontinuity]
    split <;> exact .refl
  | readData position forward holder => exact Ensures.map (readData_reaches sound legal)
  | seekToUs env position =>
    have reached : Reaches fresh premises source.schedule _ :=
      seekToUs_reaches sound legal positioned reported
    exact reached.weaken fun _ arrives => arrives.1
  | getBufferedPositionUs => exact .refl
  | loadComplete env outcome => exact loadComplete_reaches sound legal reported inRange keeps
  | writeSampleData src allowEndOfInput =>
    obtain ⟨loading, running, media⟩ := legal
    refine Ensures.bind (liftQueue_ensures fun _ written => written) fun queue written => ?_
    have step : Step fresh premises source.schedule { source.schedule with queue } :=
      .write running media written (writes queue written)
    exact .single step
  | writeSampleMetadata metadata =>
    obtain ⟨loading, running, media⟩ := legal
    have step : Step fresh premises source.schedule { source.schedule with
        queue := source.schedule.queue.writeSampleMetadata fresh loading.chunk.id metadata } :=
      .commit running media (writes loading running)
    simp only [apply, running]
    exact .single step
  | giveFormat format =>
    obtain ⟨loading, running, media⟩ := legal
    simp only [apply, running]
    exact .single .giveFormat

end ChunkSampleSource

end NDash.Chunk

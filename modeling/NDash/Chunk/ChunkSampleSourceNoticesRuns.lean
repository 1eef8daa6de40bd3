import NDash.Chunk.ChunkSampleSourceNotices

set_option autoImplicit false

namespace NDash.Chunk

open Extractor Outcome Machine

def LoadAction.Finishes : LoadAction → Prop
  | .complete _ | .cancel _ | .fail => True
  | _ => False

inductive Calls : LoadView → List LoadNotice → Nat → LoadView → Prop
  | own {view next : LoadView} {said : List LoadNotice} {interrupted : Nat} :
      Shows view said interrupted next → Calls view said interrupted next
  | stop {view : LoadView} {loading : Loading} {interrupted : Nat} :
      view.loader = some loading →
      Calls view [] interrupted { view with loader := some { loading with canceled := true } }

inductive CalledBack : LoadView → List LoadNotice → LoadView → Prop
  | done {view middle next : LoadView} {action : LoadAction} {said : List LoadNotice} :
      view.Step action middle → action.Finishes → Shows middle said 0 next →
      CalledBack view (action.notices ++ said) next

theorem Calls.run {view next : LoadView} {said : List LoadNotice} {interrupted : Nat}
    (calls : Calls view said interrupted next) :
    ∃ actions, Run loadProtocol view actions next ∧ actions.flatMap LoadAction.notices = said ∧
      actions.count .abandon ≤ interrupted := by
  cases calls with
  | own shows =>
    obtain ⟨actions, run, -, spoken, few⟩ := shows
    exact ⟨actions, run, spoken, few⟩
  | stop running => exact ⟨[.stop], .cons (.stop running) (.nil _), rfl, Nat.zero_le _⟩

theorem CalledBack.run {view next : LoadView} {said : List LoadNotice}
    (called : CalledBack view said next) :
    ∃ actions, Run loadProtocol view actions next ∧ actions.flatMap LoadAction.notices = said ∧
      actions.count .abandon ≤ 0 := by
  cases called with
  | done step finishes shows =>
    obtain ⟨actions, run, -, spoken, few⟩ := shows
    refine ⟨_ :: actions, .cons step run, ?_, ?_⟩
    · rw [List.flatMap_cons, spoken]
    · rw [List.count_cons_of_ne]
      · exact few
      · rintro rfl
        exact finishes

namespace ChunkSampleSource

variable {env : Environment} {source next : ChunkSampleSource}

-- What is left when the queues are cleared with no load running.
def Dropped (view : LoadView) : LoadView := { view with backedOff := false, held := none }

theorem drop_shows (unloaded : source.loader = none) :
    Shows source.loadView [] (if source.currentLoadableErrorReason = .noError then 0 else 1)
      (Dropped source.loadView) := by
  have stopped : source.loadView.loader = none := unloaded
  split
  next steady =>
    have calm : source.loadView.backedOff = false := by
      simp [loadView, Schedule.loadView, schedule, steady]
    have clears : Shows source.loadView [] 0 { source.loadView with held := none } :=
      .step (.clear ⟨stopped, calm⟩) trivial
    rw [Dropped, ← calm]
    exact clears
  next failed =>
    have waits : source.loadView.backedOff = true := by
      simp [loadView, Schedule.loadView, schedule, failed]
    exact .step (.abandon stopped waits) trivial

theorem restartFrom_shows {start : Schedule} {position : Int}
    (restarted : source.restartFrom env position = .ok next) (sound : start.Sound anyCalls)
    (enabled : source.state = .enabled) (unloaded : source.loader = none)
    (step : ∀ queue, source.sampleQueue.clear = .ok queue →
      Schedule.Step .zero anyCalls start (source.schedule.restart queue position)) :
    Shows (Dropped source.loadView) (source.restartFromNotices env position) 0 next.loadView := by
  have stopped : source.isLoading = false := by simp [isLoading, unloaded]
  simp only [restartFrom, stopped, Bool.false_eq_true, if_false] at restarted
  simp only [restartFromNotices, stopped, Bool.false_eq_true, if_false]
  obtain ⟨cleared, resets, rest⟩ := bind_ok restarted
  rw [afterwards_ok resets]
  have ensured : Ensures (Tolerated anyCalls) (source.awaiting position).resetQueues _ :=
    resetQueues_ensures _
  obtain ⟨queue, clears, rfl⟩ := ensured.ok resets
  have same : ((source.awaiting position).cleared queue).schedule =
      source.schedule.restart queue position := by
    rw [schedule_cleared, schedule_awaiting]
    rfl
  have fits : ((source.awaiting position).cleared queue).schedule.Sound anyCalls := by
    rw [same]
    exact (step queue clears).sound sound
  have shows := updateLoadControl_shows rest fits enabled
  exact shows

theorem enable_shows {position : Int} (sound : source.schedule.Sound anyCalls)
    (prepared : source.state = .prepared) (enabled : source.enable env position = .ok next) :
    Shows source.loadView (source.enableNotices env position) 0 next.loadView := by
  obtain ⟨-, nothing, unloaded, steady⟩ := sound.resting (by simp [schedule, prepared])
    (by simp [schedule, prepared])
  have shows : Shows (Dropped source.loadView) (source.enableNotices env position) 0
      next.loadView := by
    refine restartFrom_shows enabled sound rfl unloaded fun queue clears => ?_
    have step : Schedule.Step .zero anyCalls source.schedule
        ({ source.schedule with phase := .enabled, observed.seekPosition := some position }.restart
          queue position) := .enable prepared False.elim clears
    exact step
  have same : Dropped source.loadView = source.loadView := by
    simp only [Dropped, loadView, Schedule.loadView]
    rw [nothing, steady]
  rw [← same]
  exact shows

theorem isEmpty_view {empty : Bool} (looks : source.isEmpty = .ok (empty, next)) :
    next.loadView = source.loadView := by
  have ensured : Ensures (Tolerated anyCalls) source.isEmpty _ := isEmpty_ensures source
  obtain ⟨queue, -, same⟩ := ensured.ok looks
  have moved : next = { source with sampleQueue := queue } := same
  rw [moved]
  rfl

theorem continueBuffering_shows {position : Int} {ready : Bool}
    (sound : source.schedule.Sound anyCalls) (enabled : source.state = .enabled)
    (continued : source.continueBuffering env position = .ok (ready, next)) :
    Shows source.loadView
      ({ source with downstreamPositionUs := position }.updateLoadControlNotices env) 0
      next.loadView := by
  obtain ⟨updated, updates, rest⟩ := bind_ok continued
  have shows : Shows source.loadView
      ({ source with downstreamPositionUs := position }.updateLoadControlNotices env) 0
      updated.loadView := updateLoadControl_shows updates sound enabled
  split at rest
  next =>
    cases rest
    exact shows
  next =>
    obtain ⟨⟨empty, looked⟩, looks, same⟩ := bind_ok rest
    cases same
    rw [isEmpty_view looks]
    exact shows

theorem seekInsideBuffer_ok {position : Int} {inside : Bool}
    (seeks : source.seekInsideBuffer position = .ok (inside, next)) :
    ∃ queue, next = { source with sampleQueue := queue } ∧
      if inside then
        source.pending = none ∧ source.sampleQueue.skipToKeyframeBefore position = .ok (true, queue)
      else source.schedule.Missed queue := by
  have ensured : Ensures (Tolerated anyCalls) (source.seekInsideBuffer position) _ :=
    seekInsideBuffer_ensures source
  exact ensured.ok seeks

theorem cancelLoading_calls (source : ChunkSampleSource) {loading : Loading}
    (running : source.loader = some loading) (interrupted : Nat) : Calls source.loadView [] interrupted source.cancelLoading.loadView := by
  have canceled : source.cancelLoading.loadView =
      { source.loadView with loader := some { loading with canceled := true } } := by
    simp only [loadView, Schedule.loadView, schedule, cancelLoading, running]
    rfl
  rw [canceled]
  exact .stop running

theorem seekFailed_calls {missed : SampleQueue} {position : Int}
    (restarted : (({ source with sampleQueue := missed }.noteSeek position).restartFrom env
      position) = .ok next)
    (sound : source.schedule.Sound anyCalls) (enabled : source.state = .enabled)
    (queue : source.schedule.Missed missed) :
    Calls source.loadView
      (({ source with sampleQueue := missed }.noteSeek position).restartFromNotices env position)
      (if source.currentLoadableErrorReason = .noError then 0 else 1) next.loadView := by
  rcases Option.eq_none_or_eq_some source.loader with unloaded | ⟨loading, running⟩
  · have view : ({ source with sampleQueue := missed }.noteSeek position).loadView =
        source.loadView := rfl
    have restarts := restartFrom_shows restarted sound enabled unloaded fun cleared clears => by
      have step : Schedule.Step .zero anyCalls source.schedule
          ({ source.schedule with observed.seekPosition := some position }.restart cleared
            position) := .seekRestart enabled False.elim unloaded queue clears
      exact step
    rw [view] at restarts
    have shows := (drop_shows unloaded).trans restarts
    exact .own shows
  · have waiting : ({ source with sampleQueue := missed }.noteSeek position).isLoading = true := by
      simp [isLoading, noteSeek, running]
    simp only [restartFrom, waiting, if_true] at restarted
    simp only [restartFromNotices, waiting, if_true]
    cases restarted
    have calls := cancelLoading_calls (({ source with sampleQueue := missed }.noteSeek
      position).awaiting position) running
    exact calls _

theorem seekToUs_calls {position : Int} (sought : source.seekToUs env position = .ok next)
    (sound : source.schedule.Sound anyCalls) (enabled : source.state = .enabled) :
    Calls source.loadView (source.seekToUsNotices env position)
      (source.interruptions (.seekToUs env position)) next.loadView := by
  unfold seekToUs at sought
  unfold seekToUsNotices interruptions seekRestarts
  simp only at sought ⊢
  generalize (if source.isPendingReset then source.pendingResetPositionUs
    else source.downstreamPositionUs) = currentPosition at *
  split at sought
  next same =>
    cases sought
    rw [if_pos same]
    exact .own (.refl _ _)
  next moved =>
    obtain ⟨⟨inside, looked⟩, seeks, rest⟩ := bind_ok sought
    rw [if_neg moved, if_neg moved, afterwards_ok seeks, seeks]
    obtain ⟨queue, found, outcome⟩ := seekInsideBuffer_ok seeks
    have view : looked.loadView = source.loadView := by
      rw [found]
      rfl
    simp only at rest ⊢
    cases inside with
    | true =>
      obtain ⟨⟨empty, reached⟩, looks, same⟩ := bind_ok rest
      cases same
      have final : (reached.popPassedChunks !empty).loadView = looked.loadView := by
        rw [← isEmpty_view looks]
        cases empty <;> rfl
      have shows : Shows source.loadView [] 0 (reached.popPassedChunks !empty).loadView := by
        rw [final, view]
        exact .refl _ 0
      exact .own shows
    | false =>
      obtain ⟨restarted, restarts, same⟩ := bind_ok rest
      cases same
      subst found
      have calls := seekFailed_calls restarts sound enabled outcome
      exact calls

theorem disableAndClear_shows (cleared : source.disableAndClear = .ok next)
    (unloaded : source.loader = none) :
    Shows source.loadView [] (if source.currentLoadableErrorReason = .noError then 0 else 1)
      next.loadView := by
  have ensured : Ensures (Tolerated anyCalls) source.disableAndClear _ :=
    disableAndClear_rests source
  obtain ⟨queue, -, rests⟩ := ensured.ok cleared
  have dropped : next.loadView = Dropped source.loadView := by
    unfold loadView
    rw [rests]
    rfl
  rw [dropped]
  exact drop_shows unloaded

theorem disable_calls (source : ChunkSampleSource) :
    Calls source.loadView [] 0 source.disable.loadView := by
  unfold disable
  simp only
  split
  next loading =>
    obtain ⟨loading, running⟩ := Option.isSome_iff_exists.mp loading
    have calls := cancelLoading_calls { source with state := .disabling } running
    exact calls 0
  next => exact .own (.refl _ 0)

theorem readChunk_view {empty forward : Bool} {holder filled : SampleHolder} {result : ReadResult}
    (reads : source.readChunk empty forward holder = .ok (result, filled, next)) :
    next.loadView = source.loadView := by
  unfold readChunk at reads
  split at reads
  next => cases reads
  next =>
    simp only at reads
    split at reads
    next =>
      cases reads
      rfl
    next =>
      split at reads
      next =>
        cases reads
        rfl
      next =>
        obtain ⟨⟨found, got, queue⟩, -, rest⟩ := bind_ok reads
        cases found <;> cases rest <;> rfl

theorem readData_view {position : Int} {forward : Bool} {holder filled : SampleHolder}
    {result : ReadResult}
    (reads : source.readData position forward holder = .ok (result, filled, next)) :
    next.loadView = source.loadView := by
  unfold readData at reads
  simp only at reads
  split at reads
  next =>
    cases reads
    rfl
  next =>
    obtain ⟨⟨empty, looked⟩, looks, rest⟩ := bind_ok reads
    have looked := isEmpty_view looks
    rw [readChunk_view rest]
    cases empty <;> exact looked

theorem Called.clears {loading : Loading} (called : source.Called anyCalls loading) :
    { source with loader := none }.clearCurrentLoadable.loadView =
      { source.loadView with loader := none, held := none } := by
  have steady : source.loadView.backedOff = false := by
    simp [loadView, Schedule.loadView, schedule, called.steady]
  have cleared : { source with loader := none }.clearCurrentLoadable.loadView =
      { source.loadView with loader := none, backedOff := false, held := none } := rfl
  rw [cleared, ← steady]

theorem Called.completes {loading : Loading} (called : source.Called anyCalls loading)
    (uncanceled : loading.canceled = false) :
    source.loadView.Step (.complete loading.chunk)
      { source.loadView with loader := none, held := none } := by
  have steady : source.loadView.backedOff = false := by
    simp [loadView, Schedule.loadView, schedule, called.steady]
  exact .complete (called.started uncanceled) steady called.held

theorem Called.cancels {loading : Loading} (called : source.Called anyCalls loading)
    (canceled : loading.canceled = true) :
    source.loadView.Step (.cancel loading.chunk)
      { source.loadView with loader := none, held := none } := by
  have steady : source.loadView.backedOff = false := by
    simp [loadView, Schedule.loadView, schedule, called.steady]
  have running : source.loadView.loader = some { chunk := loading.chunk, canceled := true } := by
    rw [← canceled]
    exact called.running
  exact .cancel running steady called.held

theorem onLoadCompleted_called {loading : Loading} (called : source.Called anyCalls loading)
    (uncanceled : loading.canceled = false)
    (updated : { source with loader := none }.clearCurrentLoadable.updateLoadControl env =
      .ok next) :
    CalledBack source.loadView
      (.completed loading.chunk ::
        { source with loader := none }.clearCurrentLoadable.updateLoadControlNotices env)
      next.loadView := by
  have completes := called.completes uncanceled
  have enabled := called.enabled uncanceled
  have step : Schedule.Step .zero anyCalls source.schedule
      { source.schedule with loader := none, loadable := none, owned := none } :=
    .completed enabled (called.started uncanceled)
  have same : { source with loader := none }.clearCurrentLoadable.schedule =
      { source.schedule with loader := none, loadable := none, owned := none } := by
    have calm : source.schedule.backedOff = false := by simp [schedule, called.steady]
    exact congrArg (fun backedOff => { source.schedule with
      loader := none
      loadable := none
      owned := none
      backedOff }) calm.symm
  have fits := same ▸ step.sound called.sound
  have updates := updateLoadControl_shows updated fits enabled
  rw [called.clears] at updates
  have called := CalledBack.done completes trivial updates
  exact called

theorem onLoadError_called {loading : Loading} {timestamp : Int}
    (called : source.Called anyCalls loading) (uncanceled : loading.canceled = false)
    (updated : ({ source with loader := none }.onLoadError timestamp).updateLoadControl env =
      .ok next) :
    CalledBack source.loadView
      (.error .genericError ::
        ({ source with loader := none }.onLoadError timestamp).updateLoadControlNotices env)
      next.loadView := by
  have fails : source.loadView.Step .fail
      { source.loadView with loader := none, backedOff := true } :=
    .fail (called.started uncanceled) called.held
  have enabled := called.enabled uncanceled
  have step : Schedule.Step .zero anyCalls source.schedule
      ({ source with loader := none }.onLoadError timestamp).schedule :=
    .failed enabled (called.started uncanceled)
  have updates := updateLoadControl_shows updated (step.sound called.sound) enabled
  have called := CalledBack.done fails trivial updates
  exact called

theorem onLoadCanceled_called {loading : Loading} (called : source.Called anyCalls loading)
    (canceled : loading.canceled = true) (enabled : source.state = .enabled)
    (restarted : { source with loader := none }.clearCurrentLoadable.restartFrom env
      source.pendingResetPositionUs = .ok next) :
    CalledBack source.loadView
      (.canceled loading.chunk ::
        { source with loader := none }.clearCurrentLoadable.restartFromNotices env
          source.pendingResetPositionUs) next.loadView := by
  have cancels := called.cancels canceled
  have running : source.schedule.loader = some { chunk := loading.chunk, canceled := true } := by
    rw [← canceled]
    exact called.running
  have restarts := restartFrom_shows restarted called.sound enabled rfl fun queue clears => by
    have step : Schedule.Step .zero anyCalls source.schedule
        ({ source.schedule with loader := none }.restart queue source.pendingResetPositionUs) :=
      .canceled enabled running rfl clears
    exact step
  have dropped : Dropped { source with loader := none }.clearCurrentLoadable.loadView =
      { source with loader := none }.clearCurrentLoadable.loadView := rfl
  rw [dropped, called.clears] at restarts
  have called := CalledBack.done cancels trivial restarts
  exact called

theorem loadComplete_called {outcome : LoaderOutcome}
    (completed : source.loadComplete env outcome = .ok next)
    (sound : source.schedule.Sound anyCalls) (legal : source.Legal (.loadComplete env outcome)) :
    CalledBack source.loadView (source.loadCompleteNotices env outcome) next.loadView := by
  obtain ⟨loading, running, cancels⟩ := legal
  have called := called sound running
  have owned : { source with loader := none }.owns none loading.chunk = true :=
    owns_loadable sound none called.held
  simp only [loadComplete, called.held, dereference_owned owned] at completed
  simp only [loadCompleteNotices, called.held, dereference_owned owned]
  cases outcome with
  | complete => exact onLoadCompleted_called called (by simpa using cancels) completed
  | error timestamp => exact onLoadError_called called (by simpa using cancels) completed
  | canceled =>
    have canceled := cancels.mp rfl
    simp only at completed ⊢
    split at completed
    next enabled =>
      rw [if_pos enabled]
      exact onLoadCanceled_called called canceled enabled completed
    next disabled =>
      rw [if_neg disabled]
      have rests := disableAndClear_shows completed rfl
      rw [called.clears] at rests
      have called := CalledBack.done (called.cancels canceled) trivial rests
      exact called

theorem apply_calls {fresh : Fresh} {op : SourceOp} (applied : source.apply fresh op = .ok next)
    (sound : source.schedule.Sound anyCalls) (legal : source.Legal op)
    (calls : ∀ env outcome, op ≠ .loadComplete env outcome) :
    Calls source.loadView (source.notices op) (source.interruptions op) next.loadView := by
  have silent (view : next.loadView = source.loadView) :
      Calls source.loadView [] 0 next.loadView := by
    rw [view]
    exact .own (.refl _ 0)
  cases op with
  | register =>
    cases applied
    exact silent rfl
  | prepare sourcePrepared =>
    cases applied
    refine silent ?_
    unfold ChunkSampleSource.prepare
    split
    next => rfl
    next => split <;> rfl
  | enable env position => exact .own (enable_shows sound legal applied)
  | disable =>
    cases applied
    exact disable_calls source
  | disableAndClear => exact .own (disableAndClear_shows applied (sound.posted legal).2)
  | continueBuffering env position =>
    obtain ⟨⟨ready, reached⟩, continued, same⟩ := map_ok applied
    cases same
    exact .own (continueBuffering_shows sound legal continued)
  | readDiscontinuity =>
    cases applied
    refine silent ?_
    unfold ChunkSampleSource.readDiscontinuity
    split <;> rfl
  | readData position forward holder =>
    obtain ⟨⟨result, filled, reached⟩, reads, same⟩ := map_ok applied
    cases same
    exact silent (readData_view reads)
  | seekToUs env position => exact seekToUs_calls applied sound legal
  | getBufferedPositionUs =>
    cases applied
    exact silent rfl
  | loadComplete env outcome => exact absurd rfl (calls env outcome)
  | writeSampleData src allowEndOfInput =>
    obtain ⟨queue, -, same⟩ := bind_ok applied
    cases same
    exact silent rfl
  | writeSampleMetadata metadata =>
    simp only [apply] at applied
    split at applied <;> cases applied <;> exact silent rfl
  | giveFormat format =>
    simp only [apply] at applied
    split at applied <;> cases applied <;> exact silent rfl

/-- Every call says what becomes of the loads, but for a backed off load that it drops. -/
theorem apply_runs {fresh : Fresh} {op : SourceOp} (applied : source.apply fresh op = .ok next)
    (sound : source.schedule.Sound anyCalls) (legal : source.Legal op) :
    ∃ actions, Run loadProtocol source.loadView actions next.loadView ∧
      actions.flatMap LoadAction.notices = source.notices op ∧
      actions.count .abandon ≤ source.interruptions op := by
  cases op with
  | loadComplete env outcome => exact (loadComplete_called applied sound legal).run
  | _ => exact (apply_calls applied sound legal (by simp)).run

end ChunkSampleSource

structure NoticedSource where
  source : ChunkSampleSource
  log : List LoadNotice := []
  interruptions : Nat := 0

def NoticedSource.after (state : NoticedSource) (op : SourceOp) (source : ChunkSampleSource) :
    NoticedSource :=
  { source
    log := state.log ++ state.source.notices op
    interruptions := state.interruptions + state.source.interruptions op }

def noticedSystem (allocator : Upstream.Allocator) (fresh : Fresh) :
    System NoticedSource SourceOp where
  Start state := state = { source := .initial allocator fresh }
  Step state op next :=
    ∃ source, (sourceSystem allocator fresh).Step state.source op source ∧
      next = state.after op source

/-- The log is that of these loads, one after the other: each is started once, ended once, and
left without a last word only when what was backed off is dropped. -/
structure LoadsReported (state : NoticedSource) (reports : List LoadReport) : Prop where
  log : state.log = reports.flatMap LoadReport.notices
  once : reports.Pairwise fun earlier later => earlier.chunk.id < later.chunk.id
  ended : ∀ report ∈ reports.dropLast, report.ending ≠ .running
  running : (∃ report ∈ reports, report.ending = .running) ↔
    state.source.isLoading = true ∨ state.source.currentLoadableErrorReason ≠ .noError
  held : ∀ report ∈ reports, report.ending = .running →
    state.source.currentLoadableHolder.chunk = some report.chunk
  failed : ∀ report ∈ reports, report.ending = .abandoned → 0 < report.errors
  abandoned : LoadReport.abandonedLoads reports ≤ state.interruptions

theorem LoadReport.Reported.loads {state : NoticedSource} {reports : List LoadReport}
    (reported : Reported state.source.loadView reports) (log : state.log = spoken reports)
    (abandoned : abandonedLoads reports ≤ state.interruptions) : LoadsReported state reports := by
  have busy : (state.source.loadView.loader.isSome = true ∨ state.source.loadView.backedOff = true) ↔
      state.source.isLoading = true ∨ state.source.currentLoadableErrorReason ≠ .noError := by
    simp [ChunkSampleSource.loadView, Schedule.loadView, ChunkSampleSource.schedule,
      ChunkSampleSource.isLoading]
  cases reported with
  | idle idle settled =>
    refine ⟨log, settled.ordered, ?_, ?_, ?_, settled.failed, abandoned⟩
    · intro report member
      exact settled.ended report (List.dropLast_subset _ member)
    · rw [← busy, idle.1, idle.2]
      constructor
      · rintro ⟨report, member, running⟩
        exact absurd running (settled.ended report member)
      · simp
    · intro report member running
      exact absurd running (settled.ended report member)
  | @busy earlier chunk errors loads held failed settled =>
    obtain ⟨-, younger⟩ := settled.unheld chunk rfl
    refine ⟨log, ?_, ?_, ?_, ?_, ?_, abandoned⟩
    · refine List.pairwise_append.mpr ⟨settled.ordered, List.pairwise_singleton _ _, ?_⟩
      intro report member last same
      cases List.mem_singleton.mp same
      exact younger report member
    · rw [List.dropLast_concat]
      exact settled.ended
    · rw [← busy]
      exact ⟨fun _ => loads, fun _ => ⟨_, List.mem_concat_self, rfl⟩⟩
    · intro report member running
      rcases List.mem_append.mp member with before | same
      · exact absurd running (settled.ended report before)
      · cases List.mem_singleton.mp same
        exact held
    · intro report member dropped
      rcases List.mem_append.mp member with before | same
      · exact settled.failed report before dropped
      · cases List.mem_singleton.mp same
        cases dropped

/-- Every load is reported from its start to its end, and no two of them at once. -/
theorem loads_are_reported (allocator : Upstream.Allocator) (fresh : Fresh)
    (state : NoticedSource) (reachable : Reachable (noticedSystem allocator fresh) state) :
    ∃ reports, LoadsReported state reports := by
  have kept : state.source.schedule.Sound ChunkSampleSource.anyCalls ∧
      ∃ reports, LoadReport.Reported state.source.loadView reports ∧
        state.log = LoadReport.spoken reports ∧
        LoadReport.abandonedLoads reports ≤ state.interruptions := by
    refine reachable.invariant (fun state =>
      state.source.schedule.Sound ChunkSampleSource.anyCalls ∧
        ∃ reports, LoadReport.Reported state.source.loadView reports ∧
          state.log = LoadReport.spoken reports ∧
          LoadReport.abandonedLoads reports ≤ state.interruptions) ?_ ?_
    · rintro _ rfl
      refine ⟨ChunkSampleSource.initial_sound _ allocator fresh, [], .idle ⟨rfl, rfl⟩ ?_, rfl,
        Nat.zero_le _⟩
      exact ⟨.nil, by simp, by simp, by simp, nofun⟩
    · rintro state op _ ⟨sound, reports, reported, log, abandoned⟩ ⟨next, ⟨legal, applied⟩, rfl⟩
      have steps := (ChunkSampleSource.apply_met fresh sound legal
        ⟨False.elim, False.elim, False.elim⟩).ok applied
      obtain ⟨actions, run, said, few⟩ := ChunkSampleSource.apply_runs applied sound legal
      obtain ⟨after, final, spoken, count⟩ := reported.run run
      refine ⟨Schedule.steps_sound steps sound, after, final, ?_, ?_⟩
      · rw [spoken, said, ← log]
        rfl
      · simp only [NoticedSource.after]
        omega
  obtain ⟨-, reports, reported, log, abandoned⟩ := kept
  exact ⟨reports, reported.loads log abandoned⟩

def NoticedSource.advance (state : NoticedSource) (op : SourceOp) : Option NoticedSource :=
  (state.source.advance .zero op).map (state.after op)

def droppedOps : List SourceOp :=
  enableOps initializationSpec 0 ++
    [.loadComplete (answering .keep 0) (.error 0), .loadComplete (answering .keep 0) (.error 0),
      .seekToUs (answering (.replace mediaSpec) 0) 8000000]

theorem droppedRun_result :
    (execute NoticedSource.advance { source := .initial (.initial 4 fun _ _ => 0) .zero }
      droppedOps).map (fun state => (state.log.length, state.interruptions, state.source.isLoading)) =
      some (4, 1, true) := by
  decide +kernel

theorem loads_are_reported_dropped :
    ∃ state reports, state.log.length = 4 ∧ state.interruptions = 1 ∧
      state.source.isLoading = true ∧ LoadsReported state reports := by
  obtain ⟨state, executed, result⟩ := Option.map_eq_some_iff.mp droppedRun_result
  simp only [Prod.mk.injEq] at result
  have run : Run (noticedSystem (.initial 4 fun _ _ => 0) .zero) _ droppedOps state :=
    .of_execute (fun _ _ _ _ advances => by
      obtain ⟨source, steps, same⟩ := Option.map_eq_some_iff.mp advances
      exact ⟨source, ChunkSampleSource.advance_step _ steps, same.symm⟩) executed
  obtain ⟨reports, reported⟩ := loads_are_reported _ _ state ((Reachable.start _ rfl).run run)
  exact ⟨state, reports, result.1, result.2.1, result.2.2, reported⟩

end NDash.Chunk

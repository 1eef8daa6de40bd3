import NDash.Chunk.ChunkSampleSourceRuns
import NDash.Chunk.SourceLifecycle

set_option autoImplicit false

namespace NDash.Chunk

open Extractor Machine Outcome

namespace SourceLifecycle

/-- What one call on the source does to its lifecycle. What the queue, the chunk source and the load
control decide is left open. -/
def Takes (source next : SourceLifecycle) : SourceOp → Prop
  | .register => source.register = .ok next
  | .prepare sourcePrepared => ∃ prepared, source.prepare sourcePrepared = .ok (prepared, next)
  | .enable _ _ => ∃ starts, source.enable starts = .ok next
  | .disable => source.disable = .ok next
  | .disableAndClear => ∃ cleared, source.runDisableAndClear = .ok cleared ∧
      next = cleared.resetCallback
  | .continueBuffering _ _ => ∃ starts, source.continueBuffering starts = .ok next
  | .readDiscontinuity => next = source.readDiscontinuity
  | .readData _ _ _ => source.readData = .ok () ∧ next = source
  | .seekToUs _ _ => ∃ answer, source.seekToUs answer = .ok next
  | .getBufferedPositionUs => source.getBufferedPositionUs = .ok () ∧ next = source
  | .loadComplete _ outcome => ∃ starts cleared done,
      source.loadComplete outcome starts = .ok (cleared, done) ∧
        next = if cleared then done.resetCallback else done
  | .writeSampleData _ _ => next = source
  | .writeSampleMetadata _ => next = source
  | .giveFormat _ => next = source

-- The tasks that come back to the source: one that was posted, and the end of a load.
def Allows (source : SourceLifecycle) : SourceOp → Prop
  | .disableAndClear => source.disablePosted = true
  | .loadComplete _ outcome => ∃ canceled, source.loader = .loading canceled ∧
      (outcome = .canceled ↔ canceled = true)
  | _ => True

def system : System SourceLifecycle SourceOp where
  Start source := source = {}
  Step source op next := source.Allows op ∧ source.Takes next op

def Unloaded (source : SourceLifecycle) : Prop := ∀ canceled, source.loader ≠ .loading canceled

structure Orderly (source : SourceLifecycle) : Prop where
  loads : ¬ source.Unloaded → source.state = .enabled ∨ source.state = .disabling
  posted : source.disablePosted = true → source.state = .disabling ∧ source.Unloaded

def Moves (source next : SourceLifecycle) : Prop :=
  next = source ∨ source.Unloaded ∧ next = { source with loader := .loading false }

end SourceLifecycle

namespace ChunkSampleSource

def loaderStatus (source : ChunkSampleSource) : LoaderStatus :=
  match source.loader with
  | some loading => .loading loading.canceled
  | none => if source.state = .idle ∨ source.state = .initialized then .absent else .idle

-- The source keeps its callback until DisableAndClear has run it.
def lifecycle (source : ChunkSampleSource) : SourceLifecycle where
  state := source.state
  enabledTrackCount := if source.state = .enabled ∨ source.state = .disabling then 1 else 0
  loader := source.loaderStatus
  registered := source.state = .enabled ∨ source.state = .disabling
  pendingDiscontinuity := source.pendingDiscontinuity
  disableDoneCallback := source.state = .disabling
  disablePosted := source.disablePosted

variable {env : Environment} {source next : ChunkSampleSource}

theorem loaderStatus_none (idle : source.loader = none) :
    source.loaderStatus = .absent ∨ source.loaderStatus = .idle := by
  simp only [loaderStatus, idle]
  split
  next => exact .inl rfl
  next => exact .inr rfl

theorem loaderStatus_some {loading : Loading} (running : source.loader = some loading) :
    source.loaderStatus = .loading loading.canceled := by
  simp [loaderStatus, running]

theorem lifecycle_unloaded (source : ChunkSampleSource) :
    source.lifecycle.Unloaded ↔ source.loader = none := by
  cases running : source.loader with
  | none =>
    refine iff_of_true (fun canceled same => ?_) rfl
    rcases loaderStatus_none running with absent | idle
    · cases absent.symm.trans same
    · cases idle.symm.trans same
  | some loading =>
    exact iff_of_false (fun idle => idle _ (loaderStatus_some running)) (Option.some_ne_none _)

theorem lifecycle_isLoading (serves : source.state ≠ .idle ∧ source.state ≠ .initialized) :
    source.lifecycle.isLoading = .ok source.isLoading := by
  cases running : source.loader with
  | none =>
    simp [SourceLifecycle.isLoading, lifecycle, loaderStatus, isLoading, running, serves.1, serves.2]
  | some loading =>
    simp [SourceLifecycle.isLoading, lifecycle, loaderStatus, isLoading, running]

theorem lifecycle_cancelLoading (source : ChunkSampleSource) :
    source.cancelLoading.lifecycle = source.lifecycle.cancelLoading := by
  cases running : source.loader with
  | none =>
    have same : source.cancelLoading = source := by
      unfold cancelLoading
      rw [running, Option.map_none, ← running]
    rw [same]
    unfold SourceLifecycle.cancelLoading
    split
    next canceled loads => exact absurd loads (source.lifecycle_unloaded.mpr running canceled)
    next => rfl
  | some loading =>
    unfold SourceLifecycle.cancelLoading
    split
    next =>
      have canceled : source.cancelLoading.loader = some { loading with canceled := true } := by
        simp [cancelLoading, running]
      have status := loaderStatus_some canceled
      simp only [lifecycle, status]
      rfl
    next other => exact absurd (loaderStatus_some running) (other _)

theorem consult_lifecycle (source : ChunkSampleSource) (moved : Option Chunk) :
    (source.consult moved).lifecycle = source.lifecycle := by
  unfold consult
  split <;> rfl

theorem applyOperation_lifecycle (source : ChunkSampleSource) (operation : ChunkOperation) :
    (source.applyOperation operation).lifecycle = source.lifecycle := by
  unfold applyOperation
  cases operation.choice <;> rfl

theorem doChunkOperation_lifecycle (env : Environment) (moved : Option Chunk)
    (source : ChunkSampleSource) :
    (source.doChunkOperation env moved).lifecycle = source.lifecycle :=
  (applyOperation_lifecycle _ _).trans (consult_lifecycle source moved)

theorem discardUpstreamSamples_lifecycle {index : Nat}
    (ran : source.discardUpstreamSamples index = .ok next) : next.lifecycle = source.lifecycle := by
  unfold discardUpstreamSamples at ran
  split at ran
  next =>
    obtain ⟨queue, -, ran⟩ := bind_ok ran
    cases ran
    rfl
  next => cases ran

theorem discardUpstreamMediaChunks_lifecycle {queueLength : Int} {discarded : Bool}
    (ran : source.discardUpstreamMediaChunks queueLength = .ok (discarded, next)) :
    next.lifecycle = source.lifecycle := by
  unfold discardUpstreamMediaChunks at ran
  dsimp only at ran
  split at ran
  next =>
    cases ran
    rfl
  next removed _ =>
    obtain ⟨cut, cuts, same⟩ := bind_ok ran
    cases same
    have kept := discardUpstreamSamples_lifecycle cuts
    exact kept

theorem resetQueues_lifecycle (ran : source.resetQueues = .ok next) :
    next.lifecycle = source.lifecycle := by
  obtain ⟨queue, -, ran⟩ := bind_ok ran
  cases ran
  rfl

theorem startLoading_moves (source : ChunkSampleSource) (chunk : Chunk) :
    source.lifecycle.Moves (source.startLoading chunk).lifecycle := by
  unfold startLoading
  cases running : source.loader with
  | none =>
    have idle : (source.dereference none chunk).isLoading = false := by
      simp [isLoading, dereference, running]
    simp only [idle, Bool.false_eq_true, if_false]
    exact .inr ⟨source.lifecycle_unloaded.mpr running, rfl⟩
  | some loading =>
    have busy : (source.dereference none chunk).isLoading = true := by
      simp [isLoading, dereference, running]
    simp only [busy, if_true]
    exact .inl rfl

theorem maybeStartLoading_moves (ran : source.maybeStartLoading = .ok next) :
    source.lifecycle.Moves next.lifecycle := by
  unfold maybeStartLoading at ran
  split at ran
  next =>
    cases ran
    exact .inl rfl
  next current _ =>
    dsimp only at ran
    split at ran
    next =>
      split at ran
      next => cases ran
      next taken holder _ =>
        cases ran
        exact startLoading_moves _ taken
    next =>
      cases ran
      exact startLoading_moves _ current

theorem resumeOtherChunk_moves {chunk : Chunk} (ran : source.resumeOtherChunk env chunk = .ok next) :
    source.lifecycle.Moves next.lifecycle := by
  obtain ⟨⟨discarded, cut⟩, cuts, ran⟩ := bind_ok ran
  have same := (discardUpstreamMediaChunks_lifecycle cuts).trans
    (doChunkOperation_lifecycle env none source)
  rw [← same]
  dsimp only at ran
  split at ran
  next =>
    cases ran
    exact startLoading_moves cut chunk
  next =>
    have moves := maybeStartLoading_moves ran
    exact moves

theorem doChunkOperationWithout_lifecycle (env : Environment) (removed : MediaChunk)
    (source : ChunkSampleSource) :
    (source.doChunkOperationWithout env removed).lifecycle = source.lifecycle :=
  doChunkOperation_lifecycle env (some removed.chunk) source.withoutLast

theorem resumeMediaChunk_moves {chunk : Chunk} (ran : source.resumeMediaChunk env chunk = .ok next) :
    source.lifecycle.Moves next.lifecycle := by
  unfold resumeMediaChunk at ran
  split at ran
  next front removed _ _ =>
    split at ran
    next =>
      cases ran
      exact startLoading_moves source chunk
    next =>
      rw [← doChunkOperationWithout_lifecycle env removed source]
      dsimp only at ran
      split at ran
      next =>
        cases ran
        exact startLoading_moves _ chunk
      next =>
        obtain ⟨⟨discarded, cut⟩, cuts, ran⟩ := bind_ok ran
        have kept := discardUpstreamMediaChunks_lifecycle cuts
        have same : cut.lifecycle = (source.doChunkOperationWithout env removed).lifecycle := kept
        have moves := maybeStartLoading_moves ran
        rw [← same]
        exact moves
  next => cases ran

theorem resumeFromBackOff_moves (ran : source.resumeFromBackOff env = .ok next) :
    source.lifecycle.Moves next.lifecycle := by
  unfold resumeFromBackOff at ran
  dsimp only at ran
  split at ran
  next => cases ran
  next chunk _ =>
    split at ran
    next =>
      have moves := resumeMediaChunk_moves ran
      exact moves
    next =>
      have moves := resumeOtherChunk_moves ran
      exact moves

theorem evaluateOperation_lifecycle {position : Int}
    (ran : source.evaluateOperation env = .ok (position, next)) :
    next.lifecycle = source.lifecycle := by
  obtain ⟨aimed, -, ran⟩ := bind_ok ran
  split at ran
  next =>
    obtain ⟨⟨discarded, cut⟩, cuts, ran⟩ := bind_ok ran
    have same : cut.lifecycle = source.lifecycle :=
      (discardUpstreamMediaChunks_lifecycle cuts).trans (doChunkOperation_lifecycle env none _)
    dsimp only at ran
    split at ran
    next =>
      cases ran
      exact same
    next =>
      split at ran
      next =>
        obtain ⟨again, -, ran⟩ := bind_ok ran
        cases ran
        exact same
      next =>
        cases ran
        exact same
  next =>
    cases ran
    rfl

theorem updateLoadControl_moves (ran : source.updateLoadControl env = .ok next) :
    source.lifecycle.Moves next.lifecycle := by
  unfold updateLoadControl at ran
  split at ran
  next =>
    obtain ⟨position, -, ran⟩ := bind_ok ran
    dsimp only at ran
    split at ran
    next => exact resumeFromBackOff_moves ran
    next =>
      cases ran
      exact .inl rfl
  next =>
    split at ran
    next =>
      obtain ⟨position, -, ran⟩ := bind_ok ran
      cases ran
      exact .inl rfl
    next =>
      obtain ⟨⟨position, evaluated⟩, evaluates, ran⟩ := bind_ok ran
      rw [← evaluateOperation_lifecycle evaluates]
      dsimp only at ran
      split at ran
      next => exact maybeStartLoading_moves ran
      next =>
        cases ran
        exact .inl rfl

end ChunkSampleSource

namespace SourceLifecycle

variable {source next : SourceLifecycle}

theorem isLoading_ok (made : source.loader ≠ .absent) :
    (source.isLoading = .ok true ∧ ¬ source.Unloaded) ∨
      (source.isLoading = .ok false ∧ source.Unloaded) := by
  unfold isLoading Unloaded
  cases status : source.loader with
  | absent => exact absurd status made
  | idle => exact .inr ⟨rfl, nofun⟩
  | loading canceled => exact .inl ⟨rfl, fun idle => idle canceled rfl⟩

theorem Moves.updateLoadControl (moves : source.Moves next) (made : source.loader ≠ .absent)
    (registered : source.registered = true) :
    ∃ starts, source.updateLoadControl starts = .ok next := by
  rcases isLoading_ok made with ⟨loading, busy⟩ | ⟨loading, -⟩
  · rcases moves with rfl | ⟨idle, -⟩
    · exact ⟨false, by simp [SourceLifecycle.updateLoadControl, loading, registered, bind, Except.bind]⟩
    · exact absurd idle busy
  · rcases moves with rfl | ⟨-, rfl⟩
    · exact ⟨false, by simp [SourceLifecycle.updateLoadControl, loading, registered, bind, Except.bind]⟩
    · exact ⟨true, by simp [SourceLifecycle.updateLoadControl, loading, registered, bind, Except.bind]⟩

theorem Moves.same (moves : source.Moves next) :
    next.state = source.state ∧ next.disablePosted = source.disablePosted := by
  rcases moves with rfl | ⟨-, rfl⟩ <;> exact ⟨rfl, rfl⟩

theorem Orderly.of_unposted (serves : source.state = .enabled ∨ source.state = .disabling)
    (unposted : source.disablePosted = false) : source.Orderly :=
  ⟨fun _ => serves, fun posted => by simp [unposted] at posted⟩

theorem Orderly.unposted (orderly : source.Orderly) (other : source.state ≠ .disabling) :
    source.disablePosted = false := by
  cases posted : source.disablePosted with
  | false => rfl
  | true => exact absurd (orderly.posted posted).1 other

end SourceLifecycle

namespace ChunkSampleSource

variable {env : Environment} {source next : ChunkSampleSource}

theorem loaderStatus_made (serves : source.state ≠ .idle ∧ source.state ≠ .initialized) :
    source.loaderStatus ≠ .absent := by
  unfold loaderStatus
  split
  next => exact nofun
  next => simp [serves.1, serves.2]

theorem updateLoadControl_takes (serves : source.state = .enabled ∨ source.state = .disabling)
    (ran : source.updateLoadControl env = .ok next) :
    (∃ starts, source.lifecycle.updateLoadControl starts = .ok next.lifecycle) ∧
      next.state = source.state ∧ next.disablePosted = source.disablePosted := by
  have moves := updateLoadControl_moves ran
  refine ⟨moves.updateLoadControl (loaderStatus_made ?_) (decide_eq_true serves), moves.same⟩
  rcases serves with enabled | disabling
  · simp [enabled]
  · simp [disabling]

theorem restartFrom_takes {position : Int} (enabled : source.state = .enabled)
    (ran : source.restartFrom env position = .ok next) :
    (∃ starts, source.lifecycle.restartFrom starts = .ok next.lifecycle) ∧
      next.state = source.state ∧ next.disablePosted = source.disablePosted := by
  have serves : source.state ≠ .idle ∧ source.state ≠ .initialized := by simp [enabled]
  have loading := lifecycle_isLoading serves
  unfold restartFrom at ran
  split at ran
  next busy =>
    cases ran
    refine ⟨⟨false, ?_⟩, rfl, rfl⟩
    simp only [SourceLifecycle.restartFrom, loading, busy, bind, Except.bind, if_true,
      lifecycle_cancelLoading]
    rfl
  next idle =>
    obtain ⟨reset, resets, ran⟩ := bind_ok ran
    have kept := resetQueues_lifecycle resets
    have same : reset.lifecycle = source.lifecycle := kept
    have stays : reset.state = source.state ∧ reset.disablePosted = source.disablePosted :=
      ⟨congrArg SourceLifecycle.state same, congrArg SourceLifecycle.disablePosted same⟩
    obtain ⟨⟨starts, updates⟩, state, posted⟩ :=
      updateLoadControl_takes (.inl (stays.1.trans enabled)) ran
    refine ⟨⟨starts, ?_⟩, state.trans stays.1, posted.trans stays.2⟩
    rw [same] at updates
    simpa [SourceLifecycle.restartFrom, loading, idle, bind, Except.bind] using updates

theorem readSample_lifecycle {forward : Bool} {holder filled : SampleHolder} {result : ReadResult}
    (ran : source.readSample forward holder = .ok (result, filled, next)) :
    next.lifecycle = source.lifecycle := by
  obtain ⟨⟨found, copied, queue⟩, -, ran⟩ := bind_ok ran
  dsimp only at ran
  split at ran <;> cases ran <;> rfl

theorem readChunk_lifecycle {empty forward : Bool} {holder filled : SampleHolder}
    {result : ReadResult}
    (ran : source.readChunk empty forward holder = .ok (result, filled, next)) :
    next.lifecycle = source.lifecycle := by
  unfold readChunk at ran
  split at ran
  next => cases ran
  next =>
    dsimp only at ran
    split at ran
    next =>
      cases ran
      rfl
    next =>
      split at ran
      next =>
        cases ran
        rfl
      next =>
        have same := readSample_lifecycle ran
        exact same

theorem isEmpty_lifecycle {empty : Bool} (ran : source.isEmpty = .ok (empty, next)) :
    next.lifecycle = source.lifecycle := by
  obtain ⟨⟨none, queue⟩, -, ran⟩ := bind_ok ran
  cases ran
  rfl

theorem popPassedChunks_lifecycle (source : ChunkSampleSource) (haveSamples : Bool) :
    (source.popPassedChunks haveSamples).lifecycle = source.lifecycle := by
  unfold popPassedChunks
  split <;> rfl

theorem readData_lifecycle {position : Int} {forward : Bool} {holder filled : SampleHolder}
    {result : ReadResult}
    (ran : source.readData position forward holder = .ok (result, filled, next)) :
    next.lifecycle = source.lifecycle := by
  unfold readData at ran
  dsimp only at ran
  split at ran
  next =>
    cases ran
    rfl
  next =>
    obtain ⟨⟨empty, emptied⟩, empties, ran⟩ := bind_ok ran
    have same := isEmpty_lifecycle empties
    exact (readChunk_lifecycle ran).trans ((popPassedChunks_lifecycle emptied !empty).trans same)

theorem seekInsideBuffer_lifecycle {position : Int} {inside : Bool}
    (ran : source.seekInsideBuffer position = .ok (inside, next)) :
    next.lifecycle = source.lifecycle := by
  unfold seekInsideBuffer at ran
  split at ran
  next =>
    cases ran
    rfl
  next =>
    obtain ⟨⟨found, queue⟩, -, ran⟩ := bind_ok ran
    cases ran
    rfl

theorem seekToUs_takes {position : Int} (enabled : source.state = .enabled)
    (ran : source.seekToUs env position = .ok next) :
    (∃ answer, source.lifecycle.seekToUs answer = .ok next.lifecycle) ∧
      next.state = source.state ∧ next.disablePosted = source.disablePosted := by
  have checked : dcheck (source.lifecycle.state = .enabled) = .ok () := dcheck_ok enabled
  simp only [SourceLifecycle.seekToUs, checked, bind, Except.bind]
  unfold seekToUs at ran
  generalize (if source.isPendingReset = true then source.pendingResetPositionUs
    else source.downstreamPositionUs) = current at ran
  dsimp only at ran
  split at ran
  next =>
    cases ran
    exact ⟨⟨⟨false, false, false⟩, rfl⟩, rfl, rfl⟩
  next =>
    obtain ⟨⟨inside, sought⟩, seeks, ran⟩ := bind_ok ran
    have kept := seekInsideBuffer_lifecycle seeks
    have same : sought.lifecycle = source.lifecycle := kept
    have state : sought.state = source.state := congrArg SourceLifecycle.state same
    have posted : sought.disablePosted = source.disablePosted :=
      congrArg SourceLifecycle.disablePosted same
    dsimp only at ran
    split at ran
    next =>
      obtain ⟨⟨empty, emptied⟩, empties, ran⟩ := bind_ok ran
      have popped : (emptied.popPassedChunks !empty).lifecycle = source.lifecycle :=
        (popPassedChunks_lifecycle emptied _).trans ((isEmpty_lifecycle empties).trans same)
      cases ran
      refine ⟨⟨⟨true, false, false⟩, ?_⟩, congrArg SourceLifecycle.state popped,
        congrArg SourceLifecycle.disablePosted popped⟩
      simp only [Bool.not_true, Bool.false_eq_true, if_false, ← popped]
      rfl
    next =>
      obtain ⟨restarted, restarts, ran⟩ := bind_ok ran
      have still : (sought.noteSeek position).state = .enabled := state.trans enabled
      obtain ⟨⟨starts, again⟩, sameState, samePosted⟩ := restartFrom_takes still restarts
      cases ran
      refine ⟨⟨⟨true, true, starts⟩, ?_⟩, sameState.trans state, samePosted.trans posted⟩
      have here : source.lifecycle.restartFrom starts = .ok restarted.lifecycle := by
        rw [← same]
        exact again
      simp only [Bool.not_true, Bool.false_eq_true, if_false, if_true, here]
      rfl

end ChunkSampleSource

open ChunkSampleSource SourceLifecycle

variable {fresh : Fresh} {source next : ChunkSampleSource}

theorem register_takes (idle : source.state = .idle) :
    source.lifecycle.register = .ok source.register.lifecycle := by
  simp [SourceLifecycle.register, ChunkSampleSource.register, lifecycle, loaderStatus, idle, dcheck,
    bind, Except.bind]

theorem prepare_takes (sourcePrepared : Bool)
    (early : source.state = .initialized ∨ source.state = .prepared)
    (unloaded : source.state = .initialized → source.loader = none) :
    source.lifecycle.prepare sourcePrepared =
      .ok ((source.prepare sourcePrepared).1, (source.prepare sourcePrepared).2.lifecycle) := by
  rcases early with initialized | prepared
  · have idle := unloaded initialized
    cases sourcePrepared <;>
      simp [SourceLifecycle.prepare, ChunkSampleSource.prepare, lifecycle, loaderStatus,
        initialized, idle, dcheck, bind, Except.bind]
  · simp [SourceLifecycle.prepare, ChunkSampleSource.prepare, lifecycle, prepared, dcheck, bind,
      Except.bind]

theorem enable_takes {env : Environment} {position : Int} (prepared : source.state = .prepared)
    (ran : source.enable env position = .ok next) :
    (∃ starts, source.lifecycle.enable starts = .ok next.lifecycle) ∧
      next.state = .enabled ∧ next.disablePosted = source.disablePosted := by
  have checked : dcheck (source.lifecycle.state = .prepared) = .ok () := dcheck_ok prepared
  obtain ⟨⟨starts, restarts⟩, state, posted⟩ := restartFrom_takes (by rfl) ran
  refine ⟨⟨starts, ?_⟩, state, posted⟩
  have counted : source.lifecycle.enabledTrackCount = 0 := by simp [lifecycle, prepared]
  simp only [SourceLifecycle.enable, checked, counted, bind, Except.bind]
  refine Eq.trans ?_ restarts
  simp [lifecycle, loaderStatus, prepared, noteSeek, dcheck]

theorem disable_takes (enabled : source.state = .enabled) :
    source.lifecycle.disable = .ok source.disable.lifecycle := by
  cases running : source.loader with
  | none =>
    simp [SourceLifecycle.disable, ChunkSampleSource.disable, lifecycle, loaderStatus, enabled,
      running, dcheck, SourceLifecycle.isLoading, ChunkSampleSource.isLoading, bind, Except.bind]
  | some loading =>
    simp [SourceLifecycle.disable, ChunkSampleSource.disable, lifecycle, loaderStatus, enabled,
      running, dcheck, SourceLifecycle.isLoading, ChunkSampleSource.isLoading, bind, Except.bind,
      SourceLifecycle.cancelLoading, ChunkSampleSource.cancelLoading]

theorem disableAndClear_takes (disabling : source.state = .disabling)
    (unloaded : source.loader = none) (ran : source.disableAndClear = .ok next) :
    (∃ cleared, { source.lifecycle with disablePosted := false }.disableAndClear = .ok cleared ∧
        next.lifecycle = cleared.resetCallback) ∧ next.lifecycle.Orderly := by
  have kept := resetQueues_lifecycle ran
  have counted : source.lifecycle.enabledTrackCount = 1 := by simp [lifecycle, disabling]
  have checked : dcheck (source.lifecycle.state = .disabling) = .ok () := dcheck_ok disabling
  have known : source.lifecycle.registered = true := by simp [lifecycle, disabling]
  refine ⟨?_, ?_⟩
  · simp only [SourceLifecycle.disableAndClear, checked, counted, known, bind, Except.bind]
    refine ⟨_, rfl, kept.trans ?_⟩
    simp [lifecycle, loaderStatus, disabling, resetCallback]
  · rw [kept]
    refine ⟨fun loads => absurd ?_ loads, nofun⟩
    exact (lifecycle_unloaded _).mpr unloaded

-- `served` is the source once the loader and the chunk it loaded have been let go.
theorem updated_takes {env : Environment} {served : ChunkSampleSource}
    (idle : served.lifecycle = { source.lifecycle with loader := .idle })
    (serves : source.state = .enabled ∨ source.state = .disabling)
    (unposted : source.disablePosted = false) (ran : served.updateLoadControl env = .ok next) :
    (∃ starts, { source.lifecycle with loader := .idle }.updateLoadControl starts =
        .ok next.lifecycle) ∧ next.lifecycle.Orderly := by
  have sameState : served.state = source.state := congrArg SourceLifecycle.state idle
  have samePosted : served.disablePosted = source.disablePosted :=
    congrArg SourceLifecycle.disablePosted idle
  have still : served.state = .enabled ∨ served.state = .disabling := by rwa [sameState]
  obtain ⟨updates, state, posted⟩ := updateLoadControl_takes still ran
  rw [idle] at updates
  refine ⟨updates, .of_unposted ?_ (posted.trans (samePosted.trans unposted))⟩
  exact (by rwa [state] : next.state = .enabled ∨ next.state = .disabling)

theorem loadComplete_takes {env : Environment} {outcome : LoaderOutcome} {loading : Loading}
    (running : source.loader = some loading) (orderly : source.lifecycle.Orderly)
    (ran : source.loadComplete env outcome = .ok next) :
    (∃ starts cleared done, source.lifecycle.loadComplete outcome starts = .ok (cleared, done) ∧
        next.lifecycle = if cleared then done.resetCallback else done) ∧
      next.lifecycle.Orderly := by
  have loads : ¬ source.lifecycle.Unloaded := by simp [lifecycle_unloaded, running]
  have serves : source.state = .enabled ∨ source.state = .disabling := orderly.loads loads
  have unposted : source.disablePosted = false := by
    cases posted : source.disablePosted with
    | false => rfl
    | true => exact absurd (orderly.posted posted).2 loads
  have idle : { source with loader := none }.lifecycle =
      { source.lifecycle with loader := .idle } := by
    rcases serves with enabled | disabling
    · simp [lifecycle, loaderStatus, enabled]
    · simp [lifecycle, loaderStatus, disabling]
  unfold ChunkSampleSource.loadComplete at ran
  dsimp only at ran
  split at ran
  next => cases ran
  next chunk _ =>
    cases outcome with
    | complete =>
      have served : ({ source with loader := none }.dereference none
          chunk).clearCurrentLoadable.updateLoadControl env = .ok next := ran
      obtain ⟨⟨starts, updates⟩, after⟩ := updated_takes (by exact idle) serves unposted served
      refine ⟨⟨starts, false, next.lifecycle, ?_, rfl⟩, after⟩
      simp only [SourceLifecycle.loadComplete, updates, bind, Except.bind]
    | error timestamp =>
      have served : (({ source with loader := none }.dereference none
          chunk).onLoadError timestamp).updateLoadControl env = .ok next := ran
      obtain ⟨⟨starts, updates⟩, after⟩ := updated_takes (by exact idle) serves unposted served
      refine ⟨⟨starts, false, next.lifecycle, ?_, rfl⟩, after⟩
      simp only [SourceLifecycle.loadComplete, updates, bind, Except.bind]
    | canceled =>
      dsimp only at ran
      split at ran
      next enabled =>
        have on : source.lifecycle.state = .enabled := enabled
        obtain ⟨⟨starts, restarts⟩, state, posted⟩ := restartFrom_takes enabled ran
        have here : { source.lifecycle with loader := .idle }.restartFrom starts =
            .ok next.lifecycle := by
          rw [← idle]
          exact restarts
        refine ⟨⟨starts, false, next.lifecycle, ?_, rfl⟩, ?_⟩
        · simp only [SourceLifecycle.loadComplete, if_pos on, here, bind, Except.bind]
        · exact .of_unposted (.inl (state.trans enabled)) (posted.trans unposted)
      next off =>
        have disabling : source.state = .disabling := serves.resolve_left off
        have served : ({ source with loader := none }.dereference none
            chunk).clearCurrentLoadable.disableAndClear = .ok next := ran
        obtain ⟨⟨cleared, clears, rests⟩, after⟩ := disableAndClear_takes (by exact disabling) rfl served
        have here : { source.lifecycle with loader := .idle }.disableAndClear = .ok cleared := by
          have same : { source.lifecycle with loader := .idle } =
              { { source.lifecycle with loader := .idle } with disablePosted := false } := by
            simp [lifecycle, unposted]
          rw [same, ← idle]
          exact clears
        have other : source.lifecycle.state ≠ .enabled := off
        refine ⟨⟨false, true, cleared, ?_, rests⟩, after⟩
        simp only [SourceLifecycle.loadComplete, if_neg other, here, bind, Except.bind]

/-- Every call on the source that the states allow is a call on its lifecycle, whose checks hold. -/
theorem apply_takes {op : SourceOp} (orderly : source.lifecycle.Orderly) (legal : source.Legal op)
    (ran : source.apply fresh op = .ok next) :
    source.lifecycle.Takes next.lifecycle op ∧ next.lifecycle.Orderly := by
  have unloaded : source.state ≠ .enabled → source.state ≠ .disabling → source.loader = none := by
    intro off settled
    refine (lifecycle_unloaded source).mp ?_
    by_contra loads
    exact (orderly.loads loads).elim off settled
  cases op with
  | register =>
    cases ran
    have idle : source.state = .idle := legal
    refine ⟨register_takes legal, fun loads => absurd ?_ loads, fun posted => ?_⟩
    · exact (lifecycle_unloaded _).mpr (unloaded (by simp [idle]) (by simp [idle]))
    · have other := orderly.unposted (by simp [lifecycle, idle])
      exact absurd (posted.symm.trans other) nofun
  | prepare sourcePrepared =>
    cases ran
    have early : source.state = .initialized ∨ source.state = .prepared := legal
    have idle : source.loader = none := by
      rcases early with initialized | prepared
      · exact unloaded (by simp [initialized]) (by simp [initialized])
      · exact unloaded (by simp [prepared]) (by simp [prepared])
    have still : (source.prepare sourcePrepared).2.loader = none ∧
        (source.prepare sourcePrepared).2.disablePosted = source.disablePosted := by
      unfold ChunkSampleSource.prepare
      split
      next => exact ⟨idle, rfl⟩
      next => split <;> exact ⟨idle, rfl⟩
    refine ⟨⟨_, prepare_takes sourcePrepared early fun _ => idle⟩, fun loads => absurd ?_ loads,
      fun posted => ?_⟩
    · exact (lifecycle_unloaded _).mpr still.1
    · have other : source.disablePosted = false :=
        orderly.unposted (by rcases early with early | early <;> simp [lifecycle, early])
      exact absurd (posted.symm.trans (still.2.trans other)) nofun
  | enable env position =>
    have prepared : source.state = .prepared := legal
    obtain ⟨takes, state, posted⟩ := enable_takes prepared ran
    have unposted : source.disablePosted = false :=
      orderly.unposted (by simp [lifecycle, prepared])
    exact ⟨takes, .of_unposted (.inl state) (posted.trans unposted)⟩
  | disable =>
    cases ran
    have enabled : source.state = .enabled := legal
    have unposted : source.disablePosted = false := orderly.unposted (by simp [lifecycle, enabled])
    refine ⟨disable_takes enabled, ?_⟩
    unfold ChunkSampleSource.disable
    dsimp only
    split
    next => exact .of_unposted (.inr rfl) unposted
    next idle =>
      refine ⟨fun _ => .inr rfl, fun _ => ⟨rfl, (lifecycle_unloaded _).mpr ?_⟩⟩
      simpa [ChunkSampleSource.isLoading] using idle
  | disableAndClear =>
    have posted : source.disablePosted = true := legal
    obtain ⟨disabling, idle⟩ := orderly.posted posted
    obtain ⟨takes, after⟩ := disableAndClear_takes disabling ((lifecycle_unloaded _).mp idle) ran
    exact ⟨takes, after⟩
  | continueBuffering env position =>
    have enabled : source.state = .enabled := legal
    obtain ⟨⟨full, updated⟩, continues, rfl⟩ := map_ok ran
    obtain ⟨buffered, updates, rest⟩ := bind_ok continues
    have still : { source with downstreamPositionUs := position }.state = .enabled := enabled
    obtain ⟨⟨starts, again⟩, state, posted⟩ := updateLoadControl_takes (.inl still) updates
    have unposted : source.disablePosted = false := orderly.unposted (by simp [lifecycle, enabled])
    have same : updated.lifecycle = buffered.lifecycle := by
      dsimp only at rest
      split at rest
      next =>
        cases rest
        rfl
      next =>
        obtain ⟨⟨empty, emptied⟩, empties, rest⟩ := bind_ok rest
        cases rest
        exact isEmpty_lifecycle empties
    have checked : dcheck (source.lifecycle.state = .enabled) = .ok () := dcheck_ok enabled
    rw [same]
    refine ⟨⟨starts, ?_⟩, .of_unposted (.inl (state.trans enabled)) (posted.trans unposted)⟩
    simp only [SourceLifecycle.continueBuffering, checked, bind, Except.bind]
    exact again
  | readDiscontinuity =>
    cases ran
    have same : source.readDiscontinuity.2.lifecycle = source.lifecycle.readDiscontinuity := by
      unfold ChunkSampleSource.readDiscontinuity
      split
      next => rfl
      next quiet =>
        simp only [SourceLifecycle.readDiscontinuity, lifecycle]
        simp_all
    rw [same]
    exact ⟨rfl, orderly.loads, orderly.posted⟩
  | readData position forward holder =>
    obtain ⟨⟨result, filled, read⟩, reads, rfl⟩ := map_ok ran
    rw [readData_lifecycle reads]
    exact ⟨⟨dcheck_ok legal, rfl⟩, orderly⟩
  | seekToUs env position =>
    have enabled : source.state = .enabled := legal
    obtain ⟨takes, state, posted⟩ := seekToUs_takes enabled ran
    have unposted : source.disablePosted = false := orderly.unposted (by simp [lifecycle, enabled])
    exact ⟨takes, .of_unposted (.inl (state.trans enabled)) (posted.trans unposted)⟩
  | getBufferedPositionUs =>
    cases ran
    exact ⟨⟨dcheck_ok legal, rfl⟩, orderly⟩
  | loadComplete env outcome =>
    obtain ⟨loading, running, -⟩ := legal
    exact loadComplete_takes running orderly ran
  | writeSampleData src allowEndOfInput =>
    obtain ⟨queue, -, ran⟩ := bind_ok ran
    cases ran
    exact ⟨rfl, orderly⟩
  | writeSampleMetadata metadata =>
    simp only [ChunkSampleSource.apply] at ran
    split at ran <;> cases ran <;> exact ⟨rfl, orderly⟩
  | giveFormat format =>
    simp only [ChunkSampleSource.apply] at ran
    split at ran <;> cases ran <;> exact ⟨rfl, orderly⟩

theorem legal_allows {op : SourceOp} (legal : source.Legal op) : source.lifecycle.Allows op := by
  cases op with
  | disableAndClear => exact legal
  | loadComplete env outcome =>
    obtain ⟨loading, running, reported⟩ := legal
    exact ⟨loading.canceled, loaderStatus_some running, reported⟩
  | _ => trivial

theorem run_takes {allocator : Upstream.Allocator} {ops : List SourceOp}
    (run : Run (sourceSystem allocator fresh) source ops next)
    (orderly : source.lifecycle.Orderly) :
    Run SourceLifecycle.system source.lifecycle ops next.lifecycle := by
  induction run with
  | nil source => exact .nil source.lifecycle
  | cons step _ ih =>
    obtain ⟨legal, ran⟩ := step
    obtain ⟨takes, after⟩ := apply_takes orderly legal ran
    exact .cons ⟨legal_allows legal, takes⟩ (ih after)

/-- The chunk source refines its lifecycle: each of its runs is a run of the lifecycle, so no check of
a state, of the track count or of the registration fails in a call that the states allow. -/
theorem chunkSampleSource_follows_lifecycle (allocator : Upstream.Allocator) (fresh : Fresh)
    (ops : List SourceOp) (source : ChunkSampleSource)
    (run : Run (sourceSystem allocator fresh) (.initial allocator fresh) ops source) :
    Run SourceLifecycle.system {} ops source.lifecycle := by
  have begins : (ChunkSampleSource.initial allocator fresh).lifecycle = {} := rfl
  rw [← begins]
  exact run_takes run ⟨fun loads => absurd nofun loads, nofun⟩

-- A source that is disabled while it loads its first chunk, up to the end of that load.
def disableOps : List SourceOp :=
  enableOps mediaSpec 0 ++ [.disable, .loadComplete (answering (.replace mediaSpec) 0) .canceled]

theorem disabledRun_result :
    (execute (ChunkSampleSource.advance .zero) (.initial (.initial 4 fun _ _ => 0) .zero)
      disableOps).map ChunkSampleSource.lifecycle =
      some { state := .prepared, loader := .idle } := by
  decide +kernel

theorem chunkSampleSource_follows_lifecycle_disabled :
    Run SourceLifecycle.system {} disableOps { state := .prepared, loader := .idle } := by
  obtain ⟨source, executed, result⟩ := Option.map_eq_some_iff.mp disabledRun_result
  rw [← result]
  exact chunkSampleSource_follows_lifecycle (.initial 4 fun _ _ => 0) .zero disableOps source
    (run_of_advance _ executed)

end NDash.Chunk

import NDash.DashThread
import NDash.Chunk.SourceLifecycle

set_option autoImplicit false

namespace NDash

open Chunk

/-- The closure that DashThread hands to Disable; it is bound to the renderer. -/
inductive DisableDone
  | setPlaybackRateEnableTracks (targetRate : Rat)
  | unloadImplDisabled
deriving DecidableEq, Repr

structure TrackRenderer where
  state : RendererState := .unprepared
  sourceIsEnabled : Bool := false
  sourceIsReady : Bool := false
  disableDoneCallback : Option DisableDone := none
  source : SourceLifecycle := {}
deriving DecidableEq, Repr

namespace TrackRenderer

def create : Except Fault TrackRenderer := do
  let source ← ({} : SourceLifecycle).register
  .ok { source }

def prepare (sourcePrepares : Bool) (renderer : TrackRenderer) :
    Except Fault (Bool × TrackRenderer) := do
  dcheck (renderer.state = .unprepared)
  let (prepared, source) ← renderer.source.prepare sourcePrepares
  if !prepared then .ok (false, { renderer with source })
  else do
    source.getDurationUs
    .ok (true, { renderer with state := .prepared, source })

-- Enable, Start and Stop always return true.
def enable (starts : Bool) (renderer : TrackRenderer) : Except Fault TrackRenderer := do
  dcheck (renderer.state = .prepared)
  let source ← renderer.source.enable starts
  .ok { renderer with state := .enabled, sourceIsEnabled := true, source }

def start (renderer : TrackRenderer) : Except Fault TrackRenderer := do
  dcheck (renderer.state = .enabled)
  .ok { renderer with state := .started }

def stop (renderer : TrackRenderer) : Except Fault TrackRenderer := do
  dcheck (renderer.state = .started)
  .ok { renderer with state := .enabled }

def disable (disableDone : DisableDone) (renderer : TrackRenderer) : Except Fault TrackRenderer := do
  dcheck (renderer.state = .enabled)
  let source ← renderer.source.disable
  .ok { renderer with
    state := .prepared
    sourceIsEnabled := false
    disableDoneCallback := some disableDone
    source }

def release (renderer : TrackRenderer) : Except Fault TrackRenderer := do
  dcheck (renderer.state ≠ .enabled ∧ renderer.state ≠ .started ∧ renderer.state ≠ .released)
  dcheck (renderer.sourceIsEnabled = false)
  let source ← renderer.source.release
  .ok { renderer with state := .released, source }

def buffer (starts ready : Bool) (renderer : TrackRenderer) : Except Fault TrackRenderer := do
  dcheck (renderer.sourceIsEnabled = true)
  let source ← renderer.source.continueBuffering starts
  .ok { renderer with source, sourceIsReady := ready }

def readFrame (renderer : TrackRenderer) : Except Fault TrackRenderer := do
  dcheck (renderer.sourceIsEnabled = true)
  if renderer.source.pendingDiscontinuity then
    .ok { renderer with source := renderer.source.readDiscontinuity }
  else if renderer.sourceIsReady then do
    renderer.source.readData
    .ok renderer
  else .ok renderer

def getBufferedPositionUs (renderer : TrackRenderer) : Except Fault Unit := do
  dcheck (renderer.sourceIsEnabled = true)
  renderer.source.getBufferedPositionUs

def seekTo (answer : SourceLifecycle.SeekAnswer) (renderer : TrackRenderer) :
    Except Fault TrackRenderer := do
  dcheck (renderer.sourceIsEnabled = true)
  let source ← renderer.source.seekToUs answer
  .ok { renderer with source := source.readDiscontinuity }

-- Both callbacks are reset after they have run.
def resetCallbacks (renderer : TrackRenderer) : TrackRenderer :=
  { renderer with disableDoneCallback := none, source := renderer.source.resetCallback }

end TrackRenderer

namespace Chunk.SourceLifecycle

structure Serving (source : SourceLifecycle) : Prop where
  state : source.state = .enabled
  count : source.enabledTrackCount = 1
  loader : source.loader ≠ .absent
  registered : source.registered = true

structure Dormant (source : SourceLifecycle) (state : ChunkState) (loader : LoaderStatus) : Prop where
  state : source.state = state
  count : source.enabledTrackCount = 0
  loader : source.loader = loader
  registered : source.registered = false

structure Clearing (source : SourceLifecycle) : Prop where
  state : source.state = .disabling
  count : source.enabledTrackCount = 1
  registered : source.registered = true
  callback : source.disableDoneCallback = true
  work : source.loader = .idle ∧ source.disablePosted = true ∨
    source.loader = .loading true ∧ source.disablePosted = false

variable {source : SourceLifecycle}

theorem isLoading_present (present : source.loader ≠ .absent) :
    ∃ loading, source.isLoading = .ok loading := by
  unfold isLoading
  split
  next absent => exact absurd absent present
  next => exact ⟨false, rfl⟩
  next => exact ⟨true, rfl⟩

structure Serves (source next : SourceLifecycle) : Prop where
  serving : next.Serving
  callback : next.disableDoneCallback = source.disableDoneCallback
  posted : next.disablePosted = source.disablePosted

theorem cancelLoading_serves (serving : source.Serving) : source.Serves source.cancelLoading := by
  unfold cancelLoading
  split
  next => exact ⟨⟨serving.state, serving.count, nofun, serving.registered⟩, rfl, rfl⟩
  next => exact ⟨serving, rfl, rfl⟩

theorem updateLoadControl_serves (serving : source.Serving) (starts : Bool) :
    ∃ next, source.updateLoadControl starts = .ok next ∧ source.Serves next := by
  obtain ⟨loading, asked⟩ := isLoading_present serving.loader
  simp only [updateLoadControl, asked, serving.registered, bind, Except.bind, Bool.not_true,
    Bool.false_eq_true, if_false]
  split
  next => exact ⟨_, rfl, ⟨serving.state, serving.count, nofun, rfl⟩, rfl, rfl⟩
  next => exact ⟨source, rfl, serving, rfl, rfl⟩

theorem restartFrom_serves (serving : source.Serving) (starts : Bool) :
    ∃ next, source.restartFrom starts = .ok next ∧ source.Serves next := by
  obtain ⟨loading, asked⟩ := isLoading_present serving.loader
  simp only [restartFrom, asked, bind, Except.bind]
  split
  next => exact ⟨_, rfl, cancelLoading_serves serving⟩
  next => exact updateLoadControl_serves serving starts

theorem enable_serves (dormant : source.Dormant .prepared .idle) (starts : Bool) :
    ∃ next, source.enable starts = .ok next ∧ source.Serves next := by
  have one : source.enabledTrackCount + 1 = 1 := by
    rw [dormant.count]
    rfl
  simp only [enable, dcheck_ok dormant.state, dcheck_ok one, bind, Except.bind]
  have serving : Serving { source with
      state := .enabled
      enabledTrackCount := source.enabledTrackCount + 1
      registered := true
      pendingDiscontinuity := false } := ⟨rfl, one, by simp [dormant.loader], rfl⟩
  obtain ⟨next, restarted, serves⟩ := restartFrom_serves serving starts
  exact ⟨next, restarted, serves.serving, serves.callback, serves.posted⟩

theorem continueBuffering_serves (serving : source.Serving) (starts : Bool) :
    ∃ next, source.continueBuffering starts = .ok next ∧ source.Serves next := by
  simp only [continueBuffering, dcheck_ok serving.state, bind, Except.bind]
  exact updateLoadControl_serves serving starts

theorem seekToUs_serves (serving : source.Serving) (answer : SeekAnswer) :
    ∃ next, source.seekToUs answer = .ok next ∧ source.Serves next := by
  simp only [seekToUs, dcheck_ok serving.state, bind, Except.bind]
  split
  next => exact ⟨source, rfl, serving, rfl, rfl⟩
  next =>
    split
    next =>
      obtain ⟨next, restarted, serves⟩ := restartFrom_serves serving answer.starts
      rw [restarted]
      obtain ⟨⟨state, count, loader, registered⟩, callback, posted⟩ := serves
      exact ⟨_, rfl, ⟨state, count, loader, registered⟩, callback, posted⟩
    next => exact ⟨_, rfl, ⟨serving.state, serving.count, serving.loader, serving.registered⟩, rfl, rfl⟩

theorem disable_clears (serving : source.Serving) (unposted : source.disablePosted = false) :
    ∃ next, source.disable = .ok next ∧ next.Clearing := by
  simp only [disable, dcheck_ok serving.state, isLoading, bind, Except.bind]
  cases status : source.loader with
  | absent => exact absurd status serving.loader
  | idle =>
    exact ⟨_, rfl, rfl, serving.count, serving.registered, rfl, .inl ⟨rfl, rfl⟩⟩
  | loading canceled =>
    simp only [cancelLoading, if_true]
    exact ⟨_, rfl, rfl, serving.count, serving.registered, rfl, .inr ⟨rfl, unposted⟩⟩

theorem loadComplete_serves (serving : source.Serving) (outcome : LoaderOutcome) (starts : Bool) :
    ∃ next, source.loadComplete outcome starts = .ok (false, next) ∧ source.Serves next := by
  have unloaded : Serving { source with loader := .idle } :=
    ⟨serving.state, serving.count, nofun, serving.registered⟩
  obtain ⟨updated, updates, served⟩ := updateLoadControl_serves unloaded starts
  obtain ⟨restarted, restarts, servedAgain⟩ := restartFrom_serves unloaded starts
  cases outcome with
  | canceled =>
    simp only [loadComplete, if_pos serving.state, restarts, bind, Except.bind]
    exact ⟨restarted, rfl, servedAgain.serving, servedAgain.callback, servedAgain.posted⟩
  | complete =>
    simp only [loadComplete, updates, bind, Except.bind]
    exact ⟨updated, rfl, served.serving, served.callback, served.posted⟩
  | error timestamp =>
    simp only [loadComplete, updates, bind, Except.bind]
    exact ⟨updated, rfl, served.serving, served.callback, served.posted⟩

end Chunk.SourceLifecycle

namespace TrackRenderer

structure Rests (renderer : TrackRenderer) : Prop where
  callback : renderer.disableDoneCallback = none
  source : renderer.source.disableDoneCallback = false
  posted : renderer.source.disablePosted = false

structure SameCallbacks (renderer next : TrackRenderer) : Prop where
  callback : next.disableDoneCallback = renderer.disableDoneCallback
  source : next.source.disableDoneCallback = renderer.source.disableDoneCallback
  posted : next.source.disablePosted = renderer.source.disablePosted

structure Active (renderer : TrackRenderer) (state : RendererState) : Prop where
  state : renderer.state = state
  enabled : renderer.sourceIsEnabled = true
  serving : renderer.source.Serving

structure Fresh (renderer : TrackRenderer) : Prop where
  state : renderer.state = .unprepared
  disabled : renderer.sourceIsEnabled = false
  dormant : renderer.source.Dormant .initialized .absent

structure Waiting (renderer : TrackRenderer) : Prop where
  state : renderer.state = .prepared
  disabled : renderer.sourceIsEnabled = false
  dormant : renderer.source.Dormant .prepared .idle

structure Disabling (renderer : TrackRenderer) (disableDone : DisableDone) : Prop where
  state : renderer.state = .prepared
  disabled : renderer.sourceIsEnabled = false
  callback : renderer.disableDoneCallback = some disableDone
  clearing : renderer.source.Clearing

structure Released (renderer : TrackRenderer) : Prop where
  state : renderer.state = .released
  disabled : renderer.sourceIsEnabled = false
  source : renderer.source.state = .idle
  unloaded : ∀ canceled, renderer.source.loader ≠ .loading canceled

variable {renderer next : TrackRenderer}

theorem Rests.same (rests : renderer.Rests) (same : renderer.SameCallbacks next) : next.Rests :=
  ⟨same.callback.trans rests.callback, same.source.trans rests.source,
    same.posted.trans rests.posted⟩

theorem SameCallbacks.trans {last : TrackRenderer} (same : renderer.SameCallbacks next)
    (later : next.SameCallbacks last) : renderer.SameCallbacks last :=
  ⟨later.callback.trans same.callback, later.source.trans same.source,
    later.posted.trans same.posted⟩

theorem create_fresh : ∃ renderer, create = .ok renderer ∧ renderer.Fresh ∧ renderer.Rests :=
  ⟨_, rfl, ⟨rfl, rfl, rfl, rfl, rfl, rfl⟩, rfl, rfl, rfl⟩

theorem prepare_succeeds (fresh : renderer.Fresh) :
    ∃ next, renderer.prepare true = .ok (true, next) ∧ next.Waiting ∧
      renderer.SameCallbacks next := by
  obtain ⟨state, disabled, initialized, count, loader, registered⟩ := fresh
  have prepared : renderer.source.prepare true =
      .ok (true, { renderer.source with loader := .idle, state := .prepared }) := by
    simp [SourceLifecycle.prepare, initialized, dcheck, bind, Except.bind]
  simp only [prepare, dcheck_ok state, prepared, bind, Except.bind]
  exact ⟨_, rfl, ⟨rfl, disabled, rfl, count, rfl, registered⟩, rfl, rfl, rfl⟩

theorem prepare_fails (fresh : renderer.Fresh) :
    renderer.prepare false = .ok (false, renderer) := by
  have refused : renderer.source.prepare false = .ok (false, renderer.source) := by
    simp [SourceLifecycle.prepare, fresh.dormant.state, dcheck, bind, Except.bind]
  simp only [prepare, dcheck_ok fresh.state, refused, bind, Except.bind]
  rfl

theorem enable_active (waiting : renderer.Waiting) (starts : Bool) :
    ∃ next, renderer.enable starts = .ok next ∧ next.Active .enabled ∧
      renderer.SameCallbacks next := by
  obtain ⟨source, enabled, serves⟩ := SourceLifecycle.enable_serves waiting.dormant starts
  simp only [enable, dcheck_ok waiting.state, enabled, bind, Except.bind]
  exact ⟨_, rfl, ⟨rfl, rfl, serves.serving⟩, rfl, serves.callback, serves.posted⟩

theorem start_active (active : renderer.Active .enabled) :
    ∃ next, renderer.start = .ok next ∧ next.Active .started ∧ renderer.SameCallbacks next := by
  simp only [start, dcheck_ok active.state, bind, Except.bind]
  exact ⟨_, rfl, ⟨rfl, active.enabled, active.serving⟩, rfl, rfl, rfl⟩

theorem stop_active (active : renderer.Active .started) :
    ∃ next, renderer.stop = .ok next ∧ next.Active .enabled ∧ renderer.SameCallbacks next := by
  simp only [stop, dcheck_ok active.state, bind, Except.bind]
  exact ⟨_, rfl, ⟨rfl, active.enabled, active.serving⟩, rfl, rfl, rfl⟩

theorem disable_disabling (active : renderer.Active .enabled) (rests : renderer.Rests)
    (disableDone : DisableDone) :
    ∃ next, renderer.disable disableDone = .ok next ∧ next.Disabling disableDone := by
  obtain ⟨source, disables, clearing⟩ := SourceLifecycle.disable_clears active.serving rests.posted
  simp only [disable, dcheck_ok active.state, disables, bind, Except.bind]
  exact ⟨_, rfl, rfl, rfl, rfl, clearing⟩

theorem release_released (idle : renderer.Fresh ∨ renderer.Waiting) :
    ∃ next, renderer.release = .ok next ∧ next.Released ∧ renderer.SameCallbacks next := by
  have unused : renderer.state ≠ .enabled ∧ renderer.state ≠ .started ∧ renderer.state ≠ .released ∧
      renderer.sourceIsEnabled = false ∧ renderer.source.state ≠ .enabled ∧
      ∀ canceled, renderer.source.loader ≠ .loading canceled := by
    rcases idle with fresh | waiting
    · simp [fresh.state, fresh.disabled, fresh.dormant.state, fresh.dormant.loader]
    · simp [waiting.state, waiting.disabled, waiting.dormant.state, waiting.dormant.loader]
  obtain ⟨notEnabled, notStarted, notReleased, disabled, source, unloaded⟩ := unused
  have kept : renderer.source.cancelLoading = renderer.source := by
    unfold SourceLifecycle.cancelLoading
    split
    next canceled loading => exact absurd loading (unloaded canceled)
    next => rfl
  simp only [release, dcheck_ok (And.intro notEnabled (And.intro notStarted notReleased)),
    dcheck_ok disabled, SourceLifecycle.release, dcheck_ok source, kept, bind, Except.bind]
  exact ⟨_, rfl, ⟨rfl, disabled, rfl, unloaded⟩, rfl, rfl, rfl⟩

theorem buffer_active {state : RendererState} (active : renderer.Active state)
    (starts ready : Bool) :
    ∃ next, renderer.buffer starts ready = .ok next ∧ next.Active state ∧
      renderer.SameCallbacks next := by
  obtain ⟨source, buffered, serves⟩ :=
    SourceLifecycle.continueBuffering_serves active.serving starts
  simp only [buffer, dcheck_ok active.enabled, buffered, bind, Except.bind]
  exact ⟨_, rfl, ⟨active.state, active.enabled, serves.serving⟩, rfl, serves.callback,
    serves.posted⟩

theorem readFrame_active {state : RendererState} (active : renderer.Active state) :
    ∃ next, renderer.readFrame = .ok next ∧ next.Active state ∧ renderer.SameCallbacks next := by
  obtain ⟨same, enabled, serving⟩ := active
  simp only [readFrame, dcheck_ok enabled, bind, Except.bind]
  split
  next =>
    exact ⟨_, rfl, ⟨same, enabled, serving.state, serving.count, serving.loader,
      serving.registered⟩, rfl, rfl, rfl⟩
  next =>
    split
    next =>
      simp only [SourceLifecycle.readData, dcheck_ok serving.state]
      exact ⟨renderer, rfl, ⟨same, enabled, serving⟩, rfl, rfl, rfl⟩
    next => exact ⟨renderer, rfl, ⟨same, enabled, serving⟩, rfl, rfl, rfl⟩

theorem getBufferedPositionUs_active {state : RendererState} (active : renderer.Active state) :
    renderer.getBufferedPositionUs = .ok () := by
  simp only [getBufferedPositionUs, dcheck_ok active.enabled, bind, Except.bind]
  exact dcheck_ok active.serving.state

theorem seekTo_active {state : RendererState} (active : renderer.Active state)
    (answer : SourceLifecycle.SeekAnswer) :
    ∃ next, renderer.seekTo answer = .ok next ∧ next.Active state ∧
      renderer.SameCallbacks next := by
  obtain ⟨source, sought, serves⟩ := SourceLifecycle.seekToUs_serves active.serving answer
  simp only [seekTo, dcheck_ok active.enabled, sought, bind, Except.bind]
  obtain ⟨state, count, loader, registered⟩ := serves.serving
  exact ⟨_, rfl, ⟨active.state, active.enabled, state, count, loader, registered⟩, rfl,
    serves.callback, serves.posted⟩

theorem resetCallbacks_rests (unposted : renderer.source.disablePosted = false) :
    renderer.resetCallbacks.Rests :=
  ⟨rfl, rfl, unposted⟩

theorem resetCallbacks_waiting (waiting : renderer.Waiting) : renderer.resetCallbacks.Waiting := by
  obtain ⟨state, disabled, prepared, count, loader, registered⟩ := waiting
  exact ⟨state, disabled, prepared, count, loader, registered⟩

theorem resetCallbacks_active {state : RendererState} (active : renderer.Active state) :
    renderer.resetCallbacks.Active state := by
  obtain ⟨same, enabled, serves, count, loader, registered⟩ := active
  exact ⟨same, enabled, serves, count, loader, registered⟩

theorem resetCallbacks_released (released : renderer.Released) :
    renderer.resetCallbacks.Released :=
  ⟨released.state, released.disabled, released.source, released.unloaded⟩

end TrackRenderer

end NDash

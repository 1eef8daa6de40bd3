import NDash.Shared.Machine
import NDash.TrackRenderer

set_option autoImplicit false

namespace NDash

open Chunk Machine

structure LifecycleTrack where
  frameType : DashFrameType
  renderer : TrackRenderer
deriving DecidableEq, Repr

inductive ControlTask
  | setPlaybackRateDisableTracks (targetRate : Rat)
  | unloadImpl
  | notifyUnloadWaiter
deriving DecidableEq, Repr

inductive BlockedCall
  | setPlaybackRate (targetRate : Rat)
  | unload
deriving DecidableEq, Repr

-- The members of DashThread that have to do with the states of the renderers. The renderers of
-- `pendingDisable` are named by their tracks, and a waiter is signaled until a wait has ended.
structure PlayerLifecycle where
  state : PlayerState := .idle
  playbackRate : Rat := 1
  tracks : List LifecycleTrack := []
  pendingDisable : List Nat := []
  posted : List ControlTask := []
  caller : Option BlockedCall := none
  playbackRateSignaled : Bool := false
  unloadSignaled : Bool := false
deriving DecidableEq, Repr

/-- What the sources of the tracks do during one task: whether they can be prepared, start a load
when they are enabled or when they buffer, are ready to be read, and what a seek finds. -/
structure LifecycleAnswers where
  prepares : Nat → Bool
  starts : Nat → Bool
  buffers : Nat → Bool
  ready : Nat → Bool
  seeks : Nat → SourceLifecycle.SeekAnswer

def changeRenderers (change : Nat → LifecycleTrack → Except Fault TrackRenderer) :
    Nat → List LifecycleTrack → Except Fault (List LifecycleTrack)
  | _, [] => .ok []
  | index, track :: tracks => do
    let renderer ← change index track
    let tracks ← changeRenderers change (index + 1) tracks
    .ok ({ track with renderer } :: tracks)

namespace PlayerLifecycle

def changeTracks (player : PlayerLifecycle)
    (change : Nat → LifecycleTrack → Except Fault TrackRenderer) : Except Fault PlayerLifecycle := do
  let tracks ← changeRenderers change 0 player.tracks
  .ok { player with tracks }

def bufferTrack (answers : LifecycleAnswers) (index : Nat) (track : LifecycleTrack) :
    Except Fault TrackRenderer :=
  if track.renderer.state.Polled then
    track.renderer.buffer (answers.buffers index) (answers.ready index)
  else .ok track.renderer

def update (answers : LifecycleAnswers) (player : PlayerLifecycle) : Except Fault PlayerLifecycle :=
  match player.state with
  | .idle => .ok { player with state := .preparing }
  | .buffering => player.changeTracks (bufferTrack answers)
  | _ => .ok player

-- The loop of OnManifestRefreshed, which ends at the first track that cannot be prepared.
def startTracks (answers : LifecycleAnswers) :
    Nat → List LifecycleTrack → Except Fault (Bool × List LifecycleTrack)
  | _, [] => .ok (true, [])
  | index, track :: tracks => do
    let (prepared, renderer) ← track.renderer.prepare (answers.prepares index)
    if !prepared then .ok (false, { track with renderer } :: tracks)
    else do
      let renderer ← renderer.enable (answers.starts index)
      let renderer ← renderer.start
      let (all, tracks) ← startTracks answers (index + 1) tracks
      .ok (all, { track with renderer } :: tracks)

def onManifestRefreshed (answers : LifecycleAnswers) (player : PlayerLifecycle) :
    Except Fault PlayerLifecycle :=
  if player.state ≠ .preparing then .ok player
  else do
    let video ← TrackRenderer.create
    let audio ← TrackRenderer.create
    let text ← TrackRenderer.create
    let (all, tracks) ← startTracks answers 0
      (player.tracks ++ [⟨.video, video⟩, ⟨.audio, audio⟩, ⟨.cc, text⟩])
    let player := { player with tracks }
    if !all then .ok { player with state := .ended }
    else update answers { player with state := .buffering }

def onManifestError (player : PlayerLifecycle) : PlayerLifecycle :=
  if player.state = .preparing then { player with state := .ended } else player

-- The reads of one track by FillTrackSampleHolders; each flag is whether ReadFrame asks for the
-- buffered position as well.
def readFrames : List Bool → TrackRenderer → Except Fault TrackRenderer
  | [], renderer => .ok renderer
  | asksPosition :: reads, renderer => do
    let renderer ← renderer.readFrame
    if asksPosition then do
      renderer.getBufferedPositionUs
      readFrames reads renderer
    else readFrames reads renderer

-- CopyFrameImpl; `ended` is whether every track reports the end of its stream.
def copyFrameImpl (reads : Nat → List Bool) (ended : Bool) (player : PlayerLifecycle) :
    Except Fault PlayerLifecycle :=
  if player.state ≠ .buffering then .ok player
  else do
    let player ← player.changeTracks fun index track =>
      if track.renderer.state.Polled then readFrames (reads index) track.renderer
      else .ok track.renderer
    if ended then .ok { player with state := .ended } else .ok player

def seekTrack (answers : LifecycleAnswers) (index : Nat) (track : LifecycleTrack) :
    Except Fault TrackRenderer := do
  let renderer ← if track.renderer.state = .started then track.renderer.stop else .ok track.renderer
  if renderer.state = .enabled then do
    let renderer ← renderer.seekTo (answers.seeks index)
    renderer.start
  else .ok renderer

def seekImpl (answers : LifecycleAnswers) (player : PlayerLifecycle) :
    Except Fault PlayerLifecycle :=
  if isTrick player.playbackRate || player.state ≠ .buffering then .ok player
  else player.changeTracks (seekTrack answers)

def stopTrack (_ : Nat) (track : LifecycleTrack) : Except Fault TrackRenderer :=
  if track.renderer.state = .started then track.renderer.stop else .ok track.renderer

def enabledTracks (tracks : List LifecycleTrack) : List Nat :=
  (tracks.mapIdx fun index track => (index, track.renderer.state)).filterMap fun entry =>
    if entry.2 = .enabled then some entry.1 else none

def stopTracks (player : PlayerLifecycle) : Except Fault PlayerLifecycle := do
  let player ← player.changeTracks stopTrack
  .ok { player with pendingDisable := enabledTracks player.tracks }

def disablePending (disableDone : DisableDone) (player : PlayerLifecycle) :
    Except Fault PlayerLifecycle :=
  player.changeTracks fun index track =>
    if index ∈ player.pendingDisable then track.renderer.disable disableDone
    else .ok track.renderer

def setPlaybackRateDisableTracks (targetRate : Rat) (player : PlayerLifecycle) :
    Except Fault PlayerLifecycle :=
  if player.playbackRate = targetRate then .ok { player with playbackRateSignaled := true }
  else do
    let player ← stopTracks { player with state := .ready }
    if player.pendingDisable.isEmpty then .ok { player with playbackRateSignaled := true }
    else player.disablePending (.setPlaybackRateEnableTracks targetRate)

def enableTrack (answers : LifecycleAnswers) (rate : Rat) (index : Nat) (track : LifecycleTrack) :
    Except Fault TrackRenderer :=
  if track.frameType = .video ∨ isNormal rate = true then do
    let renderer ← track.renderer.enable (answers.starts index)
    renderer.start
  else .ok track.renderer

def setPlaybackRateEnableTracks (answers : LifecycleAnswers) (targetRate : Rat) (disabled : Nat)
    (player : PlayerLifecycle) : Except Fault PlayerLifecycle := do
  dcheck (disabled ∈ player.pendingDisable)
  let player := { player with pendingDisable := player.pendingDisable.erase disabled }
  if 0 < player.pendingDisable.length then .ok player
  else do
    dcheck (player.playbackRate ≠ targetRate)
    let player := { player with state := .buffering, playbackRate := targetRate }
    let player ← player.changeTracks (enableTrack answers targetRate)
    update answers { player with playbackRateSignaled := true }

def unloadImpl (player : PlayerLifecycle) : Except Fault PlayerLifecycle := do
  let player ← stopTracks { player with state := .ended }
  if player.pendingDisable.isEmpty then .ok { player with unloadSignaled := true }
  else player.disablePending .unloadImplDisabled

def releaseTrack (_ : Nat) (track : LifecycleTrack) : Except Fault TrackRenderer :=
  if track.renderer.state ≠ .released then track.renderer.release else .ok track.renderer

def unloadImplDisabled (disabled : Nat) (player : PlayerLifecycle) :
    Except Fault PlayerLifecycle := do
  dcheck (disabled ∈ player.pendingDisable)
  let player := { player with pendingDisable := player.pendingDisable.erase disabled }
  if 0 < player.pendingDisable.length then .ok player
  else do
    let player ← player.changeTracks releaseTrack
    .ok { player with posted := player.posted ++ [.notifyUnloadWaiter] }

def setRenderer (player : PlayerLifecycle) (index : Nat) (renderer : TrackRenderer) :
    PlayerLifecycle :=
  { player with
    tracks := player.tracks.modify index fun track => { track with renderer } }

-- DisableDone runs the closure that the player has bound, if there is one; both callbacks are reset
-- once it has run.
def disableDone (answers : LifecycleAnswers) (index : Nat) (callback : Option DisableDone)
    (player : PlayerLifecycle) : Except Fault PlayerLifecycle := do
  let player ← match callback with
    | none => .ok player
    | some (.setPlaybackRateEnableTracks targetRate) =>
      player.setPlaybackRateEnableTracks answers targetRate index
    | some .unloadImplDisabled => player.unloadImplDisabled index
  .ok { player with
    tracks := player.tracks.modify index fun track =>
      { track with renderer := track.renderer.resetCallbacks } }

-- A source that has cleared its queue calls back if it holds a callback.
def sourceCleared (answers : LifecycleAnswers) (index : Nat) (renderer : TrackRenderer)
    (player : PlayerLifecycle) : Except Fault PlayerLifecycle :=
  if renderer.source.disableDoneCallback then
    (player.setRenderer index renderer).disableDone answers index renderer.disableDoneCallback
  else .ok (player.setRenderer index renderer)

def loadComplete (answers : LifecycleAnswers) (index : Nat) (outcome : LoaderOutcome)
    (player : PlayerLifecycle) : Except Fault PlayerLifecycle :=
  match player.tracks[index]? with
  | none => .error .nullPointer
  | some track => do
    let (cleared, source) ← track.renderer.source.loadComplete outcome (answers.starts index)
    if cleared then player.sourceCleared answers index { track.renderer with source }
    else .ok (player.setRenderer index { track.renderer with source })

def disableAndClear (answers : LifecycleAnswers) (index : Nat) (player : PlayerLifecycle) :
    Except Fault PlayerLifecycle :=
  match player.tracks[index]? with
  | none => .error .nullPointer
  | some track => do
    let source ← track.renderer.source.runDisableAndClear
    player.sourceCleared answers index { track.renderer with source }

def runControl (task : ControlTask) (player : PlayerLifecycle) : Except Fault PlayerLifecycle :=
  let player := { player with posted := player.posted.erase task }
  match task with
  | .setPlaybackRateDisableTracks targetRate => player.setPlaybackRateDisableTracks targetRate
  | .unloadImpl => player.unloadImpl
  | .notifyUnloadWaiter => .ok { player with unloadSignaled := true }

def callSetPlaybackRate (targetRate : Rat) (player : PlayerLifecycle) : PlayerLifecycle :=
  { player with
    playbackRateSignaled := false
    posted := player.posted ++ [.setPlaybackRateDisableTracks targetRate]
    caller := some (.setPlaybackRate targetRate) }

def callUnload (player : PlayerLifecycle) : PlayerLifecycle :=
  { player with posted := player.posted ++ [.unloadImpl], caller := some .unload }

def resume (player : PlayerLifecycle) : Except Fault PlayerLifecycle :=
  match player.caller with
  | none => .ok player
  | some (.setPlaybackRate _) => .ok { player with playbackRateSignaled := false, caller := none }
  | some .unload =>
    if player.tracks.any (fun track => track.renderer.source.disablePosted) then
      .error .releasedBlock
    else do
      dcheck (∀ track ∈ player.tracks, track.renderer.source.state ≠ .enabled)
      .ok { player with unloadSignaled := false, caller := none, tracks := [] }

end PlayerLifecycle

inductive LifecycleOp
  | update (answers : LifecycleAnswers)
  | manifestRefreshed (answers : LifecycleAnswers)
  | manifestError
  | copyFrame (reads : Nat → List Bool) (ended : Bool)
  | seek (answers : LifecycleAnswers)
  | loadComplete (answers : LifecycleAnswers) (index : Nat) (outcome : LoaderOutcome)
  | disableAndClear (answers : LifecycleAnswers) (index : Nat)
  | control (task : ControlTask)
  | callSetPlaybackRate (targetRate : Rat)
  | callUnload
  | resume

namespace PlayerLifecycle

/-- The load has come to an end, and no track has failed to be prepared. -/
def Loaded (player : PlayerLifecycle) : Prop :=
  player.state ≠ .idle ∧ player.state ≠ .preparing ∧
    ∀ track ∈ player.tracks, track.renderer.state ≠ .unprepared

def signaled (player : PlayerLifecycle) : Bool :=
  match player.caller with
  | none => false
  | some (.setPlaybackRate _) => player.playbackRateSignaled
  | some .unload => player.unloadSignaled

-- Tasks run when they have been posted, a loader reports a load as cancelled if it was told to
-- cancel it, and one thread at a time controls the player.
def Legal (player : PlayerLifecycle) : LifecycleOp → Prop
  | .loadComplete _ index outcome => ∃ track canceled, player.tracks[index]? = some track ∧
      track.renderer.source.loader = .loading canceled ∧ (outcome = .canceled ↔ canceled = true)
  | .disableAndClear _ index => ∃ track, player.tracks[index]? = some track ∧
      track.renderer.source.disablePosted = true
  | .control task => task ∈ player.posted
  | .callSetPlaybackRate _ => player.caller = none ∧ player.Loaded
  | .callUnload => player.caller = none
  | .resume => player.signaled = true
  | _ => True

def apply (player : PlayerLifecycle) : LifecycleOp → Except Fault PlayerLifecycle
  | .update answers => player.update answers
  | .manifestRefreshed answers => player.onManifestRefreshed answers
  | .manifestError => .ok player.onManifestError
  | .copyFrame reads ended => player.copyFrameImpl reads ended
  | .seek answers => player.seekImpl answers
  | .loadComplete answers index outcome => player.loadComplete answers index outcome
  | .disableAndClear answers index => player.disableAndClear answers index
  | .control task => player.runControl task
  | .callSetPlaybackRate targetRate => .ok (player.callSetPlaybackRate targetRate)
  | .callUnload => .ok player.callUnload
  | .resume => player.resume

end PlayerLifecycle

def lifecycleSystem : System PlayerLifecycle LifecycleOp where
  Start player := player = {}
  Step player op next := player.Legal op ∧ player.apply op = .ok next

end NDash

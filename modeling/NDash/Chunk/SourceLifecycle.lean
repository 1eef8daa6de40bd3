import NDash.Chunk.ChunkSampleSource

set_option autoImplicit false

namespace NDash

def dcheck (condition : Prop) [Decidable condition] : Except Fault Unit :=
  if condition then .ok () else .error .checkFailed

theorem dcheck_ok {condition : Prop} [Decidable condition] (holds : condition) :
    dcheck condition = .ok () :=
  if_pos holds

namespace Chunk

inductive LoaderStatus
  | absent
  | idle
  | loading (canceled : Bool)
deriving DecidableEq, Repr

-- What the state checks of ChunkSampleSource read. `registered` is whether the load control knows
-- the loader, and `disablePosted` whether a task for DisableAndClear waits.
structure SourceLifecycle where
  state : ChunkState := .idle
  enabledTrackCount : Int := 0
  loader : LoaderStatus := .absent
  registered : Bool := false
  pendingDiscontinuity : Bool := false
  disableDoneCallback : Bool := false
  disablePosted : Bool := false
deriving DecidableEq, Repr

namespace SourceLifecycle

def isLoading (source : SourceLifecycle) : Except Fault Bool :=
  match source.loader with
  | .absent => .error .nullPointer
  | .idle => .ok false
  | .loading _ => .ok true

def cancelLoading (source : SourceLifecycle) : SourceLifecycle :=
  match source.loader with
  | .loading _ => { source with loader := .loading true }
  | _ => source

-- LoadControl::Update uses the state of the loader without asking whether there is one. `starts` is
-- whether a load is started when none runs.
def updateLoadControl (starts : Bool) (source : SourceLifecycle) :
    Except Fault SourceLifecycle := do
  let loading ← source.isLoading
  if !source.registered then .error .nullPointer
  else if !loading && starts then .ok { source with loader := .loading false }
  else .ok source

def restartFrom (starts : Bool) (source : SourceLifecycle) : Except Fault SourceLifecycle := do
  let loading ← source.isLoading
  if loading then .ok source.cancelLoading else source.updateLoadControl starts

def register (source : SourceLifecycle) : Except Fault SourceLifecycle := do
  dcheck (source.state = .idle)
  .ok { source with state := .initialized }

def prepare (sourcePrepares : Bool) (source : SourceLifecycle) :
    Except Fault (Bool × SourceLifecycle) := do
  dcheck (source.state = .initialized ∨ source.state = .prepared)
  if source.state = .prepared then .ok (true, source)
  else if !sourcePrepares then .ok (false, source)
  else .ok (true, { source with loader := .idle, state := .prepared })

def getDurationUs (source : SourceLifecycle) : Except Fault Unit :=
  dcheck (source.state = .prepared ∨ source.state = .enabled)

def enable (starts : Bool) (source : SourceLifecycle) : Except Fault SourceLifecycle := do
  dcheck (source.state = .prepared)
  let source := { source with enabledTrackCount := source.enabledTrackCount + 1 }
  dcheck (source.enabledTrackCount = 1)
  { source with
    state := .enabled
    registered := true
    pendingDiscontinuity := false }.restartFrom starts

def disable (source : SourceLifecycle) : Except Fault SourceLifecycle := do
  dcheck (source.state = .enabled)
  let source := { source with state := .disabling, disableDoneCallback := true }
  let loading ← source.isLoading
  if loading then .ok source.cancelLoading else .ok { source with disablePosted := true }

-- DisableAndClear up to the callback, which the source resets after it has run.
def disableAndClear (source : SourceLifecycle) : Except Fault SourceLifecycle := do
  dcheck (source.state = .disabling)
  let enabledTrackCount := source.enabledTrackCount - 1
  dcheck (enabledTrackCount = 0)
  dcheck (source.registered = true)
  .ok { source with enabledTrackCount, state := .prepared, registered := false }

def resetCallback (source : SourceLifecycle) : SourceLifecycle :=
  { source with disableDoneCallback := false }

def continueBuffering (starts : Bool) (source : SourceLifecycle) :
    Except Fault SourceLifecycle := do
  dcheck (source.state = .enabled)
  source.updateLoadControl starts

def readDiscontinuity (source : SourceLifecycle) : SourceLifecycle :=
  { source with pendingDiscontinuity := false }

def readData (source : SourceLifecycle) : Except Fault Unit := dcheck (source.state = .enabled)

def getBufferedPositionUs (source : SourceLifecycle) : Except Fault Unit :=
  dcheck (source.state = .enabled)

structure SeekAnswer where
  moves : Bool
  restarts : Bool
  starts : Bool
deriving DecidableEq, Repr

def seekToUs (answer : SeekAnswer) (source : SourceLifecycle) : Except Fault SourceLifecycle := do
  dcheck (source.state = .enabled)
  if !answer.moves then .ok source
  else do
    let source ← if answer.restarts then source.restartFrom answer.starts else .ok source
    .ok { source with pendingDiscontinuity := true }

def release (source : SourceLifecycle) : Except Fault SourceLifecycle := do
  dcheck (source.state ≠ .enabled)
  .ok { source.cancelLoading with state := .idle }

-- DoneLoad has reset the loader when the callback runs. The flag is set where DisableAndClear has
-- been called, so that its callback is to run.
def loadComplete (outcome : LoaderOutcome) (starts : Bool) (source : SourceLifecycle) :
    Except Fault (Bool × SourceLifecycle) := do
  let source := { source with loader := .idle }
  match outcome with
  | .complete | .error _ => do
    let source ← source.updateLoadControl starts
    .ok (false, source)
  | .canceled =>
    if source.state = .enabled then do
      let source ← source.restartFrom starts
      .ok (false, source)
    else do
      let source ← source.disableAndClear
      .ok (true, source)

def runDisableAndClear (source : SourceLifecycle) : Except Fault SourceLifecycle :=
  { source with disablePosted := false }.disableAndClear

end SourceLifecycle

end Chunk

end NDash

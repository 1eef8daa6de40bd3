import NDash.Util

set_option autoImplicit false

namespace NDash

inductive WatermarkLevel
  | aboveHighWatermark
  | betweenWatermarks
  | belowLowWatermark
deriving DecidableEq, Repr

def WatermarkLevel.value : WatermarkLevel → Int
  | .aboveHighWatermark => 0
  | .betweenWatermarks => 1
  | .belowLowWatermark => 2

def WatermarkLevel.max (first second : WatermarkLevel) : WatermarkLevel :=
  if first.value < second.value then second else first

structure LoaderState where
  bufferSizeContribution : Int
  bufferState : WatermarkLevel := .aboveHighWatermark
  loading : Bool := false
  nextLoadPositionUs : Int := -1
deriving DecidableEq, Repr

-- `loaders` stands for loaders_ and loader_states_, which have the same keys; `notified` are the
-- calls of OnLoadingChanged.
structure LoadControl (Loader : Type) where
  loaders : List (Loader × LoaderState) := []
  targetBufferSize : Int := 0
  maxLoadStartPositionUs : Int := 0
  bufferState : WatermarkLevel := .aboveHighWatermark
  fillingBuffers : Bool := false
  lastLoadingNotify : Bool := false
  notified : List Bool := []
deriving DecidableEq, Repr

namespace LoadControl

/-- The watermarks, and the level of a buffer that holds so many bytes of the target, which the
source computes in floating point. -/
structure Settings where
  lowWatermarkUs : Int := 30000000
  highWatermarkUs : Int := 30000000
  getBufferState : Int → Int → WatermarkLevel

variable {Loader : Type} [DecidableEq Loader] (settings : Settings)

-- The conversion to size_t.
def toSizeT (value : Int) : Nat := (value % 18446744073709551616).toNat

def getLoaderBufferState (playbackPositionUs nextLoadPositionUs : Int) : WatermarkLevel :=
  if nextLoadPositionUs = -1 then .aboveHighWatermark
  else
    let timeUntilNextLoadPosition := nextLoadPositionUs - playbackPositionUs
    if timeUntilNextLoadPosition > settings.highWatermarkUs then .aboveHighWatermark
    else if timeUntilNextLoadPosition < settings.lowWatermarkUs then .belowLowWatermark
    else .betweenWatermarks

def highestState (loaders : List (Loader × LoaderState)) (bufferState : WatermarkLevel) :
    WatermarkLevel :=
  loaders.foldl (fun highest entry => highest.max entry.2.bufferState) bufferState

def loading (loaders : List (Loader × LoaderState)) : Bool :=
  loaders.any fun entry => entry.2.loading

def haveNextLoadPosition (loaders : List (Loader × LoaderState)) : Bool :=
  loaders.any fun entry => entry.2.nextLoadPositionUs ≠ -1

def fills (loaders : List (Loader × LoaderState)) (bufferState : WatermarkLevel)
    (fillingBuffers : Bool) : Bool :=
  !loaders.isEmpty && (loading loaders || haveNextLoadPosition loaders) &&
    (highestState loaders bufferState = .belowLowWatermark ||
      (highestState loaders bufferState = .betweenWatermarks && fillingBuffers))

def lower (best : Int) (entry : Loader × LoaderState) : Int :=
  let loaderTime := entry.2.nextLoadPositionUs
  if loaderTime ≠ -1 ∧ (best = -1 ∨ loaderTime < best) then loaderTime else best

def maxLoadStart (loaders : List (Loader × LoaderState)) (fillingBuffers : Bool) : Int :=
  if fillingBuffers then loaders.foldl lower (-1) else -1

def notify (control : LoadControl Loader) : LoadControl Loader :=
  if control.fillingBuffers && !control.lastLoadingNotify then
    { control with lastLoadingNotify := true, notified := control.notified ++ [true] }
  else if !control.fillingBuffers && control.lastLoadingNotify && !loading control.loaders then
    { control with lastLoadingNotify := false, notified := control.notified ++ [false] }
  else control

def updateControlState (control : LoadControl Loader) : LoadControl Loader :=
  let filling := fills control.loaders control.bufferState control.fillingBuffers
  let control := notify { control with fillingBuffers := filling }
  { control with maxLoadStartPositionUs := maxLoadStart control.loaders filling }

def register (control : LoadControl Loader) (loader : Loader) (bufferSizeContribution : Int) :
    LoadControl Loader :=
  { control with
    loaders := control.loaders.filter (fun entry => entry.1 ≠ loader) ++
      [(loader, { bufferSizeContribution })]
    targetBufferSize := toInt32 (control.targetBufferSize + bufferSizeContribution) }

def unregister (control : LoadControl Loader) (loader : Loader) :
    Except Fault (LoadControl Loader) :=
  match control.loaders.lookup loader with
  | none => .error .checkFailed
  | some state =>
    .ok (updateControlState
      { control with
        loaders := control.loaders.filter (fun entry => entry.1 ≠ loader)
        targetBufferSize := toInt32 (control.targetBufferSize - state.bufferSizeContribution) })

def update (control : LoadControl Loader) (loader : Loader)
    (playbackPositionUs nextLoadPositionUs : Int) (loading : Bool) (allocated : Nat) :
    Except Fault (Bool × LoadControl Loader) :=
  match control.loaders.lookup loader with
  | none => .error .nullPointer
  | some state =>
    let loaderBufferState := getLoaderBufferState settings playbackPositionUs nextLoadPositionUs
    let loaderStateChanged := decide (state.bufferState ≠ loaderBufferState ∨
      state.nextLoadPositionUs ≠ nextLoadPositionUs ∨ state.loading ≠ loading)
    let reported : LoaderState :=
      { state with bufferState := loaderBufferState, nextLoadPositionUs, loading }
    let loaders := if loaderStateChanged then
        control.loaders.map fun entry => if entry.1 = loader then (loader, reported) else entry
      else control.loaders
    let bufferState := settings.getBufferState (toInt32 allocated) control.targetBufferSize
    let bufferStateChanged := decide (control.bufferState ≠ bufferState)
    let control := { control with loaders, bufferState }
    let control := if loaderStateChanged || bufferStateChanged then updateControlState control
      else control
    .ok (decide (allocated < toSizeT control.targetBufferSize ∧ nextLoadPositionUs ≠ -1 ∧
      nextLoadPositionUs ≤ control.maxLoadStartPositionUs), control)

end LoadControl

end NDash

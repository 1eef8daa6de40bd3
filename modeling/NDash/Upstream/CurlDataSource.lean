import Mathlib.Algebra.GroupWithZero.Nat
import NDash.Upstream.DataSpec
import NDash.Shared.Machine

set_option autoImplicit false

namespace NDash.Upstream

open Machine

def toSize (value : Int) : Nat := (value % 18446744073709551616).toNat

theorem toSize_sub {first second : Nat} (order : second ≤ first)
    (range : first < 18446744073709551616) : toSize (first - second) = first - second := by
  unfold toSize
  omega

def kMaxReadLength : Nat := 9223372036854775807

/-- Where the loader thread is: outside, in Read at `writer_.Wait()`, in Close before
`reader_.Broadcast()`, or in Close at `curl_done_.Wait()`. -/
inductive LoaderPoint
  | outside
  | reading (readLength : Nat) (woken : Bool)
  | closing
  | awaitingDone
deriving DecidableEq, Repr

/-- Where the curl thread is: without a task, in curl_easy_perform between two callbacks, in
ProcessBodyData at `reader_.Wait()`, in CheckCancel before its broadcasts, in CurlPerform at
`reader_.Wait()`, before `writer_.Broadcast()`, or done. A refused callback makes curl fail. -/
inductive CurlPoint
  | idle
  | performing (refused : Bool)
  | processing (unread : Bytes) (bufferWasEmpty : Bool) (woken : Bool)
  | cancelling
  | finishing (woken : Bool)
  | broadcasting
  | done
deriving DecidableEq, Repr

-- Only the loader thread waits on writer_ and only the curl thread on reader_, so that Signal and
-- Broadcast do the same.
def LoaderPoint.wake : LoaderPoint → LoaderPoint
  | .reading readLength _ => .reading readLength true
  | point => point

def CurlPoint.wake : CurlPoint → CurlPoint
  | .processing unread bufferWasEmpty _ => .processing unread bufferWasEmpty true
  | .finishing _ => .finishing true
  | point => point

structure CurlDataSource where
  maxBufferSize : Nat
  loadError : Bool := false
  eof : Bool := false
  wantFullBuffer : Bool := false
  bytesBuffered : Nat := 0
  bufferHeadPos : Nat := 0
  buffers : List Bytes := []
  bytesRead : Nat := 0
  loader : LoaderPoint := .outside
  curl : CurlPoint := .idle
deriving DecidableEq, Repr

namespace CurlDataSource

def getReadable (source : CurlDataSource) : Nat :=
  toSize (source.bytesBuffered - source.bufferHeadPos)

def getBufferFree (source : CurlDataSource) : Nat :=
  toSize (source.maxBufferSize - source.bytesBuffered)

def signalWriter (source : CurlDataSource) : CurlDataSource :=
  { source with loader := source.loader.wake }

def signalReader (source : CurlDataSource) : CurlDataSource :=
  { source with curl := source.curl.wake }

structure Copy where
  out : Bytes := []
  bytesBuffered : Nat
  bufferHeadPos : Nat
  buffers : List Bytes
  signalReader : Bool := false
deriving DecidableEq, Repr

-- A head block that is not used up is where the loop ends: all bytes have been copied.
def copyOut : List Bytes → Nat → Copy → Except Fault Copy
  | [], bytesToCopy, copy => if bytesToCopy = 0 then .ok copy else .error .outOfBounds
  | head :: rest, bytesToCopy, copy =>
    if bytesToCopy = 0 then .ok copy
    else
      let bufferHeadRemaining := head.length - copy.bufferHeadPos
      let thisCopy := min bytesToCopy bufferHeadRemaining
      let copy := { copy with
        out := copy.out ++ (head.drop copy.bufferHeadPos).take thisCopy
        bufferHeadPos := copy.bufferHeadPos + thisCopy }
      if copy.bufferHeadPos = head.length then
        copyOut rest (bytesToCopy - thisCopy)
          { copy with
            bytesBuffered := toSize (copy.bytesBuffered - head.length)
            bufferHeadPos := 0
            buffers := rest
            signalReader := true }
      else .ok copy

def readLocked (source : CurlDataSource) (readLength : Nat) :
    Except Fault (Option ReadResult × CurlDataSource) :=
  if !source.loadError && !source.eof && source.buffers.isEmpty then
    .ok (none, { source with loader := .reading readLength false })
  else if source.loadError then .ok (some .ioError, { source with loader := .outside })
  else if source.buffers.isEmpty && source.eof then
    .ok (some .endOfInput, { source with loader := .outside })
  else if source.buffers.isEmpty then .error .checkFailed
  else do
    let bytesToCopy := min readLength source.getReadable
    let copy ← copyOut source.buffers bytesToCopy
      { bytesBuffered := source.bytesBuffered
        bufferHeadPos := source.bufferHeadPos
        buffers := source.buffers }
    let source := { source with
      bytesBuffered := copy.bytesBuffered
      bufferHeadPos := copy.bufferHeadPos
      buffers := copy.buffers
      loader := .outside
      bytesRead := source.bytesRead + bytesToCopy }
    let source := if copy.signalReader then source.signalReader else source
    return (some (.bytes copy.out), source)

def read (source : CurlDataSource) (readLength : Nat) :
    Except Fault (Option ReadResult × CurlDataSource) :=
  let readLength := min readLength kMaxReadLength
  if readLength = 0 then .ok (some (.bytes []), source) else source.readLocked readLength

def push (source : CurlDataSource) (data : Bytes) : CurlDataSource :=
  { source with
    buffers := source.buffers ++ [data]
    bytesBuffered := source.bytesBuffered + data.length }

def waitForSpace (source : CurlDataSource) (unread : Bytes) (bufferWasEmpty : Bool) :
    CurlDataSource :=
  if bufferWasEmpty || source.wantFullBuffer then
    { source.signalWriter with curl := .processing unread false false }
  else { source with curl := .processing unread bufferWasEmpty false }

def finishBody (source : CurlDataSource) (bufferWasEmpty : Bool) : CurlDataSource :=
  let source := { source with curl := .performing false }
  if bufferWasEmpty && !source.buffers.isEmpty && !source.wantFullBuffer then source.signalWriter
  else source

/-- The outer loop of ProcessBodyData, until it returns or waits: after a write either the block is
used up or the buffer is full. -/
def fill (source : CurlDataSource) (unread : Bytes) (bufferWasEmpty : Bool) : CurlDataSource :=
  if source.loadError then { source with curl := .performing true }
  else if source.getBufferFree > 0 then
    let writeSize := min unread.length source.getBufferFree
    let source := source.push (unread.take writeSize)
    let unread := unread.drop writeSize
    if unread.isEmpty then source.finishBody bufferWasEmpty
    else source.waitForSpace unread bufferWasEmpty
  else source.waitForSpace unread bufferWasEmpty

def processBodyData (source : CurlDataSource) (block : Bytes) : CurlDataSource :=
  if block.isEmpty then source else source.fill block source.buffers.isEmpty

def resumeBody (source : CurlDataSource) (unread : Bytes) (bufferWasEmpty : Bool) :
    CurlDataSource :=
  if source.getBufferFree ≤ 0 && !source.loadError then source.waitForSpace unread bufferWasEmpty
  else source.fill unread bufferWasEmpty

def drain (source : CurlDataSource) : CurlDataSource :=
  if !source.buffers.isEmpty && !source.loadError then { source with curl := .finishing false }
  else { source with curl := .broadcasting }

def complete (source : CurlDataSource) (ok : Bool) : CurlDataSource :=
  if ok then { source with eof := true }.signalWriter.drain
  else { source with loadError := true, curl := .broadcasting }

def checkCancel (source : CurlDataSource) : CurlDataSource :=
  { source with loadError := true, curl := .cancelling }

def reset (source : CurlDataSource) : CurlDataSource := { maxBufferSize := source.maxBufferSize }

def close (source : CurlDataSource) : CurlDataSource :=
  if source.curl = .idle then source.reset
  else { source with loadError := true, loader := .closing }

end CurlDataSource

structure Transfer where
  source : CurlDataSource
  offered : Bytes := []
  returned : Bytes := []
  succeeded : Bool := false
  result : Option ReadResult := none
deriving DecidableEq, Repr

inductive TransferOp
  | open
  | read (readLength : Nat)
  | resumeRead
  | close
  | broadcastReader
  | finishClose
  | body (block : Bytes)
  | resumeBody
  | checkCancel
  | broadcastCancel
  | complete (ok : Bool)
  | resumeComplete
  | broadcastWriter
deriving DecidableEq, Repr

namespace Transfer

def note (transfer : Transfer) (outcome : Option ReadResult × CurlDataSource) : Transfer :=
  match outcome with
  | (none, source) => { transfer with source }
  | (some (.bytes data), source) =>
    { transfer with source, returned := transfer.returned ++ data, result := some (.bytes data) }
  | (some result, source) => { transfer with source, result := some result }

def step (transfer : Transfer) (op : TransferOp) : Option (Except Fault Transfer) :=
  let source := transfer.source
  match op, source.loader, source.curl with
  | .open, .outside, .idle => some (.ok { source := { source with curl := .performing false } })
  | .read _, .outside, .idle => none
  | .read readLength, .outside, _ => some ((source.read readLength).map transfer.note)
  | .resumeRead, .reading readLength true, _ =>
    some ((source.readLocked readLength).map transfer.note)
  | .close, .outside, _ => some (.ok { transfer with source := source.close })
  | .broadcastReader, .closing, _ =>
    some (.ok { transfer with source := { source.signalReader with loader := .awaitingDone } })
  | .finishClose, .awaitingDone, .done => some (.ok { transfer with source := source.reset })
  | .body block, _, .performing false =>
    some (.ok { transfer with
      source := source.processBodyData block, offered := transfer.offered ++ block })
  | .resumeBody, _, .processing unread bufferWasEmpty true =>
    some (.ok { transfer with source := source.resumeBody unread bufferWasEmpty })
  | .checkCancel, _, .performing false =>
    some (.ok { transfer with source := source.checkCancel })
  | .broadcastCancel, _, .cancelling =>
    some (.ok { transfer with source := { source.signalWriter with curl := .performing true } })
  | .complete true, _, .performing false =>
    some (.ok { transfer with source := source.complete true, succeeded := true })
  | .complete false, _, .performing _ =>
    some (.ok { transfer with source := source.complete false })
  | .resumeComplete, _, .finishing true => some (.ok { transfer with source := source.drain })
  | .broadcastWriter, _, .broadcasting =>
    some (.ok { transfer with source := { source.signalWriter with curl := .done } })
  | _, _, _ => none

end Transfer

def transferSystem (maxBufferSize : Nat) : System Transfer TransferOp where
  Start transfer := transfer = { source := { maxBufferSize } }
  Step transfer op next := transfer.step op = some (.ok next)

end NDash.Upstream

import Mathlib.Data.Fintype.Defs
import Mathlib.Logic.Function.Basic
import NDash.Upstream.DefaultBandwidthMeter

set_option autoImplicit false

namespace NDash.Upstream

open Machine

/-- Where the thread that uses a data source is: outside or in Read, in Open waiting for the slot or
setting the options, in Open waiting for the headers or for the end of a cancelled request, in Close
waiting for the end. -/
inductive CallerPoint
  | outside
  | waitingSlot (woken : Bool)
  | opening
  | waitingHeaders
  | waitingDone
  | closing
deriving DecidableEq, Repr

/-- Where the curl thread is: without a task, in curl_easy_perform, behind the listener's
OnTransferEnd. -/
inductive PerformPoint
  | idle
  | performing
  | ended
deriving DecidableEq, Repr

-- What Open, CurlPerform and Close know of a request. `transfer` is the transfer that the request has
-- started with the listener and not ended.
structure CurlRequest where
  caller : CallerPoint := .outside
  curl : PerformPoint := .idle
  isOpen : Bool := false
  active : Bool := false
  headersDone : Bool := false
  curlDone : Bool := false
  transfer : Option Nat := none
deriving DecidableEq, Repr

def CurlRequest.Blocked (request : CurlRequest) : Prop := request.caller = .waitingSlot false

instance (request : CurlRequest) : Decidable request.Blocked :=
  inferInstanceAs (Decidable (request.caller = .waitingSlot false))

/-- How the data sources are made: with the global lock or without, with the bandwidth meter as their
listener or with none. -/
structure Wiring (Source : Type) where
  useGlobalLock : Source → Bool
  metered : Source → Bool

structure CurlRequests (Source Averager : Type) where
  requests : Source → CurlRequest
  globalActive : Bool
  world : MeterWorld Averager

inductive RequestOp (Source : Type)
  | open
  | resumeOpen
  | refuse
  | perform
  | headersComplete (now : Int)
  | body (now bytes : Int)
  | performed (now : Int)
  | finish
  | headersSeen (canceled : Bool)
  | doneSeen
  | close (woken : Option Source)
  | finishClose (woken : Option Source)
deriving DecidableEq, Repr

namespace CurlRequests

variable {Source Averager : Type} [DecidableEq Source]

def change (all : CurlRequests Source Averager) (source : Source)
    (update : CurlRequest → CurlRequest) : CurlRequests Source Averager :=
  { all with requests := Function.update all.requests source (update (all.requests source)) }

-- The loop of Open that waits for the slot, each time it looks at the flag.
def acquire (wiring : Wiring Source) (all : CurlRequests Source Averager) (source : Source) :
    CurlRequests Source Averager :=
  if wiring.useGlobalLock source && all.globalActive then
    all.change source fun request => { request with caller := .waitingSlot false }
  else
    { all with globalActive := all.globalActive || wiring.useGlobalLock source }.change source
      fun request => { request with caller := .opening, isOpen := true }

-- A request that is in progress makes Open fail at once.
def «open» (wiring : Wiring Source) (all : CurlRequests Source Averager) (source : Source) :
    CurlRequests Source Averager :=
  if (all.requests source).isOpen then all else all.acquire wiring source

-- The end of Close: the slot is given back, with one waiter signaled, and the request is reset, which
-- no other thread looks at.
def release (wiring : Wiring Source) (all : CurlRequests Source Averager) (source : Source)
    (woken : Option Source) : CurlRequests Source Averager :=
  let frees := (all.requests source).isOpen && wiring.useGlobalLock source
  let all := { all with globalActive := all.globalActive && !frees }.change source fun _ => {}
  match woken with
  | none => all
  | some waiter =>
    if frees then all.change waiter fun request => { request with caller := .waitingSlot true }
    else all

def close (wiring : Wiring Source) (all : CurlRequests Source Averager) (source : Source)
    (woken : Option Source) : CurlRequests Source Averager :=
  if (all.requests source).active then
    all.change source fun request => { request with caller := .closing }
  else all.release wiring source woken

def onTransferStart (all : CurlRequests Source Averager) (source : Source) (now : Int) :
    Except Fault (CurlRequests Source Averager) :=
  if all.world.meter.streamCount = 0 ∧ all.world.meter.bytesAccumulator ≠ 0 then
    .error .checkFailed
  else .ok ({ all with world := all.world.started now }.change source fun request =>
    { request with transfer := some all.world.transfers.length })

def headersComplete (wiring : Wiring Source) (all : CurlRequests Source Averager) (source : Source)
    (now : Int) : Except Fault (CurlRequests Source Averager) := do
  let all ← if wiring.metered source then all.onTransferStart source now else .ok all
  .ok (all.change source fun request => { request with headersDone := true })

def body (wiring : Wiring Source) (all : CurlRequests Source Averager) (source : Source)
    (now bytes : Int) : Except Fault (CurlRequests Source Averager) :=
  if wiring.metered source then
    if 0 < bytes then .ok { all with world := all.world.transferred now bytes }
    else .error .checkFailed
  else .ok all

def onTransferEnd (averages : Averages Averager) (squareRoot : Int → Int)
    (all : CurlRequests Source Averager) (source : Source) (now : Int) :
    Except Fault (CurlRequests Source Averager) :=
  if 0 < all.world.meter.streamCount then
    match (all.requests source).transfer with
    | none => .error .checkFailed
    | some index =>
      match all.world.transfers[index]? with
      | none => .error .outOfBounds
      | some transfer => do
        let (meter, sample) ← all.world.meter.onTransferEnd averages squareRoot now
        let all := { all with world := all.world.ended now index transfer.start meter sample }
        .ok (all.change source fun request => { request with transfer := none })
  else .error .checkFailed

def performed (wiring : Wiring Source) (averages : Averages Averager) (squareRoot : Int → Int)
    (all : CurlRequests Source Averager) (source : Source) (now : Int) :
    Except Fault (CurlRequests Source Averager) := do
  let all ←
    if (all.requests source).headersDone && wiring.metered source then
      all.onTransferEnd averages squareRoot source now
    else .ok all
  .ok (all.change source fun request => { request with curl := .ended })

def apply (wiring : Wiring Source) (averages : Averages Averager) (squareRoot : Int → Int)
    (all : CurlRequests Source Averager) (source : Source) :
    RequestOp Source → Except Fault (CurlRequests Source Averager)
  | .open => .ok (all.open wiring source)
  | .resumeOpen => .ok (all.acquire wiring source)
  | .refuse => .ok (all.change source fun request => { request with caller := .outside })
  | .perform => .ok (all.change source fun request =>
      { request with caller := .waitingHeaders, active := true, curl := .performing })
  | .headersComplete now => all.headersComplete wiring source now
  | .body now bytes => all.body wiring source now bytes
  | .performed now => all.performed wiring averages squareRoot source now
  | .finish => .ok (all.change source fun request =>
      { request with curl := .idle, headersDone := true, curlDone := true })
  | .headersSeen canceled => .ok (all.change source fun request =>
      { request with caller := if canceled then .waitingDone else .outside })
  | .doneSeen => .ok (all.change source fun request => { request with caller := .outside })
  | .close woken => .ok (all.close wiring source woken)
  | .finishClose woken => .ok (all.release wiring source woken)

-- Signal wakes one of the threads that wait, if there is one.
def Wakes (all : CurlRequests Source Averager) : Option Source → Prop
  | none => ∀ source, ¬ (all.requests source).Blocked
  | some waiter => (all.requests waiter).Blocked

instance [Fintype Source] (all : CurlRequests Source Averager) :
    (woken : Option Source) → Decidable (all.Wakes woken)
  | none => inferInstanceAs (Decidable (∀ source, ¬ (all.requests source).Blocked))
  | some waiter => inferInstanceAs (Decidable (all.requests waiter).Blocked)

/-- The steps that the two threads of a data source can take: the curl thread runs the task that Open
has posted, a wait for an event ends when it is signaled, curl gives blocks whose size is a positive
int32_t, and the clock that the meter reads advances. -/
def Legal (all : CurlRequests Source Averager) (source : Source) : RequestOp Source → Prop
  | .open => (all.requests source).caller = .outside
  | .resumeOpen => (all.requests source).caller = .waitingSlot true
  | .refuse => (all.requests source).caller = .opening
  | .perform => (all.requests source).caller = .opening
  | .headersComplete now => (all.requests source).curl = .performing ∧
      (all.requests source).headersDone = false ∧ all.world.clock < now
  | .body now bytes => (all.requests source).curl = .performing ∧
      (all.requests source).headersDone = true ∧ all.world.clock < now ∧ 0 < bytes ∧
      bytes < 2147483648
  | .performed now => (all.requests source).curl = .performing ∧ all.world.clock < now
  | .finish => (all.requests source).curl = .ended
  | .headersSeen _ => (all.requests source).caller = .waitingHeaders ∧
      (all.requests source).headersDone = true
  | .doneSeen => (all.requests source).caller = .waitingDone ∧
      (all.requests source).curlDone = true
  | .close woken => (all.requests source).caller = .outside ∧ all.Wakes woken
  | .finishClose woken => (all.requests source).caller = .closing ∧
      (all.requests source).curlDone = true ∧ all.Wakes woken

instance [Fintype Source] (all : CurlRequests Source Averager) (source : Source)
    (op : RequestOp Source) : Decidable (all.Legal source op) := by
  cases op <;> unfold Legal <;> infer_instance

end CurlRequests

def requestSystem {Source Averager : Type} [DecidableEq Source] (wiring : Wiring Source)
    (averages : Averages Averager) (squareRoot : Int → Int) :
    System (CurlRequests Source Averager) (Source × RequestOp Source) where
  Start all := ∃ averager clock,
    all = { requests := fun _ => {}, globalActive := false
            world := { meter := { averager }, clock } }
  Step all op next := all.Legal op.1 op.2 ∧
    all.apply wiring averages squareRoot op.1 op.2 = .ok next

end NDash.Upstream

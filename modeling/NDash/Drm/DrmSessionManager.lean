import NDash.Util
import NDash.Shared.Machine

set_option autoImplicit false

namespace NDash.Drm

open Machine

abbrev Pssh := Bytes
abbrev SessionId := Bytes

structure DashPlayerCallbacks where
  openCdmSession : Bool
  fetchLicense : Bool
  closeCdmSession : Bool
deriving DecidableEq, Repr

/-- `waitable_` is created with its record and only ever signalled. -/
structure CdmSessionContext where
  cdmSessionId : SessionId := []
  signaled : Bool := false
deriving DecidableEq, Repr

abbrev PsshSessions := List (Pssh × CdmSessionContext)

/-- Where the worker thread is: between tasks, in Run at open_cdm_session_func, at
fetch_license_func, at close_cdm_session_func, or before the lock. -/
inductive WorkerPoint
  | idle
  | opening (pssh : Pssh)
  | fetching (pssh : Pssh) (sessionId : SessionId)
  | closing (pssh : Pssh) (sessionId : SessionId)
  | storing (pssh : Pssh) (sessionId : SessionId)
deriving DecidableEq, Repr

/-- How far the destructor is: not called, in Stop, or in its loop over the records. -/
inductive Destruction
  | notCalled
  | stopping
  | closing (records : PsshSessions)
deriving DecidableEq, Repr

inductive CdmCall
  | openSession (result : Option SessionId)
  | fetchLicense (sessionId : SessionId) (pssh : Pssh) (ok : Bool)
  | closeSession (sessionId : SessionId)
deriving DecidableEq, Repr

-- The calls are kept with the newest first.
structure DrmSessionManager where
  decoderCallbacks : Option DashPlayerCallbacks
  psshSessions : PsshSessions := []
  postedRuns : List Pssh := []
  worker : WorkerPoint := .idle
  waiting : List Pssh := []
  destruction : Destruction := .notCalled
  calls : List CdmCall := []
deriving DecidableEq, Repr

-- A std::map keeps its records ordered by key.
def insertRecord (pssh : Pssh) (context : CdmSessionContext) : PsshSessions → PsshSessions
  | [] => [(pssh, context)]
  | record :: records =>
    if pssh < record.1 then (pssh, context) :: record :: records
    else record :: insertRecord pssh context records

namespace DrmSessionManager

def find (manager : DrmSessionManager) (pssh : Pssh) : Option CdmSessionContext :=
  manager.psshSessions.lookup pssh

def call (manager : DrmSessionManager) (cdmCall : CdmCall) : DrmSessionManager :=
  { manager with calls := cdmCall :: manager.calls }

def request (manager : DrmSessionManager) (pssh : Pssh) : DrmSessionManager :=
  match manager.decoderCallbacks with
  | none => manager
  | some callbacks =>
    if !callbacks.openCdmSession then manager
    else if !callbacks.fetchLicense then manager
    else
      match manager.find pssh with
      | some _ => manager
      | none =>
        { manager with
          psshSessions := insertRecord pssh {} manager.psshSessions
          postedRuns := manager.postedRuns ++ [pssh] }

def join (manager : DrmSessionManager) (pssh : Pssh) :
    Except Fault (Option Bool × DrmSessionManager) :=
  match manager.find pssh with
  | none => .error .nullPointer
  | some context =>
    if !context.cdmSessionId.isEmpty then .ok (some true, manager)
    else .ok (none, { manager with waiting := pssh :: manager.waiting })

def resumeJoin (manager : DrmSessionManager) (pssh : Pssh) : Option Bool × DrmSessionManager :=
  let manager := { manager with waiting := manager.waiting.erase pssh }
  match manager.find pssh with
  | none => (some false, manager)
  | some context => (some (!context.cdmSessionId.isEmpty), manager)

def openReturns (manager : DrmSessionManager) (pssh : Pssh) (result : Option SessionId) :
    DrmSessionManager :=
  let manager := manager.call (.openSession result)
  match result with
  | none => { manager with worker := .storing pssh [] }
  | some sessionId => { manager with worker := .fetching pssh sessionId }

def fetchReturns (manager : DrmSessionManager) (pssh : Pssh) (sessionId : SessionId) (ok : Bool) :
    DrmSessionManager :=
  let manager := manager.call (.fetchLicense sessionId pssh ok)
  if ok then { manager with worker := .storing pssh sessionId }
  else { manager with worker := .closing pssh sessionId }

def callClose (manager : DrmSessionManager) (sessionId : SessionId) :
    Except Fault DrmSessionManager :=
  match manager.decoderCallbacks with
  | none => .error .nullPointer
  | some callbacks =>
    if callbacks.closeCdmSession then .ok (manager.call (.closeSession sessionId))
    else .error .nullPointer

-- The record that Run was given stays in the map under its key.
def storeResult (manager : DrmSessionManager) (pssh : Pssh) (sessionId : SessionId) :
    DrmSessionManager :=
  { manager with
    psshSessions := manager.psshSessions.map fun record =>
      if record.1 = pssh then (record.1, { cdmSessionId := sessionId, signaled := true })
      else record
    worker := .idle }

end DrmSessionManager

inductive SessionOp
  | request (pssh : Pssh)
  | join (pssh : Pssh)
  | resumeJoin (pssh : Pssh)
  | runTask
  | openReturns (result : Option SessionId)
  | fetchReturns (ok : Bool)
  | closeReturns
  | storeResult
  | destroy
  | stopped
  | closeNext
deriving DecidableEq, Repr

namespace DrmSessionManager

def step (manager : DrmSessionManager) (op : SessionOp) :
    Option (Except Fault (Option Bool × DrmSessionManager)) :=
  match op, manager.worker, manager.destruction with
  | .request pssh, _, .notCalled => some (.ok (none, manager.request pssh))
  | .join pssh, _, .notCalled => some (manager.join pssh)
  | .resumeJoin pssh, _, .notCalled =>
    if pssh ∈ manager.waiting ∧ (manager.find pssh).any (·.signaled) then
      some (.ok (manager.resumeJoin pssh))
    else none
  | .runTask, .idle, _ =>
    match manager.postedRuns with
    | [] => none
    | pssh :: postedRuns =>
      some (.ok (none, { manager with postedRuns, worker := .opening pssh }))
  | .openReturns result, .opening pssh, _ =>
    some (.ok (none, manager.openReturns pssh result))
  | .fetchReturns ok, .fetching pssh sessionId, _ =>
    some (.ok (none, manager.fetchReturns pssh sessionId ok))
  | .closeReturns, .closing pssh sessionId, _ =>
    some ((manager.callClose sessionId).map fun manager =>
      (none, { manager with worker := .storing pssh [] }))
  | .storeResult, .storing pssh sessionId, _ =>
    some (.ok (none, manager.storeResult pssh sessionId))
  | .destroy, _, .notCalled =>
    if manager.waiting = [] then
      some (.ok (none, { manager with destruction := .stopping }))
    else none
  | .stopped, .idle, .stopping =>
    if manager.postedRuns = [] then
      some (.ok (none, { manager with destruction := .closing manager.psshSessions }))
    else none
  | .closeNext, _, .closing (record :: records) =>
    some ((manager.callClose record.2.cdmSessionId).map fun manager =>
      (none, { manager with destruction := .closing records }))
  | _, _, _ => none

def destroyed (manager : DrmSessionManager) : Prop := manager.destruction = .closing []

-- The attempts that have been posted and have not stored their result.
def inFlight (manager : DrmSessionManager) : List Pssh :=
  match manager.worker with
  | .idle => manager.postedRuns
  | .opening pssh | .fetching pssh _ | .closing pssh _ | .storing pssh _ =>
    pssh :: manager.postedRuns

end DrmSessionManager

def SessionOp.NamesSession : SessionOp → Prop
  | .openReturns result => result ≠ some []
  | _ => True

def sessionSystem : System DrmSessionManager SessionOp where
  Start manager := ∃ decoderCallbacks, manager = { decoderCallbacks }
  Step manager op next := op.NamesSession ∧ ∃ returned, manager.step op = some (.ok (returned, next))

end NDash.Drm

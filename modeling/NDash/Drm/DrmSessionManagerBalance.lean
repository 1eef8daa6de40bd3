import Mathlib.Data.List.Nodup
import NDash.Drm.DrmSessionManager

set_option autoImplicit false

namespace NDash.Drm

open Machine

def Outstanding (calls : List CdmCall) (sessionId : SessionId) : Prop :=
  calls.count (.closeSession sessionId) < calls.count (.openSession (some sessionId))

/-- Every close names a session that was opened and not yet closed, the newest call first. -/
def ClosesOutstanding : List CdmCall → Prop
  | [] => True
  | .closeSession sessionId :: earlier => Outstanding earlier sessionId ∧ ClosesOutstanding earlier
  | .openSession _ :: earlier => ClosesOutstanding earlier
  | .fetchLicense _ _ _ :: earlier => ClosesOutstanding earlier

def ClosedOnce (calls : List CdmCall) : Prop :=
  ∀ sessionId, .openSession (some sessionId) ∈ calls →
    calls.count (.closeSession sessionId) = calls.count (.openSession (some sessionId))

def Licensed (calls : List CdmCall) (pssh : Pssh) : Prop :=
  ∃ sessionId, .fetchLicense sessionId pssh true ∈ calls ∧ Outstanding calls sessionId

def CdmCall.Succeeds : CdmCall → Prop
  | .openSession result => result ≠ none
  | .fetchLicense _ _ ok => ok = true
  | .closeSession _ => True

def AttemptsSucceed (calls : List CdmCall) : Prop := ∀ call ∈ calls, call.Succeeds

def WorkerPoint.held : WorkerPoint → List SessionId
  | .idle => []
  | .opening _ => []
  | .fetching _ sessionId | .closing _ sessionId | .storing _ sessionId => [sessionId]

def WorkerPoint.Failed : WorkerPoint → Prop
  | .closing _ _ => True
  | .storing _ sessionId => sessionId = []
  | _ => False

def WorkerPoint.Named : WorkerPoint → Prop
  | .fetching _ sessionId | .closing _ sessionId => sessionId ≠ []
  | _ => True

def WorkerPoint.Licensed (calls : List CdmCall) : WorkerPoint → Prop
  | .storing pssh sessionId => sessionId ≠ [] → .fetchLicense sessionId pssh true ∈ calls
  | _ => True

namespace DrmSessionManager

def records (manager : DrmSessionManager) : PsshSessions :=
  match manager.destruction with
  | .closing records => records
  | _ => manager.psshSessions

def held (manager : DrmSessionManager) : List SessionId :=
  manager.worker.held ++ manager.records.map (·.2.cdmSessionId)

-- A record without a session stands for a failed attempt once its event is signalled.
def Failed (manager : DrmSessionManager) : Prop :=
  .closeSession [] ∈ manager.calls ∨ manager.worker.Failed ∨
    ∃ record ∈ manager.records, record.2.signaled ∧ record.2.cdmSessionId = []

end DrmSessionManager

structure Orderly (manager : DrmSessionManager) : Prop where
  distinct : (manager.psshSessions.map Prod.fst).Nodup
  single : manager.inFlight.Nodup
  pending : ∀ pssh ∈ manager.inFlight, (pssh, {}) ∈ manager.psshSessions
  finished : ∀ record ∈ manager.psshSessions, record.2.signaled ∨ record.1 ∈ manager.inFlight
  named : manager.worker.Named
  quiet : ∀ records, manager.destruction = .closing records →
    manager.inFlight = [] ∧ ∀ record ∈ records, record.2.signaled

structure Balanced (manager : DrmSessionManager) : Prop where
  named : .openSession (some []) ∉ manager.calls
  balance : ∀ sessionId, sessionId ≠ [] →
    manager.calls.count (.openSession (some sessionId)) =
      manager.calls.count (.closeSession sessionId) + manager.held.count sessionId
  closes : .closeSession [] ∉ manager.calls → ClosesOutstanding manager.calls
  licensed : ∀ record ∈ manager.psshSessions, record.2.cdmSessionId ≠ [] →
    .fetchLicense record.2.cdmSessionId record.1 true ∈ manager.calls
  storing : manager.worker.Licensed manager.calls
  failures : ¬ AttemptsSucceed manager.calls ↔ manager.Failed

inductive Moves (manager : DrmSessionManager) : DrmSessionManager → Prop
  | waits (waiting : List Pssh) : Moves manager { manager with waiting }
  | posts (pssh : Pssh) (running : manager.destruction = .notCalled)
      (missing : manager.find pssh = none) :
      Moves manager { manager with
        psshSessions := insertRecord pssh {} manager.psshSessions
        postedRuns := manager.postedRuns ++ [pssh] }
  | takes (pssh : Pssh) (postedRuns : List Pssh) (idle : manager.worker = .idle)
      (posted : manager.postedRuns = pssh :: postedRuns) :
      Moves manager { manager with postedRuns, worker := .opening pssh }
  | opens (pssh : Pssh) (result : Option SessionId) (opening : manager.worker = .opening pssh)
      (named : result ≠ some []) : Moves manager (manager.openReturns pssh result)
  | fetches (pssh : Pssh) (sessionId : SessionId) (ok : Bool)
      (fetching : manager.worker = .fetching pssh sessionId) :
      Moves manager (manager.fetchReturns pssh sessionId ok)
  | closes (pssh : Pssh) (sessionId : SessionId)
      (closing : manager.worker = .closing pssh sessionId) :
      Moves manager { manager.call (.closeSession sessionId) with worker := .storing pssh [] }
  | stores (pssh : Pssh) (sessionId : SessionId)
      (storing : manager.worker = .storing pssh sessionId) :
      Moves manager (manager.storeResult pssh sessionId)
  | destroys (running : manager.destruction = .notCalled) :
      Moves manager { manager with destruction := .stopping }
  | stops (idle : manager.worker = .idle) (stopping : manager.destruction = .stopping)
      (empty : manager.postedRuns = []) :
      Moves manager { manager with destruction := .closing manager.psshSessions }
  | closesNext (record : Pssh × CdmSessionContext) (records : PsshSessions)
      (closing : manager.destruction = .closing (record :: records)) :
      Moves manager { manager.call (.closeSession record.2.cdmSessionId) with
        destruction := .closing records }

theorem request_moves {manager : DrmSessionManager} (pssh : Pssh)
    (running : manager.destruction = .notCalled) : Moves manager (manager.request pssh) := by
  unfold DrmSessionManager.request
  split
  · exact .waits manager.waiting
  split
  · exact .waits manager.waiting
  split
  · exact .waits manager.waiting
  split
  · exact .waits manager.waiting
  · next missing => exact .posts pssh running missing

theorem join_moves {manager next : DrmSessionManager} {pssh : Pssh} {returned : Option Bool}
    (joins : manager.join pssh = .ok (returned, next)) : Moves manager next := by
  unfold DrmSessionManager.join at joins
  split at joins
  · cases joins
  split at joins
  · cases joins
    exact .waits manager.waiting
  · cases joins
    exact .waits (pssh :: manager.waiting)

theorem resumeJoin_moves (manager : DrmSessionManager) (pssh : Pssh) :
    Moves manager (manager.resumeJoin pssh).2 := by
  unfold DrmSessionManager.resumeJoin
  dsimp only
  split <;> exact .waits (manager.waiting.erase pssh)

theorem callClose_ok {manager next : DrmSessionManager} {sessionId : SessionId}
    (closed : manager.callClose sessionId = .ok next) :
    next = manager.call (.closeSession sessionId) := by
  unfold DrmSessionManager.callClose at closed
  split at closed
  · cases closed
  split at closed
  · cases closed
    rfl
  · cases closed

theorem step_moves {manager next : DrmSessionManager} {op : SessionOp} {returned : Option Bool}
    (named : op.NamesSession) (step : manager.step op = some (.ok (returned, next))) :
    Moves manager next := by
  unfold DrmSessionManager.step at step
  split at step
  next pssh running =>
    cases step
    exact request_moves pssh running
  next pssh running =>
    exact join_moves (Option.some.inj step)
  next pssh running =>
    split at step
    · have resumed := Except.ok.inj (Option.some.inj step)
      have moves := resumeJoin_moves manager pssh
      rw [resumed] at moves
      exact moves
    · cases step
  next idle =>
    split at step
    · cases step
    · next pssh postedRuns posted =>
      cases step
      exact .takes pssh postedRuns idle posted
  next result pssh opening =>
    cases step
    exact .opens pssh result opening named
  next ok pssh sessionId fetching =>
    cases step
    exact .fetches pssh sessionId ok fetching
  next pssh sessionId closing =>
    obtain ⟨closed, calls, equal⟩ := map_ok (Option.some.inj step)
    cases callClose_ok calls
    cases equal
    exact .closes pssh sessionId closing
  next pssh sessionId storing =>
    cases step
    exact .stores pssh sessionId storing
  next running =>
    split at step
    · cases step
      exact .destroys running
    · cases step
  next idle stopping =>
    split at step
    · next empty =>
      cases step
      exact .stops idle stopping empty
    · cases step
  next record records closing =>
    obtain ⟨closed, calls, equal⟩ := map_ok (Option.some.inj step)
    cases callClose_ok calls
    cases equal
    exact .closesNext record records closing
  · cases step

theorem insertRecord_perm (pssh : Pssh) (context : CdmSessionContext) (records : PsshSessions) :
    (insertRecord pssh context records).Perm ((pssh, context) :: records) := by
  induction records with
  | nil => exact .refl _
  | cons record records ih =>
    unfold insertRecord
    split
    · exact .refl _
    · exact (ih.cons record).trans (.swap _ _ _)

theorem find_mem {manager : DrmSessionManager} {pssh : Pssh} {context : CdmSessionContext}
    (found : manager.find pssh = some context) : (pssh, context) ∈ manager.psshSessions := by
  obtain ⟨before, after, split, -⟩ := List.lookup_eq_some_iff.mp found
  rw [split]
  simp

theorem not_mem_of_find {manager : DrmSessionManager} {pssh : Pssh}
    (missing : manager.find pssh = none) : pssh ∉ manager.psshSessions.map Prod.fst := by
  intro member
  obtain ⟨record, recorded, rfl⟩ := List.mem_map.mp member
  have differs := List.lookup_eq_none_iff.mp missing record recorded
  simp at differs

theorem storeResult_split {manager : DrmSessionManager} {pssh : Pssh} {context : CdmSessionContext}
    (distinct : (manager.psshSessions.map Prod.fst).Nodup)
    (recorded : (pssh, context) ∈ manager.psshSessions) (sessionId : SessionId) :
    ∃ before after, manager.psshSessions = before ++ (pssh, context) :: after ∧
      (∀ record ∈ before ++ after, record.1 ≠ pssh) ∧
      (manager.storeResult pssh sessionId).psshSessions =
        before ++ (pssh, { cdmSessionId := sessionId, signaled := true }) :: after := by
  obtain ⟨before, after, split⟩ := List.append_of_mem recorded
  have others : ∀ record ∈ before ++ after, record.1 ≠ pssh := by
    intro record member same
    rw [split, List.map_append, List.map_cons, List.nodup_middle, List.nodup_cons,
      ← List.map_append] at distinct
    exact distinct.1 (List.mem_map.mpr ⟨record, member, same⟩)
  have kept : ∀ part : PsshSessions, (∀ record ∈ part, record.1 ≠ pssh) →
      part.map (fun record => if record.1 = pssh
        then (record.1, { cdmSessionId := sessionId, signaled := true }) else record) = part := by
    intro part differ
    refine (List.map_congr_left ?_).trans (List.map_id part)
    intro record member
    simp [differ record member]
  refine ⟨before, after, split, others, ?_⟩
  simp only [DrmSessionManager.storeResult, split, List.map_append, List.map_cons, if_true]
  rw [kept before fun record member => others record (by simp [member]),
    kept after fun record member => others record (by simp [member])]

theorem Orderly.same_records {manager next : DrmSessionManager} (orderly : Orderly manager)
    (sessions : next.psshSessions = manager.psshSessions) (flight : next.inFlight = manager.inFlight)
    (named : next.worker.Named)
    (quiet : ∀ records, next.destruction = .closing records →
      manager.inFlight = [] ∧ ∀ record ∈ records, record.2.signaled) : Orderly next := by
  constructor
  · rw [sessions]
    exact orderly.distinct
  · rw [flight]
    exact orderly.single
  · rw [flight, sessions]
    exact orderly.pending
  · rw [flight, sessions]
    exact orderly.finished
  · exact named
  · rw [flight]
    exact quiet

theorem inFlight_post (manager : DrmSessionManager) (pssh : Pssh) (psshSessions : PsshSessions) :
    { manager with psshSessions, postedRuns := manager.postedRuns ++ [pssh] }.inFlight =
      manager.inFlight ++ [pssh] := by
  unfold DrmSessionManager.inFlight
  cases manager.worker <;> rfl

theorem Orderly.posts {manager : DrmSessionManager} (orderly : Orderly manager) (pssh : Pssh)
    (running : manager.destruction = .notCalled) (missing : manager.find pssh = none) :
    Orderly { manager with
      psshSessions := insertRecord pssh {} manager.psshSessions
      postedRuns := manager.postedRuns ++ [pssh] } := by
  have permuted := insertRecord_perm pssh {} manager.psshSessions
  have fresh := not_mem_of_find missing
  have absent : pssh ∉ manager.inFlight := by
    intro member
    exact fresh (List.mem_map.mpr ⟨(pssh, {}), orderly.pending pssh member, rfl⟩)
  constructor
  · rw [(permuted.map Prod.fst).nodup_iff]
    exact List.nodup_cons.mpr ⟨fresh, orderly.distinct⟩
  · rw [inFlight_post, List.nodup_append_comm]
    exact List.nodup_cons.mpr ⟨absent, orderly.single⟩
  · intro other member
    rw [inFlight_post, List.mem_append, List.mem_singleton] at member
    rw [permuted.mem_iff, List.mem_cons]
    rcases member with older | rfl
    · exact .inr (orderly.pending other older)
    · exact .inl rfl
  · intro record member
    rw [permuted.mem_iff, List.mem_cons] at member
    rw [inFlight_post, List.mem_append]
    rcases member with rfl | older
    · exact .inr (.inr (List.mem_singleton.mpr rfl))
    · exact (orderly.finished record older).imp id .inl
  · exact orderly.named
  · intro records closing
    rw [running] at closing
    cases closing

theorem inFlight_storing {manager : DrmSessionManager} {pssh : Pssh} {sessionId : SessionId}
    (storing : manager.worker = .storing pssh sessionId) :
    manager.inFlight = pssh :: manager.postedRuns := by
  unfold DrmSessionManager.inFlight
  rw [storing]

theorem Orderly.stores {manager : DrmSessionManager} (orderly : Orderly manager) {pssh : Pssh}
    {sessionId : SessionId} (storing : manager.worker = .storing pssh sessionId) :
    Orderly (manager.storeResult pssh sessionId) := by
  have flight := inFlight_storing storing
  have recorded := orderly.pending pssh (by simp [flight])
  obtain ⟨before, after, split, others, stored⟩ :=
    storeResult_split orderly.distinct recorded sessionId
  have single := orderly.single
  rw [flight, List.nodup_cons] at single
  constructor
  · have distinct := orderly.distinct
    rw [split] at distinct
    rw [stored]
    simpa using distinct
  · exact single.2
  · intro other member
    have older := orderly.pending other (by rw [flight]; exact List.mem_cons_of_mem pssh member)
    have differs : other ≠ pssh := fun same => single.1 (same ▸ member)
    rw [split] at older
    rw [stored]
    simpa [differs] using older
  · intro record member
    rw [stored, List.mem_append, List.mem_cons] at member
    by_cases same : record = (pssh, { cdmSessionId := sessionId, signaled := true })
    · rw [same]
      exact .inl rfl
    · have kept : record ∈ before ++ after := by
        simpa [same] using member
      have older : record ∈ manager.psshSessions := by
        rw [split]
        rcases List.mem_append.mp kept with left | right
        · simp [left]
        · simp [right]
      refine (orderly.finished record older).imp id ?_
      intro flying
      rw [flight, List.mem_cons] at flying
      exact flying.resolve_left (others record kept)
  · trivial
  · intro records closing
    have empty := (orderly.quiet records closing).1
    rw [flight] at empty
    cases empty

theorem Orderly.moves {manager next : DrmSessionManager} (orderly : Orderly manager)
    (moves : Moves manager next) : Orderly next := by
  cases moves with
  | waits waiting => exact orderly.same_records rfl rfl orderly.named orderly.quiet
  | posts pssh running missing => exact orderly.posts pssh running missing
  | takes pssh postedRuns idle posted =>
    refine orderly.same_records rfl ?_ trivial orderly.quiet
    simp [DrmSessionManager.inFlight, idle, posted]
  | opens pssh result opening named =>
    cases result with
    | none =>
      refine orderly.same_records rfl ?_ trivial orderly.quiet
      simp [DrmSessionManager.openReturns, DrmSessionManager.call, DrmSessionManager.inFlight,
        opening]
    | some sessionId =>
      refine orderly.same_records rfl ?_ (fun empty => named (congrArg some empty)) orderly.quiet
      simp [DrmSessionManager.openReturns, DrmSessionManager.call, DrmSessionManager.inFlight,
        opening]
  | fetches pssh sessionId ok fetching =>
    have named := orderly.named
    rw [fetching] at named
    cases ok with
    | false =>
      refine orderly.same_records rfl ?_ named orderly.quiet
      simp [DrmSessionManager.fetchReturns, DrmSessionManager.call, DrmSessionManager.inFlight,
        fetching]
    | true =>
      refine orderly.same_records rfl ?_ trivial orderly.quiet
      simp [DrmSessionManager.fetchReturns, DrmSessionManager.call, DrmSessionManager.inFlight,
        fetching]
  | closes pssh sessionId closing =>
    refine orderly.same_records rfl ?_ trivial orderly.quiet
    simp [DrmSessionManager.call, DrmSessionManager.inFlight, closing]
  | stores pssh sessionId storing => exact orderly.stores storing
  | destroys running =>
    refine orderly.same_records rfl rfl orderly.named ?_
    intro records closing
    cases closing
  | stops idle stopping empty =>
    have none : manager.inFlight = [] := by simp [DrmSessionManager.inFlight, idle, empty]
    refine orderly.same_records rfl rfl orderly.named ?_
    intro records closing
    cases closing
    refine ⟨none, ?_⟩
    intro record member
    have finished := orderly.finished record member
    rw [none] at finished
    exact finished.resolve_right List.not_mem_nil
  | closesNext record records closing =>
    have quiet := orderly.quiet _ closing
    refine orderly.same_records rfl rfl orderly.named ?_
    intro left closing
    cases closing
    exact ⟨quiet.1, fun later member => quiet.2 later (List.mem_cons_of_mem record member)⟩

theorem attemptsSucceed_cons {call : CdmCall} {calls : List CdmCall} :
    AttemptsSucceed (call :: calls) ↔ call.Succeeds ∧ AttemptsSucceed calls := by
  simp [AttemptsSucceed]

theorem Balanced.outstanding {manager : DrmSessionManager} (balanced : Balanced manager)
    {sessionId : SessionId} (named : sessionId ≠ []) (held : sessionId ∈ manager.held) :
    Outstanding manager.calls sessionId := by
  have balance := balanced.balance sessionId named
  have some := List.count_pos_iff.mpr held
  unfold Outstanding
  omega

theorem Balanced.same_calls {manager next : DrmSessionManager} (balanced : Balanced manager)
    (calls : next.calls = manager.calls)
    (held : ∀ sessionId, sessionId ≠ [] →
      next.held.count sessionId = manager.held.count sessionId)
    (licensed : ∀ record ∈ next.psshSessions, record.2.cdmSessionId ≠ [] →
      .fetchLicense record.2.cdmSessionId record.1 true ∈ manager.calls)
    (storing : next.worker.Licensed manager.calls) (failed : next.Failed ↔ manager.Failed) :
    Balanced next := by
  constructor
  · rw [calls]
    exact balanced.named
  · intro sessionId named
    rw [calls, held sessionId named]
    exact balanced.balance sessionId named
  · rw [calls]
    exact balanced.closes
  · rw [calls]
    exact licensed
  · rw [calls]
    exact storing
  · rw [calls, failed]
    exact balanced.failures

theorem Balanced.called {manager next : DrmSessionManager} (balanced : Balanced manager)
    (call : CdmCall) (calls : next.calls = call :: manager.calls)
    (sessions : next.psshSessions = manager.psshSessions)
    (named : call ≠ .openSession (some []))
    (held : ∀ sessionId, sessionId ≠ [] →
      [call].count (.openSession (some sessionId)) + manager.held.count sessionId =
        [call].count (.closeSession sessionId) + next.held.count sessionId)
    (closes : ∀ sessionId, call = .closeSession sessionId → sessionId ≠ [] →
      sessionId ∈ manager.held)
    (storing : next.worker.Licensed (call :: manager.calls))
    (failures : ¬ AttemptsSucceed (call :: manager.calls) ↔ next.Failed) : Balanced next := by
  constructor
  · rw [calls, List.mem_cons, not_or]
    exact ⟨named.symm, balanced.named⟩
  · intro sessionId present
    have balance := balanced.balance sessionId present
    have change := held sessionId present
    rw [calls, ← List.singleton_append, List.count_append, List.count_append]
    omega
  · intro absent
    rw [calls, List.mem_cons, not_or] at absent
    have earlier := balanced.closes absent.2
    rw [calls]
    cases call with
    | openSession result => exact earlier
    | fetchLicense sessionId pssh ok => exact earlier
    | closeSession sessionId =>
      have present : sessionId ≠ [] := by
        rintro rfl
        exact absent.1 rfl
      exact ⟨balanced.outstanding present (closes sessionId rfl present), earlier⟩
  · intro record member present
    rw [sessions] at member
    rw [calls]
    exact List.mem_cons_of_mem call (balanced.licensed record member present)
  · rw [calls]
    exact storing
  · rw [calls]
    exact failures

theorem records_running {manager : DrmSessionManager}
    (running : ∀ records, manager.destruction ≠ .closing records) :
    manager.records = manager.psshSessions := by
  unfold DrmSessionManager.records
  split
  · next records closing => exact absurd closing (running records)
  · rfl

theorem records_flying {manager : DrmSessionManager} (orderly : Orderly manager) {pssh : Pssh}
    (flying : pssh ∈ manager.inFlight) (records : PsshSessions) :
    manager.destruction ≠ .closing records := by
  intro closing
  rw [(orderly.quiet records closing).1] at flying
  cases flying

theorem Balanced.posts {manager : DrmSessionManager} (balanced : Balanced manager) (pssh : Pssh)
    (running : manager.destruction = .notCalled) :
    Balanced { manager with
      psshSessions := insertRecord pssh {} manager.psshSessions
      postedRuns := manager.postedRuns ++ [pssh] } := by
  have permuted := insertRecord_perm pssh {} manager.psshSessions
  have before : manager.records = manager.psshSessions := by
    simp [DrmSessionManager.records, running]
  have after : { manager with
      psshSessions := insertRecord pssh {} manager.psshSessions
      postedRuns := manager.postedRuns ++ [pssh] }.records =
        insertRecord pssh {} manager.psshSessions := by
    simp [DrmSessionManager.records, running]
  refine balanced.same_calls rfl ?_ ?_ balanced.storing ?_
  · intro sessionId named
    simp only [DrmSessionManager.held, List.count_append, before, after]
    rw [(permuted.map _).count_eq]
    simp [named.symm]
  · intro record member named
    rw [permuted.mem_iff, List.mem_cons] at member
    rcases member with rfl | older
    · exact absurd rfl named
    · exact balanced.licensed record older named
  · simp only [DrmSessionManager.Failed, before, after, permuted.mem_iff]
    simp

theorem Balanced.opens {manager : DrmSessionManager} (balanced : Balanced manager) {pssh : Pssh}
    {result : Option SessionId} (opening : manager.worker = .opening pssh)
    (named : result ≠ some []) : Balanced (manager.openReturns pssh result) := by
  cases result with
  | none =>
    refine balanced.called (.openSession none) rfl rfl (by simp) ?_ (by simp) ?_ ?_
    · intro sessionId present
      simp [DrmSessionManager.held, DrmSessionManager.openReturns, DrmSessionManager.call,
        DrmSessionManager.records, WorkerPoint.held, opening, present.symm]
    · exact fun present => absurd rfl present
    · simp [attemptsSucceed_cons, CdmCall.Succeeds, DrmSessionManager.Failed,
        DrmSessionManager.openReturns, WorkerPoint.Failed]
  | some sessionId =>
    refine balanced.called (.openSession (some sessionId)) rfl rfl (by simpa using named) ?_
      (by simp) trivial ?_
    · intro other present
      simp [DrmSessionManager.held, DrmSessionManager.openReturns, DrmSessionManager.call,
        DrmSessionManager.records, WorkerPoint.held, opening, List.count_cons]
      omega
    · rw [attemptsSucceed_cons, not_and_or, balanced.failures]
      simp [CdmCall.Succeeds, DrmSessionManager.Failed, DrmSessionManager.openReturns,
        DrmSessionManager.call, DrmSessionManager.records, WorkerPoint.Failed, opening]

theorem Balanced.fetches {manager : DrmSessionManager} (balanced : Balanced manager) {pssh : Pssh}
    {sessionId : SessionId} (named : sessionId ≠ []) (ok : Bool)
    (fetching : manager.worker = .fetching pssh sessionId) :
    Balanced (manager.fetchReturns pssh sessionId ok) := by
  cases ok with
  | false =>
    refine balanced.called (.fetchLicense sessionId pssh false) rfl rfl (by simp) ?_ (by simp)
      trivial ?_
    · intro other present
      simp [DrmSessionManager.held, DrmSessionManager.fetchReturns, DrmSessionManager.call,
        DrmSessionManager.records, WorkerPoint.held, fetching]
    · simp [attemptsSucceed_cons, CdmCall.Succeeds, DrmSessionManager.Failed,
        DrmSessionManager.fetchReturns, WorkerPoint.Failed]
  | true =>
    refine balanced.called (.fetchLicense sessionId pssh true) rfl rfl (by simp) ?_ (by simp) ?_ ?_
    · intro other present
      simp [DrmSessionManager.held, DrmSessionManager.fetchReturns, DrmSessionManager.call,
        DrmSessionManager.records, WorkerPoint.held, fetching]
    · exact fun _ => List.mem_cons_self
    · rw [attemptsSucceed_cons, not_and_or, balanced.failures]
      simp [CdmCall.Succeeds, DrmSessionManager.Failed, DrmSessionManager.fetchReturns,
        DrmSessionManager.call, DrmSessionManager.records, WorkerPoint.Failed, fetching, named]

theorem Balanced.closing {manager : DrmSessionManager} (balanced : Balanced manager) {pssh : Pssh}
    {sessionId : SessionId} (closing : manager.worker = .closing pssh sessionId) :
    Balanced { manager.call (.closeSession sessionId) with worker := .storing pssh [] } := by
  refine balanced.called (.closeSession sessionId) rfl rfl (by simp) ?_ ?_ ?_ ?_
  · intro other present
    simp [DrmSessionManager.held, DrmSessionManager.call, DrmSessionManager.records,
      WorkerPoint.held, closing, List.count_cons, present.symm]
    omega
  · intro other same present
    cases same
    simp [DrmSessionManager.held, WorkerPoint.held, closing]
  · exact fun present => absurd rfl present
  · rw [attemptsSucceed_cons, not_and_or, balanced.failures]
    simp [DrmSessionManager.Failed, WorkerPoint.Failed, closing]

theorem Balanced.stores {manager : DrmSessionManager} (balanced : Balanced manager)
    (orderly : Orderly manager) {pssh : Pssh} {sessionId : SessionId}
    (storing : manager.worker = .storing pssh sessionId) :
    Balanced (manager.storeResult pssh sessionId) := by
  have flying : pssh ∈ manager.inFlight := by simp [inFlight_storing storing]
  have recorded := orderly.pending pssh flying
  obtain ⟨before, after, split, -, stored⟩ :=
    storeResult_split orderly.distinct recorded sessionId
  have running := records_flying orderly flying
  have older : manager.records = manager.psshSessions := records_running running
  have newer : (manager.storeResult pssh sessionId).records =
      (manager.storeResult pssh sessionId).psshSessions := records_running running
  have license := balanced.storing
  rw [storing] at license
  refine balanced.same_calls rfl ?_ ?_ trivial ?_
  · intro other named
    simp only [DrmSessionManager.held, older, newer, stored, split, storing, WorkerPoint.held]
    simp [DrmSessionManager.storeResult, List.count_cons, named.symm]
    omega
  · intro record member named
    rw [stored, List.mem_append, List.mem_cons] at member
    by_cases same : record = (pssh, { cdmSessionId := sessionId, signaled := true })
    · subst same
      exact license named
    · refine balanced.licensed record ?_ named
      rw [split]
      simpa [same] using member.imp id fun last => .inr (last.resolve_left same)
  · simp only [DrmSessionManager.Failed, older, newer, stored, split, storing, WorkerPoint.Failed]
    simp only [DrmSessionManager.storeResult, List.mem_append, List.mem_cons, or_and_right,
      exists_or, exists_eq_left, true_and, false_and, false_or, Bool.false_eq_true]
    exact or_congr_right or_left_comm

theorem Balanced.closesNext {manager : DrmSessionManager} (balanced : Balanced manager)
    (orderly : Orderly manager) {record : Pssh × CdmSessionContext} {records : PsshSessions}
    (closing : manager.destruction = .closing (record :: records)) :
    Balanced { manager.call (.closeSession record.2.cdmSessionId) with
      destruction := .closing records } := by
  have signaled := (orderly.quiet _ closing).2 record List.mem_cons_self
  refine balanced.called (.closeSession record.2.cdmSessionId) rfl rfl (by simp) ?_ ?_ ?_ ?_
  · intro other present
    simp [DrmSessionManager.held, DrmSessionManager.call, DrmSessionManager.records, closing,
      List.count_cons]
    omega
  · intro other same present
    cases same
    simp [DrmSessionManager.held, DrmSessionManager.records, closing]
  · have storing := balanced.storing
    cases idle : manager.worker with
    | storing pssh sessionId =>
      rw [idle] at storing
      simp only [DrmSessionManager.call, idle]
      exact fun named => List.mem_cons_of_mem _ (storing named)
    | _ => simp [DrmSessionManager.call, idle, WorkerPoint.Licensed]
  · rw [attemptsSucceed_cons, not_and_or, balanced.failures]
    simp only [CdmCall.Succeeds, not_true_eq_false, false_or, DrmSessionManager.Failed,
      DrmSessionManager.call, DrmSessionManager.records, closing, List.mem_cons,
      CdmCall.closeSession.injEq, exists_eq_or_imp, signaled, true_and]
    tauto

theorem Balanced.moves {manager next : DrmSessionManager} (balanced : Balanced manager)
    (orderly : Orderly manager) (moves : Moves manager next) : Balanced next := by
  cases moves with
  | waits waiting =>
    exact balanced.same_calls rfl (fun _ _ => rfl) balanced.licensed balanced.storing .rfl
  | posts pssh running missing => exact balanced.posts pssh running
  | takes pssh postedRuns idle posted =>
    refine balanced.same_calls rfl ?_ balanced.licensed trivial ?_
    · intro sessionId named
      simp [DrmSessionManager.held, DrmSessionManager.records, WorkerPoint.held, idle]
    · simp [DrmSessionManager.Failed, DrmSessionManager.records, WorkerPoint.Failed, idle]
  | opens pssh result opening named => exact balanced.opens opening named
  | fetches pssh sessionId ok fetching =>
    have named := orderly.named
    rw [fetching] at named
    exact balanced.fetches named ok fetching
  | closes pssh sessionId closing => exact balanced.closing closing
  | stores pssh sessionId storing => exact balanced.stores orderly storing
  | destroys running =>
    refine balanced.same_calls rfl ?_ balanced.licensed balanced.storing ?_
    · intro sessionId named
      simp [DrmSessionManager.held, DrmSessionManager.records, running]
    · simp [DrmSessionManager.Failed, DrmSessionManager.records, running]
  | stops idle stopping empty =>
    refine balanced.same_calls rfl ?_ balanced.licensed balanced.storing ?_
    · intro sessionId named
      simp [DrmSessionManager.held, DrmSessionManager.records, stopping]
    · simp [DrmSessionManager.Failed, DrmSessionManager.records, stopping]
  | closesNext record records closing => exact balanced.closesNext orderly closing

theorem reachable_balanced {manager : DrmSessionManager}
    (reachable : Reachable sessionSystem manager) : Orderly manager ∧ Balanced manager := by
  refine reachable.invariant (fun manager => Orderly manager ∧ Balanced manager) ?_ ?_
  · rintro manager ⟨decoderCallbacks, rfl⟩
    constructor
    · constructor <;> simp [DrmSessionManager.inFlight, WorkerPoint.Named]
    · constructor <;>
        simp [DrmSessionManager.held, DrmSessionManager.records, WorkerPoint.held,
          ClosesOutstanding, WorkerPoint.Licensed, AttemptsSucceed, DrmSessionManager.Failed,
          WorkerPoint.Failed]
  · rintro manager op next ⟨orderly, balanced⟩ ⟨named, returned, step⟩
    have moves := step_moves named step
    exact ⟨orderly.moves moves, balanced.moves orderly moves⟩

theorem Balanced.closedOnce {manager : DrmSessionManager} (balanced : Balanced manager)
    (orderly : Orderly manager) (destroyed : manager.destroyed) : ClosedOnce manager.calls := by
  have idle : manager.worker = .idle := by
    have empty := (orderly.quiet [] destroyed).1
    unfold DrmSessionManager.inFlight at empty
    cases point : manager.worker with
    | idle => rfl
    | _ => simp [point] at empty
  have released : manager.held = [] := by
    have left : manager.records = [] := by
      unfold DrmSessionManager.records
      rw [show manager.destruction = .closing [] from destroyed]
    simp [DrmSessionManager.held, idle, left, WorkerPoint.held]
  intro sessionId opened
  have named : sessionId ≠ [] := by
    rintro rfl
    exact balanced.named opened
  have balance := balanced.balance sessionId named
  rw [released] at balance
  simpa using balance.symm

theorem not_closesOutstanding {calls : List CdmCall} (named : .openSession (some []) ∉ calls)
    (closed : .closeSession [] ∈ calls) : ¬ ClosesOutstanding calls := by
  induction calls with
  | nil => cases closed
  | cons call earlier ih =>
    simp only [List.mem_cons, not_or] at named
    cases call with
    | openSession result => exact ih named.2 (by simpa using closed)
    | fetchLicense sessionId pssh ok => exact ih named.2 (by simpa using closed)
    | closeSession sessionId =>
      rintro ⟨outstanding, closes⟩
      by_cases empty : sessionId = []
      · subst empty
        have never := List.count_eq_zero.mpr named.2
        unfold Outstanding at outstanding
        omega
      · refine ih named.2 ?_ closes
        simpa [Ne.symm empty] using closed

theorem Balanced.closesOutstanding_iff {manager : DrmSessionManager} (balanced : Balanced manager)
    (orderly : Orderly manager) (destroyed : manager.destroyed) :
    ClosesOutstanding manager.calls ↔ AttemptsSucceed manager.calls := by
  have left : manager.records = [] := by
    unfold DrmSessionManager.records
    rw [show manager.destruction = .closing [] from destroyed]
  have idle : ¬ manager.worker.Failed := by
    have empty := (orderly.quiet [] destroyed).1
    unfold DrmSessionManager.inFlight at empty
    cases point : manager.worker with
    | idle => exact id
    | _ => simp [point] at empty
  have failures : ¬ AttemptsSucceed manager.calls ↔ .closeSession [] ∈ manager.calls := by
    rw [balanced.failures]
    simp [DrmSessionManager.Failed, left, idle]
  constructor
  · intro closes
    by_contra failed
    exact not_closesOutstanding balanced.named (failures.mp failed) closes
  · intro succeed
    refine balanced.closes ?_
    intro closed
    exact failures.mpr closed succeed

theorem join_true {manager next : DrmSessionManager} {pssh : Pssh}
    (joins : manager.join pssh = .ok (some true, next)) :
    next = manager ∧
      ∃ context, (pssh, context) ∈ manager.psshSessions ∧ context.cdmSessionId ≠ [] := by
  unfold DrmSessionManager.join at joins
  split at joins
  · cases joins
  next context found =>
    split at joins
    · next present =>
      cases joins
      exact ⟨rfl, context, find_mem found, by simpa using present⟩
    · cases joins

theorem resumeJoin_true {manager next : DrmSessionManager} {pssh : Pssh}
    (joins : manager.resumeJoin pssh = (some true, next)) :
    next = { manager with waiting := manager.waiting.erase pssh } ∧
      ∃ context, (pssh, context) ∈ manager.psshSessions ∧ context.cdmSessionId ≠ [] := by
  unfold DrmSessionManager.resumeJoin at joins
  dsimp only at joins
  split at joins
  · cases joins
  next context found =>
    obtain ⟨present, rfl⟩ := Prod.mk.inj joins
    exact ⟨rfl, context, find_mem found, by simpa using present⟩

def JoinsTrue (manager : DrmSessionManager) (pssh : Pssh) (next : DrmSessionManager) : Prop :=
  manager.step (.join pssh) = some (.ok (some true, next)) ∨
    manager.step (.resumeJoin pssh) = some (.ok (some true, next))

theorem JoinsTrue.recorded {manager next : DrmSessionManager} {pssh : Pssh}
    (joins : JoinsTrue manager pssh next) :
    manager.destruction = .notCalled ∧ next.calls = manager.calls ∧
      ∃ context, (pssh, context) ∈ manager.psshSessions ∧ context.cdmSessionId ≠ [] := by
  cases running : manager.destruction with
  | notCalled =>
    rcases joins with joins | resumes
    · simp only [DrmSessionManager.step, running] at joins
      obtain ⟨rfl, recorded⟩ := join_true (Option.some.inj joins)
      exact ⟨rfl, rfl, recorded⟩
    · simp only [DrmSessionManager.step, running] at resumes
      split at resumes
      · obtain ⟨rfl, recorded⟩ := resumeJoin_true (Except.ok.inj (Option.some.inj resumes))
        exact ⟨rfl, rfl, recorded⟩
      · cases resumes
  | stopping => simp [JoinsTrue, DrmSessionManager.step, running] at joins
  | closing records => simp [JoinsTrue, DrmSessionManager.step, running] at joins

theorem JoinsTrue.licensed {manager next : DrmSessionManager} {pssh : Pssh}
    (joins : JoinsTrue manager pssh next) (balanced : Balanced manager) :
    Licensed next.calls pssh := by
  obtain ⟨running, calls, context, recorded, named⟩ := joins.recorded
  have held : context.cdmSessionId ∈ manager.held := by
    simp only [DrmSessionManager.held, DrmSessionManager.records, running]
    exact List.mem_append_right _ (List.mem_map.mpr ⟨(pssh, context), recorded, rfl⟩)
  rw [calls]
  exact ⟨context.cdmSessionId, balanced.licensed (pssh, context) recorded named,
    balanced.outstanding named held⟩

/-- In every reachable state each PSSH has at most one attempt in flight, and a Join that returns
true finds an open session with a license. When the destructor has returned, every opened session
has been closed once; every close was of an open session exactly if no attempt has failed. -/
theorem drmSessionManager_balance {manager : DrmSessionManager}
    (reachable : Reachable sessionSystem manager) :
    (∀ pssh, manager.inFlight.count pssh ≤ 1) ∧
      (∀ pssh next, JoinsTrue manager pssh next → Licensed next.calls pssh) ∧
      (manager.destroyed → ClosedOnce manager.calls ∧
        (ClosesOutstanding manager.calls ↔ AttemptsSucceed manager.calls)) := by
  obtain ⟨orderly, balanced⟩ := reachable_balanced reachable
  refine ⟨?_, ?_, ?_⟩
  · intro pssh
    exact List.nodup_iff_count_le_one.mp orderly.single pssh
  · intro pssh next joins
    exact joins.licensed balanced
  · intro destroyed
    exact ⟨balanced.closedOnce orderly destroyed, balanced.closesOutstanding_iff orderly destroyed⟩

theorem drmSessionManager_balance_shared :
    ∃ manager : DrmSessionManager, manager.destroyed ∧
      manager.calls = [.closeSession [7], .fetchLicense [7] [1] true, .openSession (some [7])] ∧
      (∀ pssh, manager.inFlight.count pssh ≤ 1) ∧
      (∀ pssh next, JoinsTrue manager pssh next → Licensed next.calls pssh) ∧
      (manager.destroyed → ClosedOnce manager.calls ∧
        (ClosesOutstanding manager.calls ↔ AttemptsSucceed manager.calls)) := by
  have start := Reachable.start sessionSystem ⟨some ⟨true, true, true⟩, rfl⟩
  have requested := start.next (.request [1]) ⟨trivial, none, rfl⟩
  have again := requested.next (.request [1]) ⟨trivial, none, rfl⟩
  have joining := again.next (.join [1]) ⟨trivial, none, rfl⟩
  have running := joining.next .runTask ⟨trivial, none, rfl⟩
  have opened := running.next (.openReturns (some [7])) ⟨nofun, none, rfl⟩
  have fetched := opened.next (.fetchReturns true) ⟨trivial, none, rfl⟩
  have stored := fetched.next .storeResult ⟨trivial, none, rfl⟩
  have joined := stored.next (.resumeJoin [1]) ⟨trivial, some true, rfl⟩
  have stopping := joined.next .destroy ⟨trivial, none, rfl⟩
  have stopped := stopping.next .stopped ⟨trivial, none, rfl⟩
  have closed := stopped.next .closeNext ⟨trivial, none, rfl⟩
  refine ⟨_, ?_, ?_, drmSessionManager_balance closed⟩
  · rfl
  · rfl

/-- The destructor closes a session for every record, also for one whose attempt has failed. -/
theorem drmSessionManager_closes_unopened :
    ∃ manager : DrmSessionManager, Reachable sessionSystem manager ∧ manager.destroyed ∧
      manager.calls = [.closeSession [], .openSession none] ∧ ¬ ClosesOutstanding manager.calls := by
  have start := Reachable.start sessionSystem ⟨some ⟨true, true, true⟩, rfl⟩
  have requested := start.next (.request [1]) ⟨trivial, none, rfl⟩
  have running := requested.next .runTask ⟨trivial, none, rfl⟩
  have failed := running.next (.openReturns none) ⟨nofun, none, rfl⟩
  have stored := failed.next .storeResult ⟨trivial, none, rfl⟩
  have stopping := stored.next .destroy ⟨trivial, none, rfl⟩
  have stopped := stopping.next .stopped ⟨trivial, none, rfl⟩
  have closed := stopped.next .closeNext ⟨trivial, none, rfl⟩
  refine ⟨_, closed, rfl, rfl, ?_⟩
  change ¬ ClosesOutstanding [.closeSession [], .openSession none]
  rintro ⟨outstanding, -⟩
  simp [Outstanding] at outstanding

end NDash.Drm

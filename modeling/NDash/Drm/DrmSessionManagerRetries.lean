import NDash.Drm.DrmSessionManagerBalance

set_option autoImplicit false

namespace NDash.Drm

open Machine

namespace DrmSessionManager

def Configured (manager : DrmSessionManager) : Prop :=
  ∃ callbacks, manager.decoderCallbacks = some callbacks ∧
    callbacks.openCdmSession = true ∧ callbacks.fetchLicense = true

/-- There is no session with a license and no attempt under way: the previous attempt, if there was
one, has failed. -/
structure Retriable (manager : DrmSessionManager) (pssh : Pssh) : Prop where
  running : manager.destruction = .notCalled
  unlicensed : ∀ context, manager.find pssh = some context → context.cdmSessionId = []
  landed : pssh ∉ manager.inFlight

structure StartsAttempt (manager : DrmSessionManager) (pssh : Pssh) : Prop where
  posted : (manager.request pssh).postedRuns = manager.postedRuns ++ [pssh]
  joins : ∀ ops final, Run sessionSystem (manager.request pssh) ops final → pssh ∈ final.inFlight →
    (final.destruction = .notCalled → ∃ next, final.join pssh = .ok (none, next)) ∧
      final.step (.resumeJoin pssh) = none

def keys (manager : DrmSessionManager) : List Pssh := manager.psshSessions.map Prod.fst

variable {manager next : DrmSessionManager} {pssh : Pssh}

theorem find_eq_none_iff : manager.find pssh = none ↔ pssh ∉ manager.keys := by
  refine ⟨not_mem_of_find, fun absent => ?_⟩
  cases found : manager.find pssh with
  | none => rfl
  | some context => exact absurd (List.mem_map_of_mem (find_mem found)) absent

theorem request_some {context : CdmSessionContext} (found : manager.find pssh = some context) :
    manager.request pssh = manager := by
  unfold request
  rw [found]
  split
  · rfl
  · split
    · rfl
    · split <;> rfl

theorem request_none (configured : manager.Configured) (missing : manager.find pssh = none) :
    manager.request pssh = { manager with
      psshSessions := insertRecord pssh {} manager.psshSessions
      postedRuns := manager.postedRuns ++ [pssh] } := by
  obtain ⟨callbacks, set, opens, fetches⟩ := configured
  simp only [request, set, opens, fetches, missing, Bool.not_true, Bool.false_eq_true, if_false]

theorem mem_keys_request (configured : manager.Configured) (other : Pssh) :
    other ∈ (manager.request pssh).keys ↔ other ∈ manager.keys ∨ other = pssh := by
  cases found : manager.find pssh with
  | none =>
    rw [request_none configured found]
    unfold keys
    rw [((insertRecord_perm pssh {} manager.psshSessions).map Prod.fst).mem_iff]
    simp [or_comm]
  | some context =>
    have member : pssh ∈ manager.keys := List.mem_map_of_mem (find_mem found)
    rw [request_some found]
    refine ⟨.inl, ?_⟩
    rintro (here | rfl)
    · exact here
    · exact member

theorem keys_storeResult (sessionId : SessionId) :
    (manager.storeResult pssh sessionId).keys = manager.keys := by
  unfold keys storeResult
  rw [List.map_map]
  refine List.map_congr_left fun record _ => ?_
  dsimp only [Function.comp_apply]
  split <;> rfl

theorem moves_decoderCallbacks (moves : Moves manager next) :
    next.decoderCallbacks = manager.decoderCallbacks := by
  cases moves with
  | opens pssh result => cases result <;> rfl
  | fetches pssh sessionId ok => cases ok <;> rfl
  | _ => rfl

theorem Configured.of_moves (configured : manager.Configured) (moves : Moves manager next) :
    next.Configured := by
  unfold Configured
  rw [moves_decoderCallbacks moves]
  exact configured

theorem psshSessions_join {returned : Option Bool}
    (joins : manager.join pssh = .ok (returned, next)) :
    next.psshSessions = manager.psshSessions := by
  unfold join at joins
  split at joins
  · cases joins
  · split at joins <;> cases joins <;> rfl

theorem psshSessions_resumeJoin (manager : DrmSessionManager) (pssh : Pssh) :
    (manager.resumeJoin pssh).2.psshSessions = manager.psshSessions := by
  unfold resumeJoin
  dsimp only
  split <;> rfl

theorem step_keys {op : SessionOp} {returned : Option Bool} (configured : manager.Configured)
    (step : manager.step op = some (.ok (returned, next))) (other : Pssh) :
    other ∈ next.keys ↔ other ∈ manager.keys ∨ op = .request other := by
  have kept {op : SessionOp} {next : DrmSessionManager} (notRequest : ∀ pssh, op ≠ .request pssh)
      (same : next.psshSessions = manager.psshSessions) :
      other ∈ next.keys ↔ other ∈ manager.keys ∨ op = .request other := by
    rw [keys, same, or_iff_left (notRequest other)]
    rfl
  unfold DrmSessionManager.step at step
  split at step
  next pssh _ =>
    cases step
    rw [mem_keys_request configured, SessionOp.request.injEq]
    exact or_congr_right eq_comm
  next => exact kept nofun (psshSessions_join (Option.some.inj step))
  next pssh _ =>
    split at step
    · have same := psshSessions_resumeJoin manager pssh
      rw [Except.ok.inj (Option.some.inj step)] at same
      exact kept nofun same
    · cases step
  next =>
    split at step
    · cases step
    · cases step
      exact kept nofun rfl
  next result pssh _ =>
    cases step
    refine kept nofun ?_
    cases result <;> rfl
  next ok pssh sessionId _ =>
    cases step
    refine kept nofun ?_
    cases ok <;> rfl
  next =>
    obtain ⟨closed, calls, equal⟩ := map_ok (Option.some.inj step)
    cases callClose_ok calls
    cases equal
    exact kept nofun rfl
  next pssh sessionId _ =>
    cases step
    rw [keys_storeResult, or_iff_left nofun]
  next =>
    split at step
    · cases step
      exact kept nofun rfl
    · cases step
  next =>
    split at step
    · cases step
      exact kept nofun rfl
    · cases step
  next =>
    obtain ⟨closed, calls, equal⟩ := map_ok (Option.some.inj step)
    cases callClose_ok calls
    cases equal
    exact kept nofun rfl
  · cases step

theorem run_keys {ops : List SessionOp} {final : DrmSessionManager}
    (run : Run sessionSystem manager ops final) (configured : manager.Configured) (pssh : Pssh) :
    pssh ∈ final.keys ↔ pssh ∈ manager.keys ∨ .request pssh ∈ ops := by
  induction run with
  | nil => simp
  | cons step _ ih =>
    obtain ⟨named, returned, step⟩ := step
    have keys := step_keys configured step pssh
    rw [ih (configured.of_moves (step_moves named step)), keys, List.mem_cons, or_assoc]
    exact or_congr_right (or_congr_left eq_comm)

theorem find_inFlight (orderly : Orderly manager) (flying : pssh ∈ manager.inFlight) :
    manager.find pssh = some {} := by
  have recorded := orderly.pending pssh flying
  cases found : manager.find pssh with
  | none => exact absurd (List.mem_map_of_mem recorded) (not_mem_of_find found)
  | some context =>
    have same := List.inj_on_of_nodup_map orderly.distinct recorded (find_mem found) rfl
    cases same
    rfl

theorem join_inFlight (orderly : Orderly manager) (flying : pssh ∈ manager.inFlight) :
    (manager.destruction = .notCalled → ∃ next, manager.join pssh = .ok (none, next)) ∧
      manager.step (.resumeJoin pssh) = none := by
  have found := find_inFlight orderly flying
  constructor
  · intro _
    refine ⟨{ manager with waiting := pssh :: manager.waiting }, ?_⟩
    simp [join, found]
  · cases destruction : manager.destruction <;> simp [DrmSessionManager.step, destruction, found]

theorem Configured.start {start manager : DrmSessionManager} {ops : List SessionOp}
    (run : Run sessionSystem start ops manager) (configured : manager.Configured) :
    start.Configured := by
  induction run with
  | nil => exact configured
  | cons step _ ih =>
    obtain ⟨named, returned, step⟩ := step
    unfold Configured
    rw [← moves_decoderCallbacks (step_moves named step)]
    exact ih configured

end DrmSessionManager

open DrmSessionManager

/-- Request starts an attempt, and later Joins wait for it, exactly for a PSSH that has not been
requested before: one whose attempt has failed is never attempted again. -/
theorem drmSessionManager_retries_iff {start manager : DrmSessionManager} {ops : List SessionOp}
    (starts : sessionSystem.Start start) (run : Run sessionSystem start ops manager)
    (configured : manager.Configured) {pssh : Pssh} (retriable : manager.Retriable pssh) :
    manager.StartsAttempt pssh ↔ .request pssh ∉ ops := by
  have reachable : Reachable sessionSystem manager := ⟨start, ops, starts, run⟩
  have keys := run_keys run (configured.start run) pssh
  obtain ⟨decoderCallbacks, rfl⟩ := starts
  have unrecorded : .request pssh ∉ ops ↔ manager.find pssh = none := by
    rw [find_eq_none_iff, keys]
    simp [DrmSessionManager.keys]
  rw [unrecorded]
  constructor
  · intro attempt
    cases found : manager.find pssh with
    | none => rfl
    | some context =>
      have posted := attempt.posted
      rw [request_some found] at posted
      simp at posted
  · intro missing
    refine ⟨by rw [request_none configured missing], ?_⟩
    intro later final further flying
    have requested : sessionSystem.Step manager (.request pssh) (manager.request pssh) :=
      ⟨trivial, none, by simp [DrmSessionManager.step, retriable.running]⟩
    have orderly := (reachable_balanced ((reachable.next _ requested).run further)).1
    exact join_inFlight orderly flying

namespace Sample

def manager : DrmSessionManager := { decoderCallbacks := some ⟨true, true, true⟩ }

theorem run_failed : ∃ failed, Run sessionSystem manager
    [.request [1], .runTask, .openReturns none, .storeResult] failed ∧
      failed.psshSessions = [([1], { signaled := true })] ∧ failed.inFlight = [] ∧
      failed.Configured ∧ failed.destruction = .notCalled := by
  have requested : sessionSystem.Step manager (.request [1]) _ := ⟨trivial, none, rfl⟩
  refine ⟨_, .cons requested (.cons ⟨trivial, none, rfl⟩ (.cons ⟨nofun, none, rfl⟩
    (.cons ⟨trivial, none, rfl⟩ (.nil _)))), rfl, rfl, ⟨_, rfl, rfl, rfl⟩, rfl⟩

end Sample

theorem drmSessionManager_attempts_other :
    ∃ manager : DrmSessionManager, Reachable sessionSystem manager ∧ manager.StartsAttempt [2] := by
  obtain ⟨failed, run, records, landed, configured, running⟩ := Sample.run_failed
  have starts : sessionSystem.Start Sample.manager := ⟨_, rfl⟩
  have retriable : failed.Retriable [2] := by
    refine ⟨running, ?_, by simp [landed]⟩
    intro context found
    rw [DrmSessionManager.find, records] at found
    cases found
  exact ⟨failed, ⟨_, _, starts, run⟩,
    (drmSessionManager_retries_iff starts run configured retriable).mpr (by decide)⟩

/-- The attempt has failed and is not made again. -/
theorem drmSessionManager_never_retries :
    ∃ manager : DrmSessionManager, Reachable sessionSystem manager ∧ manager.Configured ∧
      manager.Retriable [1] ∧ ¬ manager.StartsAttempt [1] := by
  obtain ⟨failed, run, records, landed, configured, running⟩ := Sample.run_failed
  have found : failed.find [1] = some { signaled := true } := by
    rw [DrmSessionManager.find, records]
    rfl
  refine ⟨failed, ⟨_, _, ⟨_, rfl⟩, run⟩, configured, ⟨running, ?_, by simp [landed]⟩, ?_⟩
  · intro context other
    rw [found] at other
    cases other
    rfl
  · intro attempt
    have posted := attempt.posted
    rw [request_some found] at posted
    simp at posted

end NDash.Drm

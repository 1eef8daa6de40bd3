import NDash.Upstream.CurlDataSourcePipe

set_option autoImplicit false

namespace NDash.Upstream

open Machine

def LoaderPoint.blocked : LoaderPoint → Bool
  | .reading _ false => true
  | _ => false

def CurlPoint.blocked : CurlPoint → Bool
  | .processing _ _ false | .finishing false => true
  | _ => false

def LoaderPoint.leaving : LoaderPoint → Bool
  | .closing | .awaitingDone => true
  | _ => false

theorem CurlPoint.blocked_wake (point : CurlPoint) : point.wake.blocked = false := by
  cases point <;> rfl

theorem LoaderPoint.blocked_wake (point : LoaderPoint) : point.wake.blocked = false := by
  cases point <;> rfl

theorem LoaderPoint.leaving_wake (point : LoaderPoint) : point.wake.leaving = point.leaving := by
  cases point <;> rfl

section

variable {signalled : Bool} {point : LoaderPoint}

theorem LoaderPoint.blocked_of_signal
    (blocked : (if signalled then point.wake else point).blocked = true) :
    signalled = false ∧ point.blocked = true := by
  cases signalled with
  | false => exact ⟨rfl, blocked⟩
  | true =>
    rw [if_pos rfl, blocked_wake] at blocked
    cases blocked

theorem LoaderPoint.leaving_of_signal
    (leaving : (if signalled then point.wake else point).leaving = true) : point.leaving = true := by
  cases signalled with
  | false => exact leaving
  | true =>
    rw [if_pos rfl, leaving_wake] at leaving
    exact leaving

end

/-- What a blocked thread waits for has not come. A failure is announced when the lock has been
released: until then its wake-up is on the way. -/
structure CurlDataSource.Awake (source : CurlDataSource) : Prop where
  reader : source.loader.blocked = true → source.buffers = [] ∧ source.eof = false ∧
    (source.loadError = true → source.curl = .broadcasting ∨ source.curl = .cancelling)
  space : ∀ unread flag, source.curl = .processing unread flag false →
    source.bytesBuffered = source.maxBufferSize
  drained : source.curl = .finishing false → source.buffers ≠ []
  leaving : source.loader.leaving = true → source.loadError = true
  done : source.loader = .awaitingDone → source.curl.blocked = false
  partly : source.wantFullBuffer = false
  roomy : 0 < source.maxBufferSize

-- The loader has not drained the queue and come back to wait while the curl thread slept.
def KeepsUp (transfer : Transfer) (op : TransferOp) (_next : Transfer) : Prop :=
  op = .resumeBody → 0 < transfer.source.getBufferFree → transfer.source.loadError = false →
    transfer.source.loader.blocked = false

namespace CurlDataSource

variable {source : CurlDataSource}

theorem Awake.readLocked (awake : source.Awake) (bounded : source.Bounded) {readLength : Nat}
    {outcome : Option ReadResult × CurlDataSource}
    (reads : source.readLocked readLength = .ok outcome) : outcome.2.Awake := by
  have partly := awake.partly
  rcases bounded.readLocked readLength with
    ⟨healthy, going, empty, waits⟩ | ⟨-, fails⟩ | ⟨-, -, -, ends⟩ |
    ⟨final, count, -, some, copied, copies⟩
  · rw [waits] at reads
    cases reads
    refine ⟨fun _ => ⟨empty, going, ?_⟩, awake.space, awake.drained, nofun, nofun, partly,
      awake.roomy⟩
    intro failed
    rw [show source.loadError = true from failed] at healthy
    cases healthy
  · rw [fails] at reads
    cases reads
    exact ⟨nofun, awake.space, awake.drained, nofun, nofun, partly,
      awake.roomy⟩
  · rw [ends] at reads
    cases reads
    exact ⟨nofun, awake.space, awake.drained, nofun, nofun, partly,
      awake.roomy⟩
  · rw [copies] at reads
    cases reads
    -- A blocked curl thread has not been signalled, so that nothing was popped.
    have quiet (blocked : (if final.signalReader then source.curl.wake else source.curl).blocked =
        true) : final.signalReader = false := by
      cases signalled : final.signalReader with
      | false => rfl
      | true =>
        rw [signalled, if_pos rfl, CurlPoint.blocked_wake] at blocked
        cases blocked
    refine ⟨nofun, ?_, ?_, nofun, nofun, partly,
      awake.roomy⟩
    · intro unread flag point
      replace point : (if final.signalReader then source.curl.wake else source.curl) = _ := point
      have silent := quiet (by rw [point]; rfl)
      rw [silent, if_neg (by simp)] at point
      exact (copied.silent silent).2.trans (awake.space unread flag point)
    · intro point
      replace point : (if final.signalReader then source.curl.wake else source.curl) = _ := point
      have silent := quiet (by rw [point]; rfl)
      show final.buffers ≠ []
      rw [(copied.silent silent).1]
      exact some

theorem waitForSpace_eq (partly : source.wantFullBuffer = false) (unread : Bytes)
    (bufferWasEmpty : Bool) :
    source.waitForSpace unread bufferWasEmpty =
      { source with
        loader := if bufferWasEmpty then source.loader.wake else source.loader
        curl := .processing unread false false } := by
  cases source
  dsimp only at partly
  subst partly
  cases bufferWasEmpty <;> rfl

theorem finishBody_eq (partly : source.wantFullBuffer = false) (some : source.buffers ≠ [])
    (bufferWasEmpty : Bool) :
    source.finishBody bufferWasEmpty =
      { source with
        loader := if bufferWasEmpty then source.loader.wake else source.loader
        curl := .performing false } := by
  have filled := List.isEmpty_eq_false_iff.mpr some
  cases source
  dsimp only at partly filled
  subst partly
  unfold CurlDataSource.finishBody
  cases bufferWasEmpty with
  | false => rfl
  | true =>
    dsimp only
    rw [filled]
    rfl

theorem Awake.waitForSpace {unread : Bytes} {bufferWasEmpty : Bool}
    (partly : source.wantFullBuffer = false) (roomy : 0 < source.maxBufferSize)
    (healthy : source.loadError = false) (inside : source.loader.leaving = false) (full : source.bytesBuffered = source.maxBufferSize)
    (waiting : source.loader.blocked = true → bufferWasEmpty = false →
      source.buffers = [] ∧ source.eof = false) :
    (source.waitForSpace unread bufferWasEmpty).Awake := by
  have stays {point : LoaderPoint} (away : point.leaving = true)
      (same : (if bufferWasEmpty then source.loader.wake else source.loader) = point) : False := by
    subst same
    rw [LoaderPoint.leaving_of_signal away] at inside
    cases inside
  rw [waitForSpace_eq partly]
  refine ⟨?_, fun _ _ _ => full, nofun, fun away => (stays away rfl).elim,
    fun same => (stays rfl same).elim, partly, roomy⟩
  intro blocked
  obtain ⟨silent, still⟩ := LoaderPoint.blocked_of_signal blocked
  obtain ⟨empty, going⟩ := waiting still silent
  refine ⟨empty, going, ?_⟩
  intro failed
  rw [show source.loadError = true from failed] at healthy
  cases healthy

theorem Awake.finishBody {bufferWasEmpty : Bool} (partly : source.wantFullBuffer = false)
    (roomy : 0 < source.maxBufferSize) (some : source.buffers ≠ []) (leaving : source.loader.leaving = true → source.loadError = true)
    (waiting : source.loader.blocked = true → bufferWasEmpty = true) :
    (source.finishBody bufferWasEmpty).Awake := by
  rw [finishBody_eq partly some]
  refine ⟨?_, nofun, nofun, fun away => leaving (LoaderPoint.leaving_of_signal away), fun _ => rfl,
    partly, roomy⟩
  intro blocked
  obtain ⟨silent, still⟩ := LoaderPoint.blocked_of_signal blocked
  rw [waiting still] at silent
  cases silent

theorem push_ne_nil (source : CurlDataSource) (block : Bytes) : (source.push block).buffers ≠ [] := by
  simp [CurlDataSource.push]

-- `bufferWasEmpty` is right about a loader that waits for the first block.
theorem Awake.fill {unread : Bytes} {bufferWasEmpty : Bool} (awake : source.Awake)
    (bounded : source.Bounded) (active : source.curl ≠ .broadcasting ∧ source.curl ≠ .cancelling)
    (waiting : source.loader.blocked = true → bufferWasEmpty = true) :
    (source.fill unread bufferWasEmpty).Awake := by
  have partly := awake.partly
  rcases bounded.fill unread bufferWasEmpty with
    ⟨failed, refused⟩ | ⟨-, -, -, whole⟩ | ⟨first, rest, healthy, -, -, -, full, part⟩ |
    ⟨healthy, full, waits⟩
  · rw [refused]
    refine ⟨?_, nofun, nofun, awake.leaving, fun _ => rfl, partly, awake.roomy⟩
    intro blocked
    rcases (awake.reader blocked).2.2 failed with point | point
    · exact absurd point active.1
    · exact absurd point active.2
  · rw [whole]
    exact Awake.finishBody partly awake.roomy (source.push_ne_nil unread) awake.leaving waiting
  · have inside : source.loader.leaving = false := by
      rw [Bool.eq_false_iff]
      intro away
      rw [awake.leaving away] at healthy
      cases healthy
    rw [part]
    refine Awake.waitForSpace partly awake.roomy healthy inside full ?_
    intro blocked silent
    rw [waiting blocked] at silent
    cases silent
  · have inside : source.loader.leaving = false := by
      rw [Bool.eq_false_iff]
      intro away
      rw [awake.leaving away] at healthy
      cases healthy
    rw [waits]
    refine Awake.waitForSpace partly awake.roomy healthy inside full ?_
    intro blocked silent
    rw [waiting blocked] at silent
    cases silent

theorem Awake.processBodyData {block : Bytes} (awake : source.Awake) (bounded : source.Bounded)
    (point : source.curl = .performing false) : (source.processBodyData block).Awake := by
  unfold CurlDataSource.processBodyData
  split
  · exact awake
  · refine awake.fill bounded ⟨by rw [point]; nofun, by rw [point]; nofun⟩ ?_
    intro blocked
    rw [(awake.reader blocked).1]
    rfl

theorem Awake.resumeBody {unread : Bytes} {bufferWasEmpty woken : Bool} (awake : source.Awake)
    (bounded : source.Bounded) (point : source.curl = .processing unread bufferWasEmpty woken)
    (prompt : 0 < source.getBufferFree → source.loadError = false → source.loader.blocked = false) :
    (source.resumeBody unread bufferWasEmpty).Awake := by
  have free := bounded.getBufferFree
  have limit := bounded.bounded
  unfold CurlDataSource.resumeBody
  split
  · rename_i full
    simp only [Bool.and_eq_true, decide_eq_true_eq, Bool.not_eq_true'] at full
    have inside : source.loader.leaving = false := by
      rw [Bool.eq_false_iff]
      intro away
      have failed := awake.leaving away
      rw [full.2] at failed
      cases failed
    refine Awake.waitForSpace awake.partly awake.roomy full.2 inside (by omega) ?_
    intro blocked _
    exact ⟨(awake.reader blocked).1, (awake.reader blocked).2.1⟩
  · rename_i space
    simp only [Bool.and_eq_true, decide_eq_true_eq, Bool.not_eq_true', not_and] at space
    refine awake.fill bounded ⟨by rw [point]; nofun, by rw [point]; nofun⟩ ?_
    intro blocked
    exfalso
    have healthy : source.loadError = false := by
      rw [Bool.eq_false_iff]
      intro failed
      rcases (awake.reader blocked).2.2 failed with other | other
      · rw [point] at other
        cases other
      · rw [point] at other
        cases other
    by_cases room : 0 < source.getBufferFree
    · rw [prompt room healthy] at blocked
      cases blocked
    · exact space (by omega) healthy

theorem Awake.drain (awake : source.Awake) : source.drain.Awake := by
  unfold CurlDataSource.drain
  split
  · rename_i more
    simp only [Bool.and_eq_true, Bool.not_eq_true'] at more
    have some : source.buffers ≠ [] := List.isEmpty_eq_false_iff.mp more.1
    refine ⟨fun blocked => absurd (awake.reader blocked).1 some, nofun, fun _ => some, awake.leaving,
      ?_, awake.partly, awake.roomy⟩
    intro leaving
    have failed := awake.leaving (by rw [show source.loader = _ from leaving]; rfl)
    rw [more.2] at failed
    cases failed
  · refine ⟨?_, nofun, nofun, awake.leaving, fun _ => rfl, awake.partly, awake.roomy⟩
    intro blocked
    obtain ⟨empty, going, -⟩ := awake.reader blocked
    exact ⟨empty, going, fun _ => .inl rfl⟩

theorem Awake.signalWriter {point : CurlPoint} {ended : Bool} (awake : source.Awake)
    (moving : point.blocked = false) :
    Awake { source with eof := ended, loader := source.loader.wake, curl := point } := by
  refine ⟨?_, ?_, ?_, ?_, fun _ => moving, awake.partly, awake.roomy⟩
  · intro blocked
    have woken := source.loader.blocked_wake
    rw [show source.loader.wake.blocked = true from blocked] at woken
    cases woken
  · intro unread flag same
    rw [show point = _ from same] at moving
    cases moving
  · intro same
    rw [show point = _ from same] at moving
    cases moving
  · intro away
    exact awake.leaving (source.loader.leaving_wake.symm.trans away)

end CurlDataSource

namespace Transfer

variable {transfer next : Transfer}

theorem note_source (transfer : Transfer) (outcome : Option ReadResult × CurlDataSource) :
    (transfer.note outcome).source = outcome.2 := by
  unfold note
  split <;> rfl

theorem Flows.awake {op : TransferOp} (flows : transfer.Flows) (awake : transfer.source.Awake)
    (steps : transfer.step op = some (.ok next)) (prompt : KeepsUp transfer op next) :
    next.source.Awake := by
  have bounded := flows.bounded
  unfold Transfer.step at steps
  dsimp only at steps
  split at steps
  next outside idle =>
    cases steps
    refine ⟨?_, nofun, nofun, awake.leaving, fun _ => rfl, awake.partly, awake.roomy⟩
    intro blocked
    rw [show transfer.source.loader.blocked = LoaderPoint.blocked .outside by rw [outside]] at blocked
    cases blocked
  next => cases steps
  next readLength _ _ =>
    obtain ⟨result, reads, rfl⟩ := map_ok (Option.some.inj steps)
    rw [note_source]
    unfold CurlDataSource.read at reads
    dsimp only at reads
    split at reads
    · cases reads
      exact awake
    · exact awake.readLocked bounded reads
  next readLength _ =>
    obtain ⟨result, reads, rfl⟩ := map_ok (Option.some.inj steps)
    rw [note_source]
    exact awake.readLocked bounded reads
  next =>
    cases steps
    show transfer.source.close.Awake
    unfold CurlDataSource.close
    split
    · exact ⟨nofun, nofun, nofun, nofun, nofun, rfl, awake.roomy⟩
    · exact ⟨nofun, awake.space, awake.drained, fun _ => rfl, nofun, awake.partly, awake.roomy⟩
  next closing =>
    cases steps
    have moving := transfer.source.curl.blocked_wake
    refine ⟨nofun, ?_, ?_, fun _ => awake.leaving (by rw [closing]; rfl), fun _ => moving,
      awake.partly, awake.roomy⟩
    · intro unread flag same
      rw [show transfer.source.curl.wake = _ from same] at moving
      cases moving
    · intro same
      rw [show transfer.source.curl.wake = _ from same] at moving
      cases moving
  next =>
    cases steps
    exact ⟨nofun, nofun, nofun, nofun, nofun, rfl, awake.roomy⟩
  next point =>
    cases steps
    exact awake.processBodyData bounded point
  next point =>
    cases steps
    exact awake.resumeBody bounded point (prompt rfl)
  next =>
    cases steps
    refine ⟨?_, nofun, nofun, fun _ => rfl, fun _ => rfl, awake.partly, awake.roomy⟩
    intro blocked
    obtain ⟨empty, going, -⟩ := awake.reader blocked
    exact ⟨empty, going, fun _ => .inr rfl⟩
  next =>
    cases steps
    exact awake.signalWriter rfl
  next point =>
    cases steps
    have announced : CurlDataSource.Awake { transfer.source with
        eof := true, loader := transfer.source.loader.wake, curl := transfer.source.curl } :=
      awake.signalWriter (by rw [point]; rfl)
    exact announced.drain
  next =>
    cases steps
    refine ⟨?_, nofun, nofun, fun _ => rfl, fun _ => rfl, awake.partly, awake.roomy⟩
    intro blocked
    obtain ⟨empty, going, -⟩ := awake.reader blocked
    exact ⟨empty, going, fun _ => .inl rfl⟩
  next =>
    cases steps
    exact awake.drain
  next =>
    cases steps
    exact awake.signalWriter rfl
  next => cases steps

end Transfer

theorem transferSystem_awake {maxBufferSize : Nat} (positive : 0 < maxBufferSize)
    (range : maxBufferSize < 18446744073709551616) {transfer : Transfer}
    (reachable : Reachable ((transferSystem maxBufferSize).restrict KeepsUp) transfer) :
    transfer.Flows ∧ transfer.source.Awake := by
  refine Reachable.invariant (fun transfer => transfer.Flows ∧ transfer.source.Awake) ?_ ?_ reachable
  · rintro _ rfl
    exact ⟨transferSystem_flows range (Reachable.start _ rfl), nofun, nofun, nofun, nofun, nofun, rfl,
      positive⟩
  · rintro state op next ⟨flows, awake⟩ ⟨step, prompt⟩
    obtain ⟨after, reached, afterFlows⟩ := flows.step step
    cases reached
    exact ⟨afterFlows, flows.awake awake step prompt⟩

/-- While the loader keeps up, no thread sleeps on what has come, and never both. -/
theorem curlDataSource_wakes (maxBufferSize : Nat) (positive : 0 < maxBufferSize)
    (range : maxBufferSize < 18446744073709551616) (transfer : Transfer)
    (reachable : Reachable ((transferSystem maxBufferSize).restrict KeepsUp) transfer) :
    (∀ readLength, transfer.source.loader = .reading readLength false →
      transfer.source.buffers = [] ∧ transfer.source.eof = false ∧
      (transfer.source.loadError = true →
        transfer.source.curl = .broadcasting ∨ transfer.source.curl = .cancelling)) ∧
    (∀ unread bufferWasEmpty, transfer.source.curl = .processing unread bufferWasEmpty false →
      transfer.source.getBufferFree = 0) ∧
    (transfer.source.curl = .finishing false → transfer.source.buffers ≠ []) ∧
    (transfer.source.loader.blocked = true ∨ transfer.source.loader = .awaitingDone →
      transfer.source.curl.blocked = false) := by
  obtain ⟨flows, awake⟩ := transferSystem_awake positive range reachable
  have bounded := flows.bounded
  have full (unread : Bytes) (flag : Bool)
      (point : transfer.source.curl = .processing unread flag false) :
      transfer.source.getBufferFree = 0 := by
    rw [bounded.getBufferFree, awake.space unread flag point, Nat.sub_self]
  refine ⟨?_, full, awake.drained, ?_⟩
  · intro readLength point
    exact awake.reader (by rw [point]; rfl)
  · rintro (blocked | leaving)
    · obtain ⟨empty, -, -⟩ := awake.reader blocked
      rw [Bool.eq_false_iff]
      intro both
      cases point : transfer.source.curl with
      | idle | performing _ | cancelling | broadcasting | done =>
        rw [point] at both
        cases both
      | processing unread flag woken =>
        cases woken with
        | true =>
          rw [point] at both
          cases both
        | false =>
          have counted := bounded.queued.counted
          rw [empty, awake.space unread flag point] at counted
          exact absurd counted (Nat.ne_of_gt awake.roomy)
      | finishing woken =>
        cases woken with
        | true =>
          rw [point] at both
          cases both
        | false => exact awake.drained point empty
    · exact awake.done leaving

theorem curlDataSource_wakes_prompt :
    ∃ transfer : Transfer, transfer.source.loader = .reading 5 false ∧ transfer.returned = [1, 2, 3] ∧
      (∀ readLength, transfer.source.loader = .reading readLength false →
        transfer.source.buffers = [] ∧ transfer.source.eof = false ∧
        (transfer.source.loadError = true →
          transfer.source.curl = .broadcasting ∨ transfer.source.curl = .cancelling)) ∧
      (∀ unread bufferWasEmpty, transfer.source.curl = .processing unread bufferWasEmpty false →
        transfer.source.getBufferFree = 0) ∧
      (transfer.source.curl = .finishing false → transfer.source.buffers ≠ []) ∧
      (transfer.source.loader.blocked = true ∨ transfer.source.loader = .awaitingDone →
        transfer.source.curl.blocked = false) := by
  have start := Reachable.start ((transferSystem 2).restrict KeepsUp) rfl
  have opened := start.next .open ⟨rfl, nofun⟩
  have first := opened.next (.body [1, 2, 3]) ⟨rfl, nofun⟩
  have second := first.next (.read 5) ⟨rfl, nofun⟩
  have third := second.next .resumeBody ⟨rfl, fun _ _ _ => rfl⟩
  have fourth := third.next (.read 5) ⟨rfl, nofun⟩
  have fifth := fourth.next (.read 5) ⟨rfl, nofun⟩
  exact ⟨_, rfl, rfl, curlDataSource_wakes 2 (by decide) (by decide) _ fifth⟩

def stall : List TransferOp :=
  [.open, .body [1], .body [2, 3, 4], .read 5, .read 5, .resumeBody]

/-- The rest of the block is written without a signal; with the next block both threads wait. -/
theorem curlDataSource_stalls :
    ∃ transfer : Transfer, Run (transferSystem 2) { source := { maxBufferSize := 2 } } stall transfer ∧
      transfer.source.loader = .reading 5 false ∧ transfer.source.buffers = [[3, 4]] ∧
      ∃ next, (transferSystem 2).Step transfer (.body [5]) next ∧
        next.source.loader.blocked = true ∧ next.source.curl.blocked = true := by
  refine ⟨_, .cons rfl (.cons rfl (.cons rfl (.cons rfl (.cons rfl (.cons rfl (.nil _)))))), rfl, rfl,
    _, rfl, rfl, rfl⟩

end NDash.Upstream

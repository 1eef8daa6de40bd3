import NDash.Upstream.CurlDataSourceWakeups

set_option autoImplicit false

namespace NDash.Upstream

open Machine

namespace CurlDataSource

/-- ReadAllToString from its critical section on, until it returns or waits; an error and a response
that is too large give the empty string. -/
def readAllLocked (source : CurlDataSource) (maxLength : Nat) : Option Bytes × CurlDataSource :=
  if source.bytesBuffered < maxLength && !source.eof && !source.loadError then
    (none, { source with loader := .reading maxLength false })
  else if source.loadError || !source.eof then (some [], { source with loader := .outside })
  else
    (some source.buffers.flatten,
      { source with
        loader := .outside
        bytesRead := source.bytesRead + source.bytesBuffered
        bufferHeadPos := 0
        bytesBuffered := 0
        buffers := [] }.signalReader)

def readAllToString (source : CurlDataSource) (maxLength : Nat) :
    Except Fault (Option Bytes × CurlDataSource) :=
  let maxLength := if maxLength = 0 then source.maxBufferSize else maxLength
  if maxLength > source.maxBufferSize then .ok (some [], source)
  else if source.curl = .idle then .ok (some [], source)
  else if source.bytesRead ≠ 0 ∨ source.bufferHeadPos ≠ 0 then .error .checkFailed
  else .ok ({ source with wantFullBuffer := true }.readAllLocked maxLength)

end CurlDataSource

namespace Transfer

def noteAll (transfer : Transfer) (outcome : Option Bytes × CurlDataSource) : Transfer :=
  transfer.note (outcome.1.map ReadResult.bytes, outcome.2)

def stepAll (transfer : Transfer) (op : TransferOp) : Option (Except Fault Transfer) :=
  match op, transfer.source.loader with
  | .read maxLength, .outside =>
    some ((transfer.source.readAllToString maxLength).map transfer.noteAll)
  | .resumeRead, .reading maxLength true =>
    some (.ok (transfer.noteAll (transfer.source.readAllLocked maxLength)))
  | .read _, _ => none
  | .resumeRead, _ => none
  | _, _ => transfer.step op

end Transfer

def TransferOp.ofCurl : TransferOp → Bool
  | .body _ | .resumeBody | .checkCancel | .broadcastCancel => true
  | .complete _ | .resumeComplete | .broadcastWriter => true
  | _ => false

def wholeSystem (maxBufferSize : Nat) : System Transfer TransferOp where
  Start transfer := transfer = { source := { maxBufferSize } }
  Step transfer op next := transfer.stepAll op = some (.ok next)

theorem LoaderPoint.reading_of_signal {signalled : Bool} {point : LoaderPoint} {maxLength : Nat}
    {woken : Bool} (reading : (if signalled then point.wake else point) = .reading maxLength woken) :
    ∃ flag, point = .reading maxLength flag := by
  cases point with
  | reading readLength flag =>
    cases signalled with
    | false => exact ⟨woken, reading⟩
    | true =>
      cases reading
      exact ⟨flag, rfl⟩
  | outside | closing | awaitingDone => cases signalled <;> cases reading

namespace CurlDataSource

variable {source : CurlDataSource}

theorem readAllLocked_cases (source : CurlDataSource) (maxLength : Nat) :
    (source.bytesBuffered < maxLength ∧ source.eof = false ∧ source.loadError = false ∧
      source.readAllLocked maxLength = (none, { source with loader := .reading maxLength false })) ∨
    ((source.loadError = true ∨ source.eof = false) ∧
      source.readAllLocked maxLength = (some [], { source with loader := .outside })) ∨
    (source.loadError = false ∧ source.eof = true ∧
      source.readAllLocked maxLength = (some source.buffers.flatten,
        { source with
          loader := .outside
          bytesRead := source.bytesRead + source.bytesBuffered
          bufferHeadPos := 0
          bytesBuffered := 0
          buffers := []
          curl := source.curl.wake })) := by
  unfold readAllLocked
  cases failed : source.loadError with
  | true => exact .inr (.inl ⟨.inl rfl, by simp⟩)
  | false =>
    cases ended : source.eof with
    | true => exact .inr (.inr ⟨rfl, rfl, by simp [signalReader]⟩)
    | false =>
      by_cases short : source.bytesBuffered < maxLength
      · exact .inl ⟨short, rfl, rfl, by simp [short]⟩
      · exact .inr (.inl ⟨.inr rfl, by simp [short]⟩)

/-- While the loader sleeps in ReadAllToString the curl thread can run: a failure that has not been
announced is about to be, and a curl thread that sleeps has announced the full buffer. -/
structure Listening (source : CurlDataSource) : Prop where
  reader : source.loader.blocked = true → source.eof = false ∧ source.wantFullBuffer = true ∧
    source.curl.blocked = false ∧ source.curl ≠ .idle ∧ source.curl ≠ .done ∧
    (source.loadError = true → source.curl = .broadcasting ∨ source.curl = .cancelling)
  space : ∀ unread flag, source.curl = .processing unread flag false →
    source.bytesBuffered = source.maxBufferSize
  finishing : ∀ woken, source.curl = .finishing woken → source.eof = true
  finished : source.curl = .broadcasting ∨ source.curl = .done →
    source.eof = true ∨ source.loadError = true
  leaving : source.loader.leaving = true → source.loadError = true
  awaited : source.loader = .awaitingDone → source.curl.blocked = false
  length : ∀ maxLength woken, source.loader = .reading maxLength woken →
    maxLength ≤ source.maxBufferSize

theorem Listening.readAllLocked (listening : source.Listening) {maxLength : Nat}
    (small : maxLength ≤ source.maxBufferSize) (full : source.wantFullBuffer = true)
    (active : source.curl ≠ .idle) : (source.readAllLocked maxLength).2.Listening := by
  rcases source.readAllLocked_cases maxLength with
    ⟨short, going, healthy, waits⟩ | ⟨-, fails⟩ | ⟨healthy, ended, whole⟩
  · rw [waits]
    refine ⟨fun _ => ⟨going, full, ?_, active, ?_, fun failed => ?_⟩, listening.space,
      listening.finishing, listening.finished, nofun, nofun, ?_⟩
    · cases point : source.curl with
      | idle | performing _ | cancelling | broadcasting | done => rfl
      | processing unread flag woken =>
        cases woken with
        | true => rfl
        | false =>
          have buffered := listening.space unread flag point
          omega
      | finishing woken =>
        have ended := listening.finishing woken point
        rw [going] at ended
        cases ended
    · intro done
      rcases listening.finished (.inr done) with ended | failed
      · rw [going] at ended
        cases ended
      · rw [healthy] at failed
        cases failed
    · cases healthy.symm.trans failed
    · rintro _ _ ⟨⟩
      exact small
  · rw [fails]
    exact ⟨nofun, listening.space, listening.finishing, listening.finished, nofun, nofun, nofun⟩
  · rw [whole]
    have awake := source.curl.blocked_wake
    refine ⟨nofun, fun unread flag point => ?_, fun woken _ => ended, fun _ => .inl ended, nofun,
      nofun, nofun⟩
    rw [show source.curl.wake = _ from point] at awake
    cases awake

theorem waitForSpace_signals (source : CurlDataSource) (unread : Bytes) (bufferWasEmpty : Bool) :
    ∃ signalled flag : Bool, (signalled = false → source.wantFullBuffer = false) ∧
      source.waitForSpace unread bufferWasEmpty =
        { source with
          loader := if signalled then source.loader.wake else source.loader
          curl := .processing unread flag false } := by
  unfold waitForSpace
  split
  next => exact ⟨true, false, nofun, rfl⟩
  next neither =>
    simp only [Bool.or_eq_true, not_or, Bool.not_eq_true] at neither
    exact ⟨false, bufferWasEmpty, fun _ => neither.2, rfl⟩

theorem finishBody_signals (source : CurlDataSource) (bufferWasEmpty : Bool) :
    ∃ signalled : Bool, source.finishBody bufferWasEmpty =
      { source with
        loader := if signalled then source.loader.wake else source.loader
        curl := .performing false } := by
  unfold finishBody
  dsimp only
  split
  next => exact ⟨true, rfl⟩
  next => exact ⟨false, rfl⟩

theorem Listening.goes {next : CurlDataSource} {signalled refused : Bool}
    (listening : source.Listening)
    (loader : next.loader = if signalled then source.loader.wake else source.loader)
    (curl : next.curl = .performing refused) (ended : next.eof = source.eof)
    (failed : next.loadError = source.loadError)
    (full : next.wantFullBuffer = source.wantFullBuffer)
    (limit : next.maxBufferSize = source.maxBufferSize)
    (active : source.curl ≠ .broadcasting ∧ source.curl ≠ .cancelling) : next.Listening := by
  refine ⟨fun blocked => ?_, ?_, ?_, ?_, fun away => ?_, fun _ => ?_, fun maxLength woken same => ?_⟩
  · rw [loader] at blocked
    obtain ⟨-, still⟩ := LoaderPoint.blocked_of_signal blocked
    obtain ⟨going, wants, -, -, -, announces⟩ := listening.reader still
    refine ⟨ended.trans going, full.trans wants, by rw [curl]; rfl, by simp [curl], by simp [curl],
      fun fails => ?_⟩
    rcases announces (failed.symm.trans fails) with point | point
    · exact absurd point active.1
    · exact absurd point active.2
  · rw [curl]
    nofun
  · rw [curl]
    nofun
  · simp [curl]
  · rw [loader] at away
    rw [failed]
    exact listening.leaving (LoaderPoint.leaving_of_signal away)
  · rw [curl]
    rfl
  · rw [loader] at same
    obtain ⟨flag, reading⟩ := LoaderPoint.reading_of_signal same
    rw [limit]
    exact listening.length maxLength flag reading

-- A curl thread that waits for space has woken a loader that waits for the whole response.
theorem Listening.waitForSpace {unread : Bytes} {bufferWasEmpty : Bool}
    (full : source.bytesBuffered = source.maxBufferSize)
    (waiting : source.loader.blocked = true → source.wantFullBuffer = true)
    (inside : source.loader.leaving = false)
    (length : ∀ maxLength woken, source.loader = .reading maxLength woken →
      maxLength ≤ source.maxBufferSize) :
    (source.waitForSpace unread bufferWasEmpty).Listening := by
  obtain ⟨signalled, flag, silent, waits⟩ := source.waitForSpace_signals unread bufferWasEmpty
  rw [waits]
  refine ⟨fun blocked => ?_, fun _ _ _ => full, nofun, by simp, fun away => ?_, fun done => ?_,
    fun maxLength woken same => ?_⟩
  · obtain ⟨quiet, still⟩ := LoaderPoint.blocked_of_signal blocked
    have part := silent quiet
    rw [waiting still] at part
    cases part
  · have still := LoaderPoint.leaving_of_signal away
    rw [inside] at still
    cases still
  · have away : (if signalled then source.loader.wake else source.loader).leaving = true := by
      rw [show (if signalled then source.loader.wake else source.loader) = _ from done]
      rfl
    have still := LoaderPoint.leaving_of_signal away
    rw [inside] at still
    cases still
  · obtain ⟨before, reading⟩ := LoaderPoint.reading_of_signal same
    exact length maxLength before reading

theorem Listening.inside (listening : source.Listening) (healthy : source.loadError = false) :
    source.loader.leaving = false := by
  rw [Bool.eq_false_iff]
  intro away
  rw [listening.leaving away] at healthy
  cases healthy

theorem Listening.fill {unread : Bytes} {bufferWasEmpty : Bool} (listening : source.Listening)
    (bounded : source.Bounded) (active : source.curl ≠ .broadcasting ∧ source.curl ≠ .cancelling) :
    (source.fill unread bufferWasEmpty).Listening := by
  have waiting (blocked : source.loader.blocked = true) : source.wantFullBuffer = true :=
    (listening.reader blocked).2.1
  rcases bounded.fill unread bufferWasEmpty with
    ⟨-, refused⟩ | ⟨-, -, -, whole⟩ | ⟨first, rest, healthy, -, -, -, full, part⟩ |
    ⟨healthy, full, waits⟩
  · rw [refused]
    have same : source.loader = if false then source.loader.wake else source.loader := rfl
    exact listening.goes same rfl rfl rfl rfl rfl active
  · obtain ⟨signalled, finished⟩ := (source.push unread).finishBody_signals bufferWasEmpty
    rw [whole, finished]
    exact listening.goes rfl rfl rfl rfl rfl rfl active
  · rw [part]
    exact Listening.waitForSpace full waiting (listening.inside healthy) listening.length
  · rw [waits]
    exact Listening.waitForSpace full waiting (listening.inside healthy) listening.length

theorem Listening.processBodyData {block : Bytes} (listening : source.Listening)
    (bounded : source.Bounded) (point : source.curl = .performing false) :
    (source.processBodyData block).Listening := by
  unfold CurlDataSource.processBodyData
  split
  · exact listening
  · exact listening.fill bounded ⟨by simp [point], by simp [point]⟩

theorem Listening.resumeBody {unread : Bytes} {bufferWasEmpty woken : Bool}
    (listening : source.Listening) (bounded : source.Bounded)
    (point : source.curl = .processing unread bufferWasEmpty woken) :
    (source.resumeBody unread bufferWasEmpty).Listening := by
  have free := bounded.getBufferFree
  have limit := bounded.bounded
  unfold CurlDataSource.resumeBody
  split
  next full =>
    simp only [Bool.and_eq_true, decide_eq_true_eq, Bool.not_eq_true'] at full
    exact Listening.waitForSpace (by omega) (fun blocked => (listening.reader blocked).2.1)
      (listening.inside full.2) listening.length
  next => exact listening.fill bounded ⟨by simp [point], by simp [point]⟩

-- The end is announced before the curl thread waits for the reader.
theorem Listening.drain (listening : source.Listening) (quiet : source.loader.blocked = false)
    (ended : source.eof = true) : source.drain.Listening := by
  have awake (point : Prop) (blocked : source.loader.blocked = true) : point := by
    rw [quiet] at blocked
    cases blocked
  unfold CurlDataSource.drain
  split
  next more =>
    simp only [Bool.and_eq_true, Bool.not_eq_true'] at more
    refine ⟨awake _, nofun, fun _ _ => ended, fun _ => .inl ended, listening.leaving,
      fun leaving => ?_, listening.length⟩
    have inside := listening.inside more.2
    rw [show source.loader = _ from leaving] at inside
    cases inside
  next =>
    exact ⟨awake _, nofun, nofun, fun _ => .inl ended, listening.leaving, fun _ => rfl,
      listening.length⟩

theorem Listening.signalWriter {point : CurlPoint} {ended : Bool} (listening : source.Listening)
    (moving : point.blocked = false) (finishing : ∀ woken, point = .finishing woken → ended = true)
    (finished : point = .broadcasting ∨ point = .done → ended = true ∨ source.loadError = true) :
    Listening { source with eof := ended, loader := source.loader.wake, curl := point } := by
  refine ⟨fun blocked => ?_, fun unread flag same => ?_, finishing, finished, fun away => ?_,
    fun _ => moving, fun maxLength woken same => ?_⟩
  · have woken := source.loader.blocked_wake
    rw [show source.loader.wake.blocked = true from blocked] at woken
    cases woken
  · rw [show point = _ from same] at moving
    cases moving
  · exact listening.leaving (source.loader.leaving_wake.symm.trans away)
  · have signalled :
        (if true then source.loader.wake else source.loader) = .reading maxLength woken := same
    obtain ⟨flag, reading⟩ := LoaderPoint.reading_of_signal signalled
    exact listening.length maxLength flag reading

theorem Listening.fails {point : CurlPoint} (listening : source.Listening)
    (announces : point = .broadcasting ∨ point = .cancelling) :
    Listening { source with loadError := true, curl := point } := by
  have moving : point.blocked = false := by rcases announces with rfl | rfl <;> rfl
  refine ⟨fun blocked => ?_, fun unread flag same => ?_, fun woken same => ?_, fun _ => .inr rfl,
    fun _ => rfl, fun _ => moving, listening.length⟩
  · obtain ⟨going, full, -⟩ := listening.reader blocked
    refine ⟨going, full, moving, ?_, ?_, fun _ => announces⟩
    · rcases announces with rfl | rfl <;> simp
    · rcases announces with rfl | rfl <;> simp
  · rw [show point = _ from same] at moving
    cases moving
  · rw [show point = _ from same] at announces
    simp at announces

theorem Listening.broadcastReader (listening : source.Listening)
    (leaving : source.loader.leaving = true) :
    Listening { source.signalReader with loader := .awaitingDone } := by
  have moving := source.curl.blocked_wake
  refine ⟨nofun, fun unread flag same => ?_, fun woken same => ?_, fun finished => ?_,
    fun _ => listening.leaving leaving, fun _ => moving, nofun⟩
  · rw [show source.curl.wake = _ from same] at moving
    cases moving
  · replace same : source.curl.wake = .finishing woken := same
    cases point : source.curl with
    | finishing flag => exact listening.finishing flag point
    | idle | performing _ | processing _ _ _ | cancelling | broadcasting | done =>
      rw [point] at same
      cases same
  · refine listening.finished ?_
    replace finished : source.curl.wake = .broadcasting ∨ source.curl.wake = .done := finished
    cases point : source.curl with
    | broadcasting => exact .inl rfl
    | done => exact .inr rfl
    | idle | performing _ | processing _ _ _ | cancelling | finishing _ =>
      simp [point, CurlPoint.wake] at finished

structure Beside (source next : CurlDataSource) : Prop where
  position : next.bufferHeadPos = source.bufferHeadPos
  bytesRead : next.bytesRead = source.bytesRead
  wantFull : next.wantFullBuffer = source.wantFullBuffer
  reading : ∀ maxLength woken, next.loader = .reading maxLength woken →
    ∃ flag, source.loader = .reading maxLength flag
  idle : next.curl = .idle ↔ source.curl = .idle

theorem Beside.trans {middle next : CurlDataSource} (first : source.Beside middle)
    (second : middle.Beside next) : source.Beside next := by
  refine ⟨second.position.trans first.position, second.bytesRead.trans first.bytesRead,
    second.wantFull.trans first.wantFull, fun maxLength woken reading => ?_,
    second.idle.trans first.idle⟩
  obtain ⟨flag, between⟩ := second.reading maxLength woken reading
  exact first.reading maxLength flag between

theorem Beside.fill {unread : Bytes} {bufferWasEmpty : Bool} (bounded : source.Bounded)
    (active : source.curl ≠ .idle) : source.Beside (source.fill unread bufferWasEmpty) := by
  rcases bounded.fill unread bufferWasEmpty with
    ⟨-, refused⟩ | ⟨-, -, -, whole⟩ | ⟨first, rest, -, -, -, -, -, part⟩ | ⟨-, -, waits⟩
  · rw [refused]
    exact ⟨rfl, rfl, rfl, fun _ woken reading => ⟨woken, reading⟩, by simp [active]⟩
  · obtain ⟨signalled, finished⟩ := (source.push unread).finishBody_signals bufferWasEmpty
    rw [whole, finished]
    exact ⟨rfl, rfl, rfl, fun _ _ reading => LoaderPoint.reading_of_signal reading, by simp [active]⟩
  · obtain ⟨signalled, flag, -, waits⟩ := (source.push first).waitForSpace_signals rest bufferWasEmpty
    rw [part, waits]
    exact ⟨rfl, rfl, rfl, fun _ _ reading => LoaderPoint.reading_of_signal reading, by simp [active]⟩
  · obtain ⟨signalled, flag, -, waiting⟩ := source.waitForSpace_signals unread bufferWasEmpty
    rw [waits, waiting]
    exact ⟨rfl, rfl, rfl, fun _ _ reading => LoaderPoint.reading_of_signal reading, by simp [active]⟩

theorem Beside.processBodyData {block : Bytes} (bounded : source.Bounded)
    (active : source.curl ≠ .idle) : source.Beside (source.processBodyData block) := by
  unfold CurlDataSource.processBodyData
  split
  · exact ⟨rfl, rfl, rfl, fun _ woken reading => ⟨woken, reading⟩, Iff.rfl⟩
  · exact Beside.fill bounded active

theorem Beside.resumeBody {unread : Bytes} {bufferWasEmpty : Bool} (bounded : source.Bounded)
    (active : source.curl ≠ .idle) : source.Beside (source.resumeBody unread bufferWasEmpty) := by
  unfold CurlDataSource.resumeBody
  split
  · obtain ⟨signalled, flag, -, waits⟩ := source.waitForSpace_signals unread bufferWasEmpty
    rw [waits]
    exact ⟨rfl, rfl, rfl, fun _ _ reading => LoaderPoint.reading_of_signal reading, by simp [active]⟩
  · exact Beside.fill bounded active

theorem Beside.drain (active : source.curl ≠ .idle) : source.Beside source.drain := by
  unfold CurlDataSource.drain
  split
  · exact ⟨rfl, rfl, rfl, fun _ woken reading => ⟨woken, reading⟩, by simp [active]⟩
  · exact ⟨rfl, rfl, rfl, fun _ woken reading => ⟨woken, reading⟩, by simp [active]⟩

theorem Beside.signalWriter {point : CurlPoint} {ended : Bool} (active : source.curl ≠ .idle)
    (busy : point ≠ .idle) :
    source.Beside { source with eof := ended, loader := source.loader.wake, curl := point } := by
  refine ⟨rfl, rfl, rfl, fun maxLength woken same => ?_, by simp [active, busy]⟩
  have signalled :
      (if true then source.loader.wake else source.loader) = .reading maxLength woken := same
  exact LoaderPoint.reading_of_signal signalled

end CurlDataSource

namespace Transfer

variable {transfer next : Transfer}

structure Whole (transfer : Transfer) : Prop where
  flows : transfer.Flows
  listening : transfer.source.Listening
  start : transfer.source.bufferHeadPos = 0
  counted : transfer.source.curl ≠ .idle → transfer.source.bytesRead = transfer.returned.length
  unused : transfer.source.curl = .idle → transfer.source.bytesRead = 0
  fresh : ∀ maxLength woken, transfer.source.loader = .reading maxLength woken →
    transfer.source.bytesRead = 0 ∧ transfer.source.wantFullBuffer = true ∧
      transfer.source.curl ≠ .idle
  answer : ∀ data, transfer.result = some (.bytes data) → data ≠ [] →
    transfer.succeeded = true ∧ data = transfer.offered

theorem Flows.all_offered (flows : transfer.Flows) (ended : transfer.source.eof = true) :
    transfer.offered = transfer.returned ++ transfer.source.content := by
  obtain ⟨rest, offered, owed⟩ := flows.flow
  have succeeded := flows.ended ended
  have stopped : transfer.source.curl.running = false := by
    rw [Bool.eq_false_iff]
    intro runs
    rw [(flows.running runs).2] at ended
    cases ended
  have none : rest = [] := by
    cases point : transfer.source.curl with
    | idle => simp [(flows.idle point).1] at ended
    | performing _ | processing _ _ _ | cancelling =>
      rw [point] at stopped
      cases stopped
    | finishing _ =>
      rw [point] at owed
      exact owed
    | broadcasting | done =>
      rw [point] at owed
      exact owed succeeded
  rw [offered, none, List.append_nil]

theorem Whole.refuse (whole : transfer.Whole) :
    (transfer.noteAll (some [], transfer.source)).Whole := by
  have flows := whole.flows
  have same : transfer.returned ++ [] = transfer.returned := List.append_nil _
  obtain ⟨rest, offered, owed⟩ := flows.flow
  refine ⟨⟨flows.bounded, ⟨rest, ?_, owed⟩, flows.running, flows.ended, flows.idle, nofun⟩,
    whole.listening, whole.start, fun busy => ?_, whole.unused, whole.fresh, ?_⟩
  · show transfer.offered = transfer.returned ++ [] ++ _ ++ rest
    rw [same]
    exact offered
  · show transfer.source.bytesRead = (transfer.returned ++ []).length
    rw [same]
    exact whole.counted busy
  · rintro _ ⟨⟩ some
    exact absurd rfl some

theorem Whole.readAllLocked (whole : transfer.Whole) {maxLength : Nat}
    (small : maxLength ≤ transfer.source.maxBufferSize)
    (full : transfer.source.wantFullBuffer = true) (active : transfer.source.curl ≠ .idle)
    (unread : transfer.source.bytesRead = 0) :
    (transfer.noteAll (transfer.source.readAllLocked maxLength)).Whole := by
  have listening := whole.listening.readAllLocked small full active
  have flows := whole.flows
  rcases transfer.source.readAllLocked_cases maxLength with
    ⟨-, -, -, waits⟩ | ⟨-, fails⟩ | ⟨-, ended, reads⟩
  · rw [waits] at listening ⊢
    exact ⟨flows.move ⟨rfl, rfl, rfl, rfl, rfl⟩ (fun _ => id) id id, listening, whole.start,
      whole.counted, whole.unused, fun _ _ _ => ⟨unread, full, active⟩, whole.answer⟩
  · rw [fails] at listening ⊢
    have left : Whole { transfer with source := { transfer.source with loader := .outside } } :=
      ⟨flows.move ⟨rfl, rfl, rfl, rfl, rfl⟩ (fun _ => id) id id, listening, whole.start,
        whole.counted, whole.unused, by simp, whole.answer⟩
    exact left.refuse
  · rw [reads] at listening ⊢
    have all := flows.all_offered ended
    have content : transfer.source.content = transfer.source.buffers.flatten := by
      rw [CurlDataSource.content, whole.start, List.drop_zero]
    have nothing : transfer.returned = [] := by
      rw [← List.length_eq_zero_iff, ← whole.counted active, unread]
    have size : transfer.source.bytesBuffered = transfer.source.buffers.flatten.length := by
      rw [flows.bounded.queued.counted, length_flatten_eq]
    obtain ⟨rest, offered, owed⟩ := flows.flow
    have emptied : Queued [] 0 0 := ⟨rfl, List.forall_mem_nil _, rfl⟩
    refine ⟨⟨⟨flows.bounded.range, emptied, Nat.zero_le _⟩, ⟨rest, ?_, ?_⟩, ?_, flows.ended, ?_,
      by rintro ⟨⟩⟩, listening, rfl, fun _ => ?_, ?_, by rintro _ _ ⟨⟩, ?_⟩
    · show transfer.offered = transfer.returned ++ transfer.source.buffers.flatten ++ [] ++ rest
      rw [List.append_nil, ← content]
      exact offered
    · exact (CurlPoint.owes_wake _ _ _).mpr owed
    · exact fun runs => flows.running ((CurlPoint.running_wake _).symm.trans runs)
    · exact fun none => absurd ((CurlPoint.wake_eq_idle _).mp none) active
    · show transfer.source.bytesRead + transfer.source.bytesBuffered =
        (transfer.returned ++ transfer.source.buffers.flatten).length
      rw [List.length_append, whole.counted active, size]
    · exact fun none => absurd ((CurlPoint.wake_eq_idle _).mp none) active
    · rintro _ ⟨⟩ -
      refine ⟨flows.ended ended, ?_⟩
      rw [nothing, List.nil_append, content] at all
      exact all.symm

theorem Whole.readAllToString (whole : transfer.Whole) (outside : transfer.source.loader = .outside)
    {maxLength : Nat} {outcome : Option Bytes × CurlDataSource}
    (reads : transfer.source.readAllToString maxLength = .ok outcome) :
    (transfer.noteAll outcome).Whole := by
  have flows := whole.flows
  unfold CurlDataSource.readAllToString at reads
  generalize (if maxLength = 0 then transfer.source.maxBufferSize else maxLength) = length at reads
  dsimp only at reads
  split at reads
  · cases reads
    exact whole.refuse
  next small =>
    split at reads
    · cases reads
      exact whole.refuse
    next active =>
      split at reads
      · cases reads
      next unread =>
        simp only [ne_eq, not_or, Decidable.not_not] at unread
        cases reads
        have quiet : transfer.source.loader.blocked = false := by
          rw [outside]
          rfl
        have listening := whole.listening
        have wanting : Whole { transfer with
            source := { transfer.source with wantFullBuffer := true } } := by
          refine ⟨flows.move ⟨rfl, rfl, rfl, rfl, rfl⟩ (fun _ => id) id id,
            ⟨fun blocked => ?_, listening.space, listening.finishing, listening.finished,
              listening.leaving, listening.awaited, listening.length⟩, whole.start, whole.counted,
            whole.unused, fun maxLength woken reading => ?_, whole.answer⟩
          · rw [show transfer.source.loader.blocked = true from blocked] at quiet
            cases quiet
          · rw [show transfer.source.loader = _ from reading] at outside
            cases outside
        exact wanting.readAllLocked (Nat.le_of_not_lt small) rfl active unread.1

theorem stepAll_cases {op : TransferOp} {outcome : Except Fault Transfer}
    (steps : transfer.stepAll op = some outcome) :
    (∃ maxLength, transfer.source.loader = .outside ∧
      outcome = (transfer.source.readAllToString maxLength).map transfer.noteAll) ∨
    (∃ maxLength, transfer.source.loader = .reading maxLength true ∧
      outcome = .ok (transfer.noteAll (transfer.source.readAllLocked maxLength))) ∨
    (∀ readLength, op ≠ .read readLength) ∧ op ≠ .resumeRead ∧ transfer.step op = some outcome := by
  unfold stepAll at steps
  split at steps
  next maxLength outside => exact .inl ⟨maxLength, outside, (Option.some.inj steps).symm⟩
  next maxLength reading => exact .inr (.inl ⟨maxLength, reading, (Option.some.inj steps).symm⟩)
  next => cases steps
  next => cases steps
  next notRead notResume _ _ => exact .inr (.inr ⟨notRead, notResume, steps⟩)

theorem Whole.beside (whole : transfer.Whole) (flows : next.Flows)
    (listening : next.source.Listening) (beside : transfer.source.Beside next.source)
    (returned : next.returned = transfer.returned) (result : next.result = transfer.result)
    (offered : transfer.succeeded = true →
      next.succeeded = true ∧ next.offered = transfer.offered) :
    next.Whole := by
  refine ⟨flows, listening, beside.position.trans whole.start, fun busy => ?_, fun none => ?_,
    fun maxLength woken reading => ?_, fun data answer some => ?_⟩
  · rw [beside.bytesRead, returned]
    exact whole.counted fun none => busy (beside.idle.mpr none)
  · rw [beside.bytesRead]
    exact whole.unused (beside.idle.mp none)
  · obtain ⟨flag, before⟩ := beside.reading maxLength woken reading
    obtain ⟨unread, full, active⟩ := whole.fresh maxLength flag before
    exact ⟨beside.bytesRead.trans unread, beside.wantFull.trans full,
      fun none => active (beside.idle.mp none)⟩
  · obtain ⟨succeeded, same⟩ := whole.answer data (result.symm.trans answer) some
    obtain ⟨still, kept⟩ := offered succeeded
    exact ⟨still, same.trans kept.symm⟩

theorem Whole.reset (whole : transfer.Whole)
    (flows : Flows { transfer with source := transfer.source.reset }) :
    Whole { transfer with source := transfer.source.reset } :=
  ⟨flows, ⟨nofun, nofun, nofun, by simp [CurlDataSource.reset], nofun, nofun, nofun⟩, rfl,
    fun busy => absurd rfl busy, fun _ => rfl, nofun, whole.answer⟩

theorem Whole.step {op : TransferOp} (whole : transfer.Whole)
    (steps : transfer.stepAll op = some (.ok next)) : next.Whole := by
  rcases stepAll_cases steps with
    ⟨maxLength, outside, outcome⟩ | ⟨maxLength, reading, outcome⟩ | ⟨notRead, notResume, plain⟩
  · obtain ⟨result, reads, rfl⟩ := map_ok outcome.symm
    exact whole.readAllToString outside reads
  · cases outcome
    obtain ⟨unread, full, active⟩ := whole.fresh maxLength true reading
    exact whole.readAllLocked (whole.listening.length maxLength true reading) full active unread
  obtain ⟨after, reached, flows⟩ := whole.flows.step plain
  cases reached
  have bounded := whole.flows.bounded
  have listening := whole.listening
  -- Body data comes before the end of the transfer.
  have unfinished {goal : Prop} (runs : transfer.source.curl.running = true)
      (succeeded : transfer.succeeded = true) : goal := by
    rw [(whole.flows.running runs).1] at succeeded
    cases succeeded
  unfold Transfer.step at plain
  dsimp only at plain
  split at plain
  next outside idle =>
    cases plain
    refine ⟨flows, ⟨fun blocked => ?_, nofun, nofun, by simp, listening.leaving, fun _ => rfl,
      listening.length⟩, whole.start, fun _ => whole.unused idle, nofun, fun _ _ reading => ?_,
      nofun⟩
    · have quiet : transfer.source.loader.blocked = false := by
        rw [outside]
        rfl
      cases quiet.symm.trans blocked
    · rw [show transfer.source.loader = _ from reading] at outside
      cases outside
  next readLength _ _ => exact absurd rfl (notRead _)
  next readLength _ _ => exact absurd rfl (notRead _)
  next => exact absurd rfl notResume
  next =>
    cases plain
    by_cases idle : transfer.source.curl = .idle
    · have stays : transfer.source.close = transfer.source.reset := if_pos idle
      rw [stays] at flows ⊢
      exact whole.reset flows
    · have closes : transfer.source.close =
          { transfer.source with loadError := true, loader := .closing } := if_neg idle
      rw [closes] at flows ⊢
      exact whole.beside flows ⟨nofun, listening.space, listening.finishing, fun _ => .inr rfl,
        fun _ => rfl, nofun, nofun⟩ ⟨rfl, rfl, rfl, nofun, Iff.rfl⟩ rfl rfl
        fun succeeded => ⟨succeeded, rfl⟩
  next closing =>
    cases plain
    exact whole.beside flows (listening.broadcastReader (by rw [closing]; rfl))
      ⟨rfl, rfl, rfl, nofun, CurlPoint.wake_eq_idle _⟩ rfl rfl fun succeeded => ⟨succeeded, rfl⟩
  next =>
    cases plain
    exact whole.reset flows
  next point =>
    cases plain
    have active : transfer.source.curl ≠ .idle := by simp [point]
    exact whole.beside flows (listening.processBodyData bounded point)
      (.processBodyData bounded active) rfl rfl (unfinished (by rw [point]; rfl))
  next point =>
    cases plain
    have active : transfer.source.curl ≠ .idle := by simp [point]
    exact whole.beside flows (listening.resumeBody bounded point) (.resumeBody bounded active)
      rfl rfl fun succeeded => ⟨succeeded, rfl⟩
  next point =>
    cases plain
    have active : transfer.source.curl ≠ .idle := by simp [point]
    exact whole.beside flows (listening.fails (by simp))
      ⟨rfl, rfl, rfl, fun _ woken reading => ⟨woken, reading⟩,
        by simp [CurlDataSource.checkCancel, active]⟩
      rfl rfl fun succeeded => ⟨succeeded, rfl⟩
  next point =>
    cases plain
    have active : transfer.source.curl ≠ .idle := by simp [point]
    exact whole.beside flows (listening.signalWriter rfl nofun (by simp))
      (.signalWriter active nofun) rfl rfl fun succeeded => ⟨succeeded, rfl⟩
  next point =>
    cases plain
    have active : transfer.source.curl ≠ .idle := by simp [point]
    have announced : CurlDataSource.Listening { transfer.source with
        eof := true, loader := transfer.source.loader.wake, curl := transfer.source.curl } :=
      listening.signalWriter (by rw [point]; rfl) (fun _ _ => rfl) fun _ => .inl rfl
    have signalled : transfer.source.Beside { transfer.source with
        eof := true, loader := transfer.source.loader.wake, curl := transfer.source.curl } :=
      .signalWriter active active
    exact whole.beside flows (announced.drain transfer.source.loader.blocked_wake rfl)
      (signalled.trans (.drain active)) rfl rfl fun _ => ⟨rfl, rfl⟩
  next refused point =>
    cases plain
    have active : transfer.source.curl ≠ .idle := by simp [point]
    exact whole.beside flows (listening.fails (by simp))
      ⟨rfl, rfl, rfl, fun _ woken reading => ⟨woken, reading⟩,
        by simp [CurlDataSource.complete, active]⟩
      rfl rfl fun succeeded => ⟨succeeded, rfl⟩
  next point =>
    cases plain
    have active : transfer.source.curl ≠ .idle := by simp [point]
    have ended := listening.finishing true point
    have quiet : transfer.source.loader.blocked = false := by
      rw [Bool.eq_false_iff]
      intro blocked
      rw [(listening.reader blocked).1] at ended
      cases ended
    exact whole.beside flows (listening.drain quiet ended) (.drain active) rfl rfl
      fun succeeded => ⟨succeeded, rfl⟩
  next point =>
    cases plain
    have active : transfer.source.curl ≠ .idle := by simp [point]
    exact whole.beside flows
      (listening.signalWriter rfl nofun fun _ => listening.finished (.inl point))
      (.signalWriter active nofun) rfl rfl fun succeeded => ⟨succeeded, rfl⟩
  next => cases plain

theorem Whole.takes_all (whole : transfer.Whole) (ended : transfer.source.eof = true)
    (healthy : transfer.source.loadError = false) (unread : transfer.source.bytesRead = 0)
    (maxLength : Nat) (full : Bool) :
    (transfer.noteAll
      ({ transfer.source with wantFullBuffer := full }.readAllLocked maxLength)).result =
      some (.bytes transfer.offered) := by
  have active : transfer.source.curl ≠ .idle := by
    intro idle
    rw [(whole.flows.idle idle).1] at ended
    cases ended
  have nothing : transfer.returned = [] := by
    rw [← List.length_eq_zero_iff, ← whole.counted active, unread]
  have all := whole.flows.all_offered ended
  rw [nothing, List.nil_append, CurlDataSource.content, whole.start, List.drop_zero] at all
  rcases { transfer.source with wantFullBuffer := full }.readAllLocked_cases maxLength with
    ⟨-, going, -⟩ | ⟨failed | going, -⟩ | ⟨-, -, reads⟩
  · cases ended.symm.trans going
  · cases healthy.symm.trans failed
  · cases ended.symm.trans going
  · rw [reads, all]
    rfl

theorem Whole.read_whole (whole : transfer.Whole) (ended : transfer.source.eof = true)
    (healthy : transfer.source.loadError = false) (unread : transfer.source.bytesRead = 0)
    {maxLength : Nat} (small : maxLength ≤ transfer.source.maxBufferSize)
    (outside : transfer.source.loader = .outside) :
    ∃ next, transfer.stepAll (.read maxLength) = some (.ok next) ∧
      next.result = some (.bytes transfer.offered) := by
  have active : transfer.source.curl ≠ .idle := by
    intro idle
    rw [(whole.flows.idle idle).1] at ended
    cases ended
  have first : ¬ (transfer.source.bytesRead ≠ 0 ∨ transfer.source.bufferHeadPos ≠ 0) := by
    simp [unread, whole.start]
  have limit : ¬ (if maxLength = 0 then transfer.source.maxBufferSize else maxLength) >
      transfer.source.maxBufferSize := by
    split <;> omega
  have takes := whole.takes_all ended healthy unread
    (if maxLength = 0 then transfer.source.maxBufferSize else maxLength) true
  simp only [stepAll, outside, CurlDataSource.readAllToString, if_neg limit, if_neg active,
    if_neg first, Except.map]
  exact ⟨_, rfl, takes⟩

theorem curl_steps (transfer : Transfer) (moving : transfer.source.curl.blocked = false)
    (busy : transfer.source.curl ≠ .idle) (going : transfer.source.curl ≠ .done) :
    ∃ op next, op.ofCurl = true ∧ transfer.stepAll op = some (.ok next) := by
  cases point : transfer.source.curl with
  | idle => exact absurd point busy
  | done => exact absurd point going
  | performing refused =>
    refine ⟨.complete false, { transfer with source := transfer.source.complete false }, rfl, ?_⟩
    simp only [stepAll, step, point]
  | processing unread flag woken =>
    cases woken with
    | true =>
      refine ⟨.resumeBody, { transfer with
        source := transfer.source.resumeBody unread flag }, rfl, ?_⟩
      simp only [stepAll, step, point]
    | false =>
      rw [point] at moving
      cases moving
  | cancelling =>
    refine ⟨.broadcastCancel, { transfer with
      source := { transfer.source.signalWriter with curl := .performing true } }, rfl, ?_⟩
    simp only [stepAll, step, point]
  | finishing woken =>
    cases woken with
    | true =>
      refine ⟨.resumeComplete, { transfer with source := transfer.source.drain }, rfl, ?_⟩
      simp only [stepAll, step, point]
    | false =>
      rw [point] at moving
      cases moving
  | broadcasting =>
    refine ⟨.broadcastWriter, { transfer with
      source := { transfer.source.signalWriter with curl := .done } }, rfl, ?_⟩
    simp only [stepAll, step, point]

end Transfer

theorem wholeSystem_whole {maxBufferSize : Nat} (range : maxBufferSize < 18446744073709551616)
    {transfer : Transfer} (reachable : Reachable (wholeSystem maxBufferSize) transfer) :
    transfer.Whole := by
  refine Reachable.invariant Transfer.Whole ?_ ?_ reachable
  · rintro _ rfl
    exact ⟨transferSystem_flows range (Reachable.start _ rfl),
      ⟨nofun, nofun, nofun, by simp, nofun, nofun, nofun⟩, rfl, fun busy => absurd rfl busy,
      fun _ => rfl, nofun, nofun⟩
  · intro state op next whole step
    exact whole.step step

/-- In every interleaving ReadAllToString answers with the whole body of a transfer that succeeded,
or with nothing; when the transfer has ended it gives the whole body, and while it waits the curl
thread can go on. -/
theorem readAllToString_whole (maxBufferSize : Nat) (range : maxBufferSize < 18446744073709551616)
    (transfer : Transfer) (reachable : Reachable (wholeSystem maxBufferSize) transfer) :
    (∀ data, transfer.result = some (.bytes data) → data ≠ [] →
      transfer.succeeded = true ∧ data = transfer.offered) ∧
    (transfer.source.eof = true → transfer.source.loadError = false →
      transfer.source.bytesRead = 0 → ∀ maxLength ≤ transfer.source.maxBufferSize,
        (transfer.source.loader = .outside → ∃ next,
          transfer.stepAll (.read maxLength) = some (.ok next) ∧
            next.result = some (.bytes transfer.offered)) ∧
        (transfer.source.loader = .reading maxLength true → ∃ next,
          transfer.stepAll .resumeRead = some (.ok next) ∧
            next.result = some (.bytes transfer.offered))) ∧
    (transfer.source.loader.blocked = true → ∃ op next,
      op.ofCurl = true ∧ transfer.stepAll op = some (.ok next)) := by
  have whole := wholeSystem_whole range reachable
  refine ⟨whole.answer, ?_, ?_⟩
  · intro ended healthy unread maxLength small
    refine ⟨whole.read_whole ended healthy unread small, fun reading => ?_⟩
    have takes := whole.takes_all ended healthy unread maxLength transfer.source.wantFullBuffer
    refine ⟨transfer.noteAll (transfer.source.readAllLocked maxLength), ?_, takes⟩
    simp only [Transfer.stepAll, reading]
  · intro blocked
    obtain ⟨-, -, moving, busy, going, -⟩ := whole.listening.reader blocked
    exact transfer.curl_steps moving busy going

-- The read is waiting while the three bytes come.
theorem readAllToString_whole_waiting :
    ∃ transfer : Transfer, transfer.result = some (.bytes [1, 2, 3]) ∧
      (∀ data, transfer.result = some (.bytes data) → data ≠ [] →
        transfer.succeeded = true ∧ data = transfer.offered) ∧
      (transfer.source.eof = true → transfer.source.loadError = false →
        transfer.source.bytesRead = 0 → ∀ maxLength ≤ transfer.source.maxBufferSize,
          (transfer.source.loader = .outside → ∃ next,
            transfer.stepAll (.read maxLength) = some (.ok next) ∧
              next.result = some (.bytes transfer.offered)) ∧
          (transfer.source.loader = .reading maxLength true → ∃ next,
            transfer.stepAll .resumeRead = some (.ok next) ∧
              next.result = some (.bytes transfer.offered))) ∧
      (transfer.source.loader.blocked = true → ∃ op next,
        op.ofCurl = true ∧ transfer.stepAll op = some (.ok next)) := by
  have start := Reachable.start (wholeSystem 4) rfl
  have opened := start.next .open rfl
  have waiting := opened.next (.read 0) rfl
  have first := waiting.next (.body [1, 2]) rfl
  have second := first.next (.body [3]) rfl
  have complete := second.next (.complete true) rfl
  have resumed := complete.next .resumeRead rfl
  exact ⟨_, rfl, readAllToString_whole 4 (by decide) _ resumed⟩

end NDash.Upstream

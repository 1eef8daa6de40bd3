import NDash.Upstream.CurlDataSource

set_option autoImplicit false

namespace NDash.Upstream

open Machine

def totalSize (buffers : List Bytes) : Nat := (buffers.map List.length).sum

theorem totalSize_cons (head : Bytes) (rest : List Bytes) :
    totalSize (head :: rest) = head.length + totalSize rest := by
  simp [totalSize]

theorem totalSize_snoc (buffers : List Bytes) (block : Bytes) :
    totalSize (buffers ++ [block]) = totalSize buffers + block.length := by
  simp [totalSize]

theorem length_flatten_eq (buffers : List Bytes) : buffers.flatten.length = totalSize buffers :=
  List.length_flatten

-- How far the head block has been read; a block is popped with its last byte.
def HeadPosition (buffers : List Bytes) (position : Nat) : Prop :=
  match buffers with
  | [] => position = 0
  | head :: _ => position < head.length

structure Queued (buffers : List Bytes) (buffered position : Nat) : Prop where
  counted : buffered = totalSize buffers
  filled : ∀ block ∈ buffers, block ≠ []
  head : HeadPosition buffers position

section

variable {head : Bytes} {buffers rest : List Bytes} {buffered position : Nat}

theorem Queued.position_le (queued : Queued buffers buffered position) : position ≤ buffered := by
  have head := queued.head
  rw [queued.counted]
  cases buffers with
  | nil => exact Nat.le_of_eq head
  | cons block rest =>
    rw [totalSize_cons]
    exact Nat.le_trans (Nat.le_of_lt head) (Nat.le_add_right _ _)

theorem Queued.pop (queued : Queued (head :: rest) buffered position) :
    Queued rest (buffered - head.length) 0 := by
  have counted := queued.counted
  rw [totalSize_cons] at counted
  refine ⟨by omega, fun block member => queued.filled block (List.mem_cons_of_mem _ member), ?_⟩
  cases rest with
  | nil => rfl
  | cons next later =>
    exact List.length_pos_iff.mpr (queued.filled next (by simp))

theorem Queued.push {block : Bytes} (queued : Queued buffers buffered position) (some : block ≠ []) :
    Queued (buffers ++ [block]) (buffered + block.length) position := by
  refine ⟨by rw [totalSize_snoc, queued.counted], ?_, ?_⟩
  · intro other member
    rcases List.mem_append.mp member with old | new
    · exact queued.filled other old
    · rw [List.mem_singleton.mp new]
      exact some
  · have head := queued.head
    cases buffers with
    | nil =>
      have start : position = 0 := head
      subst start
      exact List.length_pos_iff.mpr some
    | cons first later => exact head

structure Copied (buffers : List Bytes) (position bytesToCopy : Nat) (copy final : CurlDataSource.Copy) :
    Prop where
  out : final.out = copy.out ++ (buffers.flatten.drop position).take bytesToCopy
  content : final.buffers.flatten.drop final.bufferHeadPos =
    (buffers.flatten.drop position).drop bytesToCopy
  queued : Queued final.buffers final.bytesBuffered final.bufferHeadPos
  size : final.bytesBuffered ≤ copy.bytesBuffered
  signals : copy.signalReader = true → final.signalReader = true
  silent : final.signalReader = false →
    final.buffers = buffers ∧ final.bytesBuffered = copy.bytesBuffered

theorem copyOut_copied {bytesToCopy : Nat} {copy : CurlDataSource.Copy} (same : copy.buffers = buffers)
    (queued : Queued buffers copy.bytesBuffered copy.bufferHeadPos)
    (range : copy.bytesBuffered < 18446744073709551616)
    (enough : bytesToCopy ≤ copy.bytesBuffered - copy.bufferHeadPos) :
    ∃ final, CurlDataSource.copyOut buffers bytesToCopy copy = .ok final ∧
      Copied buffers copy.bufferHeadPos bytesToCopy copy final := by
  induction buffers generalizing bytesToCopy copy with
  | nil =>
    have counted : copy.bytesBuffered = 0 := queued.counted
    have none : bytesToCopy = 0 := by omega
    subst none
    refine ⟨copy, rfl, ?_, ?_, same ▸ queued, Nat.le_refl _, id, fun _ => ⟨same, rfl⟩⟩
    · simp
    · simp [same]
  | cons head rest ih =>
    rw [CurlDataSource.copyOut]
    by_cases none : bytesToCopy = 0
    · subst none
      refine ⟨copy, if_pos rfl, ?_, ?_, same ▸ queued, Nat.le_refl _, id, fun _ => ⟨same, rfl⟩⟩
      · simp
      · simp [same]
    · rw [if_neg none]
      have inside : copy.bufferHeadPos < head.length := queued.head
      have counted := queued.counted
      rw [totalSize_cons] at counted
      have shape : (head :: rest).flatten.drop copy.bufferHeadPos =
          head.drop copy.bufferHeadPos ++ rest.flatten := by
        rw [List.flatten_cons, List.drop_append_of_le_length (Nat.le_of_lt inside)]
      dsimp only
      by_cases whole : head.length - copy.bufferHeadPos ≤ bytesToCopy
      · -- The head block is used up, and the loop goes on with the next.
        rw [Nat.min_eq_right whole, if_pos (by omega), toSize_sub (by omega) range]
        have used : (head.drop copy.bufferHeadPos).length ≤ bytesToCopy := by
          rw [List.length_drop]
          exact whole
        have all : (head.drop copy.bufferHeadPos).take (head.length - copy.bufferHeadPos) =
            head.drop copy.bufferHeadPos := by
          rw [← List.length_drop, List.take_length]
        have deeper : ∃ final, CurlDataSource.copyOut rest
            (bytesToCopy - (head.length - copy.bufferHeadPos))
            ⟨copy.out ++ head.drop copy.bufferHeadPos, copy.bytesBuffered - head.length, 0, rest,
              true⟩ = .ok final ∧
            Copied rest 0 (bytesToCopy - (head.length - copy.bufferHeadPos))
              ⟨copy.out ++ head.drop copy.bufferHeadPos, copy.bytesBuffered - head.length, 0, rest,
                true⟩ final :=
          ih rfl queued.pop (by dsimp only; omega) (by dsimp only; omega)
        obtain ⟨final, copied, result⟩ := deeper
        refine ⟨final, by rw [all, copied], ?_, ?_, result.queued, ?_, fun _ => result.signals rfl, ?_⟩
        · rw [result.out, shape, List.take_append, List.take_of_length_le used, List.length_drop,
            List.drop_zero, List.append_assoc]
        · rw [result.content, shape, List.drop_append, List.drop_eq_nil_of_le used, List.length_drop,
            List.drop_zero, List.nil_append]
        · have := result.size
          dsimp only at this
          omega
        · intro quiet
          rw [result.signals rfl] at quiet
          cases quiet
      · rw [Nat.min_eq_left (by omega), if_neg (by omega)]
        refine ⟨_, rfl, ?_, ?_, ?_, Nat.le_refl _, id, fun _ => ⟨same, rfl⟩⟩
        · dsimp only
          rw [shape, List.take_append_of_le_length (by simp; omega)]
        · dsimp only
          rw [same, List.drop_drop]
        · dsimp only
          rw [same]
          exact ⟨queued.counted, queued.filled, show _ < _ by omega⟩

end

namespace CurlDataSource

structure Bounded (source : CurlDataSource) : Prop where
  range : source.maxBufferSize < 18446744073709551616
  queued : Queued source.buffers source.bytesBuffered source.bufferHeadPos
  bounded : source.bytesBuffered ≤ source.maxBufferSize

def content (source : CurlDataSource) : Bytes := source.buffers.flatten.drop source.bufferHeadPos

variable {source : CurlDataSource}

theorem Bounded.getBufferFree (bounded : source.Bounded) :
    source.getBufferFree = source.maxBufferSize - source.bytesBuffered :=
  toSize_sub bounded.bounded bounded.range

theorem Bounded.readLocked (bounded : source.Bounded) (readLength : Nat) :
    (source.loadError = false ∧ source.eof = false ∧ source.buffers = [] ∧
      source.readLocked readLength =
        .ok (none, { source with loader := .reading readLength false })) ∨
    (source.loadError = true ∧ source.readLocked readLength =
        .ok (some .ioError, { source with loader := .outside })) ∨
    (source.loadError = false ∧ source.eof = true ∧ source.buffers = [] ∧
      source.readLocked readLength =
        .ok (some .endOfInput, { source with loader := .outside })) ∨
    ∃ final bytesToCopy, source.loadError = false ∧ source.buffers ≠ [] ∧
      Copied source.buffers source.bufferHeadPos bytesToCopy
        ⟨[], source.bytesBuffered, source.bufferHeadPos, source.buffers, false⟩ final ∧
      source.readLocked readLength = .ok (some (.bytes final.out),
        { source with
          bytesBuffered := final.bytesBuffered
          bufferHeadPos := final.bufferHeadPos
          buffers := final.buffers
          loader := .outside
          curl := if final.signalReader then source.curl.wake else source.curl
          bytesRead := source.bytesRead + bytesToCopy }) := by
  have limit := bounded.bounded
  have range := bounded.range
  have position := bounded.queued.position_le
  unfold CurlDataSource.readLocked
  cases failed : source.loadError with
  | true => exact .inr (.inl ⟨rfl, by simp⟩)
  | false =>
    cases blocks : source.buffers with
    | nil =>
      cases ended : source.eof with
      | false => exact .inl ⟨rfl, rfl, rfl, by simp⟩
      | true => exact .inr (.inr (.inl ⟨rfl, rfl, rfl, by simp⟩))
    | cons head rest =>
      refine .inr (.inr (.inr ?_))
      have readable : source.getReadable = source.bytesBuffered - source.bufferHeadPos :=
        toSize_sub position (by omega)
      obtain ⟨final, copied, result⟩ := copyOut_copied
        (show (⟨[], source.bytesBuffered, source.bufferHeadPos, source.buffers, false⟩ : Copy).buffers =
          source.buffers from rfl) bounded.queued (by dsimp only; omega)
        (show min readLength source.getReadable ≤ _ by dsimp only; omega)
      rw [blocks] at copied result
      refine ⟨final, min readLength source.getReadable, rfl, by simp, result, ?_⟩
      simp only [List.isEmpty_cons, Bool.and_false, Bool.false_and, Bool.false_eq_true, if_false,
        copied, bind, Except.bind]
      cases final.signalReader <;> rfl

/-- What one turn of ProcessBodyData does: it is refused, writes the rest of the block, writes a part
that fills the buffer, or finds the buffer full. -/
theorem Bounded.fill (bounded : source.Bounded) (unread : Bytes) (bufferWasEmpty : Bool) :
    (source.loadError = true ∧
      source.fill unread bufferWasEmpty = { source with curl := .performing true }) ∨
    (source.loadError = false ∧ source.bytesBuffered + unread.length ≤ source.maxBufferSize ∧
      source.bytesBuffered < source.maxBufferSize ∧
      source.fill unread bufferWasEmpty = (source.push unread).finishBody bufferWasEmpty) ∨
    (∃ first rest, source.loadError = false ∧ unread = first ++ rest ∧ first ≠ [] ∧ rest ≠ [] ∧
      source.bytesBuffered + first.length = source.maxBufferSize ∧
      source.fill unread bufferWasEmpty = (source.push first).waitForSpace rest bufferWasEmpty) ∨
    (source.loadError = false ∧ source.bytesBuffered = source.maxBufferSize ∧
      source.fill unread bufferWasEmpty = source.waitForSpace unread bufferWasEmpty) := by
  have limit := bounded.bounded
  unfold CurlDataSource.fill
  rw [bounded.getBufferFree]
  cases failed : source.loadError with
  | true => exact .inl ⟨rfl, if_pos rfl⟩
  | false =>
    rw [if_neg (by simp)]
    refine .inr ?_
    by_cases space : source.maxBufferSize - source.bytesBuffered > 0
    · rw [if_pos space]
      dsimp only
      by_cases fits : unread.length ≤ source.maxBufferSize - source.bytesBuffered
      · rw [Nat.min_eq_left fits, List.take_length, List.drop_length]
        exact .inl ⟨rfl, by omega, by omega, rfl⟩
      · rw [Nat.min_eq_right (by omega)]
        refine .inr (.inl ⟨_, _, rfl, (List.take_append_drop
          (source.maxBufferSize - source.bytesBuffered) unread).symm, ?_, ?_, ?_, ?_⟩)
        · apply List.ne_nil_of_length_pos
          rw [List.length_take]
          omega
        · apply List.ne_nil_of_length_pos
          rw [List.length_drop]
          omega
        · rw [List.length_take]
          omega
        · have some : (unread.drop (source.maxBufferSize - source.bytesBuffered)).isEmpty = false := by
            rw [List.isEmpty_eq_false_iff]
            apply List.ne_nil_of_length_pos
            rw [List.length_drop]
            omega
          rw [some]
          rfl
    · rw [if_neg space]
      exact .inr (.inr ⟨rfl, by omega, rfl⟩)

theorem Bounded.push {block : Bytes} (bounded : source.Bounded) (some : block ≠ [])
    (fits : source.bytesBuffered + block.length ≤ source.maxBufferSize) :
    (source.push block).Bounded :=
  ⟨bounded.range, bounded.queued.push some, fits⟩

theorem content_push {block : Bytes} (bounded : source.Bounded) :
    (source.push block).content = source.content ++ block := by
  have position := bounded.queued.position_le
  rw [bounded.queued.counted, ← length_flatten_eq] at position
  simp only [content, CurlDataSource.push, List.flatten_append, List.flatten_singleton]
  exact List.drop_append_of_le_length position

structure SameBuffer (source next : CurlDataSource) : Prop where
  limit : next.maxBufferSize = source.maxBufferSize
  blocks : next.buffers = source.buffers
  buffered : next.bytesBuffered = source.bytesBuffered
  position : next.bufferHeadPos = source.bufferHeadPos
  ended : next.eof = source.eof

theorem SameBuffer.bounded {next : CurlDataSource} (same : source.SameBuffer next)
    (bounded : source.Bounded) : next.Bounded := by
  refine ⟨same.limit ▸ bounded.range, ?_, ?_⟩
  · rw [same.blocks, same.buffered, same.position]
    exact bounded.queued
  · rw [same.limit, same.buffered]
    exact bounded.bounded

theorem SameBuffer.content {next : CurlDataSource} (same : source.SameBuffer next) :
    next.content = source.content := by
  rw [CurlDataSource.content, CurlDataSource.content, same.blocks, same.position]

theorem waitForSpace_same (source : CurlDataSource) (unread : Bytes) (bufferWasEmpty : Bool) :
    source.SameBuffer (source.waitForSpace unread bufferWasEmpty) ∧
      ∃ flag, (source.waitForSpace unread bufferWasEmpty).curl = .processing unread flag false := by
  unfold waitForSpace
  split
  · exact ⟨⟨rfl, rfl, rfl, rfl, rfl⟩, _, rfl⟩
  · exact ⟨⟨rfl, rfl, rfl, rfl, rfl⟩, _, rfl⟩

theorem finishBody_same (source : CurlDataSource) (bufferWasEmpty : Bool) :
    source.SameBuffer (source.finishBody bufferWasEmpty) ∧
      (source.finishBody bufferWasEmpty).curl = .performing false := by
  unfold finishBody
  dsimp only
  split
  · exact ⟨⟨rfl, rfl, rfl, rfl, rfl⟩, rfl⟩
  · exact ⟨⟨rfl, rfl, rfl, rfl, rfl⟩, rfl⟩

theorem drain_same (source : CurlDataSource) :
    source.SameBuffer source.drain ∧
      (source.drain.curl = .finishing false ∨ source.drain.curl = .broadcasting) := by
  unfold drain
  split
  · exact ⟨⟨rfl, rfl, rfl, rfl, rfl⟩, .inl rfl⟩
  · exact ⟨⟨rfl, rfl, rfl, rfl, rfl⟩, .inr rfl⟩

end CurlDataSource

namespace CurlPoint

def running : CurlPoint → Bool
  | .performing _ | .processing _ _ _ | .cancelling => true
  | _ => false

/-- What curl has offered and is not in the buffer: the rest of the block, or what was refused. -/
def Owes (succeeded : Bool) : CurlPoint → Bytes → Prop
  | .performing false, rest => rest = []
  | .processing unread _ _, rest => rest = unread ∧ unread ≠ []
  | .finishing _, rest => rest = []
  | .broadcasting, rest | .done, rest => succeeded = true → rest = []
  | _, _ => True

theorem running_wake (point : CurlPoint) : point.wake.running = point.running := by
  cases point <;> rfl

theorem owes_wake (succeeded : Bool) (point : CurlPoint) (rest : Bytes) :
    point.wake.Owes succeeded rest ↔ point.Owes succeeded rest := by
  cases point <;> exact Iff.rfl

theorem wake_eq_idle (point : CurlPoint) : point.wake = .idle ↔ point = .idle := by
  cases point <;> simp [wake]

end CurlPoint

/-- Every byte that was offered is returned, in the buffer, or owed by the curl thread. -/
structure Transfer.Flows (transfer : Transfer) : Prop where
  bounded : transfer.source.Bounded
  flow : ∃ rest, transfer.offered = transfer.returned ++ transfer.source.content ++ rest ∧
    transfer.source.curl.Owes transfer.succeeded rest
  running : transfer.source.curl.running = true →
    transfer.succeeded = false ∧ transfer.source.eof = false
  ended : transfer.source.eof = true → transfer.succeeded = true
  idle : transfer.source.curl = .idle → transfer.source.eof = false ∧ transfer.source.buffers = []
  result : transfer.result = some .endOfInput →
    transfer.succeeded = true ∧ transfer.returned = transfer.offered

namespace Transfer

variable {transfer : Transfer} {next : CurlDataSource}

theorem Flows.move (flows : transfer.Flows) (same : transfer.source.SameBuffer next)
    (owes : ∀ rest, transfer.source.curl.Owes transfer.succeeded rest →
      next.curl.Owes transfer.succeeded rest)
    (running : next.curl.running = true → transfer.source.curl.running = true)
    (idle : next.curl = .idle → transfer.source.curl = .idle) :
    Flows { transfer with source := next } := by
  obtain ⟨rest, offered, owed⟩ := flows.flow
  refine ⟨same.bounded flows.bounded, ⟨rest, ?_, owes rest owed⟩, ?_, ?_, ?_, flows.result⟩
  · rw [same.content]
    exact offered
  · intro runs
    rw [same.ended]
    exact flows.running (running runs)
  · intro ends
    exact flows.ended (same.ended ▸ ends)
  · intro none
    rw [same.ended, same.blocks]
    exact flows.idle (idle none)

theorem Flows.readLocked (flows : transfer.Flows) (readLength : Nat) :
    ∃ outcome, transfer.source.readLocked readLength = .ok outcome ∧
      (transfer.note outcome).Flows := by
  obtain ⟨rest, offered, owed⟩ := flows.flow
  rcases flows.bounded.readLocked readLength with
    ⟨-, -, -, waits⟩ | ⟨-, fails⟩ | ⟨-, ended, empty, ends⟩ | ⟨final, count, -, some, copied, reads⟩
  · exact ⟨_, waits, flows.move ⟨rfl, rfl, rfl, rfl, rfl⟩ (fun _ => id) id id⟩
  · refine ⟨_, fails, ?_⟩
    have moved : Flows { transfer with source := { transfer.source with loader := .outside } } :=
      flows.move ⟨rfl, rfl, rfl, rfl, rfl⟩ (fun _ => id) id id
    exact ⟨moved.bounded, moved.flow, moved.running, moved.ended, moved.idle, nofun⟩
  · refine ⟨_, ends, ?_⟩
    have moved : Flows { transfer with source := { transfer.source with loader := .outside } } :=
      flows.move ⟨rfl, rfl, rfl, rfl, rfl⟩ (fun _ => id) id id
    refine ⟨moved.bounded, moved.flow, moved.running, moved.ended, moved.idle, ?_⟩
    intro _
    have succeeded := flows.ended ended
    have nothing : transfer.source.content = [] := by
      rw [CurlDataSource.content, empty, List.flatten_nil, List.drop_nil]
    have ran : rest = [] := by
      cases point : transfer.source.curl with
      | idle => simp [(flows.idle point).1] at ended
      | performing refused => simp [(flows.running (by rw [point]; rfl)).2] at ended
      | processing unread wasEmpty woken => simp [(flows.running (by rw [point]; rfl)).2] at ended
      | cancelling => simp [(flows.running (by rw [point]; rfl)).2] at ended
      | finishing woken =>
        rw [point] at owed
        exact owed
      | broadcasting =>
        rw [point] at owed
        exact owed succeeded
      | done =>
        rw [point] at owed
        exact owed succeeded
    refine ⟨succeeded, ?_⟩
    show transfer.returned = transfer.offered
    rw [offered, nothing, ran, List.append_nil, List.append_nil]
  · refine ⟨_, reads, ?_, ⟨rest, ?_, ?_⟩, ?_, flows.ended, ?_, nofun⟩
    · have size := copied.size
      have limit := flows.bounded.bounded
      refine ⟨flows.bounded.range, copied.queued, ?_⟩
      dsimp only at size ⊢
      exact Nat.le_trans size limit
    · show transfer.offered = transfer.returned ++ final.out ++
        final.buffers.flatten.drop final.bufferHeadPos ++ rest
      rw [copied.out, copied.content, List.nil_append, List.append_assoc transfer.returned,
        List.take_append_drop]
      exact offered
    · show CurlPoint.Owes transfer.succeeded (if final.signalReader then transfer.source.curl.wake
        else transfer.source.curl) rest
      split
      · exact (CurlPoint.owes_wake _ _ _).mpr owed
      · exact owed
    · show CurlPoint.running (if final.signalReader then transfer.source.curl.wake
        else transfer.source.curl) = true → _
      split
      · rw [CurlPoint.running_wake]
        exact flows.running
      · exact flows.running
    · intro none
      have idle : transfer.source.curl = .idle := by
        replace none : (if final.signalReader then transfer.source.curl.wake
          else transfer.source.curl) = .idle := none
        split at none
        · exact (CurlPoint.wake_eq_idle _).mp none
        · exact none
      exact absurd (flows.idle idle).2 some

theorem Flows.read (flows : transfer.Flows) (readLength : Nat) :
    ∃ outcome, transfer.source.read readLength = .ok outcome ∧ (transfer.note outcome).Flows := by
  unfold CurlDataSource.read
  dsimp only
  split
  · refine ⟨_, rfl, flows.bounded, ?_, flows.running, flows.ended, flows.idle, nofun⟩
    obtain ⟨rest, offered, owed⟩ := flows.flow
    refine ⟨rest, ?_, owed⟩
    show transfer.offered = transfer.returned ++ [] ++ _ ++ rest
    rw [List.append_nil]
    exact offered
  · exact flows.readLocked _

theorem Flows.refill {offered rest : Bytes} (flows : transfer.Flows)
    (active : transfer.source.curl.running = true) (bounded : next.Bounded)
    (ended : next.eof = transfer.source.eof)
    (all : offered = transfer.returned ++ next.content ++ rest)
    (owes : next.curl.Owes transfer.succeeded rest) (busy : next.curl ≠ .idle) :
    Flows { transfer with source := next, offered } := by
  obtain ⟨failing, uncounted⟩ := flows.running active
  refine ⟨bounded, ⟨rest, all, owes⟩, fun _ => ⟨failing, ended.trans uncounted⟩, ?_,
    fun none => absurd none busy, ?_⟩
  · intro ends
    exact flows.ended (ended ▸ ends)
  · intro ends
    have succeeded := (flows.result ends).1
    rw [failing] at succeeded
    cases succeeded

theorem Flows.fill {unread offered : Bytes} {bufferWasEmpty : Bool} (flows : transfer.Flows)
    (nonempty : unread ≠ []) (active : transfer.source.curl.running = true)
    (all : offered = transfer.returned ++ transfer.source.content ++ unread) :
    Flows { transfer with source := transfer.source.fill unread bufferWasEmpty, offered } := by
  have bounded := flows.bounded
  rcases bounded.fill unread bufferWasEmpty with
    ⟨-, refused⟩ | ⟨-, fits, -, whole⟩ | ⟨first, rest, -, rfl, firstSome, restSome, full, part⟩ |
    ⟨-, -, waits⟩
  · rw [refused]
    exact flows.refill active ⟨bounded.range, bounded.queued, bounded.bounded⟩ rfl all trivial nofun
  · obtain ⟨same, point⟩ := CurlDataSource.finishBody_same (transfer.source.push unread) bufferWasEmpty
    have pushed := bounded.push nonempty fits
    have owes : ((transfer.source.push unread).finishBody bufferWasEmpty).curl.Owes
        transfer.succeeded [] := by
      rw [point]
      rfl
    rw [whole]
    refine flows.refill active (same.bounded pushed) same.ended ?_ owes (by rw [point]; nofun)
    rw [same.content, CurlDataSource.content_push bounded, List.append_nil, all, List.append_assoc]
  · obtain ⟨same, flag, point⟩ :=
      CurlDataSource.waitForSpace_same (transfer.source.push first) rest bufferWasEmpty
    have pushed := bounded.push firstSome (Nat.le_of_eq full)
    have owes : ((transfer.source.push first).waitForSpace rest bufferWasEmpty).curl.Owes
        transfer.succeeded rest := by
      rw [point]
      exact ⟨rfl, restSome⟩
    rw [part]
    refine flows.refill active (same.bounded pushed) same.ended ?_ owes (by rw [point]; nofun)
    rw [same.content, CurlDataSource.content_push bounded, all]
    simp only [List.append_assoc]
  · obtain ⟨same, flag, point⟩ :=
      CurlDataSource.waitForSpace_same transfer.source unread bufferWasEmpty
    have owes : (transfer.source.waitForSpace unread bufferWasEmpty).curl.Owes
        transfer.succeeded unread := by
      rw [point]
      exact ⟨rfl, nonempty⟩
    rw [waits]
    refine flows.refill active (same.bounded bounded) same.ended ?_ owes (by rw [point]; nofun)
    rw [same.content]
    exact all

theorem Flows.body {block : Bytes} (flows : transfer.Flows)
    (point : transfer.source.curl = .performing false) :
    Flows { transfer with
      source := transfer.source.processBodyData block, offered := transfer.offered ++ block } := by
  obtain ⟨rest, offered, owed⟩ := flows.flow
  rw [point] at owed
  have done : rest = [] := owed
  rw [done, List.append_nil] at offered
  have active : transfer.source.curl.running = true := by
    rw [point]
    rfl
  unfold CurlDataSource.processBodyData
  by_cases empty : block = []
  · subst empty
    rw [List.append_nil]
    exact flows
  · rw [List.isEmpty_eq_false_iff.mpr empty]
    exact flows.fill empty active (by rw [offered])

theorem Flows.resumeBody {unread : Bytes} {bufferWasEmpty woken : Bool} (flows : transfer.Flows)
    (point : transfer.source.curl = .processing unread bufferWasEmpty woken) :
    Flows { transfer with source := transfer.source.resumeBody unread bufferWasEmpty } := by
  obtain ⟨rest, offered, owed⟩ := flows.flow
  rw [point] at owed
  obtain ⟨rfl, nonempty⟩ : rest = unread ∧ unread ≠ [] := owed
  have active : transfer.source.curl.running = true := by
    rw [point]
    rfl
  unfold CurlDataSource.resumeBody
  split
  · obtain ⟨same, flag, waiting⟩ :=
      CurlDataSource.waitForSpace_same transfer.source rest bufferWasEmpty
    have owes : (transfer.source.waitForSpace rest bufferWasEmpty).curl.Owes
        transfer.succeeded rest := by
      rw [waiting]
      exact ⟨rfl, nonempty⟩
    exact flows.refill active (same.bounded flows.bounded) same.ended (same.content ▸ offered) owes
      (by rw [waiting]; nofun)
  · exact flows.fill nonempty active offered

theorem Flows.complete (flows : transfer.Flows)
    (point : transfer.source.curl = .performing false) :
    Flows { transfer with source := transfer.source.complete true, succeeded := true } := by
  obtain ⟨rest, offered, owed⟩ := flows.flow
  rw [point] at owed
  have done : rest = [] := owed
  obtain ⟨same, drained⟩ :=
    CurlDataSource.drain_same { transfer.source with eof := true }.signalWriter
  have owes : (transfer.source.complete true).curl.Owes true [] := by
    show CurlPoint.Owes _ (CurlDataSource.drain _).curl _
    rcases drained with waits | goes
    · rw [waits]
      rfl
    · rw [goes]
      exact fun _ => rfl
  refine ⟨same.bounded ⟨flows.bounded.range, flows.bounded.queued, flows.bounded.bounded⟩,
    ⟨[], ?_, owes⟩, ?_, fun _ => rfl, ?_, ?_⟩
  · rw [← done]
    show transfer.offered = transfer.returned ++ CurlDataSource.content (CurlDataSource.drain _) ++ rest
    rw [same.content]
    exact offered
  · show (CurlDataSource.drain _).curl.running = true → _
    rcases drained with waits | goes
    · rw [waits]
      nofun
    · rw [goes]
      nofun
  · show (CurlDataSource.drain _).curl = .idle → _
    rcases drained with waits | goes
    · rw [waits]
      nofun
    · rw [goes]
      nofun
  · intro ends
    exact ⟨rfl, (flows.result ends).2⟩

theorem Flows.reset (flows : transfer.Flows) :
    Flows { transfer with source := transfer.source.reset } := by
  obtain ⟨rest, offered, owed⟩ := flows.flow
  have empty : Queued [] 0 0 := ⟨rfl, by simp, rfl⟩
  refine ⟨⟨flows.bounded.range, empty, Nat.zero_le _⟩, ⟨transfer.source.content ++ rest, ?_, trivial⟩,
    nofun, nofun, fun _ => ⟨rfl, rfl⟩, flows.result⟩
  show transfer.offered = transfer.returned ++ [] ++ (transfer.source.content ++ rest)
  rw [offered, List.append_nil, List.append_assoc]

/-- No step fails, and each keeps the bytes in order. -/
theorem Flows.step {op : TransferOp} {outcome : Except Fault Transfer} (flows : transfer.Flows)
    (steps : transfer.step op = some outcome) : ∃ after, outcome = .ok after ∧ after.Flows := by
  unfold Transfer.step at steps
  dsimp only at steps
  split at steps <;> cases steps
  next _ idle =>
    have nothing : transfer.source.content = [] := by
      rw [CurlDataSource.content, (flows.idle idle).2, List.flatten_nil, List.drop_nil]
    refine ⟨_, rfl, ⟨flows.bounded.range, flows.bounded.queued, flows.bounded.bounded⟩, ⟨[], ?_, rfl⟩,
      fun _ => ⟨rfl, (flows.idle idle).1⟩, ?_, nofun, nofun⟩
    · show [] = [] ++ transfer.source.content ++ []
      rw [nothing]
      rfl
    · intro ends
      have ended : transfer.source.eof = true := ends
      rw [(flows.idle idle).1] at ended
      cases ended
  next readLength _ _ =>
    obtain ⟨result, reads, after⟩ := flows.read readLength
    rw [reads]
    exact ⟨_, rfl, after⟩
  next readLength _ =>
    obtain ⟨result, reads, after⟩ := flows.readLocked readLength
    rw [reads]
    exact ⟨_, rfl, after⟩
  next =>
    refine ⟨_, rfl, ?_⟩
    unfold CurlDataSource.close
    split
    · exact flows.reset
    · exact flows.move ⟨rfl, rfl, rfl, rfl, rfl⟩ (fun _ => id) id id
  next =>
    refine ⟨_, rfl, flows.move ⟨rfl, rfl, rfl, rfl, rfl⟩ ?_ ?_ ?_⟩
    · intro rest
      exact (CurlPoint.owes_wake _ _ rest).mpr
    · exact fun runs => (CurlPoint.running_wake _).symm.trans runs
    · exact (CurlPoint.wake_eq_idle _).mp
  next => exact ⟨_, rfl, flows.reset⟩
  next point => exact ⟨_, rfl, flows.body point⟩
  next point => exact ⟨_, rfl, flows.resumeBody point⟩
  next point =>
    exact ⟨_, rfl, flows.move ⟨rfl, rfl, rfl, rfl, rfl⟩ (fun _ _ => trivial)
      (fun _ => by rw [point]; rfl) nofun⟩
  next point =>
    exact ⟨_, rfl, flows.move ⟨rfl, rfl, rfl, rfl, rfl⟩ (fun _ _ => trivial)
      (fun _ => by rw [point]; rfl) nofun⟩
  next point => exact ⟨_, rfl, flows.complete point⟩
  next refused point =>
    have failing := (flows.running (by rw [point]; rfl)).1
    refine ⟨_, rfl, flows.move ⟨rfl, rfl, rfl, rfl, rfl⟩ ?_ nofun nofun⟩
    intro rest _ succeeded
    rw [failing] at succeeded
    cases succeeded
  next point =>
    obtain ⟨same, drained⟩ := CurlDataSource.drain_same transfer.source
    refine ⟨_, rfl, flows.move same ?_ ?_ ?_⟩
    · intro rest owed
      rw [point] at owed
      rcases drained with waits | goes
      · rw [waits]
        exact owed
      · rw [goes]
        exact fun _ => owed
    · rcases drained with waits | goes
      · rw [waits]
        nofun
      · rw [goes]
        nofun
    · rcases drained with waits | goes
      · rw [waits]
        nofun
      · rw [goes]
        nofun
  next point =>
    refine ⟨_, rfl, flows.move ⟨rfl, rfl, rfl, rfl, rfl⟩ ?_ nofun nofun⟩
    intro rest owed
    rw [point] at owed
    exact owed

end Transfer

theorem transferSystem_flows {maxBufferSize : Nat} (range : maxBufferSize < 18446744073709551616)
    {transfer : Transfer} (reachable : Reachable (transferSystem maxBufferSize) transfer) :
    transfer.Flows := by
  refine Reachable.invariant Transfer.Flows ?_ ?_ reachable
  · rintro _ rfl
    exact ⟨⟨range, ⟨rfl, by simp, rfl⟩, Nat.zero_le _⟩, ⟨[], rfl, trivial⟩, nofun, nofun,
      fun _ => ⟨rfl, rfl⟩, nofun⟩
  · intro state op next flows step
    obtain ⟨after, reached, afterFlows⟩ := flows.step step
    cases reached
    exact afterFlows

/-- In every interleaving, Read returns the bytes that were offered, in order, from a buffer within
its bounds, and the end of the input behind the last byte of a successful transfer. -/
theorem curlDataSource_pipe (maxBufferSize : Nat) (range : maxBufferSize < 18446744073709551616)
    (transfer : Transfer)
    (reachable : Reachable (transferSystem maxBufferSize) transfer) :
    transfer.returned <+: transfer.offered ∧
      transfer.source.bytesBuffered = (transfer.source.buffers.map List.length).sum ∧
      transfer.source.bytesBuffered ≤ transfer.source.maxBufferSize ∧
      HeadPosition transfer.source.buffers transfer.source.bufferHeadPos ∧
      (transfer.result = some .endOfInput →
        transfer.succeeded = true ∧ transfer.returned = transfer.offered) ∧
      ∀ op fault, transfer.step op ≠ some (.error fault) := by
  have flows := transferSystem_flows range reachable
  obtain ⟨rest, offered, -⟩ := flows.flow
  refine ⟨⟨transfer.source.content ++ rest, ?_⟩, flows.bounded.queued.counted,
    flows.bounded.bounded, flows.bounded.queued.head, flows.result, ?_⟩
  · rw [offered, List.append_assoc]
  · intro op fault fails
    obtain ⟨after, reached, -⟩ := flows.step fails
    cases reached

-- A block of three bytes through a buffer of two.
theorem curlDataSource_pipe_split :
    ∃ transfer : Transfer, transfer.returned = [1, 2, 3] ∧ transfer.result = some .endOfInput ∧
      transfer.returned <+: transfer.offered ∧
      transfer.source.bytesBuffered = (transfer.source.buffers.map List.length).sum ∧
      transfer.source.bytesBuffered ≤ transfer.source.maxBufferSize ∧
      HeadPosition transfer.source.buffers transfer.source.bufferHeadPos ∧
      (transfer.result = some .endOfInput →
        transfer.succeeded = true ∧ transfer.returned = transfer.offered) ∧
      ∀ op fault, transfer.step op ≠ some (.error fault) := by
  have start := Reachable.start (transferSystem 2) rfl
  have opened := start.next .open rfl
  have first := opened.next (.body [1, 2, 3]) rfl
  have second := first.next (.read 1) rfl
  have third := second.next (.read 5) rfl
  have fourth := third.next .resumeBody rfl
  have fifth := fourth.next (.complete true) rfl
  have sixth := fifth.next (.read 5) rfl
  have seventh := sixth.next (.read 5) rfl
  exact ⟨_, rfl, rfl, curlDataSource_pipe 2 (by decide) _ seventh⟩

end NDash.Upstream

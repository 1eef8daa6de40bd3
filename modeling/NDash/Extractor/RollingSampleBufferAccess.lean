import NDash.Extractor.RollingSampleBufferDiscard

set_option autoImplicit false

namespace NDash.Extractor

open Machine Upstream

namespace RollingSampleBuffer

variable {buffer next : RollingSampleBuffer} {stream : Bytes}

theorem Stored.last_block (stored : buffer.Stored stream)
    (partly : buffer.lastAllocationOffset < buffer.allocationLength) :
    ∃ block, buffer.dataQueue.getLast? = some block ∧ buffer.lastAllocation = some block := by
  have last := stored.last partly
  have span := stored.span
  have droppedUpper := stored.droppedUpper
  cases final : buffer.dataQueue.getLast? with
  | none =>
    rw [List.getLast?_eq_none_iff.mp final, List.length_nil] at span
    omega
  | some block => exact ⟨block, rfl, last.trans final⟩

end RollingSampleBuffer

namespace Recording

def Callable (state : Recording) : RecordingOp → Prop
  | .skipSample => state.buffer.getReadIndex < state.buffer.getWriteIndex
  | .discardUpstreamSamples index =>
    state.buffer.getReadIndex ≤ index ∧ index ≤ state.buffer.getWriteIndex
  | _ => True

def Safe (fresh : Fresh) (state : Recording) (op : RecordingOp) : Prop :=
  state.apply fresh op ≠ .error .emptyDataQueue ∧
    match op with
    | .append src _ =>
      let prepared := (state.buffer.prepareForAppend (toInt32 src.length)).2
      ∃ block, prepared.dataQueue.getLast? = some block ∧ prepared.lastAllocation = some block
    | _ => True

def KeepsBlock (state : Recording) : RecordingOp → Prop
  | .commitSample metadata => state.Legal (.commitSample metadata) ∧ metadata.record.Readable
  | .discardUpstreamSamples index => state.KeepsCut index
  | _ => True

-- With the queue empty, a ring that has grown has lost the last sample read.
def Remembers (state : Recording) (index : Nat) : Prop :=
  index = state.buffer.getWriteIndex →
    state.buffer.getReadIndex = 0 ∨ state.buffer.getReadIndex < state.buffer.getWriteIndex ∨
      state.grown = false

end Recording

def accessSystem (size : Nat) (uninitialized : BlockId → Nat → UInt8) (fresh : Fresh) :
    System Recording RecordingOp where
  Start state := state = { buffer := .initial (.initial size uninitialized) fresh }
  Step state op next := state.Callable op ∧ state.apply fresh op = .ok next

def BlocksKept (state : Recording) (op : RecordingOp) (next : Recording) : Prop :=
  next.buffer.getWritePosition - next.buffer.totalBytesDropped < 2147483648 ∧ state.KeepsBlock op

namespace Recording

variable {state : Recording} {fifo : SampleFifo}

theorem append_safe (fresh : Fresh) (src : Bytes) (allowEndOfInput : Bool)
    (recorded : state.Recorded fifo) : state.Safe fresh (.append src allowEndOfInput) := by
  obtain ⟨prepared, kept, -, partly, limit⟩ :=
    RollingSampleBuffer.prepareForAppend_stored recorded.sound.stored (toInt32 src.length)
  refine ⟨?_, prepared.last_block (by rw [kept.allocationLength]; exact partly)⟩
  by_cases nonneg : 0 ≤ toInt32 src.length
  · obtain ⟨count, buffer, appends, -⟩ := RollingSampleBuffer.appendDataFixThis_stored
      recorded.sound.stored allowEndOfInput nonneg
    simp [apply, appends, bind, Except.bind]
  · have negative : (state.buffer.prepareForAppend (toInt32 src.length)).1 < 0 := by
      have := kept.allocationLength
      omega
    simp [apply, RollingSampleBuffer.appendDataFixThis, RollingSampleBuffer.copyToLastAllocation,
      negative, bind, Except.bind]

theorem not_emptyDataQueue {fresh : Fresh} {op : RecordingOp}
    (reached : ∃ next fifo', state.apply fresh op = .ok next ∧ next.Recorded fifo') :
    state.apply fresh op ≠ .error .emptyDataQueue := by
  obtain ⟨next, -, applied, -⟩ := reached
  rw [applied]
  nofun

-- The discard ends in the truncation it makes, or at `back()` of the queue that this has emptied.
theorem discard_outcome {index : Nat} (recorded : state.Recorded fifo)
    (callable : state.Callable (.discardUpstreamSamples index)) (remembers : state.Remembers index) :
    ∃ buffer, state.buffer.discardUpstreamSamples index =
        (if buffer.dataQueue = [] then .error .emptyDataQueue else .ok buffer) ∧
      (buffer.dataQueue ≠ [] ↔ state.KeepsCut index) := by
  have held := recorded.sound.held
  have behind := recorded.sound.behind
  have nonneg := recorded.sound.stored.droppedLower
  have total := recorded.total
  by_cases known : state.KnowsCut index
  · have position := discard_position recorded callable known
    have reaches : (bytesOf (state.history.take index)).length ≤ state.stream.length := by
      rw [state.stream_split index, List.length_append]
      omega
    have order := length_bytesOf_take state.history
      (show fifo.consumed ≤ index by rw [← recorded.readIndex]; exact callable.1)
    obtain ⟨buffer, truncates, blocks⟩ := RollingSampleBuffer.truncate_blocks
      (recorded.sound.stored.withInfoQueue (state.buffer.infoQueue.discardUpstreamSamples index).2)
      (show state.buffer.totalBytesDropped ≤ (bytesOf (state.history.take index)).length by omega)
      (by omega) held
    rw [← position] at truncates
    refine ⟨buffer, RollingSampleBuffer.discardUpstreamSamples_eq truncates, ?_⟩
    simp only [blocks, KeepsCut, known, true_and]
  · -- Nothing read yet: the info queue answers position 0, where the blocks begin.
    have unread : state.buffer.getReadIndex = 0 ∧ index = state.buffer.getWriteIndex := by
      simp only [KnowsCut, Classical.not_imp] at known
      obtain ⟨last, lost⟩ := known
      split at lost
      next zero => exact ⟨zero, last⟩
      next read => exact absurd ((remembers last).resolve_left read) lost
    have start : fifo.consumed = 0 := recorded.readIndex ▸ unread.1
    have position := InfoQueue.discardUpstreamSamples_unread recorded.sound.refines start
    rw [← recorded.writeIndex, ← unread.2] at position
    have dropped : state.buffer.totalBytesDropped = 0 := by
      simp only [start, List.take_zero, bytesOf, List.map_nil, List.flatten_nil, List.length_nil]
        at behind
      omega
    obtain ⟨buffer, truncates, blocks⟩ := RollingSampleBuffer.truncate_blocks
      (recorded.sound.stored.withInfoQueue (state.buffer.infoQueue.discardUpstreamSamples index).2)
      (show state.buffer.totalBytesDropped ≤ 0 by omega) (by omega) held
    rw [← position] at truncates
    refine ⟨buffer, RollingSampleBuffer.discardUpstreamSamples_eq truncates, ?_⟩
    simp only [blocks, dropped, KeepsCut, known, false_and, Int.lt_irrefl]

theorem discard_safe_iff (fresh : Fresh) {index : Nat} (recorded : state.Recorded fifo)
    (callable : state.Callable (.discardUpstreamSamples index)) (remembers : state.Remembers index) :
    state.Safe fresh (.discardUpstreamSamples index) ↔
      state.KeepsBlock (.discardUpstreamSamples index) := by
  obtain ⟨buffer, discards, leaves⟩ := discard_outcome recorded callable remembers
  rw [KeepsBlock, ← leaves]
  simp only [Safe, apply, discards, and_true]
  split
  next empty => simp [empty, bind, Except.bind]
  next blocks => simp [blocks, bind, Except.bind]

theorem KnowsCut.remembers {index : Nat} (known : state.KnowsCut index) : state.Remembers index := by
  intro last
  have answer := known last
  split at answer
  next unread => exact .inl unread
  next => exact .inr answer

theorem Recorded.safe (fresh : Fresh) {op : RecordingOp} (recorded : state.Recorded fifo)
    (callable : state.Callable op) (keeps : state.KeepsBlock op) : state.Safe fresh op := by
  cases op with
  | append src allowEndOfInput => exact append_safe fresh src allowEndOfInput recorded
  | commitSample metadata => exact ⟨nofun, trivial⟩
  | readSample holder =>
    rcases readSample_answers fresh holder recorded with ⟨⟨fault, fails, queued⟩, -⟩ | reached
    · refine ⟨?_, trivial⟩
      rw [fails]
      simpa using queued
    · exact ⟨not_emptyDataQueue reached, trivial⟩
  | skipSample => exact ⟨not_emptyDataQueue (skipSample_recorded fresh recorded callable), trivial⟩
  | skipToKeyframeBefore timeUs =>
    exact ⟨not_emptyDataQueue (skipToKeyframeBefore_recorded fresh timeUs recorded), trivial⟩
  | discardUpstreamSamples index =>
    exact (discard_safe_iff fresh recorded callable keeps.1.remembers).mpr keeps
  | clear => exact ⟨not_emptyDataQueue (clear_recorded fresh recorded), trivial⟩

theorem access_recorded (fresh : Fresh) {op : RecordingOp} {next : Recording}
    (recorded : state.Recorded fifo) (callable : state.Callable op)
    (applied : state.apply fresh op = .ok next) (kept : BlocksKept state op next) :
    ∃ fifo', next.Recorded fifo' := by
  obtain ⟨limit, keeps⟩ := kept
  cases op with
  | append => exact apply_recorded fresh recorded (by trivial) applied ⟨limit, trivial⟩
  | commitSample => exact apply_recorded fresh recorded keeps.1 applied ⟨limit, keeps.2⟩
  | readSample holder =>
    rcases readSample_answers fresh holder recorded with
      ⟨⟨fault, fails, -⟩, -⟩ | ⟨reached, fifo', reads, after⟩
    · rw [fails] at applied
      cases applied
    · rw [reads] at applied
      cases applied
      exact ⟨fifo', after⟩
  | skipSample => exact apply_recorded fresh recorded (by exact callable) applied ⟨limit, trivial⟩
  | skipToKeyframeBefore => exact apply_recorded fresh recorded (by trivial) applied ⟨limit, trivial⟩
  | discardUpstreamSamples => exact apply_recorded fresh recorded (by exact callable) applied ⟨limit, keeps⟩
  | clear => exact apply_recorded fresh recorded (by trivial) applied ⟨limit, trivial⟩

end Recording

theorem accessSystem_recorded {size : Nat} (positive : 0 < size) (small : size < 2147483648)
    {uninitialized : BlockId → Nat → UInt8} {fresh : Fresh} {state : Recording}
    (reachable : Reachable ((accessSystem size uninitialized fresh).restrict BlocksKept) state) :
    ∃ fifo, state.Recorded fifo := by
  refine Reachable.invariant (fun state => ∃ fifo, state.Recorded fifo) ?_ ?_ reachable
  · rintro _ rfl
    exact ⟨{}, Recording.initial_recorded positive small uninitialized fresh⟩
  · rintro state op next ⟨fifo, recorded⟩ ⟨⟨callable, applied⟩, kept⟩
    exact Recording.access_recorded fresh recorded callable applied kept

theorem rollingSampleBuffer_accesses_blocks (size : Nat) (positive : 0 < size)
    (small : size < 2147483648) (uninitialized : BlockId → Nat → UInt8) (fresh : Fresh)
    (state : Recording)
    (reachable : Reachable ((accessSystem size uninitialized fresh).restrict BlocksKept) state) :
    (∀ op, state.Callable op → state.KeepsBlock op → state.Safe fresh op) ∧
      ∀ index, state.Callable (.discardUpstreamSamples index) → state.Remembers index →
        (state.Safe fresh (.discardUpstreamSamples index) ↔
          state.KeepsBlock (.discardUpstreamSamples index)) := by
  obtain ⟨fifo, recorded⟩ := accessSystem_recorded positive small reachable
  refine ⟨?_, ?_⟩
  · intro op callable keeps
    exact recorded.safe fresh callable keeps
  · intro index callable remembers
    exact Recording.discard_safe_iff fresh recorded callable remembers

-- A sample read out of a block that is not full: the cut behind it keeps that block.
theorem rollingSampleBuffer_accesses_blocks_after_read :
    ∃ state : Recording, state.history.length = 1 ∧ state.buffer.getReadIndex = 1 ∧
      state.Safe .zero (.discardUpstreamSamples 1) ∧ state.Safe .zero (.append [4] false) := by
  have first := Reachable.start ((accessSystem 3 (fun _ _ => 0) .zero).restrict BlocksKept) rfl
  have second := first.next (.append [1, 2, 3] false) ⟨⟨trivial, rfl⟩, by decide, trivial⟩
  have third := second.next (.commitSample twoByteSample)
    ⟨⟨trivial, rfl⟩, by decide, ⟨rfl, by decide, by decide⟩,
      fun encrypted => absurd encrypted (by decide)⟩
  have fourth := third.next .skipSample ⟨⟨Nat.zero_lt_one, rfl⟩, by decide, trivial⟩
  obtain ⟨safe, -⟩ := rollingSampleBuffer_accesses_blocks 3 (by decide) (by decide) _ _ _ fourth
  exact ⟨_, rfl, rfl, safe (.discardUpstreamSamples 1) ⟨by decide, by decide⟩ ⟨fun _ => .inr rfl, by decide⟩,
    safe (.append [4] false) trivial trivial⟩

-- Discarding every sample of a queue nothing was read from releases all blocks before `back()`.
theorem rollingSampleBuffer_accesses_emptied_queue :
    ∃ state : Recording,
      Run (accessSystem 3 (fun _ _ => 0) .zero) { buffer := .initial (.initial 3 fun _ _ => 0) .zero }
        [.append [1, 2, 3] false, .commitSample twoByteSample] state ∧
      state.Callable (.discardUpstreamSamples 0) ∧ ¬ state.Safe .zero (.discardUpstreamSamples 0) := by
  refine ⟨_, .cons ⟨trivial, rfl⟩ (.cons ⟨trivial, rfl⟩ (.nil _)), ⟨by decide, by decide⟩, ?_⟩
  rintro ⟨succeeds, -⟩
  exact succeeds rfl

end NDash.Extractor

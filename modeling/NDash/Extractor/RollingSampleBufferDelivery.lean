import NDash.Extractor.RollingSampleBufferSamples

set_option autoImplicit false

namespace NDash.Extractor

open Machine Upstream

structure PendingSample where
  start : Int
  bytes : Bytes
  remaining : Bytes

structure Transfer where
  buffer : RollingSampleBuffer
  pending : Option PendingSample := none
  queued : List CommittedSample := []

inductive TransferOp
  | beginSample (bytes : Bytes)
  | append (length : Nat) (allowEndOfInput : Bool)
  | commitSample (timeUs durationUs : Int) (flags : BitVec 32)
  | readSample (holder : SampleHolder)
  | skipSample
  | skipToKeyframeBefore (timeUs : Int)
  | clear

namespace Transfer

def Legal (state : Transfer) : TransferOp → Prop
  | .beginSample bytes =>
    state.pending = none ∧ state.buffer.getWritePosition + bytes.length < 2147483648
  | .append _ _ => state.pending.isSome = true
  | .commitSample _ _ flags =>
    hasFlag flags kSampleFlagEncrypted = false ∧
      ∃ pending, state.pending = some pending ∧ pending.remaining = []
  | .readSample holder => holder.Empty
  | .skipSample => state.queued ≠ []
  | .skipToKeyframeBefore _ => True
  | .clear => state.pending = none

def apply (fresh : Fresh) (state : Transfer) : TransferOp → Except Fault Transfer
  | .beginSample bytes =>
    .ok { state with pending := some ⟨state.buffer.getWritePosition, bytes, bytes⟩ }
  | .append length allowEndOfInput =>
    match state.pending with
    | none => .ok state
    | some pending => do
      let (_, count, buffer) ← state.buffer.appendDataFixThis (pending.remaining.take length)
        allowEndOfInput
      .ok { state with
        buffer
        pending := some { pending with
          remaining := pending.remaining.drop (count.getD 0).toNat } }
  | .commitSample timeUs durationUs flags =>
    match state.pending with
    | none => .ok state
    | some pending =>
      .ok
        { buffer := state.buffer.commitSample fresh
            { timeUs, durationUs, flags, offset := pending.start, size := pending.bytes.length }
          pending := none
          queued := state.queued ++ [{ timeUs, durationUs, flags, bytes := pending.bytes }] }
  | .readSample holder => do
    let (haveSample, _, buffer) ← state.buffer.readSample holder
    .ok { state with
      buffer
      queued := if haveSample then state.queued.tail else state.queued }
  | .skipSample => do
    let buffer ← state.buffer.skipSample
    .ok { state with buffer, queued := state.queued.tail }
  | .skipToKeyframeBefore timeUs => do
    let (_, buffer) ← state.buffer.skipToKeyframeBefore timeUs
    .ok { state with
      buffer
      queued := state.queued.drop (buffer.getReadIndex - state.buffer.getReadIndex) }
  | .clear => do
    let buffer ← state.buffer.clear
    .ok { buffer }

end Transfer

def transferSystem (size : Nat) (uninitialized : BlockId → Nat → UInt8) (fresh : Fresh) :
    System Transfer TransferOp where
  Start state := state = { buffer := .initial (.initial size uninitialized) fresh }
  Step state op next := state.Legal op ∧ state.apply fresh op = .ok next

namespace Transfer

def Appending (stream : Bytes) (committedEnd : Int) (pending : PendingSample) : Prop :=
  pending.start = committedEnd ∧ stream.drop committedEnd.toNat ++ pending.remaining = pending.bytes ∧
    committedEnd + pending.bytes.length < 2147483648

structure Agrees (state : Transfer) (fifo : SampleFifo) (stream : Bytes)
    (readPosition committedEnd : Int) : Prop where
  sound : state.buffer.Sound fifo stream readPosition committedEnd
  small : stream.length < 2147483648
  queued : fifo.queue.map (.ofRecord stream) = state.queued
  idle : state.pending = none → committedEnd = stream.length
  appending : ∀ pending, state.pending = some pending → Appending stream committedEnd pending

def Agreed (state : Transfer) : Prop :=
  ∃ fifo stream readPosition committedEnd, state.Agrees fifo stream readPosition committedEnd

variable {state : Transfer} {fifo : SampleFifo} {stream : Bytes} {readPosition committedEnd : Int}

theorem beginSample_agreed (fresh : Fresh) {bytes : Bytes}
    (agrees : state.Agrees fifo stream readPosition committedEnd)
    (legal : state.Legal (.beginSample bytes)) :
    ∃ next, state.apply fresh (.beginSample bytes) = .ok next ∧ next.Agreed := by
  obtain ⟨none, fits⟩ := legal
  have finish := agrees.idle none
  have written : state.buffer.getWritePosition = stream.length := agrees.sound.stored.written
  refine ⟨_, rfl, fifo, stream, readPosition, committedEnd, agrees.sound, agrees.small, agrees.queued,
    ?_, ?_⟩
  · intro absent
    simp at absent
  · intro pending same
    simp only [Option.some.injEq] at same
    subst same
    refine ⟨?_, ?_, ?_⟩
    · simp only
      omega
    · simp [finish]
    · simp only
      omega

theorem append_agreed (fresh : Fresh) {length : Nat} {allowEndOfInput : Bool}
    (agrees : state.Agrees fifo stream readPosition committedEnd)
    (legal : state.Legal (.append length allowEndOfInput)) :
    ∃ next, state.apply fresh (.append length allowEndOfInput) = .ok next ∧ next.Agreed := by
  obtain ⟨pending, present⟩ := Option.isSome_iff_exists.mp legal
  obtain ⟨start, whole, fits⟩ := agrees.appending pending present
  have inside := agrees.sound.inside
  have nonneg := Int.le_trans agrees.sound.nonneg agrees.sound.laid.le
  have dropped := agrees.sound.stored.droppedLower
  have total : stream.length - committedEnd + pending.remaining.length = pending.bytes.length := by
    rw [← whole, List.length_append, List.length_drop]
    omega
  have passed : (pending.remaining.take length).length ≤ pending.remaining.length :=
    List.length_take_le' _ _
  have narrow : toInt32 (pending.remaining.take length).length =
      (pending.remaining.take length).length := toInt32_of_range (by omega) (by omega)
  obtain ⟨count, next, appends, sound, -, counted⟩ :=
    RollingSampleBuffer.appendDataFixThis_sound agrees.sound allowEndOfInput
      (show 0 ≤ toInt32 (pending.remaining.take length).length by omega) (by omega)
  have taken : (pending.remaining.take length).take count = pending.remaining.take count := by
    rw [List.take_take, Nat.min_eq_left]
    have bounded : (pending.remaining.take length).length ≤ length := List.length_take_le _ _
    omega
  rw [taken] at sound
  refine ⟨{ state with
      buffer := next
      pending := some { pending with remaining := pending.remaining.drop count } }, ?_, fifo,
    stream ++ pending.remaining.take count, readPosition, committedEnd, sound, ?_, ?_, ?_, ?_⟩
  · simp only [apply, present, appends, bind, Except.bind, Option.getD_some, Int.toNat_natCast]
  · rw [List.length_append, List.length_take]
    omega
  · rw [agrees.sound.laid.map_ofRecord_append _ agrees.sound.nonneg inside]
    exact agrees.queued
  · intro absent
    simp at absent
  · intro later same
    simp only [Option.some.injEq] at same
    subst same
    refine ⟨start, ?_, fits⟩
    rw [List.drop_append_of_le_length (by omega), List.append_assoc, List.take_append_drop]
    exact whole

theorem commitSample_agreed (fresh : Fresh) {timeUs durationUs : Int} {flags : BitVec 32}
    (agrees : state.Agrees fifo stream readPosition committedEnd)
    (legal : state.Legal (.commitSample timeUs durationUs flags)) :
    ∃ next, state.apply fresh (.commitSample timeUs durationUs flags) = .ok next ∧ next.Agreed := by
  obtain ⟨plain, pending, present, complete⟩ := legal
  obtain ⟨start, whole, fits⟩ := agrees.appending pending present
  have inside := agrees.sound.inside
  have nonneg := Int.le_trans agrees.sound.nonneg agrees.sound.laid.le
  rw [complete, List.append_nil] at whole
  have size : committedEnd + pending.bytes.length = stream.length := by
    rw [← whole, List.length_drop]
    omega
  let metadata : SampleMetadata :=
    { timeUs, durationUs, flags, offset := pending.start, size := pending.bytes.length }
  have laid : Laid readPosition (fifo.queue ++ [metadata.record]) (pending.start + pending.bytes.length) :=
    agrees.sound.laid.snoc (by simp [metadata, SampleMetadata.record, start])
      (by simp [metadata, SampleMetadata.record])
  have readable : metadata.record.Readable := by
    intro encrypted
    have : hasFlag flags kSampleFlagEncrypted = true := encrypted
    simp [plain] at this
  have sound := RollingSampleBuffer.commitSample_sound agrees.sound fresh laid (by omega) readable
  refine ⟨{ buffer := state.buffer.commitSample fresh metadata
            pending := none
            queued := state.queued ++ [{ timeUs, durationUs, flags, bytes := pending.bytes }] },
    ?_, fifo.commit metadata.record, stream, readPosition, pending.start + pending.bytes.length, sound,
    agrees.small, ?_, ?_, ?_⟩
  · simp only [apply, present, metadata]
  · have bytes : slice stream metadata.record = pending.bytes := by
      simp only [slice, metadata, SampleMetadata.record, start, Int.toNat_natCast, whole,
        List.take_length]
    simp only [SampleFifo.commit, List.map_append, agrees.queued, List.map_singleton,
      CommittedSample.ofRecord, bytes]
    rfl
  · intro _
    omega
  · intro later same
    simp at same

theorem consume_agreed {next : RollingSampleBuffer} {position : Int} {count : Nat}
    (agrees : state.Agrees fifo stream readPosition committedEnd)
    (sound : next.Sound (fifo.consume count) stream position committedEnd) :
    Agreed { state with buffer := next, queued := state.queued.drop count } := by
  refine ⟨fifo.consume count, stream, position, committedEnd, sound, agrees.small, ?_, agrees.idle,
    agrees.appending⟩
  simp only [SampleFifo.consume, List.map_drop, agrees.queued]

theorem readSample_agreed (fresh : Fresh) {holder : SampleHolder}
    (agrees : state.Agrees fifo stream readPosition committedEnd)
    (legal : state.Legal (.readSample holder)) :
    ∃ next, state.apply fresh (.readSample holder) = .ok next ∧ next.Agreed := by
  cases present : fifo.queue with
  | nil =>
    refine ⟨state, ?_, fifo, stream, readPosition, committedEnd, agrees⟩
    simp [apply, RollingSampleBuffer.readSample_empty agrees.sound.refines present, bind, Except.bind]
  | cons sample rest =>
    rcases RollingSampleBuffer.readSample_sound agrees.sound present holder with
      ⟨-, notEmpty⟩ | ⟨filled, next, reads, sound, -, -⟩
    · exact absurd legal notEmpty
    · refine ⟨_, ?_, consume_agreed agrees sound⟩
      simp only [apply, reads, bind, Except.bind, if_true, List.drop_one]

theorem skipSample_agreed (fresh : Fresh) (agrees : state.Agrees fifo stream readPosition committedEnd)
    (legal : state.Legal .skipSample) :
    ∃ next, state.apply fresh .skipSample = .ok next ∧ next.Agreed := by
  have nonempty : fifo.queue ≠ [] := by
    intro empty
    apply legal
    rw [← agrees.queued, empty, List.map_nil]
  obtain ⟨next, skips, sound, -⟩ := RollingSampleBuffer.skipSample_sound agrees.sound nonempty
  refine ⟨_, ?_, consume_agreed agrees sound⟩
  simp only [apply, skips, bind, Except.bind, List.drop_one]

theorem skipToKeyframeBefore_agreed (fresh : Fresh) (timeUs : Int)
    (agrees : state.Agrees fifo stream readPosition committedEnd) :
    ∃ next, state.apply fresh (.skipToKeyframeBefore timeUs) = .ok next ∧ next.Agreed := by
  obtain ⟨found, next, skips, -, sound⟩ :=
    RollingSampleBuffer.skipToKeyframeBefore_sound agrees.sound timeUs
  have before : state.buffer.getReadIndex = fifo.consumed := agrees.sound.refines.read
  have after : next.getReadIndex = (fifo.skipToKeyframeBefore timeUs).2.consumed := sound.refines.read
  obtain ⟨count, counted⟩ : ∃ count, (fifo.skipToKeyframeBefore timeUs).2 = fifo.consume count := by
    unfold SampleFifo.skipToKeyframeBefore
    cases fifo.keyframeBefore timeUs with
    | none => exact ⟨0, by simp [SampleFifo.consume]⟩
    | some count => exact ⟨count, rfl⟩
  rw [counted] at after sound
  refine ⟨_, ?_, consume_agreed agrees sound⟩
  simp only [apply, skips, bind, Except.bind, after, before, SampleFifo.consume, Nat.add_sub_cancel_left]

theorem clear_agreed (fresh : Fresh) (agrees : state.Agrees fifo stream readPosition committedEnd) :
    ∃ next, state.apply fresh .clear = .ok next ∧ next.Agreed := by
  obtain ⟨next, clears, sound, -, -⟩ := RollingSampleBuffer.clear_sound agrees.sound
  refine ⟨{ buffer := next }, ?_, {}, [], 0, 0, sound, by simp, rfl, ?_, ?_⟩
  · simp only [apply, clears, bind, Except.bind]
  · intro _
    rfl
  · intro pending same
    simp at same

theorem apply_agreed (fresh : Fresh) (agreed : state.Agreed) {op : TransferOp}
    (legal : state.Legal op) : ∃ next, state.apply fresh op = .ok next ∧ next.Agreed := by
  obtain ⟨fifo, stream, readPosition, committedEnd, agrees⟩ := agreed
  cases op with
  | beginSample bytes => exact beginSample_agreed fresh agrees legal
  | append length allowEndOfInput => exact append_agreed fresh agrees legal
  | commitSample timeUs durationUs flags => exact commitSample_agreed fresh agrees legal
  | readSample holder => exact readSample_agreed fresh agrees legal
  | skipSample => exact skipSample_agreed fresh agrees legal
  | skipToKeyframeBefore timeUs => exact skipToKeyframeBefore_agreed fresh timeUs agrees
  | clear => exact clear_agreed fresh agrees

def Delivers (state : Transfer) : Prop :=
  ∀ holder : SampleHolder, holder.Empty →
    match state.queued with
    | [] => state.buffer.readSample holder = .ok (false, holder, state.buffer)
    | sample :: _ => ∃ filled next,
        state.buffer.readSample holder = .ok (true, filled, next) ∧ Carries filled sample

theorem Agreed.delivers (agreed : state.Agreed) : state.Delivers := by
  obtain ⟨fifo, stream, readPosition, committedEnd, agrees⟩ := agreed
  intro holder empty
  rw [← agrees.queued]
  cases present : fifo.queue with
  | nil => exact RollingSampleBuffer.readSample_empty agrees.sound.refines present holder
  | cons sample rest =>
    rcases RollingSampleBuffer.readSample_sound agrees.sound present holder with
      ⟨-, notEmpty⟩ | ⟨filled, next, reads, -, -, carries⟩
    · exact absurd empty notEmpty
    · exact ⟨filled, next, reads, carries empty⟩

end Transfer

theorem transferSystem_agreed {size : Nat} (positive : 0 < size) (small : size < 2147483648)
    {uninitialized : BlockId → Nat → UInt8} {fresh : Fresh} {state : Transfer}
    (reachable : Reachable (transferSystem size uninitialized fresh) state) : state.Agreed := by
  refine Reachable.invariant Transfer.Agreed ?_ ?_ reachable
  · rintro _ rfl
    have stored := RollingSampleBuffer.initial_stored (.initial size uninitialized) fresh rfl rfl rfl
      positive small (by intro block; simp [Allocator.initial])
    refine ⟨{}, [], 0, 0, RollingSampleBuffer.initial_sound stored, by simp, rfl, ?_, ?_⟩
    · intro _
      rfl
    · intro pending same
      simp at same
  · intro state op next agreed step
    obtain ⟨reached, applied, agreedNext⟩ := Transfer.apply_agreed fresh agreed step.1
    rw [step.2] at applied
    cases applied
    exact agreedNext

theorem rollingSampleBuffer_delivers_committed (size : Nat) (positive : 0 < size)
    (small : size < 2147483648) (uninitialized : BlockId → Nat → UInt8) (fresh : Fresh)
    (state : Transfer) (reachable : Reachable (transferSystem size uninitialized fresh) state) :
    state.Delivers ∧
      ∀ op, state.Legal op → ∃ next, (transferSystem size uninitialized fresh).Step state op next := by
  have agreed := transferSystem_agreed positive small reachable
  refine ⟨agreed.delivers, ?_⟩
  intro op legal
  obtain ⟨next, applied, -⟩ := Transfer.apply_agreed fresh agreed legal
  exact ⟨next, legal, applied⟩

-- Four bytes in blocks of three: the sample straddles two allocations.
theorem rollingSampleBuffer_delivers_straddling_sample :
    ∃ state : Transfer,
      state.queued = [⟨40, 20, kSampleFlagSync, [1, 2, 3, 4]⟩] ∧ state.Delivers := by
  have first := Reachable.start (transferSystem 3 (fun _ _ => 0) .zero) rfl
  have second := first.next (.beginSample [1, 2, 3, 4]) ⟨⟨rfl, by decide⟩, rfl⟩
  have third := second.next (.append 4 false) ⟨rfl, rfl⟩
  have fourth := third.next (.append 4 false) ⟨rfl, rfl⟩
  have fifth := fourth.next (.commitSample 40 20 kSampleFlagSync) ⟨⟨by decide, _, rfl, rfl⟩, rfl⟩
  exact ⟨_, rfl,
    (rollingSampleBuffer_delivers_committed 3 (by decide) (by decide) _ _ _ fifth).1⟩

end NDash.Extractor

import NDash.Extractor.RollingSampleBufferSamples

set_option autoImplicit false

namespace NDash.Extractor

open Machine Upstream

structure Holding where
  buffer : RollingSampleBuffer
  stream : Bytes := []
  readPosition : Int := 0

inductive HoldingOp
  | append (src : Bytes) (allowEndOfInput : Bool)
  | commitSample (metadata : SampleMetadata)
  | readSample (holder : SampleHolder)
  | skipSample
  | skipToKeyframeBefore (timeUs : Int)
  | clear
  | truncate (discardFromIndex : Nat) (position : Int)

namespace Holding

-- A commit names appended bytes behind the queued samples, a truncation spares those it retains.
def Legal (state : Holding) : HoldingOp → Prop
  | .commitSample metadata =>
    Laid state.readPosition (state.buffer.infoQueue.samples ++ [metadata.record])
      state.buffer.getWritePosition
  | .skipSample => state.buffer.infoQueue.samples ≠ []
  | .truncate index position =>
    state.buffer.getReadIndex ≤ index ∧ index ≤ state.buffer.getWriteIndex ∧
      Laid state.readPosition
        (state.buffer.infoQueue.samples.take (index - state.buffer.getReadIndex)) position ∧
      position ≤ state.buffer.getWritePosition
  | _ => True

def apply (fresh : Fresh) (state : Holding) : HoldingOp → Except Fault Holding
  | .append src allowEndOfInput => do
    let (_, count, buffer) ← state.buffer.appendDataFixThis src allowEndOfInput
    .ok { state with buffer, stream := state.stream ++ src.take (count.getD 0).toNat }
  | .commitSample metadata => .ok { state with buffer := state.buffer.commitSample fresh metadata }
  | .readSample holder => do
    let (haveSample, _, buffer) ← state.buffer.readSample holder
    .ok { state with
      buffer
      readPosition :=
        if haveSample then state.buffer.infoQueue.moveToNextSample.1 else state.readPosition }
  | .skipSample => do
    let buffer ← state.buffer.skipSample
    .ok { state with buffer, readPosition := state.buffer.infoQueue.moveToNextSample.1 }
  | .skipToKeyframeBefore timeUs => do
    let (_, buffer) ← state.buffer.skipToKeyframeBefore timeUs
    let nextOffset := (state.buffer.infoQueue.skipToKeyframeBefore timeUs).1
    .ok { state with
      buffer
      readPosition := if nextOffset = -1 then state.readPosition else nextOffset }
  | .clear => do
    let buffer ← state.buffer.clear
    .ok { buffer }
  | .truncate index position => do
    let infoQueue := (state.buffer.infoQueue.discardUpstreamSamples index).2
    let buffer ← { state.buffer with infoQueue }.truncate position
    .ok { state with buffer, stream := state.stream.take position.toNat }

instance (state : Holding) : ∀ op, Decidable (state.Legal op)
  | .append _ _ | .readSample _ | .skipToKeyframeBefore _ | .clear =>
    inferInstanceAs (Decidable True)
  | .commitSample _ => Laid.decidable _ _ _
  | .skipSample => inferInstanceAs (Decidable (_ ≠ _))
  | .truncate _ _ => inferInstanceAs (Decidable (_ ∧ _ ∧ Laid _ _ _ ∧ _))

def advance (fresh : Fresh) (state : Holding) (op : HoldingOp) : Option Holding :=
  if state.Legal op then (state.apply fresh op).toOption else none

def initial (size : Nat) : Holding := { buffer := .initial (.initial size fun _ _ => 0) .zero }

/-- Every block is accounted for: queued and live, or released once. -/
structure Accounted (state : Holding) : Prop where
  balance : (state.buffer.allocator.obtained : Int) - state.buffer.allocator.released.length =
    state.buffer.dataQueue.length
  count : state.buffer.allocator.allocatedCount = state.buffer.dataQueue.length
  once : state.buffer.allocator.released.Nodup
  live : ∀ position, state.readPosition ≤ position → position < state.buffer.getWritePosition →
    ∃ block,
      state.buffer.dataQueue[((position - state.buffer.totalBytesDropped) /
        state.buffer.allocationLength).toNat]? = some block ∧
      block ∉ state.buffer.allocator.released ∧
      (state.buffer.allocator.memory block)[((position - state.buffer.totalBytesDropped) %
        state.buffer.allocationLength).toNat]? = state.stream[position.toNat]?
  position : state.buffer.getWritePosition = state.buffer.totalBytesDropped +
    if state.buffer.dataQueue = [] then 0
    else (state.buffer.dataQueue.length - 1) * state.buffer.allocationLength +
      state.buffer.lastAllocationOffset
  cleared : ∃ buffer, state.buffer.clear = .ok buffer ∧ buffer.dataQueue = [] ∧
    buffer.allocator.released.Perm (List.range buffer.allocator.obtained)

end Holding

def holdingSystem (size : Nat) (uninitialized : BlockId → Nat → UInt8) (fresh : Fresh) :
    System Holding HoldingOp where
  Start state := state = { buffer := .initial (.initial size uninitialized) fresh }
  Step state op next := state.Legal op ∧ state.apply fresh op = .ok next

theorem holdingSystem_step {size : Nat} {uninitialized : BlockId → Nat → UInt8} {fresh : Fresh}
    (state : Holding) (op : HoldingOp) (next : Holding)
    (advanced : state.advance fresh op = some next) :
    (holdingSystem size uninitialized fresh).Step state op next := by
  unfold Holding.advance at advanced
  obtain ⟨legal, applied⟩ := Option.ite_none_right_eq_some.mp advanced
  exact ⟨legal, Outcome.ok_of_toOption applied⟩

-- What the int32_t positions can tell apart; and no encryption data parsed out of the stream.
def WithinLimits (_state : Holding) (op : HoldingOp) (next : Holding) : Prop :=
  next.buffer.getWritePosition - next.buffer.totalBytesDropped < 2147483648 ∧
    ∀ metadata, op = .commitSample metadata → metadata.record.Readable

namespace Holding

def Sound (state : Holding) : Prop :=
  ∃ fifo committedEnd, state.buffer.Sound fifo state.stream state.readPosition committedEnd

theorem Sound.accounted {state : Holding} (sound : state.Sound) : state.Accounted := by
  obtain ⟨fifo, committedEnd, sound⟩ := sound
  have stored := sound.stored
  refine ⟨?_, stored.count, (List.nodup_append.mp stored.nodup).1, ?_, ?_, ?_⟩
  · have total := stored.ledger.length_eq
    rw [List.length_append, List.length_range] at total
    omega
  · intro position lower upper
    obtain ⟨block, present, byte⟩ := stored.byte (Int.le_trans sound.behind lower)
      (by simpa only [RollingSampleBuffer.getWritePosition, stored.written] using upper)
    exact ⟨block, present, stored.mem_live (List.mem_of_getElem? present), byte⟩
  · have span := stored.span
    have offsetUpper := stored.offsetUpper
    have droppedUpper := stored.droppedUpper
    simp only [RollingSampleBuffer.getWritePosition, stored.written]
    cases blocks : state.buffer.dataQueue with
    | nil =>
      rw [blocks, List.length_nil] at span
      rw [if_pos rfl]
      omega
    | cons block rest =>
      rw [if_neg (by simp), ← blocks, Int.sub_mul]
      omega
  · obtain ⟨next, clears, cleared, blocks, -⟩ := RollingSampleBuffer.clear_sound sound
    refine ⟨next, clears, blocks, ?_⟩
    have ledger := cleared.stored.ledger
    rw [blocks, List.append_nil] at ledger
    exact ledger

variable {state next : Holding}

theorem append_sound (fresh : Fresh) {src : Bytes} {allowEndOfInput : Bool} (sound : state.Sound)
    (applied : state.apply fresh (.append src allowEndOfInput) = .ok next)
    (limit : next.buffer.getWritePosition - next.buffer.totalBytesDropped < 2147483648) :
    next.Sound := by
  obtain ⟨fifo, committedEnd, sound⟩ := sound
  cases appends : state.buffer.appendDataFixThis src allowEndOfInput with
  | error fault => simp [apply, appends, bind, Except.bind] at applied
  | ok result =>
    obtain ⟨succeeds, counted, buffer⟩ := result
    simp only [apply, appends, bind, Except.bind, Except.ok.injEq] at applied
    subst applied
    have nonneg := RollingSampleBuffer.appendDataFixThis_nonneg sound.stored appends
    obtain ⟨count, reached, again, stored, kept, dropped, length⟩ :=
      RollingSampleBuffer.appendDataFixThis_stored sound.stored allowEndOfInput nonneg
    rw [appends] at again
    cases again
    have written := stored.written
    simp only [RollingSampleBuffer.getWritePosition] at limit
    have inside := sound.inside
    refine ⟨fifo, committedEnd, stored, ?_, ?_, sound.laid, ?_, sound.readable, ?_⟩
    · rw [kept.infoQueue]
      exact sound.refines
    · rw [dropped]
      exact sound.behind
    · simp only [List.length_append]
      omega
    · simp only [Option.getD_some, Int.toNat_natCast]
      omega

theorem commitSample_sound (fresh : Fresh) {metadata : SampleMetadata} (sound : state.Sound)
    (legal : state.Legal (.commitSample metadata)) (readable : metadata.record.Readable) :
    Sound { state with buffer := state.buffer.commitSample fresh metadata } := by
  obtain ⟨fifo, committedEnd, sound⟩ := sound
  simp only [Legal, sound.refines.samples, RollingSampleBuffer.getWritePosition,
    sound.stored.written] at legal
  exact ⟨_, _, RollingSampleBuffer.commitSample_sound sound fresh legal (Int.le_refl _) readable⟩

theorem readSample_sound (fresh : Fresh) {holder : SampleHolder} (sound : state.Sound)
    (applied : state.apply fresh (.readSample holder) = .ok next) : next.Sound := by
  obtain ⟨fifo, committedEnd, sound⟩ := sound
  cases present : fifo.queue with
  | nil =>
    simp only [apply, RollingSampleBuffer.readSample_empty sound.refines present, bind, Except.bind,
      Bool.false_eq_true, if_false, Except.ok.injEq] at applied
    subst applied
    exact ⟨fifo, committedEnd, sound⟩
  | cons sample rest =>
    have offset := (InfoQueue.moveToNextSample_refines sound.refines (by simp [present])).2
    rcases RollingSampleBuffer.readSample_sound sound present holder with
      ⟨⟨fault, fails, -⟩, -⟩ | ⟨filled, buffer, reads, soundNext, -, -⟩
    · simp [apply, fails, bind, Except.bind] at applied
    · simp only [apply, reads, bind, Except.bind, if_true, offset, Except.ok.injEq] at applied
      subst applied
      exact ⟨_, _, soundNext⟩

theorem skipSample_sound (fresh : Fresh) (sound : state.Sound) (legal : state.Legal .skipSample) :
    ∃ next, state.apply fresh .skipSample = .ok next ∧ next.Sound := by
  obtain ⟨fifo, committedEnd, sound⟩ := sound
  simp only [Legal, sound.refines.samples] at legal
  have offset := (InfoQueue.moveToNextSample_refines sound.refines legal).2
  obtain ⟨buffer, skips, soundNext, -⟩ := RollingSampleBuffer.skipSample_sound sound legal
  refine ⟨{ state with buffer, readPosition := fifo.nextOffset }, ?_, _, _, soundNext⟩
  simp only [apply, skips, bind, Except.bind, offset]

theorem skipToKeyframeBefore_sound (fresh : Fresh) (timeUs : Int) (sound : state.Sound) :
    ∃ next, state.apply fresh (.skipToKeyframeBefore timeUs) = .ok next ∧ next.Sound := by
  obtain ⟨fifo, committedEnd, sound⟩ := sound
  obtain ⟨found, buffer, skips, -, soundNext⟩ :=
    RollingSampleBuffer.skipToKeyframeBefore_sound sound timeUs
  refine ⟨{ state with
    buffer
    readPosition :=
      if (state.buffer.infoQueue.skipToKeyframeBefore timeUs).1 = -1 then state.readPosition
      else (state.buffer.infoQueue.skipToKeyframeBefore timeUs).1 }, ?_, _, _, soundNext⟩
  simp only [apply, skips, bind, Except.bind]

theorem clear_sound (fresh : Fresh) (sound : state.Sound) :
    ∃ next, state.apply fresh .clear = .ok next ∧ next.Sound := by
  obtain ⟨fifo, committedEnd, sound⟩ := sound
  obtain ⟨buffer, clears, soundNext, -, -⟩ := RollingSampleBuffer.clear_sound sound
  refine ⟨{ buffer }, ?_, _, _, soundNext⟩
  simp only [apply, clears, bind, Except.bind]

theorem truncate_sound (fresh : Fresh) {index : Nat} {position : Int} (sound : state.Sound)
    (legal : state.Legal (.truncate index position)) :
    ∃ next, state.apply fresh (.truncate index position) = .ok next ∧ next.Sound := by
  obtain ⟨fifo, committedEnd, sound⟩ := sound
  have refines := sound.refines
  have first : state.buffer.getReadIndex = fifo.consumed := refines.read
  have last : state.buffer.getWriteIndex = fifo.consumed + fifo.queue.length := by
    simp only [RollingSampleBuffer.getWriteIndex, InfoQueue.getWriteIndex, refines.read, refines.size]
  simp only [Legal, refines.samples, first, last, RollingSampleBuffer.getWritePosition,
    sound.stored.written] at legal
  obtain ⟨lower, upper, laid, inside⟩ := legal
  obtain ⟨buffer, truncates, soundNext, -⟩ := RollingSampleBuffer.truncate_sound sound lower upper laid
    (Int.le_refl _) inside
  refine ⟨{ state with buffer, stream := state.stream.take position.toNat }, ?_, _, _, soundNext⟩
  simp only [apply, truncates, bind, Except.bind]

theorem apply_sound (fresh : Fresh) {op : HoldingOp} (sound : state.Sound) (legal : state.Legal op)
    (applied : state.apply fresh op = .ok next) (limits : WithinLimits state op next) :
    next.Sound := by
  have only {result : Holding} (reached : state.apply fresh op = .ok result ∧ result.Sound) :
      next.Sound := by
    obtain ⟨again, soundResult⟩ := reached
    rw [applied] at again
    cases again
    exact soundResult
  cases op with
  | append src allowEndOfInput => exact append_sound fresh sound applied limits.1
  | commitSample metadata =>
    exact only ⟨rfl, commitSample_sound fresh sound legal (limits.2 metadata rfl)⟩
  | readSample holder => exact readSample_sound fresh sound applied
  | skipSample => exact only (skipSample_sound fresh sound legal).choose_spec
  | skipToKeyframeBefore timeUs =>
    exact only (skipToKeyframeBefore_sound fresh timeUs sound).choose_spec
  | clear => exact only (clear_sound fresh sound).choose_spec
  | truncate index position => exact only (truncate_sound fresh sound legal).choose_spec

end Holding

theorem holdingSystem_sound {size : Nat} (positive : 0 < size) (small : size < 2147483648)
    {uninitialized : BlockId → Nat → UInt8} {fresh : Fresh} {state : Holding}
    (reachable : Reachable ((holdingSystem size uninitialized fresh).restrict WithinLimits) state) :
    state.Sound := by
  refine Reachable.invariant Holding.Sound ?_ ?_ reachable
  · rintro _ rfl
    have stored := RollingSampleBuffer.initial_stored (.initial size uninitialized) fresh rfl rfl rfl
      positive small (by intro block; simp [Allocator.initial])
    exact ⟨{}, 0, RollingSampleBuffer.initial_sound stored⟩
  · intro state op next sound step
    exact Holding.apply_sound fresh sound step.1.1 step.1.2 step.2

theorem rollingSampleBuffer_accounting_exact (size : Nat) (positive : 0 < size)
    (small : size < 2147483648) (uninitialized : BlockId → Nat → UInt8) (fresh : Fresh)
    (state : Holding)
    (reachable : Reachable ((holdingSystem size uninitialized fresh).restrict WithinLimits) state) :
    state.Accounted ∧
      (∀ timeUs, ∃ next, state.apply fresh (.skipToKeyframeBefore timeUs) = .ok next) ∧
      (state.Legal .skipSample → ∃ next, state.apply fresh .skipSample = .ok next) ∧
      (∀ index position, state.Legal (.truncate index position) →
        ∃ next, state.apply fresh (.truncate index position) = .ok next) := by
  have sound := holdingSystem_sound positive small reachable
  refine ⟨sound.accounted, ?_, ?_, ?_⟩
  · intro timeUs
    obtain ⟨next, applied, -⟩ := Holding.skipToKeyframeBefore_sound fresh timeUs sound
    exact ⟨next, applied⟩
  · intro legal
    obtain ⟨next, applied, -⟩ := Holding.skipSample_sound fresh sound legal
    exact ⟨next, applied⟩
  · intro index position legal
    obtain ⟨next, applied, -⟩ := Holding.truncate_sound fresh sound legal
    exact ⟨next, applied⟩

theorem rollingSampleBuffer_accounting_exact_after_truncation :
    ∃ state : Holding, state.stream = [1, 2, 3] ∧ state.readPosition = 2 ∧ state.Accounted := by
  have first := Reachable.start ((holdingSystem 2 (fun _ _ => 0) .zero).restrict WithinLimits) rfl
  have second := first.next (.append [1, 2] false) ⟨⟨trivial, rfl⟩, by decide, by simp⟩
  have third := second.next (.append [3, 4] false) ⟨⟨trivial, rfl⟩, by decide, by simp⟩
  have fourth := third.next (.commitSample ⟨40, 20, kSampleFlagSync, 0, 2, none, none, none, none⟩)
    ⟨⟨by decide, rfl⟩, by decide, by rintro _ ⟨⟩ encrypted; exact absurd encrypted (by decide)⟩
  have fifth := fourth.next .skipSample ⟨⟨by decide, rfl⟩, by decide, by simp⟩
  have sixth := fifth.next (.truncate 1 3) ⟨⟨by decide, rfl⟩, by decide, by simp⟩
  exact ⟨_, rfl, rfl,
    (rollingSampleBuffer_accounting_exact 2 (by decide) (by decide) _ _ _ sixth).1⟩

def wholeBlock (size : Nat) : HoldingOp := .append (List.replicate size 0) false

theorem appendRoom_of_whole {buffer : RollingSampleBuffer} {stream : Bytes} {count : Nat}
    (stored : buffer.Stored stream) (dropped : buffer.totalBytesDropped = 0)
    (whole : (stream.length : Int) = count * buffer.allocationLength) :
    buffer.appendRoom = buffer.allocationLength := by
  have positive := stored.positive
  have span := stored.span
  have lower := stored.offsetLower
  have upper := stored.offsetUpper
  have multiple : buffer.lastAllocationOffset =
      ((count : Int) + 1 - buffer.dataQueue.length) * buffer.allocationLength := by
    rw [Int.sub_mul, Int.add_mul]
    omega
  have few : (count : Int) + 1 - buffer.dataQueue.length ≤ 1 :=
    Int.le_of_mul_le_mul_right (by omega) positive
  have some : 0 ≤ (count : Int) + 1 - buffer.dataQueue.length :=
    Int.le_of_mul_le_mul_right (by omega) positive
  unfold RollingSampleBuffer.appendRoom
  rcases (show (count : Int) + 1 - buffer.dataQueue.length = 0 ∨
    (count : Int) + 1 - buffer.dataQueue.length = 1 by omega) with none | one
  · rw [none, Int.zero_mul] at multiple
    rw [if_neg (by omega)]
    omega
  · rw [one, Int.one_mul] at multiple
    rw [if_pos multiple]

theorem fill_blocks {size : Nat} (positive : 0 < size) (small : size < 2147483648) (count : Nat) :
    ∃ state, Run (holdingSystem size (fun _ _ => 0) .zero) (.initial size)
        (List.replicate count (wholeBlock size)) state ∧
      state.buffer.Stored state.stream ∧ (state.stream.length : Int) = count * size ∧
      state.buffer.allocationLength = size ∧ state.buffer.totalBytesDropped = 0 ∧
      state.buffer.infoQueue = .initial .zero ∧ state.readPosition = 0 := by
  induction count with
  | zero =>
    have stored := RollingSampleBuffer.initial_stored (.initial size fun _ _ => 0) .zero rfl rfl rfl
      positive small (by intro block; simp [Allocator.initial])
    refine ⟨.initial size, .nil _, stored, by simp [Holding.initial], ?_, rfl, rfl, rfl⟩
    exact toInt32_of_range (by simp [Allocator.initial]) (by simp [Allocator.initial]; omega)
  | succ count ih =>
    obtain ⟨state, run, stored, length, blockLength, dropped, queue, start⟩ := ih
    have narrow : toInt32 (List.replicate size (0 : UInt8)).length = size := by
      rw [List.length_replicate]
      exact toInt32_of_range (by omega) (by omega)
    obtain ⟨copied, next, appends, storedNext, kept, droppedNext, counted⟩ :=
      RollingSampleBuffer.appendDataFixThis_stored stored false
        (show 0 ≤ toInt32 (List.replicate size (0 : UInt8)).length by omega)
    have whole : (state.stream.length : Int) = count * state.buffer.allocationLength := by
      rw [length, blockLength]
    rw [appendRoom_of_whole stored dropped whole, narrow, blockLength, Int.min_self] at counted
    refine ⟨{ state with
      buffer := next
      stream := state.stream ++ (List.replicate size 0).take copied }, ?_, storedNext, ?_, ?_, ?_, ?_,
      start⟩
    · rw [List.replicate_succ']
      refine run.append (.cons ⟨trivial, ?_⟩ (.nil _))
      simp only [wholeBlock, Holding.apply, appends, bind, Except.bind, Option.getD_some,
        Int.toNat_natCast]
    · simp only [List.length_append, List.length_take, List.length_replicate]
      push_cast
      rw [Int.add_mul]
      omega
    · exact kept.allocationLength.trans blockLength
    · exact droppedNext.trans dropped
    · exact kept.infoQueue.trans queue

theorem truncate_wraps {state : Holding} (stored : state.buffer.Stored state.stream)
    (length : (state.stream.length : Int) = 5368709120)
    (blockLength : state.buffer.allocationLength = 1073741824)
    (dropped : state.buffer.totalBytesDropped = 0)
    (queue : state.buffer.infoQueue = .initial .zero) (start : state.readPosition = 0) :
    ∃ next, (holdingSystem 1073741824 (fun _ _ => 0) .zero).Step state (.truncate 0 5368709120) next ∧
      ¬ next.Accounted := by
  have span := stored.span
  have offsetUpper := stored.offsetUpper
  rw [blockLength] at span offsetUpper
  have blocks : 1 ≤ state.buffer.dataQueue.length := by omega
  have few : state.buffer.dataQueue.length < 2147483648 := by
    have := stored.offsetLower
    omega
  let cut : RollingSampleBuffer := { state.buffer with
    infoQueue := (state.buffer.infoQueue.discardUpstreamSamples 0).2
    totalBytesWritten := 5368709120 }
  have relative : toInt32 (5368709120 - state.buffer.totalBytesDropped) = 1073741824 := by
    rw [dropped]
    decide
  have discards : toInt32 ((state.buffer.dataQueue.length : Int) - 1 - 1) =
      state.buffer.dataQueue.length - 1 - 1 := toInt32_of_range (by omega) (by omega)
  have total : ((state.buffer.dataQueue.length : Int) - 1 - 1 + 1).toNat =
      state.buffer.dataQueue.length - 1 := by omega
  have releases := RollingSampleBuffer.releaseBackBlocks_eq (state.buffer.dataQueue.length - 1) cut
    (Nat.sub_le _ _)
  refine ⟨{ state with
    buffer := { cut.withoutBack (state.buffer.dataQueue.length - 1) with
      lastAllocation := (cut.withoutBack (state.buffer.dataQueue.length - 1)).dataQueue.getLast?
      lastAllocationOffset := 1073741824 }
    stream := state.stream.take 5368709120 }, ⟨?_, ?_⟩, ?_⟩
  · have written : state.buffer.getWritePosition = 5368709120 := stored.written.trans length
    simp only [Holding.Legal, RollingSampleBuffer.getReadIndex, RollingSampleBuffer.getWriteIndex,
      queue, written, start]
    exact ⟨Nat.le_refl _, Nat.zero_le _, by simp [Laid], Int.le_refl _⟩
  · simp only [Holding.apply, RollingSampleBuffer.truncate, RollingSampleBuffer.releaseUpstreamFrom,
      relative, blockLength, show Int.tdiv 1073741824 1073741824 = 1 by decide,
      show Int.tmod 1073741824 1073741824 = 0 by decide, discards, if_true, total, bind, Except.bind]
    rw [← blockLength]
    simp only [cut] at releases
    rw [releases]
    simp only [RollingSampleBuffer.withoutBack, cut, blockLength]
    rfl
  · intro accounted
    have position := accounted.position
    have one : state.buffer.dataQueue.length - (state.buffer.dataQueue.length - 1) = 1 := by omega
    simp only [RollingSampleBuffer.getWritePosition, RollingSampleBuffer.withoutBack, cut, dropped, one,
      blockLength] at position
    split at position
    · omega
    · rw [List.length_take, Nat.min_eq_left blocks] at position
      omega


-- Encrypted samples without an IV start with their encryption data: a size, the IV, then the payload.
def inBandSample (timeUs offset size : Int) : SampleMetadata :=
  { timeUs, durationUs := 10, flags := kSampleFlagEncrypted, offset, size }

def inBandOps : List HoldingOp :=
  [.append [3, 11] false, .append [12, 13] false, .append [0, 31] false, .append [32, 33] false,
   .commitSample (inBandSample 0 0 4), .commitSample (inBandSample 10 4 1),
   .commitSample (inBandSample 20 5 3), .readSample { bufferReplacementEnabled := true },
   .readSample { bufferReplacementEnabled := true }]

-- Reading the second sample takes the IV size of the first one and runs into the third sample.
theorem inBandOps_result :
    (execute (Holding.advance .zero) (.initial 2) inBandOps).map (fun state =>
      ([state.readPosition, state.buffer.totalBytesDropped, state.buffer.totalBytesWritten,
        state.buffer.allocationLength], state.buffer.dataQueue,
        [state.buffer.allocator.memory 3, state.stream])) =
      some ([5, 6, 8, 2], [3], [[32, 33], [3, 11, 12, 13, 0, 31, 32, 33]]) := by
  decide +kernel

theorem rollingSampleBuffer_accounting_breaks :
    (∃ state, Run (holdingSystem 1073741824 (fun _ _ => 0) .zero) (.initial 1073741824)
        (List.replicate 5 (wholeBlock 1073741824) ++ [.truncate 0 5368709120]) state ∧
      ¬ state.Accounted) ∧
    ∃ state, Run (holdingSystem 2 (fun _ _ => 0) .zero) (.initial 2) inBandOps state ∧
      ¬ state.Accounted := by
  constructor
  · obtain ⟨state, run, stored, length, blockLength, dropped, queue, start⟩ :=
      fill_blocks (show 0 < 1073741824 by decide) (by decide) 5
    obtain ⟨next, step, wrong⟩ := truncate_wraps stored (by omega) blockLength dropped queue start
    exact ⟨next, run.append (.cons step (.nil _)), wrong⟩
  · obtain ⟨state, executed, result⟩ := Option.map_eq_some_iff.mp inBandOps_result
    refine ⟨state, .of_execute (fun state op next _ => holdingSystem_step state op next) executed, ?_⟩
    intro accounted
    simp only [Prod.mk.injEq, List.cons.injEq, and_true] at result
    obtain ⟨⟨start, dropped, written, blockLength⟩, blocks, bytes, stream⟩ := result
    obtain ⟨block, present, -, byte⟩ := accounted.live 5 (by omega)
      (by simp only [RollingSampleBuffer.getWritePosition]; omega)
    rw [dropped, blockLength, blocks] at present
    simp at present
    rw [← present, dropped, blockLength, bytes, stream] at byte
    simp at byte

end NDash.Extractor

import NDash.Extractor.RollingSampleBufferSamples

set_option autoImplicit false

namespace NDash.Extractor

open Machine RingBuffer Upstream

namespace InfoQueue

variable {queue : InfoQueue} {fifo : SampleFifo}

def endAt (queue : InfoQueue) (i : Nat) : Int := queue.offsets i + queue.sizes i

def previousEnd (queue : InfoQueue) : Int :=
  queue.endAt ((queue.relativeReadIndex + (queue.capacity - 1)) % queue.capacity)

theorem discardUpstreamSamples_offset (index : Nat) (refines : queue.Refines fifo)
    (lower : fifo.consumed ≤ index) {sample : SampleRecord}
    (found : fifo.queue[index - fifo.consumed]? = some sample) :
    (queue.discardUpstreamSamples index).1 = sample.offset := by
  have size := refines.size
  have bound := refines.sizeBound
  have inside : index - fifo.consumed < fifo.queue.length := (List.getElem?_eq_some_iff.mp found).1
  have whole : queue.getWriteIndex = fifo.consumed + fifo.queue.length := by
    simp [getWriteIndex, refines.read, size]
  have some : ¬ fifo.consumed + fifo.queue.length - index = 0 := by omega
  have slot : (queue.relativeWriteIndex + queue.capacity - (fifo.consumed + fifo.queue.length - index)) %
      queue.capacity = (queue.relativeReadIndex + (index - fifo.consumed)) % queue.capacity := by
    rw [refines.writeIndex, mod_back _ _ _ (by omega) (by omega)]
    congr 2
    omega
  have stored := refines.get _ inside
  rw [found, Option.some.injEq] at stored
  simp only [discardUpstreamSamples, whole, some, if_false, slot, stored, record]

theorem discardUpstreamSamples_unread (refines : queue.Refines fifo) (unread : fifo.consumed = 0) :
    (queue.discardUpstreamSamples (fifo.consumed + fifo.queue.length)).1 = 0 := by
  simp [discardUpstreamSamples, getWriteIndex, refines.read, refines.size, unread]

theorem discardUpstreamSamples_last (refines : queue.Refines fifo) (read : 0 < fifo.consumed)
    {sample : SampleRecord} (last : fifo.queue.getLast? = some sample) :
    (queue.discardUpstreamSamples (fifo.consumed + fifo.queue.length)).1 =
      sample.offset + sample.size := by
  have nonempty : fifo.queue ≠ [] := by
    intro empty
    simp [empty] at last
  have stored := refines.last nonempty
  rw [last, Option.some.injEq] at stored
  have past : ¬ fifo.consumed = 0 := by omega
  simp [discardUpstreamSamples, getWriteIndex, refines.read, refines.size, past, stored, record]

theorem discardUpstreamSamples_previous (refines : queue.Refines fifo) (read : 0 < fifo.consumed)
    (empty : fifo.queue = []) :
    (queue.discardUpstreamSamples (fifo.consumed + fifo.queue.length)).1 = queue.previousEnd := by
  have positive : 0 < queue.capacity := Nat.zero_lt_of_lt refines.sizeBound
  have past : ¬ fifo.consumed = 0 := by omega
  have slot : queue.lastWriteIndex =
      (queue.relativeReadIndex + (queue.capacity - 1)) % queue.capacity := by
    have back := previous_index positive (queue.relativeReadIndex + (queue.capacity - 1))
    rw [show queue.relativeReadIndex + (queue.capacity - 1) + 1 =
      queue.relativeReadIndex + queue.capacity by omega, Nat.add_mod_right,
      Nat.mod_eq_of_lt refines.readBound] at back
    have write := refines.writeIndex
    rw [refines.size, empty, List.length_nil, Nat.add_zero, Nat.mod_eq_of_lt refines.readBound] at write
    rw [lastWriteIndex, write]
    exact back
  simp [discardUpstreamSamples, getWriteIndex, refines.read, refines.size, past, previousEnd, slot,
    endAt]

theorem discardUpstreamSamples_previousEnd (index : Nat) :
    (queue.discardUpstreamSamples index).2.previousEnd = queue.previousEnd := by
  unfold discardUpstreamSamples
  simp only
  split_ifs <;> rfl

theorem commitSample_previousEnd (fresh : Fresh) (metadata : SampleMetadata)
    (refines : queue.Refines fifo)
    (same : (queue.commitSample fresh metadata).capacity = queue.capacity) :
    (queue.commitSample fresh metadata).previousEnd = queue.previousEnd := by
  have bound := refines.sizeBound
  by_cases full : queue.queueSize + 1 = queue.capacity
  · simp [commitSample, store, full, grow, kSampleCapacityIncrement] at same
  · have apart : (queue.relativeReadIndex + (queue.capacity - 1)) % queue.capacity ≠
        queue.relativeWriteIndex := by
      rw [refines.writeIndex]
      exact (mod_ne_of_lt queue.relativeReadIndex (show queue.queueSize < queue.capacity - 1 by omega)
        (by omega)).symm
    simp only [commitSample, store, full, if_false, previousEnd, endAt, Function.update_of_ne apart]

theorem previousEnd_of_moved (next : InfoQueue) {count : Nat} (refines : queue.Refines fifo)
    (offsets : next.offsets = queue.offsets) (sizes : next.sizes = queue.sizes)
    (capacity : next.capacity = queue.capacity)
    (moved : next.relativeReadIndex = (queue.relativeReadIndex + (count + 1)) % queue.capacity)
    {sample : SampleRecord} (found : fifo.queue[count]? = some sample) :
    next.previousEnd = sample.offset + sample.size := by
  have positive : 0 < queue.capacity := Nat.zero_lt_of_lt refines.sizeBound
  have stored := refines.get _ (List.getElem?_eq_some_iff.mp found).1
  rw [found, Option.some.injEq] at stored
  have slot : (next.relativeReadIndex + (next.capacity - 1)) % next.capacity =
      (queue.relativeReadIndex + count) % queue.capacity := by
    rw [moved, capacity, Nat.mod_add_mod,
      show queue.relativeReadIndex + (count + 1) + (queue.capacity - 1) =
        queue.relativeReadIndex + count + queue.capacity by omega, Nat.add_mod_right]
  simp only [previousEnd, endAt, slot, offsets, sizes, stored, record]

theorem moveToNextSample_previousEnd (refines : queue.Refines fifo) {sample : SampleRecord}
    {rest : List SampleRecord} (present : fifo.queue = sample :: rest) :
    queue.moveToNextSample.2.previousEnd = sample.offset + sample.size := by
  have positive : 0 < queue.capacity := Nat.zero_lt_of_lt refines.sizeBound
  have first : fifo.queue[0]? = some sample := by simp [present]
  apply previousEnd_of_moved queue.moveToNextSample.2 refines rfl rfl rfl _ first
  have advanced := next_index positive queue.relativeReadIndex
  rw [Nat.mod_eq_of_lt refines.readBound] at advanced
  exact advanced.symm

theorem skipToKeyframeBefore_cases (queue : InfoQueue) (timeUs : Int) :
    (queue.skipToKeyframeBefore timeUs).2 = queue ∨
    ∃ count, (queue.skipToKeyframeBefore timeUs).2 = { queue with
      queueSize := queue.queueSize - count
      relativeReadIndex := (queue.relativeReadIndex + count) % queue.capacity
      absoluteReadIndex := queue.absoluteReadIndex + count } := by
  unfold skipToKeyframeBefore
  split_ifs
  next => exact .inl rfl
  next => exact .inl rfl
  next =>
    simp only
    split_ifs
    next => exact .inl rfl
    next => exact .inr ⟨_, rfl⟩

theorem skipToKeyframeBefore_previousEnd (timeUs : Int) (refines : queue.Refines fifo) {count : Nat}
    (counted : (queue.skipToKeyframeBefore timeUs).2.absoluteReadIndex =
      queue.absoluteReadIndex + (count + 1)) {sample : SampleRecord}
    (found : fifo.queue[count]? = some sample) :
    (queue.skipToKeyframeBefore timeUs).2.previousEnd = sample.offset + sample.size := by
  rcases queue.skipToKeyframeBefore_cases timeUs with same | ⟨skipped, moved⟩
  · rw [same] at counted
    omega
  · have exactly : skipped = count + 1 := by
      rw [moved] at counted
      simp only at counted
      omega
    exact previousEnd_of_moved _ refines (by rw [moved]) (by rw [moved]) (by rw [moved])
      (by rw [moved, exactly]) found

theorem skipToKeyframeBefore_stays (timeUs : Int) (refines : queue.Refines fifo)
    (counted : (queue.skipToKeyframeBefore timeUs).2.absoluteReadIndex = queue.absoluteReadIndex) :
    (queue.skipToKeyframeBefore timeUs).2.previousEnd = queue.previousEnd := by
  rcases queue.skipToKeyframeBefore_cases timeUs with same | ⟨skipped, moved⟩
  · rw [same]
  · rw [moved] at counted ⊢
    have none : skipped = 0 := by
      simp only at counted
      omega
    simp only [none, previousEnd, endAt, Nat.add_zero, Nat.mod_eq_of_lt refines.readBound]

end InfoQueue

def bytesOf (samples : List CommittedSample) : Bytes := (samples.map (·.bytes)).flatten

theorem bytesOf_append (first second : List CommittedSample) :
    bytesOf (first ++ second) = bytesOf first ++ bytesOf second := by
  simp [bytesOf]

def Matches : Int → List SampleRecord → List CommittedSample → Prop
  | _, [], [] => True
  | low, record :: records, sample :: samples =>
    record.offset = low ∧ record.size = sample.bytes.length ∧ record.timeUs = sample.timeUs ∧
      record.durationUs = sample.durationUs ∧ record.flags = sample.flags ∧
      Matches (low + sample.bytes.length) records samples
  | _, _, _ => False

section Matches

variable {low : Int} {records : List SampleRecord} {samples : List CommittedSample}

theorem Matches.length_eq (same : Matches low records samples) : records.length = samples.length := by
  induction records generalizing low samples with
  | nil =>
    cases samples with
    | nil => rfl
    | cons sample samples => cases same
  | cons record records ih =>
    cases samples with
    | nil => cases same
    | cons sample samples => rw [List.length_cons, List.length_cons, ih same.2.2.2.2.2]

theorem Matches.snoc {record : SampleRecord} {sample : CommittedSample}
    (same : Matches low records samples)
    (last : Matches (low + (bytesOf samples).length) [record] [sample]) :
    Matches low (records ++ [record]) (samples ++ [sample]) := by
  induction records generalizing low samples with
  | nil =>
    cases samples with
    | nil => simpa [bytesOf] using last
    | cons sample samples => cases same
  | cons first records ih =>
    cases samples with
    | nil => cases same
    | cons head samples =>
      obtain ⟨offset, size, time, duration, flags, later⟩ := same
      refine ⟨offset, size, time, duration, flags, ih later ?_⟩
      have total : low + head.bytes.length + (bytesOf samples).length =
          low + (bytesOf (head :: samples)).length := by
        simp only [bytesOf, List.map_cons, List.flatten_cons, List.length_append]
        omega
      rw [total]
      exact last

theorem Matches.drop (same : Matches low records samples) (count : Nat) :
    Matches (low + (bytesOf (samples.take count)).length) (records.drop count) (samples.drop count) := by
  induction count generalizing low records samples with
  | zero => simpa [bytesOf] using same
  | succ count ih =>
    cases records with
    | nil =>
      cases samples with
      | nil => trivial
      | cons sample samples => cases same
    | cons record records =>
      cases samples with
      | nil => cases same
      | cons sample samples =>
        have later := ih same.2.2.2.2.2
        have total : low + sample.bytes.length + (bytesOf (samples.take count)).length =
            low + (bytesOf ((sample :: samples).take (count + 1))).length := by
          simp only [bytesOf, List.take_succ_cons, List.map_cons, List.flatten_cons, List.length_append]
          omega
        rw [total] at later
        exact later

theorem Matches.take (same : Matches low records samples) (count : Nat) :
    Matches low (records.take count) (samples.take count) := by
  induction count generalizing low records samples with
  | zero => trivial
  | succ count ih =>
    cases records with
    | nil =>
      cases samples with
      | nil => trivial
      | cons sample samples => cases same
    | cons record records =>
      cases samples with
      | nil => cases same
      | cons sample samples =>
        obtain ⟨offset, size, time, duration, flags, later⟩ := same
        exact ⟨offset, size, time, duration, flags, ih later⟩

theorem Matches.laid (same : Matches low records samples) :
    Laid low records (low + (bytesOf samples).length) := by
  induction records generalizing low samples with
  | nil =>
    simp only [Laid]
    omega
  | cons record records ih =>
    cases samples with
    | nil => cases same
    | cons sample samples =>
      obtain ⟨offset, size, -, -, -, later⟩ := same
      have laid := ih later
      refine ⟨by omega, by omega, ?_⟩
      rw [offset, size]
      have total : low + sample.bytes.length + (bytesOf samples).length =
          low + (bytesOf (sample :: samples)).length := by
        simp only [bytesOf, List.map_cons, List.flatten_cons, List.length_append]
        omega
      rw [← total]
      exact laid

theorem Matches.get (same : Matches low records samples) {count : Nat} {record : SampleRecord}
    (found : records[count]? = some record) :
    record.offset = low + (bytesOf (samples.take count)).length ∧
      record.offset + record.size = low + (bytesOf (samples.take (count + 1))).length := by
  have inside := (List.getElem?_eq_some_iff.mp found).1
  have rest := same.drop count
  have bound : count < samples.length := same.length_eq ▸ inside
  rw [List.drop_eq_getElem_cons inside, List.drop_eq_getElem_cons bound,
    (List.getElem?_eq_some_iff.mp found).2] at rest
  obtain ⟨offset, size, -⟩ := rest
  have grows : (bytesOf (samples.take (count + 1))).length =
      (bytesOf (samples.take count)).length + (samples.get ⟨count, bound⟩).bytes.length := by
    rw [List.take_add_one, List.getElem?_eq_getElem bound, bytesOf_append, List.length_append]
    simp [bytesOf]
  refine ⟨offset, ?_⟩
  rw [grows, offset, size]
  push_cast
  simp only [List.get_eq_getElem]
  omega

theorem Matches.map_ofRecord {stream : Bytes} (more : Bytes) (same : Matches low records samples)
    (nonneg : 0 ≤ low) (bytes : stream.drop low.toNat = bytesOf samples ++ more) :
    records.map (.ofRecord stream) = samples := by
  induction records generalizing low samples with
  | nil =>
    cases samples with
    | nil => rfl
    | cons sample samples => cases same
  | cons record records ih =>
    cases samples with
    | nil => cases same
    | cons sample samples =>
      obtain ⟨offset, size, time, duration, flags, later⟩ := same
      have shape : stream.drop low.toNat = sample.bytes ++ (bytesOf samples ++ more) := by
        rw [bytes, bytesOf, List.map_cons, List.flatten_cons, List.append_assoc]
        rfl
      have rest : stream.drop (low + sample.bytes.length).toNat = bytesOf samples ++ more := by
        rw [show (low + sample.bytes.length).toNat = low.toNat + sample.bytes.length by omega,
          ← List.drop_drop, shape, List.drop_left]
      have head : CommittedSample.ofRecord stream record = sample := by
        simp only [CommittedSample.ofRecord, slice, time, duration, flags, offset, size, shape,
          Int.toNat_natCast, List.take_left]
      rw [List.map_cons, head, ih later (by omega) rest]

end Matches

structure Recording where
  buffer : RollingSampleBuffer
  history : List CommittedSample := []
  uncommitted : Bytes := []
  grown : Bool := false

inductive RecordingOp
  | append (src : Bytes) (allowEndOfInput : Bool)
  | commitSample (metadata : SampleMetadata)
  | readSample (holder : SampleHolder)
  | skipSample
  | skipToKeyframeBefore (timeUs : Int)
  | discardUpstreamSamples (discardFromIndex : Nat)
  | clear

namespace Recording

def stream (state : Recording) : Bytes := bytesOf state.history ++ state.uncommitted

def Legal (state : Recording) : RecordingOp → Prop
  | .commitSample metadata =>
    metadata.offset = (bytesOf state.history).length ∧ 0 ≤ metadata.size ∧
      metadata.size ≤ state.uncommitted.length
  | .readSample holder => holder.Empty
  | .skipSample => state.buffer.getReadIndex < state.buffer.getWriteIndex
  | .discardUpstreamSamples index =>
    state.buffer.getReadIndex ≤ index ∧ index ≤ state.buffer.getWriteIndex
  | _ => True

def advanceTo (state : Recording) (buffer : RollingSampleBuffer) : Recording :=
  { state with
    buffer
    grown := buffer.getReadIndex = state.buffer.getReadIndex ∧
      (state.grown ∨ buffer.infoQueue.capacity ≠ state.buffer.infoQueue.capacity) }

def apply (fresh : Fresh) (state : Recording) : RecordingOp → Except Fault Recording
  | .append src allowEndOfInput => do
    let (_, count, buffer) ← state.buffer.appendDataFixThis src allowEndOfInput
    .ok { state.advanceTo buffer with
      uncommitted := state.uncommitted ++ src.take (count.getD 0).toNat }
  | .commitSample metadata =>
    .ok { state.advanceTo (state.buffer.commitSample fresh metadata) with
      history := state.history ++
        [⟨metadata.timeUs, metadata.durationUs, metadata.flags,
          state.uncommitted.take metadata.size.toNat⟩]
      uncommitted := state.uncommitted.drop metadata.size.toNat }
  | .readSample holder => do
    let (_, _, buffer) ← state.buffer.readSample holder
    .ok (state.advanceTo buffer)
  | .skipSample => do
    let buffer ← state.buffer.skipSample
    .ok (state.advanceTo buffer)
  | .skipToKeyframeBefore timeUs => do
    let (_, buffer) ← state.buffer.skipToKeyframeBefore timeUs
    .ok (state.advanceTo buffer)
  | .discardUpstreamSamples index => do
    let buffer ← state.buffer.discardUpstreamSamples index
    .ok { state.advanceTo buffer with history := state.history.take index, uncommitted := [] }
  | .clear => do
    let buffer ← state.buffer.clear
    .ok { buffer }

def KnowsCut (state : Recording) (index : Nat) : Prop :=
  index = state.buffer.getWriteIndex →
    if state.buffer.getReadIndex = 0 then bytesOf state.history = []
    else state.buffer.getReadIndex < state.buffer.getWriteIndex ∨ state.grown = false

/-- The cuts that leave a byte that is still held, at a position that is known. -/
def KeepsCut (state : Recording) (index : Nat) : Prop :=
  state.KnowsCut index ∧
    state.buffer.totalBytesDropped < (bytesOf (state.history.take index)).length

def Cut (state : Recording) (index : Nat) : Prop :=
  ∃ buffer, state.buffer.discardUpstreamSamples index = .ok buffer ∧
    buffer.getWritePosition = (bytesOf (state.history.take index)).length ∧
    buffer.getReadIndex = state.buffer.getReadIndex ∧ buffer.getWriteIndex = index ∧
    buffer.infoQueue.samples =
      state.buffer.infoQueue.samples.take (index - state.buffer.getReadIndex)

def Delivers (state : Recording) : Prop :=
  ∀ holder : SampleHolder, holder.Empty →
    match state.history.drop state.buffer.getReadIndex with
    | [] => state.buffer.readSample holder = .ok (false, holder, state.buffer)
    | sample :: _ => ∃ filled next,
        state.buffer.readSample holder = .ok (true, filled, next) ∧ Carries filled sample

end Recording

def recordingSystem (size : Nat) (uninitialized : BlockId → Nat → UInt8) (fresh : Fresh) :
    System Recording RecordingOp where
  Start state := state = { buffer := .initial (.initial size uninitialized) fresh }
  Step state op next := state.Legal op ∧ state.apply fresh op = .ok next

def CutsKept (state : Recording) (op : RecordingOp) (next : Recording) : Prop :=
  next.buffer.getWritePosition - next.buffer.totalBytesDropped < 2147483648 ∧
    match op with
    | .commitSample metadata => metadata.record.Readable
    | .discardUpstreamSamples index => state.KeepsCut index
    | _ => True

namespace Recording

structure Recorded (state : Recording) (fifo : SampleFifo) : Prop where
  sound : state.buffer.Sound fifo state.stream (bytesOf (state.history.take fifo.consumed)).length
    (bytesOf state.history).length
  total : fifo.consumed + fifo.queue.length = state.history.length
  queued : Matches (bytesOf (state.history.take fifo.consumed)).length fifo.queue
    (state.history.drop fifo.consumed)
  remembers : 0 < fifo.consumed → state.grown = false →
    state.buffer.infoQueue.previousEnd = (bytesOf (state.history.take fifo.consumed)).length

variable {state : Recording} {fifo : SampleFifo}

theorem Recorded.readIndex (recorded : state.Recorded fifo) :
    state.buffer.getReadIndex = fifo.consumed := recorded.sound.refines.read

theorem Recorded.writeIndex (recorded : state.Recorded fifo) :
    state.buffer.getWriteIndex = fifo.consumed + fifo.queue.length := by
  simp only [RollingSampleBuffer.getWriteIndex, InfoQueue.getWriteIndex, recorded.sound.refines.read,
    recorded.sound.refines.size]

theorem length_bytesOf_take (history : List CommittedSample) {consumed index : Nat}
    (order : consumed ≤ index) :
    (bytesOf (history.take index)).length = (bytesOf (history.take consumed)).length +
      (bytesOf ((history.drop consumed).take (index - consumed))).length := by
  obtain ⟨count, rfl⟩ := Nat.exists_eq_add_of_le order
  rw [List.take_add, bytesOf_append, List.length_append, Nat.add_sub_cancel_left]

theorem Recorded.get (recorded : state.Recorded fifo) {count : Nat} {record : SampleRecord}
    (found : fifo.queue[count]? = some record) :
    record.offset = (bytesOf (state.history.take (fifo.consumed + count))).length ∧
      record.offset + record.size =
        (bytesOf (state.history.take (fifo.consumed + (count + 1)))).length := by
  obtain ⟨offset, finish⟩ := recorded.queued.get found
  rw [length_bytesOf_take state.history (Nat.le_add_right fifo.consumed count),
    length_bytesOf_take state.history (Nat.le_add_right fifo.consumed (count + 1)),
    Nat.add_sub_cancel_left, Nat.add_sub_cancel_left]
  push_cast
  exact ⟨offset, finish⟩

theorem stream_split (state : Recording) (index : Nat) :
    state.stream = bytesOf (state.history.take index) ++
      (bytesOf (state.history.drop index) ++ state.uncommitted) := by
  rw [← List.append_assoc, ← bytesOf_append, List.take_append_drop, stream]

theorem advanceTo_grown (state : Recording) (buffer : RollingSampleBuffer)
    (same : buffer.getReadIndex = state.buffer.getReadIndex)
    (steady : (state.advanceTo buffer).grown = false) :
    state.grown = false ∧ buffer.infoQueue.capacity = state.buffer.infoQueue.capacity := by
  simpa [advanceTo, same] using steady

theorem append_recorded (fresh : Fresh) {src : Bytes} {allowEndOfInput : Bool} {next : Recording}
    (recorded : state.Recorded fifo)
    (applied : state.apply fresh (.append src allowEndOfInput) = .ok next)
    (limit : next.buffer.getWritePosition - next.buffer.totalBytesDropped < 2147483648) :
    next.Recorded fifo := by
  cases appends : state.buffer.appendDataFixThis src allowEndOfInput with
  | error fault => simp [apply, appends, bind, Except.bind] at applied
  | ok result =>
    obtain ⟨succeeds, counted, buffer⟩ := result
    simp only [apply, appends, bind, Except.bind, Except.ok.injEq] at applied
    subst applied
    have nonneg := RollingSampleBuffer.appendDataFixThis_nonneg recorded.sound.stored appends
    obtain ⟨count, reached, again, stored, kept, dropped, -⟩ :=
      RollingSampleBuffer.appendDataFixThis_stored recorded.sound.stored allowEndOfInput nonneg
    rw [appends] at again
    cases again
    have written := stored.written
    simp only [advanceTo, RollingSampleBuffer.getWritePosition] at limit
    have inside := recorded.sound.inside
    rw [stream, List.append_assoc] at stored written
    refine ⟨⟨stored, ?_, ?_, recorded.sound.laid, ?_, recorded.sound.readable, ?_⟩, recorded.total,
      recorded.queued, ?_⟩
    · simp only [advanceTo, kept.infoQueue]
      exact recorded.sound.refines
    · simp only [advanceTo, dropped]
      exact recorded.sound.behind
    · simp only [advanceTo, stream, List.length_append]
      omega
    · simp only [advanceTo, stream, Option.getD_some, Int.toNat_natCast]
      omega
    · intro read steady
      obtain ⟨before, -⟩ := advanceTo_grown state buffer
        (by simp only [RollingSampleBuffer.getReadIndex, kept.infoQueue]) steady
      simp only [advanceTo, kept.infoQueue]
      exact recorded.remembers read before

theorem commitSample_recorded (fresh : Fresh) {metadata : SampleMetadata}
    (recorded : state.Recorded fifo) (legal : state.Legal (.commitSample metadata))
    (readable : metadata.record.Readable) :
    ∃ next, state.apply fresh (.commitSample metadata) = .ok next ∧
      next.Recorded (fifo.commit metadata.record) := by
  obtain ⟨offset, nonneg, inside⟩ := legal
  have total := recorded.total
  let sample : CommittedSample := ⟨metadata.timeUs, metadata.durationUs, metadata.flags,
    state.uncommitted.take metadata.size.toNat⟩
  have size : (sample.bytes.length : Int) = metadata.size := by
    simp only [sample, List.length_take]
    omega
  have before : (state.history ++ [sample]).take fifo.consumed = state.history.take fifo.consumed :=
    List.take_append_of_le_length (by omega)
  have after : (state.history ++ [sample]).drop fifo.consumed =
      state.history.drop fifo.consumed ++ [sample] := List.drop_append_of_le_length (by omega)
  have whole : (bytesOf state.history).length = (bytesOf (state.history.take fifo.consumed)).length +
      (bytesOf (state.history.drop fifo.consumed)).length := by
    rw [← List.length_append, ← bytesOf_append, List.take_append_drop]
  have queued : Matches (bytesOf (state.history.take fifo.consumed)).length
      (fifo.queue ++ [metadata.record]) (state.history.drop fifo.consumed ++ [sample]) := by
    refine recorded.queued.snoc ⟨?_, size.symm, rfl, rfl, rfl, trivial⟩
    simp only [SampleMetadata.record, offset]
    omega
  have longer : (bytesOf (state.history ++ [sample])).length =
      (bytesOf (state.history.take fifo.consumed)).length +
        (bytesOf (state.history.drop fifo.consumed ++ [sample])).length := by
    rw [bytesOf_append, bytesOf_append, List.length_append, List.length_append]
    omega
  have laid : Laid (bytesOf (state.history.take fifo.consumed)).length
      (fifo.queue ++ [metadata.record]) (bytesOf (state.history ++ [sample])).length := by
    rw [longer]
    push_cast
    exact queued.laid
  have unchanged : bytesOf (state.history ++ [sample]) ++ state.uncommitted.drop metadata.size.toNat =
      state.stream := by
    rw [bytesOf_append, stream, List.append_assoc]
    simp [bytesOf, sample]
  have sound := RollingSampleBuffer.commitSample_sound recorded.sound fresh laid (by
    rw [← unchanged, List.length_append]
    omega) readable
  refine ⟨{ state.advanceTo (state.buffer.commitSample fresh metadata) with
    history := state.history ++ [sample]
    uncommitted := state.uncommitted.drop metadata.size.toNat }, rfl, ?_, ?_, ?_, ?_⟩
  · simp only [advanceTo, stream, SampleFifo.commit, before]
    rw [← unchanged] at sound
    exact sound
  · simp only [SampleFifo.commit, List.length_append, List.length_singleton]
    omega
  · simp only [SampleFifo.commit, before, after]
    exact queued
  · intro read steady
    have stays : (state.buffer.commitSample fresh metadata).getReadIndex = state.buffer.getReadIndex := by
      rw [recorded.readIndex]
      exact sound.refines.read
    obtain ⟨steadyBefore, sameCapacity⟩ := advanceTo_grown state _ stays steady
    simp only [advanceTo, SampleFifo.commit, before]
    rw [RollingSampleBuffer.commitSample,
      InfoQueue.commitSample_previousEnd fresh metadata recorded.sound.refines sameCapacity]
    exact recorded.remembers read steadyBefore

theorem consume_recorded {buffer : RollingSampleBuffer} {position : Int} {count : Nat}
    (recorded : state.Recorded fifo) (inside : count ≤ fifo.queue.length)
    (sound : buffer.Sound (fifo.consume count) state.stream position (bytesOf state.history).length)
    (reached : position = (bytesOf (state.history.take (fifo.consumed + count))).length)
    (remembers : 0 < fifo.consumed + count → (state.advanceTo buffer).grown = false →
      buffer.infoQueue.previousEnd = position) :
    (state.advanceTo buffer).Recorded (fifo.consume count) := by
  have total := recorded.total
  refine ⟨?_, ?_, ?_, ?_⟩
  · rw [reached] at sound
    exact sound
  · simp only [SampleFifo.consume, List.length_drop, advanceTo]
    omega
  · have dropped := recorded.queued.drop count
    simp only [SampleFifo.consume, advanceTo]
    rw [length_bytesOf_take state.history (Nat.le_add_right fifo.consumed count),
      Nat.add_sub_cancel_left, ← List.drop_drop]
    push_cast
    exact dropped
  · intro read steady
    exact (remembers read steady).trans reached

theorem Recorded.nextOffset (recorded : state.Recorded fifo) {record : SampleRecord}
    {rest : List SampleRecord} (present : fifo.queue = record :: rest) :
    fifo.nextOffset = record.offset + record.size ∧
      fifo.nextOffset = (bytesOf (state.history.take (fifo.consumed + 1))).length := by
  have first := (recorded.get (show fifo.queue[0]? = some record by simp [present])).2
  rw [Nat.zero_add] at first
  cases rest with
  | nil =>
    simp only [SampleFifo.nextOffset, present]
    omega
  | cons second later =>
    have offset := (recorded.get (show fifo.queue[1]? = some second by simp [present])).1
    simp only [SampleFifo.nextOffset, present]
    omega

theorem moved_recorded {buffer : RollingSampleBuffer} (recorded : state.Recorded fifo)
    (nonempty : fifo.queue ≠ [])
    (sound : buffer.Sound (fifo.consume 1) state.stream fifo.nextOffset (bytesOf state.history).length)
    (moved : buffer.infoQueue = state.buffer.infoQueue.moveToNextSample.2) :
    (state.advanceTo buffer).Recorded (fifo.consume 1) := by
  obtain ⟨record, rest, present⟩ := List.exists_cons_of_ne_nil nonempty
  obtain ⟨finish, reached⟩ := recorded.nextOffset present
  refine consume_recorded recorded (by simp [present]) sound reached ?_
  intro _ _
  rw [moved, InfoQueue.moveToNextSample_previousEnd recorded.sound.refines present]
  exact finish.symm

-- A holder that is not empty may refuse the bytes; the read then ends in the CHECK of its Write.
theorem readSample_answers (fresh : Fresh) (holder : SampleHolder) (recorded : state.Recorded fifo) :
    ((∃ fault, state.apply fresh (.readSample holder) = .error fault ∧ fault ≠ .emptyDataQueue) ∧
      ¬ holder.Empty) ∨
    ∃ next fifo', state.apply fresh (.readSample holder) = .ok next ∧ next.Recorded fifo' := by
  cases present : fifo.queue with
  | nil =>
    refine .inr ⟨state.advanceTo state.buffer, fifo.consume 0, ?_, ?_⟩
    · simp only [apply, RollingSampleBuffer.readSample_empty recorded.sound.refines present, bind,
        Except.bind]
    · refine consume_recorded recorded (Nat.zero_le _) recorded.sound rfl ?_
      intro read steady
      exact recorded.remembers read (advanceTo_grown state _ rfl steady).1
  | cons record rest =>
    rcases RollingSampleBuffer.readSample_sound recorded.sound present holder with
      ⟨⟨fault, fails, queued⟩, notEmpty⟩ | ⟨filled, next, reads, sound, moved, -⟩
    · refine .inl ⟨⟨fault, ?_, queued⟩, notEmpty⟩
      simp only [apply, fails, bind, Except.bind]
    · refine .inr ⟨state.advanceTo next, fifo.consume 1, ?_,
        moved_recorded recorded (by simp [present]) sound moved⟩
      simp only [apply, reads, bind, Except.bind]

theorem skipSample_recorded (fresh : Fresh) (recorded : state.Recorded fifo)
    (legal : state.Legal .skipSample) :
    ∃ next fifo', state.apply fresh .skipSample = .ok next ∧ next.Recorded fifo' := by
  have nonempty : fifo.queue ≠ [] := by
    intro empty
    simp only [Legal, recorded.readIndex, recorded.writeIndex, empty, List.length_nil] at legal
    omega
  obtain ⟨next, skips, sound, moved⟩ := RollingSampleBuffer.skipSample_sound recorded.sound nonempty
  refine ⟨state.advanceTo next, fifo.consume 1, ?_, moved_recorded recorded nonempty sound moved⟩
  simp only [apply, skips, bind, Except.bind]

theorem skipToKeyframeBefore_recorded (fresh : Fresh) (timeUs : Int)
    (recorded : state.Recorded fifo) :
    ∃ next fifo', state.apply fresh (.skipToKeyframeBefore timeUs) = .ok next ∧
      next.Recorded fifo' := by
  obtain ⟨found, buffer, skips, moved, sound⟩ :=
    RollingSampleBuffer.skipToKeyframeBefore_sound recorded.sound timeUs
  obtain ⟨refines, offset⟩ := InfoQueue.skipToKeyframeBefore_refines timeUs recorded.sound.refines
  have before := recorded.sound.refines.read
  have after := refines.read
  have stays (same : (state.buffer.infoQueue.skipToKeyframeBefore timeUs).2.absoluteReadIndex =
      state.buffer.infoQueue.absoluteReadIndex) (read : 0 < fifo.consumed)
      (steady : (state.advanceTo buffer).grown = false) :
      buffer.infoQueue.previousEnd = (bytesOf (state.history.take fifo.consumed)).length := by
    have index : buffer.getReadIndex = state.buffer.getReadIndex := by
      simp only [RollingSampleBuffer.getReadIndex, InfoQueue.getReadIndex, moved, same]
    rw [moved, InfoQueue.skipToKeyframeBefore_stays timeUs recorded.sound.refines same]
    exact recorded.remembers read (advanceTo_grown state _ index steady).1
  refine ⟨state.advanceTo buffer, (fifo.skipToKeyframeBefore timeUs).2, ?_, ?_⟩
  · simp only [apply, skips, bind, Except.bind]
  cases key : fifo.keyframeBefore timeUs with
  | none =>
    simp only [SampleFifo.skipToKeyframeBefore, key] at sound offset after ⊢
    rw [offset, if_pos rfl] at sound
    exact consume_recorded recorded (Nat.zero_le _) sound rfl (stays (by omega))
  | some count =>
    obtain ⟨record, present, -⟩ := fifo.keyframeBefore_spec timeUs count key
    have start := (recorded.get present).1
    have inside := (List.getElem?_eq_some_iff.mp present).1
    simp only [SampleFifo.skipToKeyframeBefore, key, present, Option.map_some, Option.getD_some]
      at sound offset after ⊢
    rw [offset, if_neg (by omega)] at sound
    refine consume_recorded recorded (Nat.le_of_lt inside) sound start ?_
    intro read steady
    simp only [SampleFifo.consume] at after
    cases count with
    | zero =>
      rw [start]
      exact stays (by omega) read steady
    | succ count =>
      obtain ⟨last, previous⟩ : ∃ last, fifo.queue[count]? = some last :=
        ⟨_, List.getElem?_eq_getElem (by omega)⟩
      rw [moved, InfoQueue.skipToKeyframeBefore_previousEnd timeUs recorded.sound.refines
        (by omega) previous, start]
      exact (recorded.get previous).2

theorem clear_recorded (fresh : Fresh) (recorded : state.Recorded fifo) :
    ∃ next fifo', state.apply fresh .clear = .ok next ∧ next.Recorded fifo' := by
  obtain ⟨buffer, clears, sound, -, -⟩ := RollingSampleBuffer.clear_sound recorded.sound
  refine ⟨{ buffer }, {}, ?_, sound, rfl, trivial, ?_⟩
  · simp only [apply, clears, bind, Except.bind]
  · intro read
    simp at read

theorem discard_position {index : Nat} (recorded : state.Recorded fifo)
    (legal : state.Legal (.discardUpstreamSamples index)) (known : state.KnowsCut index) :
    (state.buffer.infoQueue.discardUpstreamSamples index).1 =
      (bytesOf (state.history.take index)).length := by
  obtain ⟨lower, upper⟩ := legal
  have total := recorded.total
  have refines := recorded.sound.refines
  rw [KnowsCut, recorded.readIndex, recorded.writeIndex] at known
  rw [recorded.readIndex] at lower
  rw [recorded.writeIndex] at upper
  by_cases inner : index < fifo.consumed + fifo.queue.length
  · obtain ⟨record, present⟩ : ∃ record, fifo.queue[index - fifo.consumed]? = some record :=
      ⟨_, List.getElem?_eq_getElem (by omega)⟩
    rw [InfoQueue.discardUpstreamSamples_offset index refines lower present,
      (recorded.get present).1, Nat.add_sub_cancel' lower]
  · obtain rfl : index = fifo.consumed + fifo.queue.length := by omega
    specialize known rfl
    rw [List.take_of_length_le (by omega)]
    split at known
    next unread =>
      rw [InfoQueue.discardUpstreamSamples_unread refines unread, known]
      rfl
    next read =>
      by_cases more : 0 < fifo.queue.length
      · obtain ⟨last, present⟩ : ∃ last, fifo.queue[fifo.queue.length - 1]? = some last :=
          ⟨_, List.getElem?_eq_getElem (by omega)⟩
        rw [InfoQueue.discardUpstreamSamples_last refines (by omega)
          (by rw [List.getLast?_eq_getElem?]; exact present), (recorded.get present).2,
          List.take_of_length_le (by omega)]
      · have steady := known.resolve_left (by omega)
        have empty : fifo.queue = [] := List.eq_nil_of_length_eq_zero (by omega)
        rw [InfoQueue.discardUpstreamSamples_previous refines (by omega) empty,
          recorded.remembers (by omega) steady, List.take_of_length_le (by omega)]

theorem discardUpstreamSamples_recorded {index : Nat} (recorded : state.Recorded fifo)
    (legal : state.Legal (.discardUpstreamSamples index)) (keeps : state.KeepsCut index) :
    ∃ buffer, state.buffer.discardUpstreamSamples index = .ok buffer ∧
      Recorded { state.advanceTo buffer with history := state.history.take index, uncommitted := [] }
        (fifo.discardFrom index) := by
  obtain ⟨known, byte⟩ := keeps
  have position := discard_position recorded legal known
  obtain ⟨lower, upper⟩ := legal
  rw [recorded.readIndex] at lower
  rw [recorded.writeIndex] at upper
  have total := recorded.total
  have kept := recorded.queued.take (index - fifo.consumed)
  have finish := length_bytesOf_take state.history lower
  have earlier : (state.history.take index).take fifo.consumed = state.history.take fifo.consumed := by
    rw [List.take_take, Nat.min_eq_left lower]
  have later : (state.history.take index).drop fifo.consumed =
      (state.history.drop fifo.consumed).take (index - fifo.consumed) := List.drop_take
  have laid : Laid (bytesOf (state.history.take fifo.consumed)).length
      (fifo.queue.take (index - fifo.consumed)) (bytesOf (state.history.take index)).length := by
    rw [finish]
    push_cast
    exact kept.laid
  have split := state.stream_split index
  have reaches : (bytesOf (state.history.take index)).length ≤ state.stream.length := by
    rw [split, List.length_append]
    omega
  obtain ⟨buffer, truncates, sound, discards⟩ := RollingSampleBuffer.truncate_sound recorded.sound lower
    upper laid (Int.le_refl _) (Int.ofNat_le.mpr reaches)
  rw [Int.toNat_natCast, split, List.take_left] at sound
  obtain ⟨again, same, blocks⟩ := RollingSampleBuffer.truncate_blocks
    (recorded.sound.stored.withInfoQueue (state.buffer.infoQueue.discardUpstreamSamples index).2)
    (Int.le_of_lt byte) (Int.ofNat_le.mpr reaches) recorded.sound.held
  cases truncates.symm.trans same
  refine ⟨buffer, ?_, ?_, ?_, ?_, ?_⟩
  · rw [← position] at truncates
    rw [RollingSampleBuffer.discardUpstreamSamples_eq truncates, if_neg (blocks.mpr byte)]
  · simp only [advanceTo, stream, List.append_nil, SampleFifo.discardFrom, earlier]
    exact sound
  · simp only [SampleFifo.discardFrom, List.length_take]
    omega
  · simp only [SampleFifo.discardFrom, earlier, later]
    exact kept
  · intro read steady
    have index : buffer.getReadIndex = state.buffer.getReadIndex := by
      rw [recorded.readIndex]
      exact sound.refines.read
    simp only [advanceTo, SampleFifo.discardFrom, earlier, discards,
      InfoQueue.discardUpstreamSamples_previousEnd]
    exact recorded.remembers read (advanceTo_grown state _ index steady).1

theorem Recorded.cut {index : Nat} (recorded : state.Recorded fifo)
    (legal : state.Legal (.discardUpstreamSamples index)) (keeps : state.KeepsCut index) :
    state.Cut index := by
  obtain ⟨buffer, discards, next⟩ := discardUpstreamSamples_recorded recorded legal keeps
  obtain ⟨lower, upper⟩ := legal
  have readIndex := next.readIndex
  have writeIndex := next.writeIndex
  have written := next.sound.stored.written
  rw [recorded.readIndex] at lower
  rw [recorded.writeIndex] at upper
  simp only [advanceTo, stream, SampleFifo.discardFrom, List.length_take, List.append_nil]
    at readIndex writeIndex written
  refine ⟨buffer, discards, written, ?_, ?_, ?_⟩
  · rw [readIndex, recorded.readIndex]
  · omega
  · rw [recorded.readIndex, recorded.sound.refines.samples]
    exact next.sound.refines.samples

theorem Recorded.delivers (recorded : state.Recorded fifo) : state.Delivers := by
  intro holder empty
  have queued : fifo.queue.map (.ofRecord state.stream) = state.history.drop fifo.consumed := by
    refine recorded.queued.map_ofRecord state.uncommitted (by omega) ?_
    rw [stream_split state fifo.consumed, Int.toNat_natCast, List.drop_left]
  rw [recorded.readIndex, ← queued]
  cases present : fifo.queue with
  | nil => exact RollingSampleBuffer.readSample_empty recorded.sound.refines present holder
  | cons sample rest =>
    rcases RollingSampleBuffer.readSample_sound recorded.sound present holder with
      ⟨-, notEmpty⟩ | ⟨filled, next, reads, -, -, carries⟩
    · exact absurd empty notEmpty
    · exact ⟨filled, next, reads, carries empty⟩

theorem initial_recorded {size : Nat} (positive : 0 < size) (small : size < 2147483648)
    (uninitialized : BlockId → Nat → UInt8) (fresh : Fresh) :
    Recorded { buffer := .initial (.initial size uninitialized) fresh } {} := by
  have stored := RollingSampleBuffer.initial_stored (.initial size uninitialized) fresh rfl rfl rfl
    positive small (by intro block; simp [Allocator.initial])
  refine ⟨RollingSampleBuffer.initial_sound stored, rfl, trivial, ?_⟩
  intro read
  simp at read

theorem apply_recorded (fresh : Fresh) {op : RecordingOp} {next : Recording}
    (recorded : state.Recorded fifo) (legal : state.Legal op)
    (applied : state.apply fresh op = .ok next) (kept : CutsKept state op next) :
    ∃ fifo', next.Recorded fifo' := by
  have only {result : Recording} {after : SampleFifo}
      (reached : state.apply fresh op = .ok result ∧ result.Recorded after) :
      ∃ fifo', next.Recorded fifo' := by
    obtain ⟨again, recordedResult⟩ := reached
    rw [applied] at again
    cases again
    exact ⟨after, recordedResult⟩
  cases op with
  | append src allowEndOfInput => exact ⟨fifo, append_recorded fresh recorded applied kept.1⟩
  | commitSample metadata =>
    obtain ⟨result, reached⟩ := commitSample_recorded fresh recorded legal kept.2
    exact only reached
  | readSample holder =>
    obtain ⟨result, after, reached⟩ :=
      (readSample_answers fresh holder recorded).resolve_left fun refused => refused.2 legal
    exact only reached
  | skipSample =>
    obtain ⟨result, after, reached⟩ := skipSample_recorded fresh recorded legal
    exact only reached
  | skipToKeyframeBefore timeUs =>
    obtain ⟨result, after, reached⟩ := skipToKeyframeBefore_recorded fresh timeUs recorded
    exact only reached
  | discardUpstreamSamples index =>
    obtain ⟨buffer, discards, after⟩ := discardUpstreamSamples_recorded recorded legal kept.2
    exact only ⟨by simp only [apply, discards, bind, Except.bind], after⟩
  | clear =>
    obtain ⟨result, after, reached⟩ := clear_recorded fresh recorded
    exact only reached

end Recording

theorem recordingSystem_recorded {size : Nat} (positive : 0 < size) (small : size < 2147483648)
    {uninitialized : BlockId → Nat → UInt8} {fresh : Fresh} {state : Recording}
    (reachable : Reachable ((recordingSystem size uninitialized fresh).restrict CutsKept) state) :
    ∃ fifo, state.Recorded fifo := by
  refine Reachable.invariant (fun state => ∃ fifo, state.Recorded fifo) ?_ ?_ reachable
  · rintro _ rfl
    exact ⟨{}, Recording.initial_recorded positive small uninitialized fresh⟩
  · rintro state op next ⟨fifo, recorded⟩ ⟨⟨legal, applied⟩, kept⟩
    exact Recording.apply_recorded fresh recorded legal applied kept

theorem discardUpstreamSamples_keeps_cut (size : Nat) (positive : 0 < size)
    (small : size < 2147483648) (uninitialized : BlockId → Nat → UInt8) (fresh : Fresh)
    (state : Recording)
    (reachable : Reachable ((recordingSystem size uninitialized fresh).restrict CutsKept) state) :
    state.Delivers ∧ ∀ index, state.buffer.getReadIndex ≤ index → index ≤ state.buffer.getWriteIndex →
      state.KeepsCut index → state.Cut index := by
  obtain ⟨fifo, recorded⟩ := recordingSystem_recorded positive small reachable
  refine ⟨recorded.delivers, ?_⟩
  intro index lower upper keeps
  exact recorded.cut ⟨lower, upper⟩ keeps

def twoByteSample : SampleMetadata :=
  { timeUs := 40, durationUs := 20, flags := kSampleFlagSync, offset := 0, size := 2 }

theorem discardUpstreamSamples_keeps_cut_after_read :
    ∃ state : Recording, state.history = [⟨40, 20, kSampleFlagSync, [1, 2]⟩] ∧
      state.uncommitted = [3] ∧ state.Delivers ∧ state.Cut 1 := by
  have first := Reachable.start ((recordingSystem 3 (fun _ _ => 0) .zero).restrict CutsKept) rfl
  have second := first.next (.append [1, 2, 3] false) ⟨⟨trivial, rfl⟩, by decide, trivial⟩
  have third := second.next (.commitSample twoByteSample)
    ⟨⟨⟨rfl, by decide, by decide⟩, rfl⟩, by decide, fun encrypted => absurd encrypted (by decide)⟩
  have fourth := third.next .skipSample ⟨⟨Nat.zero_lt_one, rfl⟩, by decide, trivial⟩
  obtain ⟨delivers, cuts⟩ := discardUpstreamSamples_keeps_cut 3 (by decide) (by decide) _ _ _ fourth
  exact ⟨_, rfl, rfl, delivers, cuts 1 (by decide) (by decide) ⟨fun _ => .inr rfl, by decide⟩⟩

-- With nothing read yet, the info queue takes a cut behind all samples for an empty queue, and
-- every block is released.
theorem discardUpstreamSamples_forgets_unread :
    ∃ state : Recording,
      Run (recordingSystem 3 (fun _ _ => 0) .zero) { buffer := .initial (.initial 3 fun _ _ => 0) .zero }
        [.append [1, 2, 3] false, .commitSample twoByteSample] state ∧
      state.buffer.getReadIndex ≤ 1 ∧ 1 ≤ state.buffer.getWriteIndex ∧ ¬ state.Cut 1 := by
  refine ⟨_, .cons ⟨trivial, rfl⟩ (.cons ⟨⟨rfl, by decide, by decide⟩, rfl⟩ (.nil _)), by decide,
    by decide, ?_⟩
  rintro ⟨buffer, discards, -⟩
  cases discards

end NDash.Extractor

import NDash.Extractor.InfoQueue
import NDash.Shared.Machine

set_option autoImplicit false

namespace NDash.Extractor

open RingBuffer Machine

/-- The unbounded queue of sample records that the ring stands for. -/
structure SampleFifo where
  committed : Nat := 0
  consumed : Nat := 0
  discarded : Nat := 0
  queue : List SampleRecord := []
deriving DecidableEq, Repr

def lastSync : List SampleRecord → Option Nat
  | [] => none
  | sample :: rest =>
    match lastSync rest with
    | some k => some (k + 1)
    | none => if sample.isSync then some 0 else none

namespace SampleFifo

def commit (fifo : SampleFifo) (sample : SampleRecord) : SampleFifo :=
  { fifo with committed := fifo.committed + 1, queue := fifo.queue ++ [sample] }

def consume (fifo : SampleFifo) (count : Nat) : SampleFifo :=
  { fifo with consumed := fifo.consumed + count, queue := fifo.queue.drop count }

def nextOffset (fifo : SampleFifo) : Int :=
  match fifo.queue with
  | [] => 0
  | [last] => last.size + last.offset
  | _ :: next :: _ => next.offset

def keyframeBefore (fifo : SampleFifo) (timeUs : Int) : Option Nat :=
  match fifo.queue.head?, fifo.queue.getLast? with
  | some first, some last =>
    if timeUs < first.timeUs ∨ timeUs > last.timeUs then none
    else lastSync (fifo.queue.takeWhile fun sample => decide (sample.timeUs ≤ timeUs))
  | _, _ => none

def skipToKeyframeBefore (fifo : SampleFifo) (timeUs : Int) : Int × SampleFifo :=
  match fifo.keyframeBefore timeUs with
  | none => (-1, fifo)
  | some count => (((fifo.queue[count]?).map (·.offset)).getD 0, fifo.consume count)

def discardFrom (fifo : SampleFifo) (index : Nat) : SampleFifo :=
  { fifo with
    discarded := fifo.discarded + (fifo.consumed + fifo.queue.length - index)
    queue := fifo.queue.take (index - fifo.consumed) }

end SampleFifo

theorem lastSync_lt (samples : List SampleRecord) (k : Nat) (found : lastSync samples = some k) :
    k < samples.length := by
  induction samples generalizing k with
  | nil => simp [lastSync] at found
  | cons sample rest ih =>
    cases later : lastSync rest with
    | some j =>
      have bound := ih j later
      simp only [lastSync, later, Option.some.injEq] at found
      simp only [List.length_cons]
      omega
    | none =>
      simp only [lastSync, later] at found
      split at found
      next =>
        simp only [Option.some.injEq] at found
        simp only [List.length_cons]
        omega
      next => simp at found

theorem lastSync_isSync (samples : List SampleRecord) (k : Nat) (found : lastSync samples = some k) :
    ∃ sample, samples[k]? = some sample ∧ sample.isSync = true := by
  induction samples generalizing k with
  | nil => simp [lastSync] at found
  | cons sample rest ih =>
    cases later : lastSync rest with
    | some j =>
      simp only [lastSync, later, Option.some.injEq] at found
      subst found
      simpa using ih j later
    | none =>
      simp only [lastSync, later] at found
      split at found
      next sync =>
        simp only [Option.some.injEq] at found
        subst found
        exact ⟨sample, rfl, sync⟩
      next => simp at found

theorem SampleFifo.keyframeBefore_spec (fifo : SampleFifo) (timeUs : Int) (count : Nat)
    (found : fifo.keyframeBefore timeUs = some count) :
    ∃ sample, fifo.queue[count]? = some sample ∧ sample.isSync = true := by
  unfold keyframeBefore at found
  split at found
  next =>
    split at found
    next => simp at found
    next =>
      obtain ⟨sample, position, sync⟩ := lastSync_isSync _ _ found
      obtain ⟨later, split⟩ : (fifo.queue.takeWhile fun sample => decide (sample.timeUs ≤ timeUs)) <+:
          fifo.queue := List.takeWhile_prefix _
      refine ⟨sample, ?_, sync⟩
      rw [← split, List.getElem?_append_left (lastSync_lt _ _ found)]
      exact position
  next => simp at found

structure InfoQueue.Refines (queue : InfoQueue) (fifo : SampleFifo) : Prop where
  sizeBound : queue.queueSize < queue.capacity
  readBound : queue.relativeReadIndex < queue.capacity
  writeIndex : queue.relativeWriteIndex =
    (queue.relativeReadIndex + queue.queueSize) % queue.capacity
  samples : queue.samples = fifo.queue
  read : queue.absoluteReadIndex = fifo.consumed
  balance : fifo.committed = fifo.consumed + fifo.queue.length + fifo.discarded

namespace InfoQueue

variable {queue : InfoQueue} {fifo : SampleFifo}

theorem Refines.size (refines : queue.Refines fifo) : queue.queueSize = fifo.queue.length := by
  rw [← refines.samples, InfoQueue.samples, length_window]

theorem Refines.head (refines : queue.Refines fifo) {sample : SampleRecord}
    {rest : List SampleRecord} (present : fifo.queue = sample :: rest) :
    queue.record queue.relativeReadIndex = sample := by
  have size := refines.size
  have first := refines.samples
  rw [present] at size first
  rw [InfoQueue.samples, size, List.length_cons, window_cons, List.cons.injEq] at first
  rw [← first.1, Nat.mod_eq_of_lt refines.readBound]

theorem Refines.get (refines : queue.Refines fifo) (k : Nat) (inside : k < fifo.queue.length) :
    fifo.queue[k]? = some (queue.record ((queue.relativeReadIndex + k) % queue.capacity)) := by
  rw [← refines.samples]
  exact getElem?_window _ _ _ _ _ (refines.size ▸ inside)

theorem initial_refines (fresh : Fresh) : (initial fresh).Refines {} where
  sizeBound := by simp [initial, kSampleCapacityIncrement]
  readBound := by simp [initial, kSampleCapacityIncrement]
  writeIndex := by simp [initial]
  samples := by simp [initial, InfoQueue.samples]
  read := rfl
  balance := rfl

theorem clear_refines (refines : queue.Refines fifo) : queue.clear.Refines {} where
  sizeBound := Nat.zero_lt_of_lt refines.sizeBound
  readBound := Nat.zero_lt_of_lt refines.sizeBound
  writeIndex := by simp [clear]
  samples := by simp [clear, InfoQueue.samples]
  read := rfl
  balance := rfl

theorem commitSample_refines (fresh : Fresh) (metadata : SampleMetadata)
    (refines : queue.Refines fifo) :
    (queue.commitSample fresh metadata).Refines (fifo.commit metadata.record) := by
  have positive : 0 < queue.capacity := Nat.zero_lt_of_lt refines.sizeBound
  have stored : window (queue.store metadata).record queue.capacity queue.relativeReadIndex
      (queue.queueSize + 1) = fifo.queue ++ [metadata.record] := by
    rw [record_store, refines.writeIndex, window_push _ _ _ _ _ refines.sizeBound]
    exact congrArg (· ++ [metadata.record]) refines.samples
  have balance : (fifo.commit metadata.record).committed = (fifo.commit metadata.record).consumed +
      (fifo.commit metadata.record).queue.length + (fifo.commit metadata.record).discarded := by
    have := refines.balance
    simp only [SampleFifo.commit, List.length_append, List.length_singleton]
    omega
  unfold commitSample
  simp only
  split
  next full =>
    -- The new sample fills the last slot, so the ring is unrolled into a larger one.
    refine ⟨?_, ?_, ?_, ?_, refines.read, balance⟩
    · simp [grow, store, kSampleCapacityIncrement]
    · simp [grow, store, kSampleCapacityIncrement]
    · simp [grow, store, kSampleCapacityIncrement, Nat.mod_eq_of_lt]
    · rw [samples_grow { queue.store metadata with queueSize := queue.queueSize + 1 } fresh
        refines.readBound full]
      exact stored
  next notFull =>
    refine ⟨?_, refines.readBound, ?_, stored, refines.read, balance⟩
    · have := refines.sizeBound
      simp only [store] at notFull ⊢
      omega
    · have advanced := next_index positive (queue.relativeReadIndex + queue.queueSize)
      rw [← refines.writeIndex] at advanced
      exact advanced.symm

theorem moveToNextSample_refines (refines : queue.Refines fifo) (nonempty : fifo.queue ≠ []) :
    queue.moveToNextSample.2.Refines (fifo.consume 1) ∧
      queue.moveToNextSample.1 = fifo.nextOffset := by
  have positive : 0 < queue.capacity := Nat.zero_lt_of_lt refines.sizeBound
  obtain ⟨sample, rest, present⟩ := List.exists_cons_of_ne_nil nonempty
  have size := refines.size
  have first := refines.head present
  have small := refines.sizeBound
  rw [present, List.length_cons] at size
  have readIndex : (if queue.relativeReadIndex + 1 = queue.capacity then 0
      else queue.relativeReadIndex + 1) = (queue.relativeReadIndex + 1) % queue.capacity := by
    rw [next_index positive, Nat.mod_eq_of_lt refines.readBound]
  have remaining : window queue.record queue.capacity
      ((queue.relativeReadIndex + 1) % queue.capacity) (queue.queueSize - 1) = rest := by
    rw [window_start_mod, ← drop_window, ← InfoQueue.samples, refines.samples, present,
      List.drop_one, List.tail_cons]
  constructor
  · refine ⟨?_, ?_, ?_, ?_, ?_, ?_⟩
    · simp only [moveToNextSample]
      omega
    · simp only [moveToNextSample, readIndex]
      exact Nat.mod_lt _ positive
    · simp only [moveToNextSample, readIndex, Nat.mod_add_mod, refines.writeIndex, size]
      congr 1
      omega
    · simp only [moveToNextSample, InfoQueue.samples, readIndex, SampleFifo.consume, present,
        List.drop_one, List.tail_cons]
      exact remaining
    · simp [moveToNextSample, SampleFifo.consume, refines.read]
    · have := refines.balance
      simp only [SampleFifo.consume, present, List.drop_one, List.tail_cons, List.length_cons] at this ⊢
      omega
  · simp only [moveToNextSample, readIndex, SampleFifo.nextOffset, present]
    cases rest with
    | nil =>
      simp only [List.length_nil] at size
      simp [size, ← first, record]
    | cons next later =>
      have second := refines.get 1 (by simp [present])
      simp only [List.length_cons] at size
      have more : queue.queueSize - 1 > 0 := by omega
      simp only [present, List.getElem?_cons_succ, List.getElem?_cons_zero, Option.some.injEq] at second
      simp [more, second, record]

theorem searchKeyframe_eq (queue : InfoQueue) (timeUs : Int) (left rounds searchIndex : Nat)
    (sampleCount best : Int) (inside : searchIndex < queue.capacity) (small : left < queue.capacity)
    (finish : queue.relativeWriteIndex = (searchIndex + left) % queue.capacity)
    (enough : left ≤ rounds) :
    queue.searchKeyframe timeUs rounds searchIndex sampleCount best =
      match lastSync ((window queue.record queue.capacity searchIndex left).takeWhile
        fun sample => decide (sample.timeUs ≤ timeUs)) with
      | none => best
      | some k => sampleCount + k := by
  induction left generalizing rounds searchIndex sampleCount best with
  | zero =>
    have reached : searchIndex = queue.relativeWriteIndex := by
      rw [finish, Nat.add_zero, Nat.mod_eq_of_lt inside]
    cases rounds <;> simp [searchKeyframe, reached, lastSync]
  | succ left ih =>
    obtain ⟨rounds, rfl⟩ : ∃ n, rounds = n + 1 := ⟨rounds - 1, by omega⟩
    have apart : searchIndex ≠ queue.relativeWriteIndex := by
      have different := mod_ne_of_lt searchIndex (show 0 < left + 1 by omega)
        (show left + 1 < 0 + queue.capacity by omega)
      rwa [Nat.add_zero, Nat.mod_eq_of_lt inside, ← finish] at different
    have positive : 0 < queue.capacity := by omega
    have later := ih rounds ((searchIndex + 1) % queue.capacity) (sampleCount + 1)
      (if hasFlag (queue.flags searchIndex) kSampleFlagSync then sampleCount else best)
      (Nat.mod_lt _ positive) (by omega)
      (by rw [finish, Nat.mod_add_mod]; congr 1; omega) (by omega)
    rw [window_start_mod] at later
    rw [searchKeyframe, if_neg apart, window_cons, Nat.mod_eq_of_lt inside]
    by_cases late : queue.timesUs searchIndex > timeUs
    · have stops : ¬ (queue.record searchIndex).timeUs ≤ timeUs := by
        simpa [record] using late
      simp [late, stops, lastSync]
    · have continues : (queue.record searchIndex).timeUs ≤ timeUs := by
        simpa [record] using late
      rw [if_neg late, later, List.takeWhile_cons_of_pos (by simpa using continues), lastSync]
      cases lastSync ((window queue.record queue.capacity (searchIndex + 1) left).takeWhile
        fun sample => decide (sample.timeUs ≤ timeUs)) with
      | none =>
        cases sync : hasFlag (queue.flags searchIndex) kSampleFlagSync <;>
          simp [sync, SampleRecord.isSync, record]
      | some k => simp [Int.add_assoc, Int.add_comm 1]

theorem lastWriteIndex_eq (refines : queue.Refines fifo) (nonempty : fifo.queue ≠ []) :
    queue.lastWriteIndex =
      (queue.relativeReadIndex + (queue.queueSize - 1)) % queue.capacity := by
  have positive : 0 < queue.capacity := Nat.zero_lt_of_lt refines.sizeBound
  have size : 0 < queue.queueSize := by
    rw [refines.size]
    exact List.length_pos_iff.mpr nonempty
  have back := previous_index positive (queue.relativeReadIndex + (queue.queueSize - 1))
  rw [show queue.relativeReadIndex + (queue.queueSize - 1) + 1 =
    queue.relativeReadIndex + queue.queueSize by omega, ← refines.writeIndex] at back
  exact back

theorem Refines.last (refines : queue.Refines fifo) (nonempty : fifo.queue ≠ []) :
    fifo.queue.getLast? = some (queue.record queue.lastWriteIndex) := by
  have size : 0 < fifo.queue.length := List.length_pos_iff.mpr nonempty
  rw [List.getLast?_eq_getElem?, refines.get _ (by omega), lastWriteIndex_eq refines nonempty,
    refines.size]

theorem Refines.consume (refines : queue.Refines fifo) {count : Nat}
    (inside : count ≤ fifo.queue.length) :
    Refines { queue with
      queueSize := queue.queueSize - count
      relativeReadIndex := (queue.relativeReadIndex + count) % queue.capacity
      absoluteReadIndex := queue.absoluteReadIndex + count } (fifo.consume count) := by
  have positive : 0 < queue.capacity := Nat.zero_lt_of_lt refines.sizeBound
  have size := refines.size
  refine ⟨?_, Nat.mod_lt _ positive, ?_, ?_, ?_, ?_⟩
  · exact lt_of_le_of_lt (Nat.sub_le _ _) refines.sizeBound
  · simp only [Nat.mod_add_mod, refines.writeIndex]
    congr 1
    omega
  · simp only [InfoQueue.samples, SampleFifo.consume]
    rw [window_start_mod, ← refines.samples, InfoQueue.samples, drop_window]
    rfl
  · simp [SampleFifo.consume, refines.read]
  · have := refines.balance
    simp only [SampleFifo.consume, List.length_drop]
    omega

-- The cyclic search comes to the keyframe of the list, and the fields move by as many samples.
theorem skipToKeyframeBefore_eq (timeUs : Int) (refines : queue.Refines fifo) :
    queue.skipToKeyframeBefore timeUs =
      match fifo.keyframeBefore timeUs with
      | none => (-1, queue)
      | some count =>
        (queue.offsets ((queue.relativeReadIndex + count) % queue.capacity),
          { queue with
            queueSize := queue.queueSize - count
            relativeReadIndex := (queue.relativeReadIndex + count) % queue.capacity
            absoluteReadIndex := queue.absoluteReadIndex + count }) := by
  by_cases empty : fifo.queue = []
  · have size : queue.queueSize = 0 := by rw [refines.size, empty, List.length_nil]
    simp [skipToKeyframeBefore, size, SampleFifo.keyframeBefore, empty]
  obtain ⟨first, rest, present⟩ := List.exists_cons_of_ne_nil empty
  have head := refines.head present
  have size : queue.queueSize ≠ 0 := by rw [refines.size, present, List.length_cons]; omega
  have lastSample := refines.last empty
  have firstTime : first.timeUs = queue.timesUs queue.relativeReadIndex := by rw [← head]; rfl
  have found := searchKeyframe_eq queue timeUs queue.queueSize queue.capacity
    queue.relativeReadIndex 0 (-1) refines.readBound refines.sizeBound refines.writeIndex
    (Nat.le_of_lt refines.sizeBound)
  rw [← InfoQueue.samples, refines.samples] at found
  have spec : fifo.keyframeBefore timeUs =
      if timeUs < queue.timesUs queue.relativeReadIndex ∨ timeUs > queue.timesUs queue.lastWriteIndex
      then none
      else lastSync (fifo.queue.takeWhile fun sample => decide (sample.timeUs ≤ timeUs)) := by
    simp only [SampleFifo.keyframeBefore, lastSample, firstTime, record,
      show fifo.queue.head? = some first by simp [present]]
  unfold skipToKeyframeBefore
  rw [spec]
  by_cases early : timeUs < queue.timesUs queue.relativeReadIndex
  · simp [early]
  by_cases late : timeUs > queue.timesUs queue.lastWriteIndex
  · simp [size, early, late]
  simp only [size, early, late, or_self, if_false]
  rw [found]
  cases key : lastSync (fifo.queue.takeWhile fun sample => decide (sample.timeUs ≤ timeUs)) with
  | none => rfl
  | some k =>
    have notMissing : ¬ ((0 : Int) + k = -1) := by omega
    rw [if_neg notMissing]
    simp only [Int.zero_add, Int.toNat_natCast]

theorem skipToKeyframeBefore_refines (timeUs : Int) (refines : queue.Refines fifo) :
    (queue.skipToKeyframeBefore timeUs).2.Refines (fifo.skipToKeyframeBefore timeUs).2 ∧
      (queue.skipToKeyframeBefore timeUs).1 = (fifo.skipToKeyframeBefore timeUs).1 := by
  rw [skipToKeyframeBefore_eq timeUs refines, SampleFifo.skipToKeyframeBefore]
  cases key : fifo.keyframeBefore timeUs with
  | none => exact ⟨refines, rfl⟩
  | some count =>
    obtain ⟨sample, present, -⟩ := fifo.keyframeBefore_spec timeUs count key
    have bound : count < fifo.queue.length := (List.getElem?_eq_some_iff.mp present).1
    exact ⟨refines.consume (Nat.le_of_lt bound), by simp [refines.get _ bound, record]⟩

theorem discardUpstreamSamples_refines (index : Nat) (refines : queue.Refines fifo)
    (lower : fifo.consumed ≤ index) (upper : index ≤ fifo.consumed + fifo.queue.length) :
    (queue.discardUpstreamSamples index).2.Refines (fifo.discardFrom index) := by
  have size := refines.size
  have read := refines.read
  have balance := refines.balance
  have bound := refines.sizeBound
  have whole : queue.getWriteIndex = fifo.consumed + fifo.queue.length := by
    simp [getWriteIndex, read, size]
  unfold discardUpstreamSamples
  simp only [whole]
  by_cases nothing : fifo.consumed + fifo.queue.length - index = 0
  · have same : fifo.discardFrom index = fifo := by
      have all : fifo.queue.take (index - fifo.consumed) = fifo.queue :=
        List.take_of_length_le (by omega)
      simp [SampleFifo.discardFrom, nothing, all]
    rw [same]
    split_ifs <;> exact refines
  · rw [if_neg nothing]
    refine ⟨?_, refines.readBound, ?_, ?_, read, ?_⟩
    · exact lt_of_le_of_lt (Nat.sub_le _ _) bound
    · simp only [refines.writeIndex]
      exact mod_back _ _ _ (by omega) (by omega)
    · have kept : min (index - fifo.consumed) queue.queueSize =
          queue.queueSize - (fifo.consumed + fifo.queue.length - index) := by omega
      have taken := congrArg (List.take (index - fifo.consumed)) refines.samples
      rw [InfoQueue.samples, take_window, kept] at taken
      exact taken
    · simp only [SampleFifo.discardFrom, List.length_take]
      omega

end InfoQueue

inductive InfoQueueOp
  | commitSample (metadata : SampleMetadata)
  | peekSample
  | moveToNextSample
  | skipToKeyframeBefore (timeUs : Int)
  | discardUpstreamSamples (discardFromIndex : Nat)
  | clear

def InfoQueue.apply (queue : InfoQueue) (fresh : Fresh) : InfoQueueOp → InfoQueue
  | .commitSample metadata => queue.commitSample fresh metadata
  | .peekSample => queue
  | .moveToNextSample => queue.moveToNextSample.2
  | .skipToKeyframeBefore timeUs => (queue.skipToKeyframeBefore timeUs).2
  | .discardUpstreamSamples index => (queue.discardUpstreamSamples index).2
  | .clear => queue.clear

def SampleFifo.apply (fifo : SampleFifo) : InfoQueueOp → SampleFifo
  | .commitSample metadata => fifo.commit metadata.record
  | .peekSample => fifo
  | .moveToNextSample => fifo.consume 1
  | .skipToKeyframeBefore timeUs => (fifo.skipToKeyframeBefore timeUs).2
  | .discardUpstreamSamples index => fifo.discardFrom index
  | .clear => {}

def SampleFifo.Legal (fifo : SampleFifo) : InfoQueueOp → Prop
  | .moveToNextSample => fifo.queue ≠ []
  | .discardUpstreamSamples index =>
    fifo.consumed ≤ index ∧ index ≤ fifo.consumed + fifo.queue.length
  | _ => True

def infoQueueSystem (fresh : Fresh) : System (InfoQueue × SampleFifo) InfoQueueOp where
  Start state := state = (InfoQueue.initial fresh, {})
  Step state op next :=
    state.2.Legal op ∧ next = (state.1.apply fresh op, state.2.apply op)

theorem infoQueueSystem_refines (fresh : Fresh) {queue : InfoQueue} {fifo : SampleFifo}
    (reachable : Reachable (infoQueueSystem fresh) (queue, fifo)) : queue.Refines fifo := by
  refine Reachable.invariant (fun state => state.1.Refines state.2) ?_ ?_ reachable
  · rintro _ rfl
    exact InfoQueue.initial_refines fresh
  · rintro ⟨queue, fifo⟩ op _ refines ⟨legal, rfl⟩
    cases op with
    | commitSample metadata => exact InfoQueue.commitSample_refines fresh metadata refines
    | peekSample => exact refines
    | moveToNextSample => exact (InfoQueue.moveToNextSample_refines refines legal).1
    | skipToKeyframeBefore timeUs => exact (InfoQueue.skipToKeyframeBefore_refines timeUs refines).1
    | discardUpstreamSamples index =>
      exact InfoQueue.discardUpstreamSamples_refines index refines legal.1 legal.2
    | clear => exact InfoQueue.clear_refines refines

structure Shows (sample : SampleRecord) (holder : SampleHolder) (extras : SampleExtrasHolder) :
    Prop where
  timeUs : holder.timeUs = sample.timeUs
  durationUs : holder.durationUs = sample.durationUs
  flags : holder.flags = sample.flags
  size : holder.peekSize = sample.size
  offset : 0 ≤ sample.offset → sample.offset < 2147483648 → extras.getOffset = sample.offset
  encryption : sample.isEncrypted = true →
    extras.encryptionKeyId = some sample.encryptionKeyId ∧ extras.iv = some sample.iv ∧
      extras.numBytesClear = some sample.numBytesClear ∧ extras.numBytesEnc = some sample.numBytesEnc

theorem InfoQueue.peekSample_empty {queue : InfoQueue} {fifo : SampleFifo}
    (refines : queue.Refines fifo) (empty : fifo.queue = []) (holder : SampleHolder)
    (extras : SampleExtrasHolder) : queue.peekSample holder extras = (false, holder, extras) := by
  have size : queue.queueSize = 0 := by rw [refines.size, empty, List.length_nil]
  simp [peekSample, size]

theorem InfoQueue.peekSample_head {queue : InfoQueue} {fifo : SampleFifo} {sample : SampleRecord}
    {rest : List SampleRecord} (refines : queue.Refines fifo) (present : fifo.queue = sample :: rest)
    (holder : SampleHolder) (extras : SampleExtrasHolder) :
    queue.peekSample holder extras =
      (true,
        { holder with
          timeUs := sample.timeUs
          peekSize := sample.size
          flags := sample.flags
          durationUs := sample.durationUs },
        if sample.isEncrypted then
          { offset := toInt32 sample.offset
            encryptionKeyId := some sample.encryptionKeyId
            iv := some sample.iv
            numBytesClear := some sample.numBytesClear
            numBytesEnc := some sample.numBytesEnc }
        else { offset := toInt32 sample.offset }) := by
  have size : queue.queueSize ≠ 0 := by rw [refines.size, present, List.length_cons]; omega
  have head := refines.head present
  subst head
  cases encrypted : hasFlag (queue.flags queue.relativeReadIndex) kSampleFlagEncrypted <;>
    simp [peekSample, size, record, SampleHolder.isEncrypted, SampleRecord.isEncrypted, encrypted,
      SampleExtrasHolder.setOffset]

structure BehavesAsList (queue : InfoQueue) (fifo : SampleFifo) : Prop where
  peekEmpty : fifo.queue = [] → ∀ holder extras,
    queue.peekSample holder extras = (false, holder, extras)
  peekHead : ∀ sample rest, fifo.queue = sample :: rest → ∀ holder extras,
    (queue.peekSample holder extras).1 = true ∧
      Shows sample (queue.peekSample holder extras).2.1 (queue.peekSample holder extras).2.2
  readIndex : queue.getReadIndex = fifo.consumed
  writeIndex : queue.getWriteIndex = fifo.committed - fifo.discarded
  moved : fifo.queue ≠ [] → queue.moveToNextSample.1 = fifo.nextOffset
  skipped : ∀ timeUs, (queue.skipToKeyframeBefore timeUs).1 = (fifo.skipToKeyframeBefore timeUs).1
  sizeBound : 0 ≤ queue.queueSize ∧ queue.queueSize < queue.capacity
  writeSlot : queue.relativeWriteIndex =
    (queue.relativeReadIndex + queue.queueSize) % queue.capacity

theorem infoQueue_refines_fifo (fresh : Fresh) (queue : InfoQueue) (fifo : SampleFifo)
    (reachable : Reachable (infoQueueSystem fresh) (queue, fifo)) : BehavesAsList queue fifo := by
  have refines := infoQueueSystem_refines fresh reachable
  refine ⟨?_, ?_, refines.read, ?_, ?_, ?_, ⟨Nat.zero_le _, refines.sizeBound⟩, refines.writeIndex⟩
  · exact InfoQueue.peekSample_empty refines
  · intro sample rest present holder extras
    rw [InfoQueue.peekSample_head refines present]
    refine ⟨rfl, rfl, rfl, rfl, rfl, ?_, ?_⟩
    · intro lower upper
      have exact : toInt32 sample.offset = sample.offset := toInt32_of_range (by omega) upper
      by_cases encrypted : sample.isEncrypted = true <;>
        simp [encrypted, SampleExtrasHolder.getOffset, exact]
    · intro encrypted
      simp [encrypted]
  · have size := refines.size
    have balance := refines.balance
    simp only [InfoQueue.getWriteIndex, refines.read, size]
    omega
  · exact fun nonempty => (InfoQueue.moveToNextSample_refines refines nonempty).2
  · exact fun timeUs => (InfoQueue.skipToKeyframeBefore_refines timeUs refines).2

def Fresh.zero : Fresh :=
  ⟨fun _ _ => 0, fun _ _ => 0, fun _ _ => 0, fun _ _ => 0#32, fun _ _ => 0⟩

def keySample : SampleMetadata :=
  { timeUs := 1234, durationUs := 33, flags := kSampleFlagSync, offset := 5, size := 7 }

def sampleWith (timeUs : Int) (flags : BitVec 32) : SampleMetadata :=
  { timeUs, durationUs := 20, flags, offset := timeUs, size := 7 }

def fiveSamples : List InfoQueueOp :=
  [.commitSample (sampleWith 0 kSampleFlagSync), .commitSample (sampleWith 20 0),
    .commitSample (sampleWith 40 kSampleFlagSync), .commitSample (sampleWith 60 0),
    .commitSample (sampleWith 80 kSampleFlagSync)]

def play (fresh : Fresh) (state : InfoQueue × SampleFifo) (ops : List InfoQueueOp) :
    InfoQueue × SampleFifo :=
  ops.foldl (fun state op => (state.1.apply fresh op, state.2.apply op)) state

def SampleFifo.Plays : SampleFifo → List InfoQueueOp → Prop
  | _, [] => True
  | fifo, op :: ops => fifo.Legal op ∧ (fifo.apply op).Plays ops

theorem play_reachable (fresh : Fresh) {state : InfoQueue × SampleFifo} {ops : List InfoQueueOp}
    (reachable : Reachable (infoQueueSystem fresh) state) (legal : state.2.Plays ops) :
    Reachable (infoQueueSystem fresh) (play fresh state ops) := by
  induction ops generalizing state with
  | nil => exact reachable
  | cons op ops ih => exact ih (reachable.next op ⟨legal.1, rfl⟩) legal.2

-- The third sample is in front, and the fifth is discarded again.
theorem infoQueue_refines_fifo_five_samples :
    BehavesAsList
      (play .zero (.initial .zero, {})
        (fiveSamples ++ [.moveToNextSample, .moveToNextSample, .discardUpstreamSamples 4])).1
      { committed := 5
        consumed := 2
        discarded := 1
        queue := [(sampleWith 40 kSampleFlagSync).record, (sampleWith 60 0).record] } := by
  have legal : SampleFifo.Plays {}
      (fiveSamples ++ [.moveToNextSample, .moveToNextSample, .discardUpstreamSamples 4]) :=
    ⟨trivial, trivial, trivial, trivial, trivial, nofun, nofun, ⟨by decide, by decide⟩, trivial⟩
  exact infoQueue_refines_fifo .zero _ _ (play_reachable .zero (.start _ rfl) legal)

end NDash.Extractor

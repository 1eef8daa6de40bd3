import NDash.Extractor.InfoQueueFifo

set_option autoImplicit false

namespace NDash.Extractor

open RingBuffer Machine

def SampleFifo.upTo (fifo : SampleFifo) (timeUs : Int) : List SampleRecord :=
  fifo.queue.takeWhile fun sample => decide (sample.timeUs ≤ timeUs)

/-- There is no keyframe to skip to: nothing is queued, the time lies outside the queue, or no sync
sample comes before the first sample that is later. -/
def SampleFifo.NoKeyframe (fifo : SampleFifo) (timeUs : Int) : Prop :=
  fifo.queue = [] ∨ (∃ first, fifo.queue.head? = some first ∧ timeUs < first.timeUs) ∨
    (∃ last, fifo.queue.getLast? = some last ∧ last.timeUs < timeUs) ∨
      ∀ sample ∈ fifo.upTo timeUs, sample.isSync = false

structure SkipsToKeyframe (queue : InfoQueue) (fifo : SampleFifo) (timeUs : Int) (count : Nat) (offset : Int)
    (next : InfoQueue) : Prop where
  inside : count < (fifo.upTo timeUs).length
  keyframe : ∃ sample, fifo.queue[count]? = some sample ∧ sample.isSync = true ∧ offset = sample.offset
  last : ∀ later sample, count < later → (fifo.upTo timeUs)[later]? = some sample →
    sample.isSync = false
  samples : next.samples = fifo.queue.drop count
  size : next.queueSize + count = queue.queueSize
  readIndex : next.absoluteReadIndex = queue.absoluteReadIndex + count
  writeIndex : next.getWriteIndex = queue.getWriteIndex

theorem lastSync_none (samples : List SampleRecord) :
    lastSync samples = none ↔ ∀ sample ∈ samples, sample.isSync = false := by
  induction samples with
  | nil => simp [lastSync]
  | cons sample rest ih =>
    cases later : lastSync rest with
    | some k =>
      have sync : ¬ ∀ sample ∈ rest, sample.isSync = false := by
        rw [← ih, later]
        simp
      simp only [lastSync, later, List.forall_mem_cons]
      simp [sync]
    | none =>
      have noSync := ih.mp later
      simp only [lastSync, later, List.forall_mem_cons, iff_true_intro noSync, and_true]
      cases sample.isSync <;> simp

theorem lastSync_last {samples : List SampleRecord} {k : Nat} (found : lastSync samples = some k)
    {later : Nat} {sample : SampleRecord} (behind : k < later) (present : samples[later]? = some sample) :
    sample.isSync = false := by
  induction samples generalizing k later with
  | nil => simp at present
  | cons first rest ih =>
    obtain ⟨before, rfl⟩ : ∃ before, later = before + 1 := ⟨later - 1, by omega⟩
    rw [List.getElem?_cons_succ] at present
    cases inRest : lastSync rest with
    | some j =>
      simp only [lastSync, inRest, Option.some.injEq] at found
      exact ih inRest (by omega) present
    | none => exact (lastSync_none rest).mp inRest sample (List.mem_of_getElem? present)

theorem SampleFifo.keyframeBefore_none (fifo : SampleFifo) (timeUs : Int) :
    fifo.keyframeBefore timeUs = none ↔ fifo.NoKeyframe timeUs := by
  unfold keyframeBefore NoKeyframe
  cases samples : fifo.queue with
  | nil => simp
  | cons first rest =>
    obtain ⟨last, lastSample⟩ : ∃ last, (first :: rest).getLast? = some last :=
      ⟨_, List.getLast?_eq_some_getLast (List.cons_ne_nil first rest)⟩
    simp only [List.head?_cons, lastSample, List.cons_ne_nil, false_or, Option.some.injEq,
      exists_eq_left']
    by_cases early : timeUs < first.timeUs
    · simp [early]
    by_cases late : timeUs > last.timeUs
    · simp [late]
    simp only [early, late, or_self, if_false, false_or, upTo, samples]
    exact lastSync_none _

theorem SampleFifo.keyframeBefore_some {fifo : SampleFifo} {timeUs : Int} {count : Nat}
    (found : fifo.keyframeBefore timeUs = some count) : lastSync (fifo.upTo timeUs) = some count := by
  unfold keyframeBefore at found
  split at found
  next =>
    split at found
    next => cases found
    next => exact found
  next => cases found

theorem InfoQueue.Refines.skipsTo {queue : InfoQueue} {fifo : SampleFifo} {timeUs : Int} {count : Nat}
    (refines : queue.Refines fifo) (found : fifo.keyframeBefore timeUs = some count) :
    SkipsToKeyframe queue fifo timeUs count (queue.skipToKeyframeBefore timeUs).1
      (queue.skipToKeyframeBefore timeUs).2 := by
  have last := SampleFifo.keyframeBefore_some found
  obtain ⟨sample, present, sync⟩ := fifo.keyframeBefore_spec timeUs count found
  have bound : count < fifo.queue.length := (List.getElem?_eq_some_iff.mp present).1
  have size := refines.size
  obtain ⟨refines', offset⟩ := InfoQueue.skipToKeyframeBefore_refines timeUs refines
  have samples := refines'.samples
  simp only [SampleFifo.skipToKeyframeBefore, found] at offset samples
  refine
    { inside := lastSync_lt _ _ last
      keyframe := ⟨sample, present, sync, ?_⟩
      last := fun later sample behind => lastSync_last last behind
      samples := samples
      size := ?_
      readIndex := ?_
      writeIndex := ?_ }
  · rw [offset, present]
    rfl
  · rw [InfoQueue.skipToKeyframeBefore_eq timeUs refines, found]
    simp only
    omega
  · rw [InfoQueue.skipToKeyframeBefore_eq timeUs refines, found]
  · rw [InfoQueue.skipToKeyframeBefore_eq timeUs refines, found]
    simp only [InfoQueue.getWriteIndex]
    omega

theorem SampleFifo.upTo_of_sorted {fifo : SampleFifo} {timeUs : Int}
    (sorted : fifo.queue.Pairwise fun first second => first.timeUs ≤ second.timeUs) {index : Nat}
    {sample : SampleRecord} (present : fifo.queue[index]? = some sample) (early : sample.timeUs ≤ timeUs) :
    (fifo.upTo timeUs)[index]? = some sample := by
  unfold upTo
  generalize fifo.queue = samples at sorted present
  induction samples generalizing index with
  | nil => simp at present
  | cons first rest ih =>
    rw [List.pairwise_cons] at sorted
    cases index with
    | zero =>
      rw [List.getElem?_cons_zero, Option.some.injEq] at present
      subst present
      simp [early]
    | succ index =>
      rw [List.getElem?_cons_succ] at present
      have before := sorted.1 sample (List.mem_of_getElem? present)
      have firstEarly : first.timeUs ≤ timeUs := Int.le_trans before early
      rw [List.takeWhile_cons_of_pos (by simpa using firstEarly), List.getElem?_cons_succ]
      exact ih sorted.2 present

/-- SkipToKeyframeBefore moves the head to the last keyframe up to the time if there is one, and does
nothing otherwise. -/
theorem skipToKeyframeBefore_searches (fresh : Fresh) (queue : InfoQueue) (fifo : SampleFifo)
    (reachable : Reachable (infoQueueSystem fresh) (queue, fifo)) (timeUs : Int) :
    (fifo.NoKeyframe timeUs → queue.skipToKeyframeBefore timeUs = (-1, queue)) ∧
      (¬ fifo.NoKeyframe timeUs → ∃ count, SkipsToKeyframe queue fifo timeUs count
        (queue.skipToKeyframeBefore timeUs).1 (queue.skipToKeyframeBefore timeUs).2) ∧
      ((∀ sample ∈ fifo.queue, 0 ≤ sample.offset) →
        (queue.skipToKeyframeBefore timeUs = (-1, queue) ↔ fifo.NoKeyframe timeUs)) ∧
      (fifo.queue.Pairwise (fun first second => first.timeUs ≤ second.timeUs) →
        ∀ count offset next, SkipsToKeyframe queue fifo timeUs count offset next →
          ∀ index sample, fifo.queue[index]? = some sample → sample.isSync = true →
            sample.timeUs ≤ timeUs → index ≤ count) := by
  have refines := infoQueueSystem_refines fresh reachable
  have fails (none : fifo.NoKeyframe timeUs) : queue.skipToKeyframeBefore timeUs = (-1, queue) := by
    rw [InfoQueue.skipToKeyframeBefore_eq timeUs refines, (fifo.keyframeBefore_none timeUs).mpr none]
  have skips (some : ¬ fifo.NoKeyframe timeUs) : ∃ count, SkipsToKeyframe queue fifo timeUs count
      (queue.skipToKeyframeBefore timeUs).1 (queue.skipToKeyframeBefore timeUs).2 := by
    rw [← SampleFifo.keyframeBefore_none, ← ne_eq, Option.ne_none_iff_exists'] at some
    obtain ⟨count, found⟩ := some
    exact ⟨count, refines.skipsTo found⟩
  refine ⟨fails, skips, ?_, ?_⟩
  · intro positions
    refine ⟨fun failed => ?_, fails⟩
    by_contra some
    obtain ⟨count, skipped⟩ := skips some
    obtain ⟨sample, present, -, offset⟩ := skipped.keyframe
    have position := positions sample (List.mem_of_getElem? present)
    rw [failed] at offset
    simp only at offset
    omega
  · intro sorted count offset next skipped index sample present sync early
    by_contra behind
    have none := skipped.last index sample (by omega) (SampleFifo.upTo_of_sorted sorted present early)
    rw [sync] at none
    cases none

-- Past the keyframes at 0 and 40, to the one at 80.
theorem skipToKeyframeBefore_searches_five_samples :
    ∃ count, 4 ≤ count ∧ SkipsToKeyframe (play .zero (.initial .zero, {}) fiveSamples).1
      (play .zero (.initial .zero, {}) fiveSamples).2 80 count
      ((play .zero (.initial .zero, {}) fiveSamples).1.skipToKeyframeBefore 80).1
      ((play .zero (.initial .zero, {}) fiveSamples).1.skipToKeyframeBefore 80).2 := by
  have legal : SampleFifo.Plays {} fiveSamples := ⟨trivial, trivial, trivial, trivial, trivial, trivial⟩
  obtain ⟨-, searches, -, last⟩ := skipToKeyframeBefore_searches .zero _ _
    (play_reachable .zero (.start _ rfl) legal) 80
  obtain ⟨count, skips⟩ := searches (by
    rw [← SampleFifo.keyframeBefore_none]
    decide)
  exact ⟨count, last (by decide) count _ _ skips 4 _ rfl (by decide) (by decide), skips⟩

end NDash.Extractor

import NDash.Extractor.DefaultTrackOutput
import NDash.Shared.Machine

set_option autoImplicit false

namespace NDash.Extractor

open Machine RollingSampleBuffer

structure ParsedTrack where
  output : DefaultTrackOutput
  retained : List SampleRecord := []

inductive ParsedTrackOp
  | writeSampleData (src : Bytes) (allowEndOfInput : Bool)
  | writeSampleMetadata (metadata : SampleMetadata)
  | getSample (holder : SampleHolder)
  | discardUntil (timeUs : Int)
  | skipToKeyframeBefore (timeUs : Int)
  | discardUpstreamSamples (discardFromIndex : Nat)
  | clear

def IsLargest (samples : List SampleRecord) (timestampUs : Int) : Prop :=
  if samples = [] then timestampUs = kInvalidTimestamp
  else
    (∃ sample ∈ samples, sample.timeUs = timestampUs) ∧
      ∀ sample ∈ samples, sample.timeUs ≤ timestampUs

theorem IsLargest.append {samples : List SampleRecord} {timestampUs : Int}
    (largest : IsLargest samples timestampUs) {sample : SampleRecord}
    (valid : kInvalidTimestamp ≤ sample.timeUs) :
    IsLargest (samples ++ [sample]) (max timestampUs sample.timeUs) := by
  have some : samples ++ [sample] ≠ [] := by simp
  unfold IsLargest at largest ⊢
  rw [if_neg some]
  by_cases empty : samples = []
  · rw [if_pos empty] at largest
    subst empty
    simp [largest, valid]
  · rw [if_neg empty] at largest
    obtain ⟨⟨witness, member, time⟩, bound⟩ := largest
    refine ⟨?_, ?_⟩
    · rcases Int.le_total timestampUs sample.timeUs with le | le
      · exact ⟨sample, by simp, (Int.max_eq_right le).symm⟩
      · exact ⟨witness, by simp [member], by rw [time, Int.max_eq_left le]⟩
    · intro other member
      rcases List.mem_append.mp member with old | new
      · exact Int.le_trans (bound other old) (Int.le_max_left _ _)
      · rw [List.mem_singleton.mp new]
        exact Int.le_max_right _ _

namespace ParsedTrack

def apply (fresh : Fresh) (track : ParsedTrack) : ParsedTrackOp → Except Fault ParsedTrack
  | .writeSampleData src allowEndOfInput => do
    let (_, _, output) ← track.output.writeSampleDataFixThis src allowEndOfInput
    .ok { track with output }
  | .writeSampleMetadata metadata =>
    .ok
      { output := track.output.writeSampleMetadata fresh metadata
        retained := track.retained ++ [(track.output.positioned metadata).record] }
  | .getSample holder => do
    let (_, _, output) ← track.output.getSample holder
    .ok { track with output }
  | .discardUntil timeUs => do
    let output ← track.output.discardUntil timeUs
    .ok { track with output }
  | .skipToKeyframeBefore timeUs => do
    let (_, output) ← track.output.skipToKeyframeBefore timeUs
    .ok { track with output }
  | .discardUpstreamSamples index => do
    let output ← track.output.discardUpstreamSamples index
    .ok { output, retained := track.retained.take index }
  | .clear => do
    let output ← track.output.clear
    .ok { output }

-- Timestamps are 64-bit and increase, and a discard keeps a sample that is still unread.
def Legal (track : ParsedTrack) : ParsedTrackOp → Prop
  | .writeSampleMetadata metadata =>
    kInvalidTimestamp ≤ metadata.timeUs ∧ ∀ sample ∈ track.retained, sample.timeUs ≤ metadata.timeUs
  | .discardUpstreamSamples index =>
    track.output.getReadIndex < index ∧ index ≤ track.output.getWriteIndex
  | _ => True

/-- A discard keeps unread samples of one timestamp only: a single one, where timestamps differ. -/
def KeepsOne (track : ParsedTrack) : ParsedTrackOp → Prop
  | .discardUpstreamSamples index =>
    ∀ first ∈ (track.retained.take index).drop track.output.getReadIndex,
      ∀ second ∈ (track.retained.take index).drop track.output.getReadIndex,
        first.timeUs = second.timeUs
  | _ => True

structure Parsed (track : ParsedTrack) (fifo : SampleFifo) : Prop where
  refines : track.output.rollingBuffer.infoQueue.Refines fifo
  queued : fifo.queue = track.retained.drop fifo.consumed
  bounded : fifo.consumed ≤ track.retained.length
  sorted : track.retained.Pairwise fun first second => first.timeUs ≤ second.timeUs
  largest : IsLargest track.retained track.output.largestParsedTimestampUs

variable {track next : ParsedTrack} {fifo : SampleFifo}

theorem Parsed.getReadIndex (parsed : track.Parsed fifo) : track.output.getReadIndex = fifo.consumed :=
  parsed.refines.read

theorem Parsed.getWriteIndex (parsed : track.Parsed fifo) :
    track.output.getWriteIndex = track.retained.length := by
  have size := parsed.refines.size
  have read := parsed.refines.read
  have bounded := parsed.bounded
  rw [parsed.queued, List.length_drop] at size
  simp only [DefaultTrackOutput.getWriteIndex, RollingSampleBuffer.getWriteIndex,
    InfoQueue.getWriteIndex, size, read]
  omega

theorem Parsed.consume (parsed : track.Parsed fifo) {count : Nat} {output : DefaultTrackOutput}
    (inside : count ≤ fifo.queue.length)
    (refines : output.rollingBuffer.infoQueue.Refines (fifo.consume count))
    (same : output.largestParsedTimestampUs = track.output.largestParsedTimestampUs) :
    Parsed { track with output } (fifo.consume count) := by
  obtain ⟨-, queued, bounded, sorted, largest⟩ := parsed
  have size := congrArg List.length queued
  rw [List.length_drop] at size
  refine ⟨refines, ?_, ?_, sorted, ?_⟩
  · simp [SampleFifo.consume, queued]
  · simp only [SampleFifo.consume]
    omega
  · simp only [same]
    exact largest

theorem writeSampleMetadata_parsed (fresh : Fresh) {metadata : SampleMetadata}
    (parsed : track.Parsed fifo) (legal : track.Legal (.writeSampleMetadata metadata))
    (applied : track.apply fresh (.writeSampleMetadata metadata) = .ok next) :
    next.Parsed (fifo.commit (track.output.positioned metadata).record) := by
  cases applied
  obtain ⟨refines, queued, bounded, sorted, largest⟩ := parsed
  refine ⟨InfoQueue.commitSample_refines fresh _ refines, ?_, ?_, ?_, ?_⟩
  · simp only [SampleFifo.commit, queued]
    exact (List.drop_append_of_le_length bounded).symm
  · simp only [SampleFifo.commit, List.length_append]
    omega
  · rw [List.pairwise_append]
    refine ⟨sorted, List.pairwise_singleton _ _, ?_⟩
    intro earlier member last new
    rw [List.mem_singleton.mp new]
    exact legal.2 earlier member
  · exact largest.append legal.1

theorem getSample_parsed (fresh : Fresh) {holder : SampleHolder} (parsed : track.Parsed fifo)
    (applied : track.apply fresh (.getSample holder) = .ok next) : ∃ after, next.Parsed after := by
  obtain ⟨⟨found, filled, output⟩, gets, rest⟩ := bind_ok applied
  cases rest
  obtain ⟨count, middle, advances, outcome⟩ :=
    DefaultTrackOutput.getSample_advances parsed.refines gets
  obtain ⟨shown, advanced, rfl⟩ := advances.same
  cases found with
  | false =>
    obtain ⟨-, rfl⟩ := outcome
    exact ⟨_, parsed.consume advances.inside advances.refines rfl⟩
  | true =>
    obtain ⟨sample, samples, present, -, -, reached, buffer, rfl⟩ := outcome
    exact ⟨_, parsed.consume (SampleFifo.lt_length_of_consume present) reached rfl⟩

theorem discardUntil_parsed (fresh : Fresh) {timeUs : Int} (parsed : track.Parsed fifo)
    (applied : track.apply fresh (.discardUntil timeUs) = .ok next) : ∃ after, next.Parsed after := by
  obtain ⟨output, discards, rest⟩ := bind_ok applied
  cases rest
  obtain ⟨count, reaches, reached, shown, buffer, rfl⟩ :=
    DefaultTrackOutput.discardUntil_refines parsed.refines discards
  exact ⟨_, parsed.consume reaches.inside reached rfl⟩

theorem skipToKeyframeBefore_parsed (fresh : Fresh) {timeUs : Int} (parsed : track.Parsed fifo)
    (applied : track.apply fresh (.skipToKeyframeBefore timeUs) = .ok next) :
    ∃ after, next.Parsed after := by
  obtain ⟨⟨found, output⟩, skips, rest⟩ := bind_ok applied
  cases rest
  obtain ⟨reached, -, buffer, rfl⟩ :=
    DefaultTrackOutput.skipToKeyframeBefore_refines parsed.refines skips
  cases keyframe : fifo.keyframeBefore timeUs with
  | none =>
    simp only [SampleFifo.skipToKeyframeBefore, keyframe] at reached
    obtain ⟨-, queued, bounded, sorted, largest⟩ := parsed
    exact ⟨fifo, reached, queued, bounded, sorted, largest⟩
  | some count =>
    simp only [SampleFifo.skipToKeyframeBefore, keyframe] at reached
    obtain ⟨sample, found, -⟩ := fifo.keyframeBefore_spec timeUs count keyframe
    have inside := (List.getElem?_eq_some_iff.mp found).1
    exact ⟨_, parsed.consume (Nat.le_of_lt inside) reached rfl⟩

theorem discardUpstreamSamples_eq {output next : DefaultTrackOutput} {index : Nat}
    (discards : output.discardUpstreamSamples index = .ok next) :
    ∃ buffer, output.rollingBuffer.discardUpstreamSamples index = .ok buffer ∧
      next.rollingBuffer.infoQueue = buffer.infoQueue ∧
      next.largestParsedTimestampUs = if (buffer.peekSample output.sampleInfoHolder).1 then
        (buffer.peekSample output.sampleInfoHolder).2.1.timeUs else kInvalidTimestamp := by
  obtain ⟨buffer, dropped, rest⟩ := bind_ok discards
  cases rest
  exact ⟨buffer, dropped, rfl, rfl⟩

-- The code takes the timestamp of the first unread sample for that of the last.
theorem discardUpstreamSamples_parsed (fresh : Fresh) {index : Nat} (parsed : track.Parsed fifo)
    (legal : track.Legal (.discardUpstreamSamples index))
    (keepsOne : track.KeepsOne (.discardUpstreamSamples index))
    (applied : track.apply fresh (.discardUpstreamSamples index) = .ok next) :
    ∃ after, next.Parsed after := by
  obtain ⟨output, discards, rest⟩ := bind_ok applied
  cases rest
  obtain ⟨buffer, dropped, queue, timestamp⟩ := discardUpstreamSamples_eq discards
  have read := parsed.getReadIndex
  obtain ⟨unread, within⟩ := legal
  rw [parsed.getWriteIndex] at within
  rw [read] at unread
  simp only [KeepsOne, read] at keepsOne
  have size := congrArg List.length parsed.queued
  rw [List.length_drop] at size
  have upper : index ≤ fifo.consumed + fifo.queue.length := by omega
  have refines : buffer.infoQueue.Refines (fifo.discardFrom index) := by
    rw [discardUpstreamSamples_infoQueue dropped]
    exact InfoQueue.discardUpstreamSamples_refines index parsed.refines (Nat.le_of_lt unread) upper
  have queued : (fifo.discardFrom index).queue = (track.retained.take index).drop fifo.consumed := by
    simp only [SampleFifo.discardFrom, parsed.queued, List.drop_take]
  have kept : (track.retained.take index).length = index := by
    rw [List.length_take, Nat.min_eq_left within]
  have inside : fifo.consumed < (track.retained.take index).length := by omega
  have split := List.drop_eq_getElem_cons inside
  have peeked := RollingSampleBuffer.peekSample_peeked refines track.output.sampleInfoHolder
  simp only [Peeked, queued, split] at peeked
  refine ⟨fifo.discardFrom index, queue ▸ refines, queued, ?_, parsed.sorted.sublist (List.take_sublist _ _), ?_⟩
  · simp only [SampleFifo.discardFrom]
    omega
  · have some : track.retained.take index ≠ [] := List.ne_nil_of_length_pos (by omega)
    have first : (track.retained.take index)[fifo.consumed] ∈
        (track.retained.take index).drop fifo.consumed := by
      rw [split]
      exact List.mem_cons_self
    rw [peeked.1, if_pos rfl, peeked.2.1] at timestamp
    simp only [timestamp]
    rw [IsLargest, if_neg some]
    refine ⟨⟨_, List.getElem_mem inside, rfl⟩, ?_⟩
    intro sample member
    obtain ⟨position, bound, rfl⟩ := List.mem_iff_getElem.mp member
    by_cases earlier : position < fifo.consumed
    · have ordered := parsed.sorted.sublist (List.take_sublist index track.retained)
      exact List.pairwise_iff_getElem.mp ordered position fifo.consumed bound inside earlier
    · refine Int.le_of_eq (keepsOne _ ?_ _ first)
      rw [List.mem_iff_getElem]
      refine ⟨position - fifo.consumed, by rw [List.length_drop]; omega, ?_⟩
      rw [List.getElem_drop]
      congr 1
      omega

theorem apply_parsed (fresh : Fresh) {op : ParsedTrackOp} (parsed : track.Parsed fifo)
    (legal : track.Legal op) (keepsOne : track.KeepsOne op) (applied : track.apply fresh op = .ok next) :
    ∃ after, next.Parsed after := by
  cases op with
  | writeSampleData src allowEndOfInput =>
    obtain ⟨⟨more, count, output⟩, writes, rest⟩ := bind_ok applied
    cases rest
    obtain ⟨⟨more, count, buffer⟩, appends, rest⟩ := bind_ok writes
    cases rest
    have same := appendDataFixThis_infoQueue appends
    obtain ⟨refines, queued, bounded, sorted, largest⟩ := parsed
    exact ⟨fifo, same ▸ refines, queued, bounded, sorted, largest⟩
  | writeSampleMetadata metadata => exact ⟨_, writeSampleMetadata_parsed fresh parsed legal applied⟩
  | getSample holder => exact getSample_parsed fresh parsed applied
  | discardUntil timeUs => exact discardUntil_parsed fresh parsed applied
  | skipToKeyframeBefore timeUs => exact skipToKeyframeBefore_parsed fresh parsed applied
  | discardUpstreamSamples index =>
    exact discardUpstreamSamples_parsed fresh parsed legal keepsOne applied
  | clear =>
    obtain ⟨output, clears, rest⟩ := bind_ok applied
    cases rest
    obtain ⟨refines, -⟩ := DefaultTrackOutput.clear_refines parsed.refines clears
    obtain ⟨buffer, -, rest⟩ := bind_ok clears
    cases rest
    exact ⟨{}, refines, rfl, Nat.zero_le _, List.Pairwise.nil, rfl⟩

end ParsedTrack

def parsedTrackSystem (allocator : Upstream.Allocator) (fresh : Fresh) :
    System ParsedTrack ParsedTrackOp where
  Start track := track = { output := .initial allocator fresh }
  Step track op next := track.Legal op ∧ track.apply fresh op = .ok next

/-- While every upstream discard keeps one unread timestamp, the largest parsed timestamp is that of
the samples that are still there. -/
theorem largestParsedTimestamp_isLargest (allocator : Upstream.Allocator) (fresh : Fresh)
    (track : ParsedTrack)
    (reachable : Reachable ((parsedTrackSystem allocator fresh).restrict fun track op _ =>
      track.KeepsOne op) track) :
    IsLargest track.retained track.output.largestParsedTimestampUs := by
  have invariant : ∃ fifo, track.Parsed fifo := by
    refine Reachable.invariant (fun track => ∃ fifo, track.Parsed fifo) ?_ ?_ reachable
    · rintro _ rfl
      exact ⟨{}, InfoQueue.initial_refines fresh, rfl, Nat.zero_le _, List.Pairwise.nil, rfl⟩
    · rintro track op next ⟨fifo, parsed⟩ ⟨⟨legal, applied⟩, keepsOne⟩
      exact ParsedTrack.apply_parsed fresh parsed legal keepsOne applied
  obtain ⟨fifo, parsed⟩ := invariant
  exact parsed.largest

instance (track : ParsedTrack) (op : ParsedTrackOp) : Decidable (track.Legal op) :=
  match op with
  | .writeSampleMetadata metadata =>
    inferInstanceAs (Decidable (kInvalidTimestamp ≤ metadata.timeUs ∧
      ∀ sample ∈ track.retained, sample.timeUs ≤ metadata.timeUs))
  | .discardUpstreamSamples index =>
    inferInstanceAs (Decidable
      (track.output.getReadIndex < index ∧ index ≤ track.output.getWriteIndex))
  | .writeSampleData _ _ | .getSample _ | .discardUntil _ | .skipToKeyframeBefore _ | .clear =>
    inferInstanceAs (Decidable True)

def ParsedTrack.advance (track : ParsedTrack) (op : ParsedTrackOp) : Option ParsedTrack :=
  if track.Legal op then (track.apply .zero op).toOption else none

theorem ParsedTrack.advance_step {track next : ParsedTrack} {op : ParsedTrackOp}
    (advances : track.advance op = some next) :
    (parsedTrackSystem (.initial 4 fun _ _ => 0) .zero).Step track op next := by
  unfold advance at advances
  obtain ⟨legal, applied⟩ := Option.ite_none_right_eq_some.mp advances
  exact ⟨legal, Outcome.ok_of_toOption applied⟩

def writeSample (timeUs : Int) : List ParsedTrackOp :=
  [.writeSampleData [1] false,
    .writeSampleMetadata { timeUs, durationUs := 20, flags := kSampleFlagSync, offset := 0, size := 1 }]

def threeSamples : List ParsedTrackOp := writeSample 10 ++ writeSample 20 ++ writeSample 30

def ParsedTrack.timestamps (track : ParsedTrack) : List Int × Int :=
  (track.retained.map (·.timeUs), track.output.largestParsedTimestampUs)

instance (track : ParsedTrack) (op : ParsedTrackOp) : Decidable (track.KeepsOne op) :=
  match op with
  | .discardUpstreamSamples index =>
    inferInstanceAs (Decidable
      (∀ first ∈ (track.retained.take index).drop track.output.getReadIndex,
        ∀ second ∈ (track.retained.take index).drop track.output.getReadIndex,
          first.timeUs = second.timeUs))
  | .writeSampleData _ _ | .writeSampleMetadata _ | .getSample _ | .discardUntil _
  | .skipToKeyframeBefore _ | .clear => inferInstanceAs (Decidable True)

-- The first sample is read and the third one discarded.
theorem largestParsedTimestamp_after_discard :
    ∃ track : ParsedTrack, track.timestamps = ([10, 20], 20) ∧
      IsLargest track.retained track.output.largestParsedTimestampUs := by
  have executed : (execute (fun track op => if track.KeepsOne op then track.advance op else none)
      { output := .initial (.initial 4 fun _ _ => 0) .zero }
      (threeSamples ++ [.getSample { bufferReplacementEnabled := true },
        .discardUpstreamSamples 2])).map ParsedTrack.timestamps = some ([10, 20], 20) := by
    decide +kernel
  obtain ⟨track, run, shown⟩ := Option.map_eq_some_iff.mp executed
  refine ⟨track, shown, largestParsedTimestamp_isLargest (.initial 4 fun _ _ => 0) .zero track ?_⟩
  refine (Reachable.start _ rfl).run (.of_execute ?_ run)
  intro state op next _ advances
  split at advances
  next keepsOne => exact ⟨ParsedTrack.advance_step advances, keepsOne⟩
  next => cases advances

theorem largestParsedTimestamp_of_first_sample :
    ∃ track : ParsedTrack, Reachable (parsedTrackSystem (.initial 4 fun _ _ => 0) .zero) track ∧
      ¬ IsLargest track.retained track.output.largestParsedTimestampUs := by
  have executed : (execute ParsedTrack.advance { output := .initial (.initial 4 fun _ _ => 0) .zero }
      (threeSamples ++ [.discardUpstreamSamples 2])).map ParsedTrack.timestamps =
        some ([10, 20], 10) := by decide +kernel
  obtain ⟨track, run, shown⟩ := Option.map_eq_some_iff.mp executed
  refine ⟨track, (Reachable.start _ rfl).run
    (.of_execute (fun _ _ _ _ => ParsedTrack.advance_step) run), ?_⟩
  simp only [ParsedTrack.timestamps, Prod.mk.injEq] at shown
  rw [shown.2, IsLargest]
  split
  next empty => simp [empty] at shown
  next =>
    rintro ⟨-, bound⟩
    have member : (20 : Int) ∈ track.retained.map (·.timeUs) := by simp [shown.1]
    obtain ⟨sample, kept, time⟩ := List.mem_map.mp member
    have late := bound sample kept
    omega

end NDash.Extractor

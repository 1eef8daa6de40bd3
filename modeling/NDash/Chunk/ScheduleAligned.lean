import NDash.Chunk.SampleQueueBytes
import NDash.Chunk.ScheduleSound

set_option autoImplicit false

namespace NDash.Chunk

open Extractor

def UpstreamDiscard.kept (discard : UpstreamDiscard) : List OwnedSample :=
  (discard.before.history.drop discard.before.getReadIndex).filter fun sample =>
    discard.retained.any (·.chunk.id = sample.owner)

structure UpstreamDiscard.Exact (discard : UpstreamDiscard) : Prop where
  lower : discard.before.getReadIndex ≤ discard.index
  upper : discard.index ≤ discard.before.getWriteIndex
  samples : discard.after.output.rollingBuffer.infoQueue.samples = discard.kept.map (·.record)
  delivers : ∀ holder : SampleHolder, holder.Empty →
    match discard.kept with
    | [] => discard.after.output.rollingBuffer.readSample holder =
        .ok (false, holder, discard.after.output.rollingBuffer)
    | sample :: _ => ∃ filled next,
        discard.after.output.rollingBuffer.readSample holder = .ok (true, filled, next) ∧
          Carries filled sample.committed

def MediaChunk.Precedes (earlier later : MediaChunk) : Prop :=
  earlier.firstSampleIndex ≤ later.firstSampleIndex ∧ earlier.chunk.id < later.chunk.id

structure SampleQueue.Commits (queue : SampleQueue) (owner : Nat) (metadata : SampleMetadata) :
    Prop where
  legal : queue.recording.Legal (.commitSample (queue.output.positioned metadata))
  readable : (queue.output.positioned metadata).record.Readable
  first : (∀ sample ∈ queue.history, sample.owner ≠ owner) →
    (queue.output.positioned metadata).record.isSync = true

def Premises.ofSamples : Premises where
  positioned := False
  reported := True
  inRange := True
  keeps := False
  fails queue index := ¬ queue.recording.KeepsCut index
  appends queue := queue.recording.buffer.getWritePosition -
    queue.recording.buffer.totalBytesDropped < 2147483648
  commits queue owner metadata := queue.Commits owner metadata

namespace Schedule

def Older (id : Nat) (schedule : Schedule) : Prop :=
  (∀ media ∈ schedule.chunks, media.chunk.id < id) ∧
    ∀ sample ∈ schedule.queue.history, sample.owner < id

def Divided (chunks : List MediaChunk) (history : List OwnedSample) : Prop :=
  ∀ count removed, chunks[count]? = some removed → ∀ index sample, history[index]? = some sample →
    (removed.firstSampleIndex ≤ index ↔ ∃ media ∈ chunks.drop count, media.chunk.id = sample.owner)

structure Aligned (schedule : Schedule) : Prop where
  recorded : ∃ fifo, schedule.queue.recording.Recorded fifo
  ordered : schedule.chunks.Pairwise MediaChunk.Precedes
  upper : ∀ media ∈ schedule.chunks, media.firstSampleIndex ≤ schedule.queue.history.length
  sync : ∀ media ∈ schedule.chunks, ∀ sample,
    schedule.queue.history[media.firstSampleIndex]? = some sample → sample.isSync = true
  divided : Divided schedule.chunks schedule.queue.history
  covered : ∀ index sample, schedule.queue.getReadIndex ≤ index →
    schedule.queue.history[index]? = some sample →
    ∃ media ∈ schedule.chunks, media.chunk.id = sample.owner
  made : schedule.Older schedule.observed.chunksMade
  fresh : ∀ chunk, schedule.owned = some chunk → schedule.Older chunk.id
  discards : ∀ discard ∈ schedule.observed.discards, discard.Exact

def Unpassed (schedule : Schedule) : Prop :=
  ∀ media ∈ schedule.chunks.tail, schedule.queue.getReadIndex ≤ media.firstSampleIndex

variable {premises : Premises} {schedule next : Schedule}

theorem Aligned.of_empty (chunks : schedule.chunks = []) (history : schedule.queue.history = [])
    (owned : schedule.owned = none) (recorded : ∃ fifo, schedule.queue.recording.Recorded fifo)
    (discards : ∀ discard ∈ schedule.observed.discards, discard.Exact) : schedule.Aligned where
  recorded
  ordered := by simp [chunks]
  upper := by simp [chunks]
  sync := by simp [chunks]
  divided := by simp [Divided, chunks]
  covered := by simp [history]
  made := by simp [Older, chunks, history]
  fresh := by simp [owned]
  discards

theorem Aligned.withQueue (aligned : schedule.Aligned) {queue : SampleQueue}
    (recorded : ∃ fifo, queue.recording.Recorded fifo)
    (history : queue.history = schedule.queue.history)
    (forward : schedule.queue.getReadIndex ≤ queue.getReadIndex) :
    Aligned { schedule with queue } := by
  obtain ⟨-, ordered, upper, sync, divided, covered, made, fresh, discards⟩ := aligned
  rw [← history] at upper sync divided covered
  simp only [Older, ← history] at made fresh
  exact ⟨recorded, ordered, upper, sync, divided,
    fun index sample unread => covered index sample (Nat.le_trans forward unread), made, fresh, discards⟩

theorem Aligned.choose (aligned : schedule.Aligned) {chunk : Option Chunk} {made : Nat}
    (fits : schedule.Made chunk made) (backedOff : Bool) :
    Aligned { schedule with
      loadable := chunk
      owned := chunk
      backedOff
      observed.chunksMade := made } :=
  { aligned with
    made := by
      obtain ⟨chunks, history⟩ := aligned.made
      have grows : schedule.observed.chunksMade ≤ made := by
        cases chunk with
        | none => exact Nat.le_of_eq fits.symm
        | some chunk =>
          have next := fits.2.1
          omega
      exact ⟨fun media member => Nat.lt_of_lt_of_le (chunks media member) grows,
        fun sample member => Nat.lt_of_lt_of_le (history sample member) grows⟩
    fresh := by
      intro candidate present
      simp only at present
      subst present
      rw [fits.1]
      exact aligned.made }

theorem Aligned.le_last (aligned : schedule.Aligned) {media last : MediaChunk}
    (found : schedule.chunks.getLast? = some last) (member : media ∈ schedule.chunks) :
    media.firstSampleIndex ≤ last.firstSampleIndex := by
  obtain ⟨initial, chunks⟩ := List.getLast?_eq_some_iff.mp found
  have ordered := aligned.ordered
  rw [chunks, List.pairwise_append] at ordered
  rw [chunks, List.mem_append, List.mem_singleton] at member
  rcases member with earlier | rfl
  · exact (ordered.2.2 media earlier last (by simp)).1
  · exact Nat.le_refl _

theorem mem_drop_last {chunks : List MediaChunk} {last removed : MediaChunk} {count : Nat}
    (found : chunks.getLast? = some last) (present : chunks[count]? = some removed) :
    last ∈ chunks.drop count := by
  obtain ⟨initial, rfl⟩ := List.getLast?_eq_some_iff.mp found
  have inside := (List.getElem?_eq_some_iff.mp present).1
  rw [List.length_append, List.length_singleton] at inside
  rw [List.drop_append_of_le_length (by omega)]
  simp

theorem Sound.last (sound : schedule.Sound premises) {loading : Loading}
    (running : schedule.loader = some loading) (kind : loading.chunk.isMediaChunk = true) :
    schedule.owned = none ∧ ∃ last, schedule.chunks.getLast? = some last ∧
      last.chunk = loading.chunk := by
  obtain ⟨chunk, present, keeps⟩ := sound.busy (.inl (by simp [running]))
  cases present.symm.trans (sound.loading loading running).2
  rw [Keeps, if_pos kind] at keeps
  exact ⟨keeps.1, Option.map_eq_some_iff.mp keeps.2⟩

theorem Aligned.uncommitted (aligned : schedule.Aligned) {last : MediaChunk}
    (found : schedule.chunks.getLast? = some last)
    (start : schedule.queue.history.length ≤ last.firstSampleIndex) :
    ∀ sample ∈ schedule.queue.history, sample.owner ≠ last.chunk.id := by
  intro sample member own
  obtain ⟨index, present⟩ := List.mem_iff_getElem?.mp member
  have place : schedule.chunks[schedule.chunks.length - 1]? = some last := by
    rw [← List.getLast?_eq_getElem?]
    exact found
  have before := (aligned.divided _ last place index sample present).mpr
    ⟨last, mem_drop_last found place, own.symm⟩
  have inside := (List.getElem?_eq_some_iff.mp present).1
  omega

theorem Aligned.commit (aligned : schedule.Aligned) (sound : schedule.Sound premises) (fresh : Fresh)
    {loading : Loading} {metadata : SampleMetadata} (running : schedule.loader = some loading)
    (kind : loading.chunk.isMediaChunk = true)
    (commits : schedule.queue.Commits loading.chunk.id metadata) :
    Aligned { schedule with
      queue := schedule.queue.writeSampleMetadata fresh loading.chunk.id metadata } := by
  obtain ⟨fifo, tracked⟩ := sound.tracked
  obtain ⟨recording, recorded⟩ := aligned.recorded
  obtain ⟨unowned, last, found, same⟩ := sound.last running kind
  have reads := SampleQueue.writeSampleMetadata_readIndex fresh loading.chunk.id metadata tracked
  have numbered := sound.numbered loading.chunk (sound.loading loading running).2
  let sample : OwnedSample := ⟨schedule.queue.committed, loading.chunk.id,
    (schedule.queue.output.positioned metadata).record,
    schedule.queue.uncommitted.take (schedule.queue.output.positioned metadata).size.toNat⟩
  have history : (schedule.queue.writeSampleMetadata fresh loading.chunk.id metadata).history =
      schedule.queue.history ++ [sample] := rfl
  have split {index : Nat} {other : OwnedSample}
      (present : (schedule.queue.history ++ [sample])[index]? = some other) :
      schedule.queue.history[index]? = some other ∨
        index = schedule.queue.history.length ∧ other = sample := by
    rw [List.getElem?_append] at present
    split at present
    next => exact .inl present
    next =>
      rw [List.getElem?_singleton] at present
      split at present
      next => exact .inr ⟨by omega, (Option.some.inj present).symm⟩
      next => cases present
  exact { aligned with
    recorded := SampleQueue.writeSampleMetadata_recorded fresh loading.chunk.id recorded
      commits.legal commits.readable
    upper := by
      intro media member
      have upper := aligned.upper media member
      simp only [history, List.length_append, List.length_singleton]
      omega
    sync := by
      intro media member other present
      simp only [history] at present
      rcases split present with earlier | ⟨start, rfl⟩
      · exact aligned.sync media member other earlier
      · have order := aligned.le_last found member
        rw [start] at order
        refine commits.first ?_
        rw [← same]
        exact aligned.uncommitted found order
    divided := by
      intro count removed place index other present
      simp only [history] at present
      rcases split present with earlier | ⟨rfl, rfl⟩
      · exact aligned.divided count removed place index other earlier
      · refine iff_of_true ?_ ⟨last, mem_drop_last found place, by rw [same]⟩
        exact aligned.upper removed (List.mem_of_getElem? place)
    covered := by
      intro index other unread present
      simp only [history] at present
      rcases split present with earlier | ⟨rfl, rfl⟩
      · simp only [reads] at unread
        exact aligned.covered index other unread earlier
      · exact ⟨last, List.mem_of_getLast? found, by rw [same]⟩
    made := by
      refine ⟨aligned.made.1, ?_⟩
      intro other member
      simp only [history] at member
      rcases List.mem_append.mp member with earlier | latest
      · exact aligned.made.2 other earlier
      · rw [List.mem_singleton.mp latest]
        exact numbered
    fresh := by simp [unowned] }

theorem Aligned.startMedia (aligned : schedule.Aligned) (sound : schedule.Sound premises)
    {media : MediaChunk} (unloaded : schedule.loader = none) (steady : schedule.backedOff = false)
    (present : schedule.loadable = some media.chunk)
    (start : media.firstSampleIndex = schedule.queue.getWriteIndex) :
    Aligned (schedule.startMedia media) := by
  obtain ⟨fifo, tracked⟩ := sound.tracked
  rw [tracked.writeIndex] at start
  have owned : schedule.owned = some media.chunk :=
    (sound.idle_of unloaded steady).symm.trans present
  obtain ⟨chunks, samples⟩ := aligned.fresh media.chunk owned
  have numbered := sound.numbered media.chunk present
  exact { aligned with
    ordered := by
      simp only [Schedule.startMedia, List.pairwise_append]
      refine ⟨aligned.ordered, by simp, ?_⟩
      intro earlier member later last
      rw [List.mem_singleton.mp last]
      exact ⟨start ▸ aligned.upper earlier member, chunks earlier member⟩
    upper := by
      intro other member
      rcases List.mem_append.mp member with earlier | latest
      · exact aligned.upper other earlier
      · rw [List.mem_singleton.mp latest, start]
        rfl
    sync := by
      intro other member sample found
      rcases List.mem_append.mp member with earlier | latest
      · exact aligned.sync other earlier sample found
      · rw [List.mem_singleton.mp latest, start] at found
        simp [Schedule.startMedia] at found
    divided := by
      intro count removed place index sample found
      have inside := (List.getElem?_eq_some_iff.mp found).1
      have older := samples sample (List.mem_of_getElem? found)
      simp only [Schedule.startMedia] at place inside ⊢
      rw [List.getElem?_append] at place
      split at place
      next before =>
        rw [aligned.divided count removed place index sample found,
          List.drop_append_of_le_length (Nat.le_of_lt before)]
        constructor
        · rintro ⟨other, member, own⟩
          exact ⟨other, List.mem_append_left _ member, own⟩
        · rintro ⟨other, member, own⟩
          rcases List.mem_append.mp member with earlier | latest
          · exact ⟨other, earlier, own⟩
          · rw [List.mem_singleton.mp latest] at own
            omega
      next after =>
        rw [List.getElem?_singleton] at place
        split at place
        next =>
          cases place
          refine iff_of_false (by omega) ?_
          rintro ⟨other, member, own⟩
          rw [List.drop_append_of_le_length (by omega), List.drop_of_length_le (by omega),
            List.nil_append, List.mem_singleton] at member
          rw [member] at own
          omega
        next => cases place
    covered := by
      intro index sample unread found
      obtain ⟨other, member, own⟩ := aligned.covered index sample unread found
      exact ⟨other, List.mem_append_left _ member, own⟩
    made := by
      refine ⟨?_, aligned.made.2⟩
      intro other member
      rcases List.mem_append.mp member with earlier | latest
      · exact aligned.made.1 other earlier
      · rw [List.mem_singleton.mp latest]
        exact numbered
    fresh := by simp [Schedule.startMedia] }

theorem Aligned.precedes_cut (aligned : schedule.Aligned) {count : Nat} {media other : MediaChunk}
    (member : media ∈ schedule.chunks.take count) (later : other ∈ schedule.chunks.drop count) : media.Precedes other := by
  have ordered := aligned.ordered
  rw [← List.take_append_drop count schedule.chunks, List.pairwise_append] at ordered
  exact ordered.2.2 media member other later

theorem mem_drop_cut {chunks : List MediaChunk} {removed : MediaChunk} {count : Nat}
    (place : chunks[count]? = some removed) : removed ∈ chunks.drop count := by
  refine List.mem_of_getElem? (i := 0) ?_
  rw [List.getElem?_drop, Nat.add_zero]
  exact place

theorem filter_eq_take {keep : OwnedSample → Bool} {items : List OwnedSample} {size : Nat}
    (places : ∀ offset item, items[offset]? = some item → (keep item = true ↔ offset < size)) :
    items.filter keep = items.take size := by
  induction items generalizing size with
  | nil => simp
  | cons head rest ih =>
    have first := places 0 head rfl
    cases size with
    | zero =>
      have none : ∀ item ∈ head :: rest, ¬ keep item = true := by
        intro item member
        obtain ⟨offset, present⟩ := List.mem_iff_getElem?.mp member
        rw [places offset item present]
        omega
      rw [List.filter_eq_nil_iff.mpr none, List.take_zero]
    | succ size =>
      rw [List.filter_cons_of_pos (first.mpr (by omega)), List.take_succ_cons, ih]
      intro offset item present
      rw [places (offset + 1) item present]
      omega

theorem Aligned.retained_iff (aligned : schedule.Aligned) {count index : Nat} {removed : MediaChunk}
    {sample : OwnedSample} (place : schedule.chunks[count]? = some removed)
    (unread : schedule.queue.getReadIndex ≤ index)
    (present : schedule.queue.history[index]? = some sample) :
    (∃ media ∈ schedule.chunks.take count, media.chunk.id = sample.owner) ↔
      index < removed.firstSampleIndex := by
  have divided := aligned.divided count removed place index sample present
  constructor
  · rintro ⟨media, member, own⟩
    by_contra behind
    obtain ⟨other, later, same⟩ := divided.mp (by omega)
    have order := (aligned.precedes_cut member later).2
    omega
  · intro before
    obtain ⟨media, member, own⟩ := aligned.covered index sample unread present
    rw [← List.take_append_drop count schedule.chunks, List.mem_append] at member
    rcases member with kept | cut
    · exact ⟨media, kept, own⟩
    · have behind := divided.mpr ⟨media, cut, own⟩
      omega

theorem Aligned.kept (aligned : schedule.Aligned) {count : Nat} {removed : MediaChunk}
    (place : schedule.chunks[count]? = some removed)
    (lower : schedule.queue.getReadIndex ≤ removed.firstSampleIndex) (after : SampleQueue) :
    UpstreamDiscard.kept ⟨schedule.queue, removed.firstSampleIndex, after,
        schedule.chunks.take count⟩ =
      (schedule.queue.history.take removed.firstSampleIndex).drop schedule.queue.getReadIndex := by
  have owned (offset : Nat) (sample : OwnedSample)
      (present : (schedule.queue.history.drop schedule.queue.getReadIndex)[offset]? = some sample) :
      (schedule.chunks.take count).any (·.chunk.id = sample.owner) = true ↔
        offset < removed.firstSampleIndex - schedule.queue.getReadIndex := by
    rw [List.getElem?_drop] at present
    have iff := aligned.retained_iff place (Nat.le_add_right _ offset) present
    simp only [List.any_eq_true, decide_eq_true_eq]
    rw [iff]
    omega
  rw [List.drop_take]
  exact filter_eq_take owned

theorem Aligned.exact (aligned : schedule.Aligned) (sound : schedule.Sound premises) {count : Nat}
    {removed : MediaChunk} {queue : SampleQueue} (cuts : schedule.Cuts premises count removed queue)
    (keeps : schedule.queue.recording.KeepsCut removed.firstSampleIndex) :
    (∃ fifo, queue.recording.Recorded fifo) ∧
      UpstreamDiscard.Exact ⟨schedule.queue, removed.firstSampleIndex, queue,
        schedule.chunks.take count⟩ := by
  obtain ⟨recording, recorded⟩ := aligned.recorded
  obtain ⟨⟨fifo, tracked⟩, history, -, reads⟩ := cuts.tracked sound
  obtain ⟨final, result⟩ := SampleQueue.discardUpstreamSamples_recorded recorded cuts.lower cuts.upper
    keeps cuts.discards
  have kept : queue.history.drop queue.getReadIndex =
      UpstreamDiscard.kept ⟨schedule.queue, removed.firstSampleIndex, queue,
        schedule.chunks.take count⟩ := by
    rw [aligned.kept cuts.found cuts.lower, history, reads]
  refine ⟨⟨final, result⟩, cuts.lower, cuts.upper, ?_, ?_⟩
  · rw [← kept, tracked.readIndex, tracked.refines.samples, tracked.queued]
  · intro holder empty
    have delivers := result.delivers holder empty
    have shape : queue.recording.history.drop queue.recording.buffer.getReadIndex =
        (queue.history.drop queue.getReadIndex).map (·.committed) := List.map_drop.symm
    rw [shape] at delivers
    rw [← kept]
    generalize queue.history.drop queue.getReadIndex = unread at delivers
    cases unread with
    | nil => exact delivers
    | cons sample rest => exact delivers

theorem Aligned.discard (aligned : schedule.Aligned) (sound : schedule.Sound premises) {count : Nat}
    {removed : MediaChunk} {queue : SampleQueue} (cuts : schedule.Cuts premises count removed queue)
    (keeps : schedule.queue.recording.KeepsCut removed.firstSampleIndex) :
    Aligned (schedule.discardFrom count removed.firstSampleIndex queue) := by
  obtain ⟨recorded, exactly⟩ := aligned.exact sound cuts keeps
  obtain ⟨-, history, -, reads⟩ := cuts.tracked sound
  have member {media : MediaChunk} (kept : media ∈ schedule.chunks.take count) :
      media ∈ schedule.chunks := List.mem_of_mem_take kept
  have earlier {index : Nat} {sample : OwnedSample} (present : queue.history[index]? = some sample) :
      schedule.queue.history[index]? = some sample ∧ index < removed.firstSampleIndex := by
    rw [history, List.getElem?_take] at present
    split at present
    next before => exact ⟨present, before⟩
    next => cases present
  exact {
    recorded
    ordered := aligned.ordered.sublist (List.take_sublist _ _)
    upper := by
      intro media kept
      have order := (aligned.precedes_cut kept (mem_drop_cut cuts.found)).1
      have upper := aligned.upper media (member kept)
      simp only [discardFrom, history, List.length_take]
      omega
    sync := fun media kept sample present =>
      aligned.sync media (member kept) sample (earlier present).1
    divided := by
      intro first media place index sample present
      obtain ⟨found, before⟩ := earlier present
      simp only [discardFrom] at place ⊢
      rw [List.getElem?_take] at place
      split at place
      next inside =>
        rw [aligned.divided first media place index sample found]
        have cut := aligned.divided count removed cuts.found index sample found
        have bound := (List.getElem?_eq_some_iff.mp place).1
        have shape : schedule.chunks.drop first =
            (schedule.chunks.take count).drop first ++ schedule.chunks.drop count := by
          rw [← List.drop_append_of_le_length (by rw [List.length_take]; omega),
            List.take_append_drop]
        rw [shape]
        constructor
        · rintro ⟨other, listed, own⟩
          rcases List.mem_append.mp listed with kept | gone
          · exact ⟨other, kept, own⟩
          · have behind := cut.mpr ⟨other, gone, own⟩
            omega
        · rintro ⟨other, kept, own⟩
          exact ⟨other, List.mem_append_left _ kept, own⟩
      next => cases place
    covered := by
      intro index sample unread present
      obtain ⟨found, before⟩ := earlier present
      simp only [discardFrom, reads] at unread
      exact (aligned.retained_iff cuts.found unread found).mpr before
    made := ⟨fun media kept => aligned.made.1 media (member kept), fun sample kept =>
      aligned.made.2 sample (List.mem_of_mem_take (history ▸ kept))⟩
    fresh := fun chunk owned => ⟨fun media kept => (aligned.fresh chunk owned).1 media (member kept),
      fun sample kept => (aligned.fresh chunk owned).2 sample (List.mem_of_mem_take (history ▸ kept))⟩
    discards := by
      intro discard logged
      rcases List.mem_cons.mp logged with rfl | older
      · exact exactly
      · exact aligned.discards discard older }

theorem Aligned.pop (aligned : schedule.Aligned) {front second : MediaChunk} {others : List MediaChunk}
    (chunks : schedule.chunks = front :: second :: others)
    (passed : second.firstSampleIndex ≤ schedule.queue.getReadIndex) :
    Aligned { schedule with chunks := second :: others } := by
  have member {media : MediaChunk} (kept : media ∈ second :: others) : media ∈ schedule.chunks := by
    rw [chunks]
    exact List.mem_cons_of_mem front kept
  have ordered := aligned.ordered
  have divided := aligned.divided
  rw [chunks] at ordered divided
  exact { aligned with
    ordered := (List.pairwise_cons.mp ordered).2
    upper := fun media kept => aligned.upper media (member kept)
    sync := fun media kept => aligned.sync media (member kept)
    divided := fun count removed place index sample present =>
      divided (count + 1) removed place index sample present
    covered := by
      intro index sample unread present
      exact (divided 1 second rfl index sample present).mp (Nat.le_trans passed unread)
    made := ⟨fun media kept => aligned.made.1 media (member kept), aligned.made.2⟩
    fresh := fun chunk owned =>
      ⟨fun media kept => (aligned.fresh chunk owned).1 media (member kept),
        (aligned.fresh chunk owned).2⟩ }

theorem Aligned.popPassed (aligned : schedule.Aligned) :
    Aligned { schedule with
      chunks := ChunkSampleSource.popPassed schedule.queue.getReadIndex schedule.chunks } := by
  generalize present : schedule.chunks = chunks
  induction chunks generalizing schedule with
  | nil =>
    rw [ChunkSampleSource.popPassed.eq_2 _ _ (by simp), ← present]
    exact aligned
  | cons front others ih =>
    cases others with
    | nil =>
      rw [ChunkSampleSource.popPassed.eq_2 _ _ (by simp), ← present]
      exact aligned
    | cons second others =>
      unfold ChunkSampleSource.popPassed
      split
      next passed =>
        have popped := ih (aligned.pop present passed) rfl
        exact popped
      next =>
        rw [← present]
        exact aligned

theorem Aligned.giveFormat (aligned : schedule.Aligned) (owner format : Nat) :
    Aligned { schedule with
      chunks := schedule.chunks.map fun media =>
        if media.chunk.id = owner then { media with mediaFormat := some format } else media } := by
  generalize changed : (fun media : MediaChunk =>
    if media.chunk.id = owner then { media with mediaFormat := some format } else media) = change
  have same (media : MediaChunk) :
      (change media).chunk = media.chunk ∧
        (change media).firstSampleIndex = media.firstSampleIndex := by
    subst changed
    simp only
    split <;> exact ⟨rfl, rfl⟩
  have member {media : MediaChunk} (listed : media ∈ schedule.chunks.map change) :
      ∃ before ∈ schedule.chunks, media.chunk = before.chunk ∧
        media.firstSampleIndex = before.firstSampleIndex := by
    obtain ⟨before, kept, rfl⟩ := List.mem_map.mp listed
    exact ⟨before, kept, same before⟩
  have older {id : Nat} (before : schedule.Older id) :
      Older id { schedule with chunks := schedule.chunks.map change } := by
    refine ⟨?_, before.2⟩
    intro media listed
    obtain ⟨kept, present, chunk, -⟩ := member listed
    rw [chunk]
    exact before.1 kept present
  exact { aligned with
    ordered := by
      rw [List.pairwise_map]
      refine aligned.ordered.imp ?_
      intro earlier later precedes
      simpa [MediaChunk.Precedes, same] using precedes
    upper := by
      intro media listed
      obtain ⟨kept, present, -, index⟩ := member listed
      rw [index]
      exact aligned.upper kept present
    sync := by
      intro media listed
      obtain ⟨kept, present, -, index⟩ := member listed
      rw [index]
      exact aligned.sync kept present
    divided := by
      intro count removed place index sample present
      rw [List.getElem?_map] at place
      obtain ⟨before, found, rfl⟩ := Option.map_eq_some_iff.mp place
      rw [(same before).2, aligned.divided count before found index sample present, ← List.map_drop]
      constructor
      · rintro ⟨media, kept, own⟩
        exact ⟨change media, List.mem_map_of_mem kept, by rw [(same media).1]; exact own⟩
      · rintro ⟨_, listed, own⟩
        obtain ⟨media, kept, rfl⟩ := List.mem_map.mp listed
        rw [(same media).1] at own
        exact ⟨media, kept, own⟩
    covered := by
      intro index sample unread present
      obtain ⟨media, kept, own⟩ := aligned.covered index sample unread present
      exact ⟨change media, List.mem_map_of_mem kept, by rw [(same media).1]; exact own⟩
    made := older aligned.made
    fresh := fun chunk owned => older (aligned.fresh chunk owned) }

theorem Missed.recorded (aligned : schedule.Aligned) {queue : SampleQueue}
    (missed : schedule.Missed queue) :
    (∃ fifo, queue.recording.Recorded fifo) ∧
      queue.getReadIndex = schedule.queue.getReadIndex := by
  rcases missed with rfl | ⟨timeUs, skips⟩
  · exact ⟨aligned.recorded, rfl⟩
  · obtain ⟨fifo, recorded⟩ := aligned.recorded
    obtain ⟨after, stays⟩ := SampleQueue.skipToKeyframeBefore_recorded recorded skips
    exact ⟨after, stays rfl⟩

theorem Step.aligned {fresh : Fresh} (step : Step fresh .ofSamples schedule next)
    (sound : schedule.Sound .ofSamples) (aligned : schedule.Aligned)
    (keeps : ∀ discard ∈ next.observed.discards, discard.before.recording.KeepsCut discard.index) :
    next.Aligned := by
  obtain ⟨fifo, tracked⟩ := sound.tracked
  obtain ⟨recording, recorded⟩ := aligned.recorded
  cases step with
  | prepare => exact { aligned with }
  | enable _ _ cleared =>
    exact .of_empty rfl (SampleQueue.clear_tracked tracked cleared).2.1 rfl
      (SampleQueue.clear_recorded recorded cleared) aligned.discards
  | choose _ _ _ fits => exact aligned.choose fits schedule.backedOff
  | forgive => exact { aligned with }
  | dangle => exact { aligned with }
  | discard _ _ _ cuts => exact aligned.discard sound cuts (keeps _ (List.mem_cons_self ..))
  | startMedia _ unloaded steady present _ start =>
    exact aligned.startMedia sound unloaded steady present start
  | run => exact { aligned with }
  | replaceMedia enabled unloaded _ _ _ fits cuts =>
    have chosen := aligned.choose fits false
    refine chosen.discard (sound.choose enabled unloaded fits) ?_ (keeps _ (List.mem_cons_self ..))
    exact ⟨cuts.positive, cuts.found, cuts.lower, cuts.upper, cuts.discards⟩
  | abandonMedia _ _ _ _ fits => exact aligned.choose fits false
  | completed => exact { aligned with fresh := by simp }
  | failed => exact { aligned with }
  | canceled _ _ _ cleared =>
    exact .of_empty rfl (SampleQueue.clear_tracked tracked cleared).2.1 rfl
      (SampleQueue.clear_recorded recorded cleared) aligned.discards
  | disable => exact { aligned with }
  | disabled _ cleared =>
    exact .of_empty rfl (SampleQueue.clear_tracked tracked cleared).2.1 rfl
      (SampleQueue.clear_recorded recorded cleared) aligned.discards
  | look _ looks =>
    obtain ⟨-, skips, -⟩ := SampleQueue.isEmpty_skips tracked looks
    exact aligned.withQueue (SampleQueue.isEmpty_recorded recorded looks) skips.history skips.forward
  | pop _ chunks passed => exact aligned.pop chunks passed
  | getNothing _ gets =>
    obtain ⟨-, index, skips, -, reads⟩ := SampleQueue.getSample_skips tracked gets
    have forward := skips.forward
    refine aligned.withQueue (SampleQueue.getSample_recorded recorded gets) skips.history ?_
    simp only [Bool.false_eq_true, if_false] at reads
    omega
  | deliver _ _ _ _ _ gets =>
    obtain ⟨-, index, skips, -, reads, -⟩ := SampleQueue.getSample_skips tracked gets
    have forward := skips.forward
    have moved := aligned.withQueue (SampleQueue.getSample_recorded recorded gets) skips.history
      (by omega)
    exact { moved with }
  | @seekInside _ empty _ _ _ _ skips looks =>
    obtain ⟨⟨fifo, found⟩, history, -, forward, -⟩ :=
      SampleQueue.skipToKeyframeBefore_moves tracked skips
    obtain ⟨⟨middle, after⟩, -⟩ := SampleQueue.skipToKeyframeBefore_recorded recorded skips
    obtain ⟨-, moved, -⟩ := SampleQueue.isEmpty_skips found looks
    have reached := aligned.withQueue (SampleQueue.isEmpty_recorded after looks)
      (moved.history.trans history) (Nat.le_trans forward moved.forward)
    cases empty with
    | true => exact reached
    | false => exact reached.popPassed
  | seekRestart _ _ _ missed cleared =>
    obtain ⟨⟨fifo, tracked⟩, -⟩ := missed.tracked sound
    obtain ⟨⟨recording, recorded⟩, -⟩ := missed.recorded aligned
    exact .of_empty rfl (SampleQueue.clear_tracked tracked cleared).2.1 rfl
      (SampleQueue.clear_recorded recorded cleared) aligned.discards
  | seekCancel _ _ _ missed =>
    obtain ⟨recorded, reads⟩ := missed.recorded aligned
    have moved := aligned.withQueue recorded (missed.tracked sound).2.1 (Nat.le_of_eq reads.symm)
    exact { moved with }
  | write _ _ writes limit =>
    obtain ⟨after, history, -⟩ := SampleQueue.writeSampleDataFixThis_tracked tracked writes
    refine aligned.withQueue ⟨_, SampleQueue.writeSampleDataFixThis_recorded recorded writes limit⟩
      history (Nat.le_of_eq ?_)
    rw [tracked.readIndex, after.readIndex]
  | commit running kind commits => exact aligned.commit sound fresh running kind commits
  | giveFormat => exact aligned.giveFormat _ _

theorem Aligned.second_le (aligned : schedule.Aligned) {media : MediaChunk}
    (member : media ∈ schedule.chunks.tail) :
    ∃ second, schedule.chunks[1]? = some second ∧
      second.firstSampleIndex ≤ media.firstSampleIndex := by
  have ordered := aligned.ordered
  cases chunks : schedule.chunks with
  | nil => simp [chunks] at member
  | cons front others =>
    rw [chunks, List.tail_cons] at member
    cases others with
    | nil => cases member
    | cons second others =>
      rw [chunks] at ordered
      refine ⟨second, rfl, ?_⟩
      rcases List.mem_cons.mp member with rfl | later
      · exact Nat.le_refl _
      · exact ((List.pairwise_cons.mp (List.pairwise_cons.mp ordered).2).1 media later).1

-- Skipping stops at sync samples, and a chunk's first sample is one.
theorem Aligned.unpassed_of_skips (aligned : schedule.Aligned) (unpassed : schedule.Unpassed)
    {queue : SampleQueue} {index : Nat} (skips : SampleQueue.Skips schedule.queue queue index) :
    ∀ media ∈ schedule.chunks.tail, index ≤ media.firstSampleIndex := by
  intro media member
  by_contra passed
  have lower := unpassed media member
  have inside := skips.inside
  obtain ⟨sample, present⟩ : ∃ sample, schedule.queue.history[media.firstSampleIndex]? = some sample :=
    ⟨_, List.getElem?_eq_getElem (by omega)⟩
  have sync := aligned.sync media (List.mem_of_mem_tail member) sample present
  have skipped := skips.skipped media.firstSampleIndex sample lower (by omega) present
  simp [sync] at skipped

theorem deliver_index {queue next : SampleQueue} {fifo : SampleFifo} {holder filled : SampleHolder}
    {sample : OwnedSample} (tracked : queue.Tracked fifo)
    (head : queue.history[queue.getReadIndex]? = some sample)
    (sync : queue.output.needKeyFrame = true → sample.isSync = true)
    (gets : queue.getSample holder = .ok (true, filled, next)) :
    next.getReadIndex = queue.getReadIndex + 1 := by
  obtain ⟨-, index, skips, stays, reads, -⟩ := SampleQueue.getSample_skips tracked gets
  suffices index = queue.getReadIndex by omega
  cases need : queue.output.needKeyFrame with
  | false => exact stays need
  | true =>
    by_contra moved
    have forward := skips.forward
    have skipped := skips.skipped queue.getReadIndex sample (Nat.le_refl _) (by omega) head
    simp [sync need] at skipped

-- A seek inside the buffer stops at a sync sample, so the queue is not used up.
theorem seekInside_nonempty {queue found next : SampleQueue} {fifo : SampleFifo} {timeUs : Int}
    {empty : Bool} (tracked : queue.Tracked fifo)
    (skips : queue.skipToKeyframeBefore timeUs = .ok (true, found))
    (looks : found.isEmpty = .ok (empty, next)) : empty = false := by
  obtain ⟨⟨after, reached⟩, history, -, -, outcome⟩ :=
    SampleQueue.skipToKeyframeBefore_moves tracked skips
  obtain ⟨-, moved, used⟩ := SampleQueue.isEmpty_skips reached looks
  rcases outcome with ⟨missing, -⟩ | ⟨sample, present, sync, -⟩
  · cases missing
  · rw [← history] at present
    have inside := (List.getElem?_eq_some_iff.mp present).1
    cases empty with
    | false => rfl
    | true =>
      simp only [if_true, moved.history] at used
      have skipped := moved.skipped found.getReadIndex sample (Nat.le_refl _) (by omega) present
      simp [sync] at skipped

theorem Step.unpassed {fresh : Fresh} (step : Step fresh premises schedule next)
    (sound : schedule.Sound premises) (aligned : schedule.Aligned) (unpassed : schedule.Unpassed)
    (after : next.Aligned) : next.Unpassed := by
  obtain ⟨fifo, tracked⟩ := sound.tracked
  cases step with
  | enable => simp [Unpassed, Schedule.restart]
  | canceled => simp [Unpassed, Schedule.restart]
  | disabled => simp [Unpassed, Schedule.rest]
  | seekRestart => simp [Unpassed, Schedule.restart]
  | discard _ _ _ cuts =>
    obtain ⟨-, -, -, reads⟩ := cuts.tracked sound
    intro media member
    simp only [discardFrom, reads] at member ⊢
    exact unpassed media ((List.take_sublist _ _).tail.subset member)
  | replaceMedia _ _ _ _ _ _ cuts =>
    obtain ⟨-, -, -, reads⟩ := cuts.tracked sound
    intro media member
    simp only [discardFrom, reads] at member ⊢
    exact unpassed media ((List.take_sublist _ _).tail.subset member)
  | startMedia _ _ _ _ _ start =>
    intro media member
    have bounded := tracked.bounded
    rw [tracked.writeIndex] at start
    simp only [Schedule.startMedia] at member ⊢
    cases chunks : schedule.chunks with
    | nil => simp [chunks] at member
    | cons front others =>
      rw [chunks, List.cons_append, List.tail_cons, List.mem_append, List.mem_singleton] at member
      rcases member with earlier | rfl
      · refine unpassed media ?_
        rw [chunks]
        exact earlier
      · rw [tracked.readIndex]
        omega
  | look _ looks =>
    obtain ⟨-, skips, -⟩ := SampleQueue.isEmpty_skips tracked looks
    exact aligned.unpassed_of_skips unpassed skips
  | getNothing _ gets =>
    obtain ⟨-, index, skips, -, reads⟩ := SampleQueue.getSample_skips tracked gets
    simp only [Bool.false_eq_true, if_false] at reads
    subst reads
    exact aligned.unpassed_of_skips unpassed skips
  | deliver _ _ head sync later gets =>
    intro media member
    obtain ⟨second, found, order⟩ := aligned.second_le member
    have reads := deliver_index tracked head sync gets
    have before := later second found
    simp only [reads]
    omega
  | pop _ chunks _ =>
    intro media member
    refine unpassed media ?_
    rw [chunks]
    exact List.mem_of_mem_tail member
  | seekInside _ _ skips looks =>
    intro media member
    have filled := seekInside_nonempty tracked skips looks
    subst filled
    obtain ⟨second, found, order⟩ := after.second_le member
    have before := popPassed_spec _ schedule.chunks found
    exact Nat.le_of_lt (Nat.lt_of_lt_of_le before order)
  | seekCancel _ _ _ missed =>
    intro media member
    have reads := (missed.recorded aligned).2
    simp only [reads]
    exact unpassed media member
  | write _ _ writes _ =>
    obtain ⟨reached, -, -⟩ := SampleQueue.writeSampleDataFixThis_tracked tracked writes
    intro media member
    simp only [reached.readIndex]
    rw [← tracked.readIndex]
    exact unpassed media member
  | commit _ _ _ =>
    intro media member
    simp only [SampleQueue.writeSampleMetadata_readIndex fresh _ _ tracked]
    exact unpassed media member
  | giveFormat =>
    intro media member
    rw [← List.map_tail] at member
    obtain ⟨before, kept, rfl⟩ := List.mem_map.mp member
    have lower := unpassed before kept
    simp only
    split <;> exact lower
  | _ => exact unpassed

theorem Step.discards_subset {fresh : Fresh} (step : Step fresh premises schedule next) :
    schedule.observed.discards ⊆ next.observed.discards := by
  cases step with
  | discard => exact List.subset_cons_self ..
  | replaceMedia => exact List.subset_cons_self ..
  | _ => exact List.Subset.refl _

/-- What a run keeps whose discards all cut where the info queue knows the position. -/
theorem steps_aligned {fresh : Fresh}
    (steps : Relation.ReflTransGen (Step fresh .ofSamples) schedule next)
    (sound : schedule.Sound .ofSamples) (aligned : schedule.Aligned) (unpassed : schedule.Unpassed)
    (keeps : ∀ discard ∈ next.observed.discards, discard.before.recording.KeepsCut discard.index) :
    next.Aligned ∧ next.Unpassed := by
  induction steps with
  | refl => exact ⟨aligned, unpassed⟩
  | tail earlier step ih =>
    obtain ⟨before, ahead⟩ := ih fun discard logged => keeps discard (step.discards_subset logged)
    have sound := steps_sound earlier sound
    have after := step.aligned sound before keeps
    exact ⟨after, step.unpassed sound before ahead after⟩

end Schedule

end NDash.Chunk

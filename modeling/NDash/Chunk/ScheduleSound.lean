import Mathlib.Logic.Relation
import NDash.Chunk.Schedule

set_option autoImplicit false

namespace NDash.Chunk.Schedule

open Extractor

def Busy (schedule : Schedule) : Prop :=
  schedule.loader.isSome = true ∨ schedule.backedOff = true

def Keeps (schedule : Schedule) (chunk : Chunk) : Prop :=
  if chunk.isMediaChunk then
    schedule.owned = none ∧ schedule.chunks.getLast?.map (·.chunk) = some chunk
  else schedule.owned = some chunk

-- A reset was done, and whatever is to be loaded was asked for since.
def Emptied (schedule : Schedule) (position : Int) : Prop :=
  schedule.chunks = [] ∧ schedule.queue.history = [] ∧
    ∀ chunk, schedule.loadable = some chunk →
      chunk.requestedFor = position ∧ chunk.requestedWith = 0

def Resting (schedule : Schedule) : Prop :=
  schedule.chunks = [] ∧ schedule.loadable = none ∧ schedule.loader = none ∧
    schedule.backedOff = false

-- The first media chunk after a seek was asked for at its position, of an empty queue.
def StartsFit (schedule : Schedule) : Prop :=
  ∀ start ∈ schedule.observed.starts, ∀ position, start.seekPosition = some position →
    start.chunk.requestedFor = position ∧ start.chunk.requestedWith = 0 ∧
      start.queuedChunks = 0 ∧ start.queuedSamples = 0

def DeliveriesFit (schedule : Schedule) : Prop :=
  ∀ delivery ∈ schedule.observed.deliveries, ∃ reset sample,
    delivery.resetAt = some reset ∧ delivery.sample = some sample ∧ reset ≤ sample.number

structure Sound (premises : Premises) (schedule : Schedule) : Prop where
  tracked : ∃ fifo, schedule.queue.Tracked fifo
  numbered : ∀ chunk, schedule.loadable = some chunk → chunk.id < schedule.observed.chunksMade
  loading : ∀ loading, schedule.loader = some loading →
    schedule.backedOff = false ∧ schedule.loadable = some loading.chunk
  busy : schedule.Busy → ∃ chunk, schedule.loadable = some chunk ∧ schedule.Keeps chunk
  idle : ¬ schedule.Busy → schedule.loadable = schedule.owned
  queued : premises.reported → premises.positioned → schedule.phase = .enabled →
    schedule.pending = none → schedule.chunks ≠ []
  emptied : schedule.phase = .enabled → ∀ position, schedule.pending = some position →
    (∀ loading, schedule.loader = some loading → loading.canceled = false) →
    schedule.Emptied position
  canceled : premises.positioned → schedule.phase = .enabled →
    ∀ loading, schedule.loader = some loading → loading.canceled = true → schedule.pending ≠ none
  aimed : premises.positioned → schedule.phase = .enabled →
    schedule.observed.seekPosition = schedule.pending
  awaited : schedule.phase = .enabled → schedule.observed.resetAt = none →
    ∃ loading, schedule.loader = some loading ∧ loading.canceled = true
  kept : ∀ reset, schedule.observed.resetAt = some reset →
    reset ≤ schedule.queue.committed ∧ ∀ sample ∈ schedule.queue.history, reset ≤ sample.number
  disabling : schedule.phase = .disabling → ∀ loading, schedule.loader = some loading →
    loading.canceled = true
  posted : schedule.posted = true → schedule.phase = .disabling ∧ schedule.loader = none
  resting : schedule.phase ≠ .enabled → schedule.phase ≠ .disabling → schedule.Resting
  starts : premises.positioned → schedule.StartsFit
  deliveries : premises.positioned → schedule.DeliveriesFit

variable {premises : Premises} {schedule next : Schedule}

theorem Sound.idle_of (sound : schedule.Sound premises) (unloaded : schedule.loader = none)
    (steady : schedule.backedOff = false) : schedule.loadable = schedule.owned :=
  sound.idle (by simp [Busy, unloaded, steady])

theorem Sound.withQueue (sound : schedule.Sound premises) {queue : SampleQueue}
    (tracked : ∃ fifo, queue.Tracked fifo) (history : queue.history = schedule.queue.history)
    (committed : queue.committed = schedule.queue.committed) :
    Sound premises { schedule with queue } :=
  { sound with
    tracked
    emptied := by
      intro enabled position pending running
      obtain ⟨chunks, samples, requested⟩ := sound.emptied enabled position pending running
      exact ⟨chunks, history.trans samples, requested⟩
    kept := by
      intro reset noted
      rw [history, committed]
      exact sound.kept reset noted }

theorem Sound.restart {missed queue : SampleQueue} {position : Int}
    (tracked : ∃ fifo, missed.Tracked fifo) (cleared : missed.clear = .ok queue)
    (enabled : schedule.phase = .enabled) (unposted : schedule.posted = false)
    (unloaded : schedule.loader = none)
    (aimed : premises.positioned →
      schedule.observed.seekPosition = target position ∧ target position ≠ none)
    (starts : premises.positioned → schedule.StartsFit)
    (deliveries : premises.positioned → schedule.DeliveriesFit) :
    Sound premises (schedule.restart queue position) := by
  obtain ⟨fifo, tracked⟩ := tracked
  obtain ⟨empty, history, -, -⟩ := SampleQueue.clear_tracked tracked cleared
  exact {
    tracked := ⟨{}, empty⟩
    numbered := by simp [Schedule.restart]
    loading := by simp [Schedule.restart, unloaded]
    busy := by simp [Busy, Schedule.restart, unloaded]
    idle := fun _ => rfl
    queued := fun _ positioned _ settled => absurd settled (aimed positioned).2
    emptied := fun _ _ _ _ => ⟨rfl, history, by simp [Schedule.restart]⟩
    canceled := by simp [Schedule.restart, unloaded]
    aimed := fun positioned _ => (aimed positioned).1
    awaited := by simp [Schedule.restart]
    kept := by
      intro reset noted
      simp only [Schedule.restart, Option.some.injEq] at noted ⊢
      rw [history]
      exact ⟨by omega, by simp⟩
    disabling := by simp [Schedule.restart, unloaded]
    posted := by simp [Schedule.restart, unposted]
    resting := fun disabled => absurd enabled disabled
    starts
    deliveries }

theorem Sound.rest (sound : schedule.Sound premises) {queue : SampleQueue}
    (cleared : schedule.queue.clear = .ok queue) :
    Sound premises ({ schedule with loader := none }.rest queue) := by
  obtain ⟨fifo, tracked⟩ := sound.tracked
  obtain ⟨empty, history, -, -⟩ := SampleQueue.clear_tracked tracked cleared
  exact {
    tracked := ⟨{}, empty⟩
    numbered := by simp [Schedule.rest]
    loading := by simp [Schedule.rest]
    busy := by simp [Busy, Schedule.rest]
    idle := fun _ => rfl
    queued := by simp [Schedule.rest]
    emptied := by simp [Schedule.rest]
    canceled := by simp [Schedule.rest]
    aimed := by simp [Schedule.rest]
    awaited := by simp [Schedule.rest]
    kept := by
      intro reset noted
      simp only [Schedule.rest, Option.some.injEq] at noted ⊢
      rw [history]
      exact ⟨by omega, by simp⟩
    disabling := by simp [Schedule.rest]
    posted := by simp [Schedule.rest]
    resting := fun _ _ => ⟨rfl, rfl, rfl, rfl⟩
    starts := sound.starts
    deliveries := sound.deliveries }

theorem Sound.prepare (sound : schedule.Sound premises) {phase : ChunkState}
    (disabled : schedule.phase ≠ .enabled) (settled : schedule.phase ≠ .disabling)
    (stays : phase ≠ .enabled) (still : phase ≠ .disabling) : Sound premises { schedule with phase } :=
  { sound with
    queued := fun _ _ enabled => absurd enabled stays
    emptied := fun enabled => absurd enabled stays
    canceled := fun _ enabled => absurd enabled stays
    aimed := fun _ enabled => absurd enabled stays
    awaited := fun enabled => absurd enabled stays
    disabling := fun disabling => absurd disabling still
    posted := fun posted => absurd (sound.posted posted).1 settled
    resting := fun _ _ => sound.resting disabled settled }

theorem Sound.choose (sound : schedule.Sound premises) {chunk : Option Chunk} {made : Nat}
    (enabled : schedule.phase = .enabled) (unloaded : schedule.loader = none)
    (fits : schedule.Made chunk made) :
    Sound premises { schedule with
      loadable := chunk
      owned := chunk
      backedOff := false
      observed.chunksMade := made } :=
  { sound with
    numbered := by
      intro candidate present
      simp only at present
      simp only [Made, present] at fits
      show candidate.id < made
      omega
    loading := by simp [unloaded]
    busy := by simp [Busy, unloaded]
    idle := fun _ => rfl
    emptied := by
      intro _ position pending running
      obtain ⟨chunks, samples, -⟩ := sound.emptied enabled position pending running
      refine ⟨chunks, samples, ?_⟩
      intro candidate present
      simp only at present
      simp only [Made, present, chunks] at fits
      exact fits.2.2 position pending
    resting := fun disabled => absurd enabled disabled }

theorem Sound.unloaded (sound : schedule.Sound premises) (backedOff : schedule.backedOff = true) :
    schedule.loader = none := by
  cases running : schedule.loader with
  | none => rfl
  | some loading =>
    have steady := (sound.loading loading running).1
    simp [backedOff] at steady

theorem Sound.forgive (sound : schedule.Sound premises) {chunk : Chunk} (enabled : schedule.phase = .enabled)
    (backedOff : schedule.backedOff = true) (present : schedule.loadable = some chunk)
    (other : chunk.isMediaChunk = false) : Sound premises { schedule with backedOff := false } :=
  { sound with
    loading := by simp [sound.unloaded backedOff]
    busy := by simp [Busy, sound.unloaded backedOff]
    idle := by
      intro _
      obtain ⟨held, same, keeps⟩ := sound.busy (.inr backedOff)
      rw [present, Option.some.injEq] at same
      rw [← same, Keeps, if_neg (by simp [other])] at keeps
      exact present.trans keeps.symm
    resting := fun disabled => absurd enabled disabled }

theorem Cuts.tracked (sound : schedule.Sound premises) {count : Nat} {removed : MediaChunk}
    {queue : SampleQueue} (cuts : schedule.Cuts premises count removed queue) :
    (∃ fifo, queue.Tracked fifo) ∧
      queue.history = schedule.queue.history.take removed.firstSampleIndex ∧
      queue.committed = schedule.queue.committed ∧
      queue.getReadIndex = schedule.queue.getReadIndex := by
  obtain ⟨fifo, tracked⟩ := sound.tracked
  exact SampleQueue.discardUpstreamSamples_tracked tracked cuts.lower cuts.upper cuts.discards

theorem Cuts.nonempty {count : Nat} {removed : MediaChunk} {queue : SampleQueue}
    (cuts : schedule.Cuts premises count removed queue) : schedule.chunks ≠ [] := by
  intro empty
  have found := cuts.found
  simp [empty] at found

theorem Cuts.retained {count : Nat} {removed : MediaChunk} {queue : SampleQueue}
    (cuts : schedule.Cuts premises count removed queue) (reported : premises.reported) :
    schedule.chunks.take count ≠ [] := by
  intro empty
  have positive := cuts.positive reported
  have inside := (List.getElem?_eq_some_iff.mp cuts.found).1
  have size := congrArg List.length empty
  simp only [List.length_take, List.length_nil] at size
  omega

-- Once chunks are discarded no reset is pending, since a reset leaves none.
theorem Cuts.settled (sound : schedule.Sound premises) {count : Nat} {removed : MediaChunk}
    {queue : SampleQueue} (cuts : schedule.Cuts premises count removed queue)
    (enabled : schedule.phase = .enabled) (unloaded : schedule.loader = none) :
    schedule.pending = none := by
  cases pending : schedule.pending with
  | none => rfl
  | some position =>
    have emptied := sound.emptied enabled position pending (by simp [unloaded])
    exact absurd emptied.1 cuts.nonempty

theorem Sound.discard (sound : schedule.Sound premises) {count : Nat} {removed : MediaChunk}
    {queue : SampleQueue} (enabled : schedule.phase = .enabled) (unloaded : schedule.loader = none)
    (steady : schedule.backedOff = false) (cuts : schedule.Cuts premises count removed queue) :
    Sound premises (schedule.discardFrom count removed.firstSampleIndex queue) := by
  obtain ⟨tracked, history, committed, -⟩ := cuts.tracked sound
  have settled := cuts.settled sound enabled unloaded
  exact { sound with
    tracked
    busy := by simp [Busy, discardFrom, unloaded, steady]
    queued := fun reported _ _ _ => cuts.retained reported
    emptied := by simp [discardFrom, settled]
    kept := by
      intro reset noted
      obtain ⟨bound, numbers⟩ := sound.kept reset noted
      simp only [discardFrom, history, committed]
      exact ⟨bound, fun sample member => numbers sample (List.mem_of_mem_take member)⟩
    resting := fun disabled => absurd enabled disabled }

theorem Sound.startMedia (sound : schedule.Sound premises) {media : MediaChunk}
    (enabled : schedule.phase = .enabled) (unloaded : schedule.loader = none)
    (present : schedule.loadable = some media.chunk) (steady : schedule.backedOff = false)
    (kind : media.chunk.isMediaChunk = true) : Sound premises (schedule.startMedia media) :=
  { sound with
    loading := by
      intro loading started
      simp only [Schedule.startMedia, Option.some.injEq] at started
      subst started
      exact ⟨steady, present⟩
    busy := by
      intro _
      refine ⟨media.chunk, present, ?_⟩
      simp [Keeps, kind, Schedule.startMedia]
    idle := fun idle => absurd (.inl rfl) idle
    queued := by simp [Schedule.startMedia]
    emptied := by simp [Schedule.startMedia]
    canceled := by simp [Schedule.startMedia]
    aimed := fun _ _ => rfl
    awaited := by
      intro _ waiting
      obtain ⟨loading, started, -⟩ := sound.awaited enabled waiting
      simp [unloaded] at started
    disabling := by simp [Schedule.startMedia, enabled]
    posted := by
      intro posted
      have disabling := (sound.posted posted).1
      simp [enabled] at disabling
    resting := fun disabled => absurd enabled disabled
    starts := by
      intro positioned start member position wanted
      rcases List.mem_cons.mp member with rfl | earlier
      · have pending : schedule.pending = some position :=
          (sound.aimed positioned enabled).symm.trans wanted
        obtain ⟨chunks, samples, requested⟩ :=
          sound.emptied enabled position pending (by simp [unloaded])
        obtain ⟨requestedFor, requestedWith⟩ := requested media.chunk present
        exact ⟨requestedFor, requestedWith, by simp [chunks], by simp [samples]⟩
      · exact sound.starts positioned start earlier position wanted }

theorem Sound.unposted (sound : schedule.Sound premises) (enabled : schedule.phase = .enabled) :
    schedule.posted = false := by
  cases posted : schedule.posted with
  | false => rfl
  | true =>
    have disabling := (sound.posted posted).1
    simp [enabled] at disabling

theorem Sound.unawaited (sound : schedule.Sound premises) (enabled : schedule.phase = .enabled)
    {loading : Loading} (running : schedule.loader = some loading) (kept : loading.canceled = false) :
    schedule.observed.resetAt ≠ none := by
  intro waiting
  obtain ⟨other, started, canceled⟩ := sound.awaited enabled waiting
  cases running.symm.trans started
  cases kept.symm.trans canceled

theorem Sound.run (sound : schedule.Sound premises) {chunk : Chunk} (enabled : schedule.phase = .enabled)
    (unloaded : schedule.loader = none) (present : schedule.loadable = some chunk)
    (keeps : schedule.Keeps chunk) :
    Sound premises { schedule with loader := some { chunk }, backedOff := false } :=
  { sound with
    loading := by
      intro loading started
      simp only [Option.some.injEq] at started
      subst started
      exact ⟨rfl, present⟩
    busy := fun _ => ⟨chunk, present, keeps⟩
    idle := fun idle => absurd (.inl rfl) idle
    emptied := fun _ position pending _ =>
      sound.emptied enabled position pending (by simp [unloaded])
    canceled := by simp
    awaited := by
      intro _ waiting
      obtain ⟨loading, started, -⟩ := sound.awaited enabled waiting
      simp [unloaded] at started
    disabling := by simp [enabled]
    posted := by simp [sound.unposted enabled]
    resting := fun disabled => absurd enabled disabled }

theorem Sound.replaceMedia (sound : schedule.Sound premises) {chunk : Option Chunk} {made count : Nat}
    {removed : MediaChunk} {queue : SampleQueue} (enabled : schedule.phase = .enabled)
    (unloaded : schedule.loader = none) (fits : schedule.Made chunk made)
    (cuts : schedule.Cuts premises count removed queue) :
    Sound premises { schedule.discardFrom count removed.firstSampleIndex queue with
      loadable := chunk
      owned := chunk
      backedOff := false
      observed.chunksMade := made } := by
  have chosen := sound.choose enabled unloaded fits
  refine chosen.discard enabled unloaded rfl ?_
  exact ⟨cuts.positive, cuts.found, cuts.lower, cuts.upper, cuts.discards⟩

theorem Sound.completed (sound : schedule.Sound premises) {chunk : Chunk} (enabled : schedule.phase = .enabled)
    (running : schedule.loader = some { chunk }) :
    Sound premises { schedule with loader := none, loadable := none, owned := none } :=
  { sound with
    numbered := by simp
    loading := by simp
    busy := by
      intro busy
      have steady := (sound.loading _ running).1
      simp [Busy, steady] at busy
    idle := fun _ => rfl
    emptied := by
      intro _ position pending _
      obtain ⟨chunks, samples, -⟩ := sound.emptied enabled position pending (by simp [running])
      exact ⟨chunks, samples, by simp⟩
    canceled := by simp
    awaited := fun _ waiting => absurd waiting (sound.unawaited enabled running rfl)
    disabling := by simp
    posted := by simp [sound.unposted enabled]
    resting := fun disabled => absurd enabled disabled }

theorem Sound.failed (sound : schedule.Sound premises) {chunk : Chunk} (enabled : schedule.phase = .enabled)
    (running : schedule.loader = some { chunk }) :
    Sound premises { schedule with loader := none, backedOff := true } :=
  { sound with
    loading := by simp
    busy := fun _ => sound.busy (.inl (by simp [running]))
    idle := fun idle => absurd (.inr rfl) idle
    emptied := fun _ position pending _ =>
      sound.emptied enabled position pending (by simp [running])
    canceled := by simp
    awaited := fun _ waiting => absurd waiting (sound.unawaited enabled running rfl)
    disabling := by simp
    posted := by simp [sound.unposted enabled]
    resting := fun disabled => absurd enabled disabled }

theorem Sound.disable (sound : schedule.Sound premises) (enabled : schedule.phase = .enabled) :
    Sound premises { schedule with
      phase := .disabling
      posted := schedule.loader.isNone || schedule.posted
      loader := schedule.loader.map fun loading => { loading with canceled := true } } :=
  { sound with
    loading := by
      intro loading started
      obtain ⟨before, running, rfl⟩ := Option.map_eq_some_iff.mp started
      exact sound.loading before running
    busy := fun busy => sound.busy (by simpa [Busy] using busy)
    idle := fun idle => sound.idle (by simpa [Busy] using idle)
    queued := by simp
    emptied := by simp
    canceled := by simp
    aimed := by simp
    awaited := by simp
    disabling := by
      intro _ loading started
      obtain ⟨before, running, rfl⟩ := Option.map_eq_some_iff.mp started
      rfl
    posted := by simp [sound.unposted enabled]
    resting := by simp }

theorem Sound.pop (sound : schedule.Sound premises) {front second : MediaChunk} {others : List MediaChunk}
    (chunks : schedule.chunks = front :: second :: others) :
    Sound premises { schedule with chunks := second :: others } :=
  { sound with
    busy := by
      intro busy
      obtain ⟨chunk, present, keeps⟩ := sound.busy busy
      refine ⟨chunk, present, ?_⟩
      simpa [Keeps, chunks] using keeps
    queued := by simp
    emptied := by
      intro enabled position pending running
      have emptied := (sound.emptied enabled position pending running).1
      simp [chunks] at emptied
    resting := by
      intro disabled settled
      have rested := (sound.resting disabled settled).1
      simp [chunks] at rested }

theorem Sound.popPassed (sound : schedule.Sound premises) (readIndex : Nat) :
    Sound premises { schedule with chunks := ChunkSampleSource.popPassed readIndex schedule.chunks } := by
  generalize present : schedule.chunks = chunks
  induction chunks generalizing schedule with
  | nil =>
    rw [ChunkSampleSource.popPassed.eq_2 _ _ (by simp), ← present]
    exact sound
  | cons front others ih =>
    cases others with
    | nil =>
      rw [ChunkSampleSource.popPassed.eq_2 _ _ (by simp), ← present]
      exact sound
    | cons second others =>
      unfold ChunkSampleSource.popPassed
      split
      next =>
        have popped := ih (sound.pop present) rfl
        exact popped
      next =>
        rw [← present]
        exact sound

theorem popPassed_spec (readIndex : Nat) (chunks : List MediaChunk) {second : MediaChunk}
    (found : (ChunkSampleSource.popPassed readIndex chunks)[1]? = some second) :
    readIndex < second.firstSampleIndex := by
  induction chunks with
  | nil => simp [ChunkSampleSource.popPassed] at found
  | cons front others ih =>
    cases others with
    | nil => simp [ChunkSampleSource.popPassed] at found
    | cons next others =>
      unfold ChunkSampleSource.popPassed at found
      split at found
      next => exact ih found
      next later =>
        simp only [List.getElem?_cons_succ, List.getElem?_cons_zero, Option.some.injEq] at found
        subst found
        omega

theorem Missed.tracked (sound : schedule.Sound premises) {queue : SampleQueue}
    (missed : schedule.Missed queue) :
    (∃ fifo, queue.Tracked fifo) ∧ queue.history = schedule.queue.history ∧
      queue.committed = schedule.queue.committed := by
  obtain ⟨fifo, tracked⟩ := sound.tracked
  rcases missed with rfl | ⟨timeUs, skips⟩
  · exact ⟨⟨fifo, tracked⟩, rfl, rfl⟩
  · obtain ⟨after, history, committed, -⟩ := SampleQueue.skipToKeyframeBefore_moves tracked skips
    exact ⟨after, history, committed⟩

theorem Sound.seekCancel (sound : schedule.Sound premises) {loading : Loading} {queue : SampleQueue}
    {position : Int} (enabled : schedule.phase = .enabled)
    (valid : premises.positioned → position ≠ kNoResetPending)
    (running : schedule.loader = some loading) (tracked : ∃ fifo, queue.Tracked fifo) :
    Sound premises { schedule with
      queue
      loader := some { loading with canceled := true }
      pending := target position
      observed.seekPosition := some position
      observed.resetAt := none } :=
  { sound with
    tracked
    loading := by
      intro after started
      simp only [Option.some.injEq] at started
      subst started
      exact sound.loading loading running
    busy := fun _ => sound.busy (.inl (by simp [running]))
    idle := fun idle => absurd (.inl rfl) idle
    queued := fun _ positioned _ settled => absurd settled (by simp [target, valid positioned])
    emptied := by simp
    canceled := fun positioned _ _ _ _ => by simp [target, valid positioned]
    aimed := fun positioned _ => by simp [target, valid positioned]
    awaited := fun _ _ => ⟨_, rfl, rfl⟩
    kept := by simp
    disabling := by simp [enabled]
    posted := by simp [sound.unposted enabled]
    resting := fun disabled => absurd enabled disabled }

theorem Sound.chunk_queued (sound : schedule.Sound premises) {loading : Loading}
    (running : schedule.loader = some loading) (kind : loading.chunk.isMediaChunk = true) :
    schedule.chunks ≠ [] := by
  obtain ⟨chunk, present, keeps⟩ := sound.busy (.inl (by simp [running]))
  have same := (sound.loading loading running).2
  rw [present, Option.some.injEq] at same
  rw [same, Keeps, if_pos kind] at keeps
  intro empty
  simp [empty] at keeps

theorem Sound.commit (sound : schedule.Sound premises) (fresh : Fresh) {loading : Loading}
    (metadata : SampleMetadata) (running : schedule.loader = some loading)
    (kind : loading.chunk.isMediaChunk = true) :
    Sound premises { schedule with
      queue := schedule.queue.writeSampleMetadata fresh loading.chunk.id metadata } := by
  obtain ⟨fifo, tracked⟩ := sound.tracked
  exact { sound with
    tracked := ⟨_, SampleQueue.writeSampleMetadata_tracked fresh loading.chunk.id metadata tracked⟩
    emptied := by
      intro enabled position pending uncanceled
      have emptied := sound.emptied enabled position pending uncanceled
      exact absurd emptied.1 (sound.chunk_queued running kind)
    kept := by
      intro reset noted
      obtain ⟨bound, numbers⟩ := sound.kept reset noted
      simp only [SampleQueue.writeSampleMetadata]
      refine ⟨by omega, ?_⟩
      intro sample member
      rcases List.mem_append.mp member with earlier | latest
      · exact numbers sample earlier
      · rw [List.mem_singleton] at latest
        subst latest
        exact bound }

theorem Sound.giveFormat (sound : schedule.Sound premises) (owner format : Nat) :
    Sound premises { schedule with
      chunks := schedule.chunks.map fun media =>
        if media.chunk.id = owner then { media with mediaFormat := some format } else media } :=
  { sound with
    busy := by
      intro busy
      obtain ⟨chunk, present, keeps⟩ := sound.busy busy
      refine ⟨chunk, present, ?_⟩
      unfold Keeps at keeps ⊢
      split at keeps
      next kind =>
        rw [if_pos kind]
        refine ⟨keeps.1, ?_⟩
        rw [List.getLast?_map, Option.map_map, ← keeps.2]
        congr 1
        funext media
        simp only [Function.comp]
        split <;> rfl
      next kind =>
        rw [if_neg kind]
        exact keeps
    queued := by
      intro reported positioned enabled settled
      simpa using sound.queued reported positioned enabled settled
    emptied := by
      intro enabled position pending running
      obtain ⟨chunks, samples, requested⟩ := sound.emptied enabled position pending running
      exact ⟨by simp [chunks], samples, requested⟩
    resting := by
      intro disabled settled
      obtain ⟨chunks, rest⟩ := sound.resting disabled settled
      exact ⟨by simp [chunks], rest⟩ }

theorem Sound.deliver (sound : schedule.Sound premises) {holder filled : SampleHolder} {queue : SampleQueue}
    (enabled : schedule.phase = .enabled) (settled : schedule.pending = none)
    (gets : schedule.queue.getSample holder = .ok (true, filled, queue)) :
    Sound premises { schedule with
      queue
      observed.deliveries :=
        ⟨queue.history[queue.getReadIndex - 1]?, schedule.observed.resetAt⟩ ::
          schedule.observed.deliveries } := by
  obtain ⟨fifo, tracked⟩ := sound.tracked
  obtain ⟨after, index, skips, -, read, sample, found, -⟩ :=
    SampleQueue.getSample_skips tracked gets
  have moved := sound.withQueue after skips.history skips.committed
  refine { moved with deliveries := ?_ }
  intro positioned delivery member
  rcases List.mem_cons.mp member with rfl | earlier
  · cases noted : schedule.observed.resetAt with
    | none =>
      obtain ⟨loading, running, canceled⟩ := sound.awaited enabled noted
      exact absurd settled (sound.canceled positioned enabled loading running canceled)
    | some reset =>
      refine ⟨reset, sample, rfl, ?_, ?_⟩
      · rw [read, Nat.add_sub_cancel, skips.history]
        exact found
      · exact (sound.kept reset noted).2 sample (List.mem_of_getElem? found)
  · exact sound.deliveries positioned delivery earlier

theorem Step.sound {fresh : Fresh} (step : Step fresh premises schedule next)
    (sound : schedule.Sound premises) : next.Sound premises := by
  obtain ⟨fifo, tracked⟩ := sound.tracked
  cases step with
  | prepare disabled settled stays still => exact sound.prepare disabled settled stays still
  | enable prepared valid cleared =>
    obtain ⟨-, -, unloaded, -⟩ := sound.resting (by simp [prepared]) (by simp [prepared])
    refine .restart sound.tracked cleared rfl ?_ unloaded ?_ sound.starts sound.deliveries
    rotate_left
    · intro positioned
      simp [target, valid positioned]
    cases posted : schedule.posted with
    | false => rfl
    | true =>
      have disabling := (sound.posted posted).1
      simp [prepared] at disabling
  | choose enabled unloaded steady fits =>
    have chosen := sound.choose enabled unloaded fits
    rw [← steady] at chosen
    exact chosen
  | forgive enabled backedOff present other => exact sound.forgive enabled backedOff present other
  | dangle _ => exact { sound with }
  | discard enabled unloaded steady cuts => exact sound.discard enabled unloaded steady cuts
  | startMedia enabled unloaded steady present kind _ =>
    exact sound.startMedia enabled unloaded present steady kind
  | @run chunk enabled unloaded present other =>
    refine sound.run enabled unloaded present ?_
    cases backedOff : schedule.backedOff with
    | false =>
      rw [Keeps, if_neg (by simp [other backedOff]), ← sound.idle_of unloaded backedOff]
      exact present
    | true =>
      obtain ⟨held, same, keeps⟩ := sound.busy (.inr backedOff)
      rw [present, Option.some.injEq] at same
      exact same ▸ keeps
  | replaceMedia enabled unloaded _ _ _ fits cuts =>
    exact sound.replaceMedia enabled unloaded fits cuts
  | abandonMedia _ enabled unloaded _ fits => exact sound.choose enabled unloaded fits
  | completed enabled running => exact sound.completed enabled running
  | failed enabled running => exact sound.failed enabled running
  | canceled enabled running pending cleared =>
    refine .restart sound.tracked cleared enabled (sound.unposted enabled) rfl ?_ sound.starts
      sound.deliveries
    intro positioned
    rw [← pending]
    exact ⟨sound.aimed positioned enabled, sound.canceled positioned enabled _ running rfl⟩
  | disable enabled => exact sound.disable enabled
  | disabled _ cleared => exact sound.rest cleared
  | look _ looks =>
    obtain ⟨after, skips, -⟩ := SampleQueue.isEmpty_skips tracked looks
    exact sound.withQueue after skips.history skips.committed
  | pop _ chunks _ => exact sound.pop chunks
  | getNothing _ gets =>
    obtain ⟨after, index, skips, -⟩ := SampleQueue.getSample_skips tracked gets
    exact sound.withQueue after skips.history skips.committed
  | deliver enabled settled _ _ _ gets => exact sound.deliver enabled settled gets
  | @seekInside _ empty _ _ enabled settled skips looks =>
    obtain ⟨⟨fifo, found⟩, history, committed, -⟩ :=
      SampleQueue.skipToKeyframeBefore_moves tracked skips
    obtain ⟨after, moved, -⟩ := SampleQueue.isEmpty_skips found looks
    have reached := sound.withQueue after (moved.history.trans history)
      (moved.committed.trans committed)
    cases empty with
    | true => exact reached
    | false => exact reached.popPassed _
  | seekRestart enabled valid unloaded missed cleared =>
    refine .restart (missed.tracked sound).1 cleared enabled (sound.unposted enabled) unloaded ?_
      sound.starts sound.deliveries
    intro positioned
    simp [target, valid positioned]
  | seekCancel enabled valid running missed =>
    exact sound.seekCancel enabled valid running (missed.tracked sound).1
  | write _ _ writes _ =>
    obtain ⟨after, history, committed⟩ :=
      SampleQueue.writeSampleDataFixThis_tracked tracked writes
    exact sound.withQueue ⟨fifo, after⟩ history committed
  | commit running kind _ => exact sound.commit fresh _ running kind
  | giveFormat => exact sound.giveFormat _ _

theorem steps_sound {fresh : Fresh}
    (steps : Relation.ReflTransGen (Step fresh premises) schedule next) (sound : schedule.Sound premises) :
    next.Sound premises := by
  induction steps with
  | refl => exact sound
  | tail _ step ih => exact step.sound ih

theorem steps_owned {fresh : Fresh}
    (steps : Relation.ReflTransGen (Step fresh premises) schedule next) (keeps : premises.keeps)
    (owned : schedule.observed.dangling = false) : next.observed.dangling = false := by
  induction steps with
  | refl => exact owned
  | tail _ step ih =>
    cases step with
    | dangle replaces => exact absurd keeps replaces
    | _ => exact ih

end NDash.Chunk.Schedule

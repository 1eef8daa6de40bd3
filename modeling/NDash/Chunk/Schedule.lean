import NDash.Chunk.ChunkSampleSource

set_option autoImplicit false

namespace NDash.Chunk

open Extractor

structure Schedule where
  phase : ChunkState
  posted : Bool
  queue : SampleQueue
  chunks : List MediaChunk
  loadable : Option Chunk
  owned : Option Chunk
  loader : Option Loading
  backedOff : Bool
  pending : Option Int
  observed : Observations

structure Premises where
  positioned : Prop
  reported : Prop
  inRange : Prop
  keeps : Prop
  fails : SampleQueue → Nat → Prop := fun _ _ => True
  appends : SampleQueue → Prop := fun _ => True
  commits : SampleQueue → Nat → SampleMetadata → Prop := fun _ _ _ => True

namespace Schedule

def target (position : Int) : Option Int :=
  if position = kNoResetPending then none else some position

def restart (schedule : Schedule) (queue : SampleQueue) (position : Int) : Schedule :=
  { schedule with
    queue
    chunks := []
    loadable := none
    owned := none
    backedOff := false
    pending := target position
    observed.resetAt := some queue.committed }

def rest (schedule : Schedule) (queue : SampleQueue) : Schedule :=
  { schedule with
    phase := .prepared
    posted := false
    queue
    chunks := []
    loadable := none
    owned := none
    backedOff := false
    observed.resetAt := some queue.committed }

def discardFrom (schedule : Schedule) (count index : Nat) (queue : SampleQueue) : Schedule :=
  { schedule with
    queue
    chunks := schedule.chunks.take count
    observed.discards :=
      ⟨schedule.queue, index, queue, schedule.chunks.take count⟩ :: schedule.observed.discards }

def startMedia (schedule : Schedule) (media : MediaChunk) : Schedule :=
  { schedule with
    chunks := schedule.chunks ++ [media]
    owned := none
    loader := some { chunk := media.chunk }
    pending := none
    observed.seekPosition := none
    observed.starts :=
      { chunk := media.chunk
        seekPosition := schedule.observed.seekPosition
        queuedChunks := schedule.chunks.length
        queuedSamples := schedule.queue.history.length } :: schedule.observed.starts }

def Made (schedule : Schedule) (chunk : Option Chunk) (made : Nat) : Prop :=
  match chunk with
  | none => made = schedule.observed.chunksMade
  | some chunk =>
    chunk.id = schedule.observed.chunksMade ∧ made = schedule.observed.chunksMade + 1 ∧
      ∀ position, schedule.pending = some position →
        chunk.requestedFor = position ∧ chunk.requestedWith = schedule.chunks.length

structure Cuts (premises : Premises) (schedule : Schedule) (count : Nat) (removed : MediaChunk)
    (queue : SampleQueue) : Prop where
  positive : premises.reported → 0 < count
  found : schedule.chunks[count]? = some removed
  lower : schedule.queue.getReadIndex ≤ removed.firstSampleIndex
  upper : removed.firstSampleIndex ≤ schedule.queue.getWriteIndex
  discards : schedule.queue.discardUpstreamSamples removed.firstSampleIndex = .ok queue

structure CutsAt (premises : Premises) (queue : SampleQueue) (index : Nat) : Prop where
  lower : queue.getReadIndex ≤ index
  upper : index ≤ queue.getWriteIndex
  fails : ∀ fault, queue.discardUpstreamSamples index = .error fault → premises.fails queue index

def InRange (premises : Premises) (schedule : Schedule) : Prop :=
  ∀ removed ∈ schedule.chunks.tail, CutsAt premises schedule.queue removed.firstSampleIndex

def Missed (schedule : Schedule) (queue : SampleQueue) : Prop :=
  queue = schedule.queue ∨
    ∃ timeUs, schedule.queue.skipToKeyframeBefore timeUs = .ok (false, queue)

inductive Step (fresh : Fresh) (premises : Premises) : Schedule → Schedule → Prop
  | prepare {schedule : Schedule} {phase : ChunkState} :
      schedule.phase ≠ .enabled → schedule.phase ≠ .disabling → phase ≠ .enabled →
      phase ≠ .disabling → Step fresh premises schedule { schedule with phase }
  | enable {schedule : Schedule} {queue : SampleQueue} {position : Int} :
      schedule.phase = .prepared → (premises.positioned → position ≠ kNoResetPending) →
      schedule.queue.clear = .ok queue →
      Step fresh premises schedule
        ({ schedule with phase := .enabled, observed.seekPosition := some position }.restart queue
          position)
  | choose {schedule : Schedule} {chunk : Option Chunk} {made : Nat} :
      schedule.phase = .enabled → schedule.loader = none → schedule.backedOff = false →
      schedule.Made chunk made →
      Step fresh premises schedule
        { schedule with loadable := chunk, owned := chunk, observed.chunksMade := made }
  | forgive {schedule : Schedule} {chunk : Chunk} :
      schedule.phase = .enabled → schedule.backedOff = true → schedule.loadable = some chunk →
      chunk.isMediaChunk = false → Step fresh premises schedule { schedule with backedOff := false }
  -- A chunk is used that was replaced, and so destroyed, before.
  | dangle {schedule : Schedule} :
      ¬ premises.keeps → Step fresh premises schedule { schedule with observed.dangling := true }
  | discard {schedule : Schedule} {count : Nat} {removed : MediaChunk} {queue : SampleQueue} :
      schedule.phase = .enabled → schedule.loader = none → schedule.backedOff = false →
      schedule.Cuts premises count removed queue →
      Step fresh premises schedule (schedule.discardFrom count removed.firstSampleIndex queue)
  | startMedia {schedule : Schedule} {media : MediaChunk} :
      schedule.phase = .enabled → schedule.loader = none → schedule.backedOff = false →
      schedule.loadable = some media.chunk → media.chunk.isMediaChunk = true →
      media.firstSampleIndex = schedule.queue.getWriteIndex →
      Step fresh premises schedule (schedule.startMedia media)
  | run {schedule : Schedule} {chunk : Chunk} :
      schedule.phase = .enabled → schedule.loader = none → schedule.loadable = some chunk →
      (schedule.backedOff = false → chunk.isMediaChunk = false) →
      Step fresh premises schedule { schedule with loader := some { chunk }, backedOff := false }
  | replaceMedia {schedule : Schedule} {backedOff : Chunk} {chunk : Option Chunk} {made count : Nat}
      {removed : MediaChunk} {queue : SampleQueue} :
      schedule.phase = .enabled → schedule.loader = none → schedule.backedOff = true →
      schedule.loadable = some backedOff → backedOff.isMediaChunk = true →
      schedule.Made chunk made → schedule.Cuts premises count removed queue →
      Step fresh premises schedule
        { schedule.discardFrom count removed.firstSampleIndex queue with
          loadable := chunk
          owned := chunk
          backedOff := false
          observed.chunksMade := made }
  | abandonMedia {schedule : Schedule} {chunk : Option Chunk} {made : Nat} :
      ¬ premises.reported → schedule.phase = .enabled → schedule.loader = none →
      schedule.backedOff = true → schedule.Made chunk made →
      Step fresh premises schedule
        { schedule with
          loadable := chunk
          owned := chunk
          backedOff := false
          observed.chunksMade := made }
  | completed {schedule : Schedule} {chunk : Chunk} :
      schedule.phase = .enabled → schedule.loader = some { chunk } →
      Step fresh premises schedule
        { schedule with loader := none, loadable := none, owned := none }
  | failed {schedule : Schedule} {chunk : Chunk} :
      schedule.phase = .enabled → schedule.loader = some { chunk } →
      Step fresh premises schedule { schedule with loader := none, backedOff := true }
  | canceled {schedule : Schedule} {chunk : Chunk} {queue : SampleQueue} {position : Int} :
      schedule.phase = .enabled → schedule.loader = some { chunk, canceled := true } →
      schedule.pending = target position → schedule.queue.clear = .ok queue →
      Step fresh premises schedule ({ schedule with loader := none }.restart queue position)
  | disable {schedule : Schedule} :
      schedule.phase = .enabled →
      Step fresh premises schedule
        { schedule with
          phase := .disabling
          posted := schedule.loader.isNone || schedule.posted
          loader := schedule.loader.map fun loading => { loading with canceled := true } }
  | disabled {schedule : Schedule} {queue : SampleQueue} :
      schedule.phase = .disabling → schedule.queue.clear = .ok queue →
      Step fresh premises schedule ({ schedule with loader := none }.rest queue)
  | look {schedule : Schedule} {empty : Bool} {queue : SampleQueue} :
      schedule.phase = .enabled → schedule.queue.isEmpty = .ok (empty, queue) →
      Step fresh premises schedule { schedule with queue }
  | pop {schedule : Schedule} {front second : MediaChunk} {rest : List MediaChunk} :
      schedule.phase = .enabled → schedule.chunks = front :: second :: rest →
      second.firstSampleIndex ≤ schedule.queue.getReadIndex →
      Step fresh premises schedule { schedule with chunks := second :: rest }
  | getNothing {schedule : Schedule} {holder filled : SampleHolder} {queue : SampleQueue} :
      schedule.phase = .enabled →
      schedule.queue.getSample holder = .ok (false, filled, queue) →
      Step fresh premises schedule { schedule with queue }
  | deliver {schedule : Schedule} {holder filled : SampleHolder} {sample : OwnedSample}
      {queue : SampleQueue} :
      schedule.phase = .enabled → schedule.pending = none →
      schedule.queue.history[schedule.queue.getReadIndex]? = some sample →
      (schedule.queue.output.needKeyFrame = true → sample.isSync = true) →
      (∀ second, schedule.chunks[1]? = some second →
        schedule.queue.getReadIndex < second.firstSampleIndex) →
      schedule.queue.getSample holder = .ok (true, filled, queue) →
      Step fresh premises schedule
        { schedule with
          queue
          observed.deliveries :=
            ⟨queue.history[queue.getReadIndex - 1]?, schedule.observed.resetAt⟩ ::
              schedule.observed.deliveries }
  | seekInside {schedule : Schedule} {timeUs : Int} {empty : Bool} {found queue : SampleQueue} :
      schedule.phase = .enabled → schedule.pending = none →
      schedule.queue.skipToKeyframeBefore timeUs = .ok (true, found) →
      found.isEmpty = .ok (empty, queue) →
      Step fresh premises schedule
        { schedule with
          queue
          chunks :=
            if empty then schedule.chunks
            else ChunkSampleSource.popPassed queue.getReadIndex schedule.chunks }
  | seekRestart {schedule : Schedule} {missed queue : SampleQueue} {position : Int} :
      schedule.phase = .enabled → (premises.positioned → position ≠ kNoResetPending) →
      schedule.loader = none → schedule.Missed missed → missed.clear = .ok queue →
      Step fresh premises schedule
        ({ schedule with observed.seekPosition := some position }.restart queue position)
  | seekCancel {schedule : Schedule} {loading : Loading} {missed : SampleQueue} {position : Int} :
      schedule.phase = .enabled → (premises.positioned → position ≠ kNoResetPending) →
      schedule.loader = some loading → schedule.Missed missed →
      Step fresh premises schedule
        { schedule with
          queue := missed
          loader := some { loading with canceled := true }
          pending := target position
          observed.seekPosition := some position
          observed.resetAt := none }
  | write {schedule : Schedule} {loading : Loading} {src : Bytes} {allowEndOfInput : Bool}
      {queue : SampleQueue} :
      schedule.loader = some loading → loading.chunk.isMediaChunk = true →
      schedule.queue.writeSampleDataFixThis src allowEndOfInput = .ok queue → premises.appends queue →
      Step fresh premises schedule { schedule with queue }
  | commit {schedule : Schedule} {loading : Loading} {metadata : SampleMetadata} :
      schedule.loader = some loading → loading.chunk.isMediaChunk = true →
      premises.commits schedule.queue loading.chunk.id metadata →
      Step fresh premises schedule
        { schedule with
          queue := schedule.queue.writeSampleMetadata fresh loading.chunk.id metadata }
  | giveFormat {schedule : Schedule} {owner format : Nat} :
      Step fresh premises schedule
        { schedule with
          chunks := schedule.chunks.map fun media =>
            if media.chunk.id = owner then { media with mediaFormat := some format } else media }

end Schedule

end NDash.Chunk

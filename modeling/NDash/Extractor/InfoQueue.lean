import NDash.SampleHolder
import NDash.Shared.RingBuffer

set_option autoImplicit false

namespace NDash.Extractor

open RingBuffer

def kSampleCapacityIncrement : Nat := 1000

structure SampleExtrasHolder where
  offset : Int := 0
  encryptionKeyId : Option Bytes := none
  iv : Option Bytes := none
  numBytesClear : Option (List Int) := none
  numBytesEnc : Option (List Int) := none
deriving DecidableEq, Repr

-- `offset_` is int64_t, but both accessors pass it as int32_t.
def SampleExtrasHolder.getOffset (extras : SampleExtrasHolder) : Int := toInt32 extras.offset

def SampleExtrasHolder.setOffset (extras : SampleExtrasHolder) (offset : Int) : SampleExtrasHolder :=
  { extras with offset := toInt32 offset }

structure SampleMetadata where
  timeUs : Int
  durationUs : Int
  flags : BitVec 32
  offset : Int
  size : Int
  encryptionKeyId : Option Bytes := none
  iv : Option Bytes := none
  numBytesClear : Option (List Int) := none
  numBytesEnc : Option (List Int) := none
deriving DecidableEq, Repr

structure SampleRecord where
  timeUs : Int
  durationUs : Int
  flags : BitVec 32
  offset : Int
  size : Int
  encryptionKeyId : Bytes
  iv : Bytes
  numBytesClear : List Int
  numBytesEnc : List Int
deriving DecidableEq, Repr

def SampleRecord.isSync (sample : SampleRecord) : Bool := hasFlag sample.flags kSampleFlagSync

def SampleRecord.isEncrypted (sample : SampleRecord) : Bool :=
  hasFlag sample.flags kSampleFlagEncrypted

def SampleMetadata.record (metadata : SampleMetadata) : SampleRecord :=
  { timeUs := metadata.timeUs
    durationUs := metadata.durationUs
    flags := metadata.flags
    offset := metadata.offset
    size := metadata.size
    encryptionKeyId := metadata.encryptionKeyId.getD []
    iv := metadata.iv.getD []
    numBytesClear := metadata.numBytesClear.getD []
    numBytesEnc := metadata.numBytesEnc.getD [] }

-- `new int64_t[n]` leaves its cells indeterminate: they are chosen by capacity and index.
structure Fresh where
  offsets : Nat → Nat → Int
  durations : Nat → Nat → Int
  timesUs : Nat → Nat → Int
  flags : Nat → Nat → BitVec 32
  sizes : Nat → Nat → Int

structure InfoQueue where
  capacity : Nat
  queueSize : Nat
  absoluteReadIndex : Nat
  relativeReadIndex : Nat
  relativeWriteIndex : Nat
  offsets : Nat → Int
  durations : Nat → Int
  timesUs : Nat → Int
  flags : Nat → BitVec 32
  sizes : Nat → Int
  encryptionKeyIds : Nat → Bytes
  iv : Nat → Bytes
  numBytesClear : Nat → List Int
  numBytesEnc : Nat → List Int

namespace InfoQueue

def initial (fresh : Fresh) : InfoQueue :=
  { capacity := kSampleCapacityIncrement
    queueSize := 0
    absoluteReadIndex := 0
    relativeReadIndex := 0
    relativeWriteIndex := 0
    offsets := fresh.offsets kSampleCapacityIncrement
    durations := fresh.durations kSampleCapacityIncrement
    timesUs := fresh.timesUs kSampleCapacityIncrement
    flags := fresh.flags kSampleCapacityIncrement
    sizes := fresh.sizes kSampleCapacityIncrement
    encryptionKeyIds := fun _ => []
    iv := fun _ => []
    numBytesClear := fun _ => []
    numBytesEnc := fun _ => [] }

def clear (queue : InfoQueue) : InfoQueue :=
  { queue with
    absoluteReadIndex := 0
    relativeReadIndex := 0
    relativeWriteIndex := 0
    queueSize := 0 }

def getWriteIndex (queue : InfoQueue) : Nat := queue.absoluteReadIndex + queue.queueSize

def getReadIndex (queue : InfoQueue) : Nat := queue.absoluteReadIndex

def lastWriteIndex (queue : InfoQueue) : Nat :=
  (if queue.relativeWriteIndex = 0 then queue.capacity else queue.relativeWriteIndex) - 1

def discardUpstreamSamples (queue : InfoQueue) (discardFromIndex : Nat) : Int × InfoQueue :=
  let discardCount := queue.getWriteIndex - discardFromIndex
  if discardCount = 0 then
    if queue.absoluteReadIndex = 0 then (0, queue)
    else (queue.offsets queue.lastWriteIndex + queue.sizes queue.lastWriteIndex, queue)
  else
    let relativeWriteIndex :=
      (queue.relativeWriteIndex + queue.capacity - discardCount) % queue.capacity
    (queue.offsets relativeWriteIndex,
      { queue with
        queueSize := queue.queueSize - discardCount
        relativeWriteIndex := relativeWriteIndex })

def peekSample (queue : InfoQueue) (holder : SampleHolder) (extras : SampleExtrasHolder) :
    Bool × SampleHolder × SampleExtrasHolder :=
  if queue.queueSize = 0 then (false, holder, extras)
  else
    let i := queue.relativeReadIndex
    let holder := { holder with
      timeUs := queue.timesUs i
      peekSize := queue.sizes i
      flags := queue.flags i
      durationUs := queue.durations i }
    let extras := extras.setOffset (queue.offsets i)
    if holder.isEncrypted then
      (true, holder, { extras with
        encryptionKeyId := some (queue.encryptionKeyIds i)
        iv := some (queue.iv i)
        numBytesClear := some (queue.numBytesClear i)
        numBytesEnc := some (queue.numBytesEnc i) })
    else
      (true, holder, { extras with
        encryptionKeyId := none
        iv := none
        numBytesClear := none
        numBytesEnc := none })

def moveToNextSample (queue : InfoQueue) : Int × InfoQueue :=
  let lastReadIndex := queue.relativeReadIndex
  let next := { queue with
    queueSize := queue.queueSize - 1
    absoluteReadIndex := queue.absoluteReadIndex + 1
    relativeReadIndex :=
      if queue.relativeReadIndex + 1 = queue.capacity then 0 else queue.relativeReadIndex + 1 }
  (if next.queueSize > 0 then next.offsets next.relativeReadIndex
    else next.sizes lastReadIndex + next.offsets lastReadIndex, next)

-- The search of SkipToKeyframeBefore; it meets the write index within `capacity` rounds.
def searchKeyframe (queue : InfoQueue) (timeUs : Int) : Nat → Nat → Int → Int → Int
  | 0, _, _, sampleCountToKeyFrame => sampleCountToKeyFrame
  | rounds + 1, searchIndex, sampleCount, sampleCountToKeyFrame =>
    if searchIndex = queue.relativeWriteIndex then sampleCountToKeyFrame
    else if queue.timesUs searchIndex > timeUs then sampleCountToKeyFrame
    else
      queue.searchKeyframe timeUs rounds ((searchIndex + 1) % queue.capacity) (sampleCount + 1)
        (if hasFlag (queue.flags searchIndex) kSampleFlagSync then sampleCount
          else sampleCountToKeyFrame)

def skipToKeyframeBefore (queue : InfoQueue) (timeUs : Int) : Int × InfoQueue :=
  if queue.queueSize = 0 ∨ timeUs < queue.timesUs queue.relativeReadIndex then (-1, queue)
  else if timeUs > queue.timesUs queue.lastWriteIndex then (-1, queue)
  else
    let sampleCountToKeyFrame :=
      queue.searchKeyframe timeUs queue.capacity queue.relativeReadIndex 0 (-1)
    if sampleCountToKeyFrame = -1 then (-1, queue)
    else
      let count := sampleCountToKeyFrame.toNat
      let relativeReadIndex := (queue.relativeReadIndex + count) % queue.capacity
      (queue.offsets relativeReadIndex,
        { queue with
          queueSize := queue.queueSize - count
          relativeReadIndex := relativeReadIndex
          absoluteReadIndex := queue.absoluteReadIndex + count })

def store (queue : InfoQueue) (metadata : SampleMetadata) : InfoQueue :=
  let i := queue.relativeWriteIndex
  { queue with
    timesUs := Function.update queue.timesUs i metadata.timeUs
    durations := Function.update queue.durations i metadata.durationUs
    offsets := Function.update queue.offsets i metadata.offset
    sizes := Function.update queue.sizes i metadata.size
    flags := Function.update queue.flags i metadata.flags
    encryptionKeyIds := Function.update queue.encryptionKeyIds i (metadata.encryptionKeyId.getD [])
    iv := Function.update queue.iv i (metadata.iv.getD [])
    numBytesClear := Function.update queue.numBytesClear i (metadata.numBytesClear.getD [])
    numBytesEnc := Function.update queue.numBytesEnc i (metadata.numBytesEnc.getD []) }

-- Nine arrays, each copied in two pieces around the read index.
def grow (queue : InfoQueue) (fresh : Fresh) : InfoQueue :=
  let newCapacity := queue.capacity + kSampleCapacityIncrement
  let start := queue.relativeReadIndex
  { capacity := newCapacity
    queueSize := queue.capacity
    absoluteReadIndex := queue.absoluteReadIndex
    relativeReadIndex := 0
    relativeWriteIndex := queue.capacity
    offsets := unroll (fresh.offsets newCapacity) queue.offsets queue.capacity start
    durations := unroll (fresh.durations newCapacity) queue.durations queue.capacity start
    timesUs := unroll (fresh.timesUs newCapacity) queue.timesUs queue.capacity start
    flags := unroll (fresh.flags newCapacity) queue.flags queue.capacity start
    sizes := unroll (fresh.sizes newCapacity) queue.sizes queue.capacity start
    encryptionKeyIds := unroll (fun _ => []) queue.encryptionKeyIds queue.capacity start
    iv := unroll (fun _ => []) queue.iv queue.capacity start
    numBytesClear := unroll (fun _ => []) queue.numBytesClear queue.capacity start
    numBytesEnc := unroll (fun _ => []) queue.numBytesEnc queue.capacity start }

def commitSample (queue : InfoQueue) (fresh : Fresh) (metadata : SampleMetadata) : InfoQueue :=
  let queue := { queue.store metadata with queueSize := queue.queueSize + 1 }
  if queue.queueSize = queue.capacity then queue.grow fresh
  else
    { queue with
      relativeWriteIndex :=
        if queue.relativeWriteIndex + 1 = queue.capacity then 0 else queue.relativeWriteIndex + 1 }

def record (queue : InfoQueue) (i : Nat) : SampleRecord :=
  { timeUs := queue.timesUs i
    durationUs := queue.durations i
    flags := queue.flags i
    offset := queue.offsets i
    size := queue.sizes i
    encryptionKeyId := queue.encryptionKeyIds i
    iv := queue.iv i
    numBytesClear := queue.numBytesClear i
    numBytesEnc := queue.numBytesEnc i }

def samples (queue : InfoQueue) : List SampleRecord :=
  window queue.record queue.capacity queue.relativeReadIndex queue.queueSize

theorem record_store (queue : InfoQueue) (metadata : SampleMetadata) :
    (queue.store metadata).record =
      Function.update queue.record queue.relativeWriteIndex metadata.record := by
  funext i
  by_cases same : i = queue.relativeWriteIndex <;>
    simp [record, store, SampleMetadata.record, same]

theorem record_grow (queue : InfoQueue) (fresh : Fresh) {i : Nat}
    (bound : queue.relativeReadIndex < queue.capacity) (inside : i < queue.capacity) :
    (queue.grow fresh).record i = queue.record ((queue.relativeReadIndex + i) % queue.capacity) := by
  simp only [record, grow, unroll_apply _ _ bound inside]

theorem samples_grow (queue : InfoQueue) (fresh : Fresh)
    (bound : queue.relativeReadIndex < queue.capacity) (full : queue.queueSize = queue.capacity) :
    (queue.grow fresh).samples = queue.samples := by
  unfold samples
  rw [full]
  apply List.map_congr_left
  intro k member
  have inside : k < queue.capacity := List.mem_range.mp member
  have small : k < (queue.grow fresh).capacity := by
    simp only [grow]
    omega
  rw [show (queue.grow fresh).relativeReadIndex = 0 from rfl, Nat.zero_add,
    Nat.mod_eq_of_lt small, record_grow queue fresh bound inside]

end InfoQueue

end NDash.Extractor

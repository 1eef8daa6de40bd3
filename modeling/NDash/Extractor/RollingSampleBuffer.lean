import NDash.Extractor.InfoQueue
import NDash.Upstream.Allocator

set_option autoImplicit false

namespace NDash.Extractor

open Upstream

def kInitialScratchSize : Nat := 32

-- `scratch` is the storage of the vector up to its capacity; the code reserves but never resizes.
structure RollingSampleBuffer where
  allocator : Allocator
  allocationLength : Int
  infoQueue : InfoQueue
  dataQueue : List BlockId := []
  extrasHolder : SampleExtrasHolder := {}
  scratch : Bytes := List.replicate kInitialScratchSize 0
  scratchPosition : Nat := 0
  totalBytesDropped : Int := 0
  totalBytesWritten : Int := 0
  lastAllocation : Option BlockId := none
  lastAllocationOffset : Int

namespace RollingSampleBuffer

def initial (allocator : Allocator) (fresh : Fresh) : RollingSampleBuffer :=
  { allocator
    allocationLength := toInt32 allocator.individualAllocationSize
    infoQueue := .initial fresh
    lastAllocationOffset := toInt32 allocator.individualAllocationSize }

def releaseBack (buffer : RollingSampleBuffer) : Except Fault RollingSampleBuffer :=
  match buffer.dataQueue.getLast? with
  | none => .error .emptyDataQueue
  | some block =>
    .ok { buffer with
      allocator := buffer.allocator.release block
      dataQueue := buffer.dataQueue.dropLast }

def releaseBackBlocks : Nat → RollingSampleBuffer → Except Fault RollingSampleBuffer
  | 0, buffer => .ok buffer
  | count + 1, buffer => do
    let buffer ← buffer.releaseBack
    releaseBackBlocks count buffer

def releaseFrontBlocks : Nat → RollingSampleBuffer → Except Fault RollingSampleBuffer
  | 0, buffer => .ok buffer
  | count + 1, buffer =>
    match buffer.dataQueue with
    | [] => .error .emptyDataQueue
    | block :: rest =>
      releaseFrontBlocks count
        { buffer with
          allocator := buffer.allocator.release block
          dataQueue := rest
          totalBytesDropped := buffer.totalBytesDropped + buffer.allocationLength }

def clear (buffer : RollingSampleBuffer) : Except Fault RollingSampleBuffer := do
  let buffer := { buffer with infoQueue := buffer.infoQueue.clear }
  let buffer ← releaseBackBlocks buffer.dataQueue.length buffer
  .ok { buffer with
    totalBytesDropped := 0
    totalBytesWritten := 0
    lastAllocation := none
    lastAllocationOffset := buffer.allocationLength }

def getWriteIndex (buffer : RollingSampleBuffer) : Nat := buffer.infoQueue.getWriteIndex
def getReadIndex (buffer : RollingSampleBuffer) : Nat := buffer.infoQueue.getReadIndex
def getWritePosition (buffer : RollingSampleBuffer) : Int := buffer.totalBytesWritten

def dropDownstreamTo (buffer : RollingSampleBuffer) (absolutePosition : Int) :
    Except Fault RollingSampleBuffer :=
  let relativePosition := toInt32 (absolutePosition - buffer.totalBytesDropped)
  let allocationIndex := relativePosition.tdiv buffer.allocationLength
  releaseFrontBlocks allocationIndex.toNat buffer

-- The loop of DropUpstreamFrom and the offset it leaves.
def releaseUpstreamFrom (buffer : RollingSampleBuffer) (absolutePosition : Int) :
    Except Fault RollingSampleBuffer := do
  let relativePosition := toInt32 (absolutePosition - buffer.totalBytesDropped)
  let allocationIndex := relativePosition.tdiv buffer.allocationLength
  let allocationOffset := relativePosition.tmod buffer.allocationLength
  let discardCount := toInt32 (buffer.dataQueue.length - allocationIndex - 1)
  let discardCount := if allocationOffset = 0 then discardCount + 1 else discardCount
  let buffer ← releaseBackBlocks discardCount.toNat buffer
  .ok { buffer with
    lastAllocation := buffer.dataQueue.getLast?
    lastAllocationOffset :=
      if allocationOffset = 0 then buffer.allocationLength else allocationOffset }

-- `back()` is taken of the deque that is left, which must not be empty.
def dropUpstreamFrom (buffer : RollingSampleBuffer) (absolutePosition : Int) :
    Except Fault RollingSampleBuffer := do
  let buffer ← buffer.releaseUpstreamFrom absolutePosition
  if buffer.dataQueue.isEmpty then .error .emptyDataQueue else .ok buffer

def truncate (buffer : RollingSampleBuffer) (absolutePosition : Int) :
    Except Fault RollingSampleBuffer :=
  { buffer with totalBytesWritten := absolutePosition }.releaseUpstreamFrom absolutePosition

def discardUpstreamSamples (buffer : RollingSampleBuffer) (discardFromIndex : Nat) :
    Except Fault RollingSampleBuffer :=
  let (position, infoQueue) := buffer.infoQueue.discardUpstreamSamples discardFromIndex
  { buffer with infoQueue, totalBytesWritten := position }.dropUpstreamFrom position

def peekSample (buffer : RollingSampleBuffer) (holder : SampleHolder) :
    Bool × SampleHolder × RollingSampleBuffer :=
  let (haveSample, holder, extrasHolder) := buffer.infoQueue.peekSample holder buffer.extrasHolder
  (haveSample, holder, { buffer with extrasHolder })

def skipSample (buffer : RollingSampleBuffer) : Except Fault RollingSampleBuffer :=
  let (nextOffset, infoQueue) := buffer.infoQueue.moveToNextSample
  { buffer with infoQueue }.dropDownstreamTo nextOffset

def skipToKeyframeBefore (buffer : RollingSampleBuffer) (timeUs : Int) :
    Except Fault (Bool × RollingSampleBuffer) := do
  let (nextOffset, infoQueue) := buffer.infoQueue.skipToKeyframeBefore timeUs
  let buffer := { buffer with infoQueue }
  if nextOffset = -1 then .ok (false, buffer)
  else
    let buffer ← buffer.dropDownstreamTo nextOffset
    .ok (true, buffer)

def prepareForAppend (buffer : RollingSampleBuffer) (length : Int) : Int × RollingSampleBuffer :=
  let buffer :=
    if buffer.lastAllocationOffset = buffer.allocationLength then
      let (block, allocator) := buffer.allocator.allocate
      { buffer with
        allocator
        dataQueue := buffer.dataQueue ++ [block]
        lastAllocation := some block
        lastAllocationOffset := 0 }
    else buffer
  (min length (buffer.allocationLength - buffer.lastAllocationOffset), buffer)

def copyToLastAllocation (buffer : RollingSampleBuffer) (src : Bytes) (length : Int) :
    Except Fault RollingSampleBuffer :=
  if length < 0 then .error .outOfBounds
  else
    match buffer.lastAllocation with
    | none => .error .nullPointer
    | some block => do
      let allocator ← buffer.allocator.write block buffer.lastAllocationOffset
        (src.take length.toNat)
      .ok { buffer with allocator }

def appendDataFixThis (buffer : RollingSampleBuffer) (src : Bytes) (allowEndOfInput : Bool) :
    Except Fault (Bool × Option Int × RollingSampleBuffer) := do
  let (length, buffer) := buffer.prepareForAppend (toInt32 src.length)
  let buffer ← buffer.copyToLastAllocation src length
  -- Returning kResultEndOfInput from a bool function returns true.
  if length = kResultEndOfInput then .ok (allowEndOfInput, none, buffer)
  else
    .ok (true, some length,
      { buffer with
        lastAllocationOffset := buffer.lastAllocationOffset + length
        totalBytesWritten := buffer.totalBytesWritten + length })

def commitSample (buffer : RollingSampleBuffer) (fresh : Fresh) (metadata : SampleMetadata) :
    RollingSampleBuffer :=
  { buffer with infoQueue := buffer.infoQueue.commitSample fresh metadata }

-- The loop of ReadDataToSampleHolder, ReadData and ReadDataToScratch, which differ in their sink.
def copyBlocks {σ : Type} (write : σ → Bytes → Except Fault σ) :
    Nat → Int → Int → RollingSampleBuffer → σ → Except Fault (RollingSampleBuffer × σ)
  | rounds, absolutePosition, remaining, buffer, sink =>
    if remaining ≤ 0 then .ok (buffer, sink)
    else
      match rounds with
      | 0 => .error .diverges
      | rounds + 1 => do
        let buffer ← buffer.dropDownstreamTo absolutePosition
        let positionInAllocation := toInt32 (absolutePosition - buffer.totalBytesDropped)
        let toCopy := min remaining (buffer.allocationLength - positionInAllocation)
        match buffer.dataQueue with
        | [] => .error .emptyDataQueue
        | block :: _ =>
          let data ← buffer.allocator.read block positionInAllocation toCopy
          let sink ← write sink data
          copyBlocks write rounds (absolutePosition + toCopy) (remaining - toCopy) buffer sink

def checkedWrite (target : SampleHolder) (data : Bytes) : Except Fault SampleHolder := do
  let (written, target) ← target.write data
  if written then .ok target else .error .checkFailed

def readDataToSampleHolder (buffer : RollingSampleBuffer) (absolutePosition : Int)
    (target : SampleHolder) (length : Int) : Except Fault (RollingSampleBuffer × SampleHolder) :=
  copyBlocks checkedWrite length.toNat absolutePosition length buffer target

def copyToVector (target : Bytes × Nat) (data : Bytes) : Except Fault (Bytes × Nat) :=
  if target.2 + data.length ≤ target.1.length then
    .ok (overwrite target.1 target.2 data, target.2 + data.length)
  else .error .outOfBounds

def readData (buffer : RollingSampleBuffer) (absolutePosition : Int) (target : Bytes)
    (length : Int) : Except Fault (RollingSampleBuffer × Bytes) := do
  let (buffer, target, _) ←
    copyBlocks copyToVector length.toNat absolutePosition length buffer (target, 0)
  .ok (buffer, target)

def readDataToScratch (buffer : RollingSampleBuffer) (absolutePosition length : Int) :
    Except Fault RollingSampleBuffer := do
  let (buffer, scratch, scratchPosition) ←
    copyBlocks copyToVector length.toNat absolutePosition length buffer
      (buffer.scratch, buffer.scratchPosition)
  .ok { buffer with scratch, scratchPosition }

def readUnsignedFromScratch (buffer : RollingSampleBuffer) (count : Nat) :
    Except Fault (Nat × RollingSampleBuffer) :=
  if buffer.scratchPosition + count ≤ buffer.scratch.length then
    .ok (((buffer.scratch.drop buffer.scratchPosition).take count).foldl
        (fun value byte => value * 256 + byte.toNat) 0,
      { buffer with scratchPosition := buffer.scratchPosition + count })
  else .error .outOfBounds

def readUnsignedShortFromScratch (buffer : RollingSampleBuffer) :
    Except Fault (Int × RollingSampleBuffer) := do
  let (value, buffer) ← buffer.readUnsignedFromScratch 2
  .ok ((value : Int), buffer)

def readUnsignedIntToIntFromScratch (buffer : RollingSampleBuffer) :
    Except Fault (Int × RollingSampleBuffer) := do
  let (value, buffer) ← buffer.readUnsignedFromScratch 4
  .ok (toInt32 value, buffer)

def ensureScratchCapacity (buffer : RollingSampleBuffer) (capacity : Nat) : RollingSampleBuffer :=
  if buffer.scratch.length < capacity then
    -- Only the first size() elements move to the new storage.
    { buffer with
      scratch := buffer.scratch.take kInitialScratchSize ++
        List.replicate (capacity - kInitialScratchSize) 0 }
  else buffer

-- `assign(i, v)` makes the vector i copies of v; it does not store v at index i.
def readSubsampleSizes (count : Nat) :
    Nat → RollingSampleBuffer → List Int → List Int →
      Except Fault (RollingSampleBuffer × List Int × List Int)
  | 0, buffer, clear, encrypted => .ok (buffer, clear, encrypted)
  | left + 1, buffer, _, _ => do
    let i := count - (left + 1)
    let (clearSize, buffer) ← buffer.readUnsignedShortFromScratch
    let (encryptedSize, buffer) ← buffer.readUnsignedIntToIntFromScratch
    readSubsampleSizes count left buffer (List.replicate i clearSize)
      (List.replicate i encryptedSize)

def resizeVector {α : Type} (vector : List α) (size : Nat) (value : α) : List α :=
  vector.take size ++ List.replicate (size - vector.length) value

def readSubsampleCount (buffer : RollingSampleBuffer) (offset : Int) (subsampleEncryption : Bool) :
    Except Fault (RollingSampleBuffer × Int × Int) :=
  if subsampleEncryption then do
    let buffer ← buffer.readDataToScratch offset 2
    let (subsampleCount, buffer) ← { buffer with scratchPosition := 0 }.readUnsignedShortFromScratch
    .ok (buffer, offset + 2, subsampleCount)
  else .ok (buffer, offset, 1)

def readSubsampleData (buffer : RollingSampleBuffer) (offset : Int) (subsampleEncryption : Bool)
    (subsampleCount : Int) (clearSizes encryptedSizes : List Int) :
    Except Fault (RollingSampleBuffer × Int × List Int × List Int) :=
  if subsampleEncryption then do
    let subsampleDataLength := 6 * subsampleCount
    let buffer := buffer.ensureScratchCapacity subsampleDataLength.toNat
    let buffer ← buffer.readDataToScratch offset subsampleDataLength
    let (buffer, clearSizes, encryptedSizes) ←
      readSubsampleSizes subsampleCount.toNat subsampleCount.toNat
        { buffer with scratchPosition := 0 } clearSizes encryptedSizes
    .ok (buffer, offset + subsampleDataLength, clearSizes, encryptedSizes)
  else .ok (buffer, offset, [], [])

def readEncryptionData (buffer : RollingSampleBuffer) (holder : SampleHolder) :
    Except Fault (SampleHolder × RollingSampleBuffer) := do
  let start := buffer.extrasHolder.getOffset
  let buffer ← buffer.readDataToScratch start 1
  let signalByte := buffer.scratch.headD 0
  let subsampleEncryption := signalByte &&& 0x80 ≠ 0
  let ivSize : Int := (signalByte &&& 0x7F).toNat
  let iv :=
    if holder.cryptoInfo.iv.length < 16 then resizeVector holder.cryptoInfo.iv 16 0
    else holder.cryptoInfo.iv
  let (buffer, iv) ← buffer.readData (start + 1) iv ivSize
  let (buffer, offset, subsampleCount) ←
    buffer.readSubsampleCount (start + 1 + ivSize) subsampleEncryption
  let clearSizes := resizeVector holder.cryptoInfo.numBytesOfClearData subsampleCount.toNat 0
  let encryptedSizes := resizeVector holder.cryptoInfo.numBytesOfEncryptedData subsampleCount.toNat 0
  let (buffer, offset, clearSizes, encryptedSizes) ←
    buffer.readSubsampleData offset subsampleEncryption subsampleCount clearSizes encryptedSizes
  let bytesRead := toInt32 (offset - buffer.extrasHolder.getOffset)
  .ok
    ({ holder with
        cryptoInfo :=
          { numSubSamples := subsampleCount
            numBytesOfClearData := clearSizes
            numBytesOfEncryptedData := encryptedSizes
            key := buffer.extrasHolder.encryptionKeyId.getD []
            iv }
        peekSize := holder.peekSize - bytesRead },
      { buffer with
        extrasHolder := buffer.extrasHolder.setOffset (buffer.extrasHolder.getOffset + bytesRead) })

def transferCryptoInfo (holder : SampleHolder) (extras : SampleExtrasHolder) : SampleHolder :=
  let crypto := holder.cryptoInfo
  { holder with
    cryptoInfo :=
      { numSubSamples := (extras.numBytesClear.getD []).length
        numBytesOfClearData := crypto.numBytesOfClearData ++ extras.numBytesClear.getD []
        numBytesOfEncryptedData := crypto.numBytesOfEncryptedData ++ extras.numBytesEnc.getD []
        key := extras.encryptionKeyId.getD []
        iv := crypto.iv ++ extras.iv.getD [] } }

def readCryptoInfo (buffer : RollingSampleBuffer) (holder : SampleHolder) :
    Except Fault (SampleHolder × RollingSampleBuffer) :=
  if holder.isEncrypted then
    if (buffer.extrasHolder.iv.getD []).length = 0 then buffer.readEncryptionData holder
    else .ok (transferCryptoInfo holder buffer.extrasHolder, buffer)
  else .ok (holder, buffer)

def readSample (buffer : RollingSampleBuffer) (holder : SampleHolder) :
    Except Fault (Bool × SampleHolder × RollingSampleBuffer) := do
  let (haveSample, holder, buffer) := buffer.peekSample holder
  if haveSample then
    let (holder, buffer) ← buffer.readCryptoInfo holder
    let (_, holder) := holder.ensureSpaceForWrite holder.peekSize
    let (buffer, holder) ←
      buffer.readDataToSampleHolder buffer.extrasHolder.getOffset holder holder.peekSize
    let buffer ← buffer.skipSample
    .ok (true, holder, buffer)
  else .ok (false, holder, buffer)

end RollingSampleBuffer

end NDash.Extractor

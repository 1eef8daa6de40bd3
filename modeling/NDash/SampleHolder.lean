import NDash.Util

set_option autoImplicit false

namespace NDash

structure CryptoInfo where
  numSubSamples : Int := 0
  numBytesOfClearData : List Int := []
  numBytesOfEncryptedData : List Int := []
  key : Bytes := []
  iv : Bytes := []
deriving DecidableEq, Repr

-- `buffer` is the allocation itself: its length and `bufferLen` can differ.
structure SampleHolder where
  cryptoInfo : CryptoInfo := {}
  buffer : Option Bytes := none
  bufferLen : Int := 0
  writtenSize : Int := 0
  peekSize : Int := 0
  flags : BitVec 32 := 0#32
  timeUs : Int := 0
  durationUs : Int := 0
  bufferReplacementEnabled : Bool
deriving DecidableEq, Repr

namespace SampleHolder

def isEncrypted (holder : SampleHolder) : Bool := hasFlag holder.flags kSampleFlagEncrypted
def isDecodeOnly (holder : SampleHolder) : Bool := hasFlag holder.flags kSampleFlagDecodeOnly
def isSyncFrame (holder : SampleHolder) : Bool := hasFlag holder.flags kSampleFlagSync

def content (holder : SampleHolder) : Bytes :=
  (holder.buffer.getD []).take holder.writtenSize.toNat

def info (holder : SampleHolder) : Int × Int × BitVec 32 × Int :=
  (holder.timeUs, holder.durationUs, holder.flags, holder.peekSize)

def createReplacementBuffer (holder : SampleHolder) (requiredCapacity : Int) : Option Bytes :=
  if holder.bufferReplacementEnabled then some (List.replicate requiredCapacity.toNat 0) else none

def ensureSpaceForWrite (holder : SampleHolder) (length : Int) : Bool × SampleHolder :=
  match holder.buffer with
  | none =>
    let replacement := holder.createReplacementBuffer length
    (replacement.isSome, { holder with buffer := replacement, bufferLen := length })
  | some old =>
    let capacity := holder.bufferLen - holder.writtenSize
    let position := holder.writtenSize
    let requiredCapacity := position + length
    if capacity ≥ requiredCapacity then (true, holder)
    else
      match holder.createReplacementBuffer requiredCapacity with
      | some replacement =>
        let copied :=
          if position > 0 then overwrite replacement 0 (old.take holder.writtenSize.toNat)
          else replacement
        (true, { holder with buffer := some copied, bufferLen := requiredCapacity })
      | none => (false, holder)

def setDataBuffer (holder : SampleHolder) (data : Option Bytes) (dataLen : Int) : SampleHolder :=
  { holder with buffer := data, bufferLen := dataLen }

def write (holder : SampleHolder) (data : Bytes) : Except Fault (Bool × SampleHolder) :=
  let capacity := holder.bufferLen - holder.writtenSize
  if capacity ≥ data.length then
    match holder.buffer with
    | none => if data = [] then .ok (true, holder) else .error .nullPointer
    | some bytes =>
      if 0 ≤ holder.writtenSize ∧ holder.writtenSize + data.length ≤ bytes.length then
        .ok (true, { holder with
          buffer := some (overwrite bytes holder.writtenSize.toNat data)
          writtenSize := holder.writtenSize + data.length })
      else .error .outOfBounds
  else .ok (false, holder)

def clearData (holder : SampleHolder) : SampleHolder :=
  { holder with
    cryptoInfo := {}
    bufferLen := 0
    writtenSize := 0
    peekSize := 0
    flags := 0#32
    timeUs := 0
    durationUs := 0 }

structure Empty (holder : SampleHolder) : Prop where
  replaces : holder.bufferReplacementEnabled = true
  unwritten : holder.writtenSize = 0
  lengthZero : holder.bufferLen = 0

structure Room (holder : SampleHolder) (data : Bytes) (room : Int) : Prop where
  held : holder.buffer.isSome = true ∨ room = 0
  size : holder.bufferLen ≤ ((holder.buffer.getD []).length : Int)
  written : holder.writtenSize = (data.length : Int)
  bytes : holder.content = data
  enough : holder.bufferLen = holder.writtenSize + room

theorem write_room {holder : SampleHolder} {data piece : Bytes} {room : Int}
    (ready : holder.Room data room) (fits : (piece.length : Int) ≤ room) :
    ∃ next, holder.write piece = .ok (true, next) ∧ next.Room (data ++ piece) (room - piece.length) ∧
      next.info = holder.info := by
  obtain ⟨held, size, written, bytes, enough⟩ := ready
  cases present : holder.buffer with
  | none =>
    have empty : room = 0 := by simpa [present] using held
    have nothing : piece = [] := by
      apply List.eq_nil_of_length_eq_zero
      omega
    subst nothing
    refine ⟨holder, ?_, ⟨?_, ?_, ?_, ?_, ?_⟩, rfl⟩
    · simp [write, present]
      omega
    · simpa using held
    · exact size
    · simpa using written
    · simpa using bytes
    · simpa using enough
  | some buffer =>
    simp only [present, Option.getD_some] at size
    simp only [content, present, Option.getD_some] at bytes
    have inside : holder.writtenSize.toNat + piece.length ≤ buffer.length := by omega
    have grown : (overwrite buffer holder.writtenSize.toNat piece).length = buffer.length :=
      length_overwrite inside
    have total : (holder.writtenSize + piece.length).toNat =
        holder.writtenSize.toNat + piece.length := by omega
    refine ⟨{ holder with
        buffer := some (overwrite buffer holder.writtenSize.toNat piece)
        writtenSize := holder.writtenSize + piece.length }, ?_, ⟨?_, ?_, ?_, ?_, ?_⟩, rfl⟩
    · have capacity : holder.bufferLen - holder.writtenSize ≥ piece.length := by omega
      have bounds : 0 ≤ holder.writtenSize ∧ holder.writtenSize + piece.length ≤ buffer.length := by
        omega
      simp [write, present, capacity, bounds]
    · simp
    · simp only [Option.getD_some, grown]
      exact size
    · simp only [List.length_append, written]
      omega
    · simp only [content, Option.getD_some, total]
      rw [take_overwrite (by omega), bytes]
    · simp only
      omega

theorem write_info {holder result : SampleHolder} {data : Bytes} {written : Bool}
    (writes : holder.write data = .ok (written, result)) : result.info = holder.info := by
  unfold write at writes
  by_cases capacity : holder.bufferLen - holder.writtenSize ≥ data.length
  · rw [if_pos capacity] at writes
    cases present : holder.buffer with
    | none =>
      simp only [present] at writes
      split at writes <;> cases writes
      rfl
    | some bytes =>
      simp only [present] at writes
      split at writes <;> cases writes
      rfl
  · rw [if_neg capacity] at writes
    cases writes
    rfl

theorem ensureSpaceForWrite_info (holder : SampleHolder) (length : Int) :
    (holder.ensureSpaceForWrite length).2.info = holder.info := by
  unfold ensureSpaceForWrite
  cases holder.buffer with
  | none => rfl
  | some old =>
    by_cases enough : holder.bufferLen - holder.writtenSize ≥ holder.writtenSize + length
    · simp [enough]
    · cases replacement : holder.createReplacementBuffer (holder.writtenSize + length) <;>
        simp [enough, replacement, info]

theorem ensureSpaceForWrite_room {holder : SampleHolder} (empty : holder.Empty) {length : Int}
    (nonneg : 0 ≤ length) : (holder.ensureSpaceForWrite length).2.Room [] length := by
  obtain ⟨replaces, unwritten, lengthZero⟩ := empty
  cases present : holder.buffer with
  | none =>
    simp only [ensureSpaceForWrite, present, createReplacementBuffer, replaces, if_true]
    refine ⟨?_, ?_, ?_, ?_, ?_⟩
    · simp
    · simp [Int.toNat_of_nonneg nonneg]
    · simp [unwritten]
    · simp [content, unwritten]
    · simp [unwritten]
  | some old =>
    simp only [ensureSpaceForWrite, present, createReplacementBuffer, replaces, if_true]
    split
    next enough =>
      have zero : length = 0 := by omega
      refine ⟨?_, ?_, ?_, ?_, ?_⟩
      · simp [present]
      · simp only [present, Option.getD_some]
        omega
      · simp [unwritten]
      · simp [content, unwritten]
      · simp only
        omega
    next =>
      refine ⟨?_, ?_, ?_, ?_, ?_⟩
      · simp
      · simp [unwritten, Int.toNat_of_nonneg nonneg]
      · simp [unwritten]
      · simp [content, unwritten]
      · rfl

end SampleHolder

end NDash

import NDash.Extractor.RollingSampleBuffer
import NDash.Shared.Blocks
import Mathlib.Algebra.Order.Ring.Int

set_option autoImplicit false

namespace NDash.Extractor.RollingSampleBuffer

open Upstream

/-- The queued blocks hold `stream`, the bytes appended since Clear, from the dropped position on. -/
structure Stored (buffer : RollingSampleBuffer) (stream : Bytes) : Prop where
  positive : 0 < buffer.allocationLength
  offsetLower : 0 ≤ buffer.lastAllocationOffset
  offsetUpper : buffer.lastAllocationOffset ≤ buffer.allocationLength
  written : buffer.totalBytesWritten = stream.length
  droppedLower : 0 ≤ buffer.totalBytesDropped
  droppedUpper : buffer.totalBytesDropped ≤ stream.length
  span : (stream.length : Int) + buffer.allocationLength = buffer.totalBytesDropped +
    buffer.dataQueue.length * buffer.allocationLength + buffer.lastAllocationOffset
  uniform : ∀ block, ((buffer.allocator.memory block).length : Int) = buffer.allocationLength
  content : (buffer.dataQueue.map buffer.allocator.memory).flatten.take
    (stream.length - buffer.totalBytesDropped.toNat) = stream.drop buffer.totalBytesDropped.toNat
  last : buffer.lastAllocationOffset < buffer.allocationLength →
    buffer.lastAllocation = buffer.dataQueue.getLast?
  ledger : (buffer.allocator.released ++ buffer.dataQueue).Perm (List.range buffer.allocator.obtained)
  count : buffer.allocator.allocatedCount = buffer.dataQueue.length

structure Kept (before after : RollingSampleBuffer) : Prop where
  allocationLength : after.allocationLength = before.allocationLength
  infoQueue : after.infoQueue = before.infoQueue
  extrasHolder : after.extrasHolder = before.extrasHolder

theorem Kept.refl (buffer : RollingSampleBuffer) : Kept buffer buffer := ⟨rfl, rfl, rfl⟩

theorem Kept.trans {first second third : RollingSampleBuffer} (left : Kept first second)
    (right : Kept second third) : Kept first third :=
  ⟨right.1.trans left.1, right.2.trans left.2, right.3.trans left.3⟩

def withoutFront (buffer : RollingSampleBuffer) (count : Nat) : RollingSampleBuffer :=
  { buffer with
    allocator := { buffer.allocator with
      allocatedCount := buffer.allocator.allocatedCount - count
      released := buffer.allocator.released ++ buffer.dataQueue.take count }
    dataQueue := buffer.dataQueue.drop count
    totalBytesDropped := buffer.totalBytesDropped + count * buffer.allocationLength }

def withoutBack (buffer : RollingSampleBuffer) (count : Nat) : RollingSampleBuffer :=
  { buffer with
    allocator := { buffer.allocator with
      allocatedCount := buffer.allocator.allocatedCount - count
      released := buffer.allocator.released ++
        (buffer.dataQueue.drop (buffer.dataQueue.length - count)).reverse }
    dataQueue := buffer.dataQueue.take (buffer.dataQueue.length - count) }

theorem releaseFrontBlocks_eq (count : Nat) (buffer : RollingSampleBuffer)
    (enough : count ≤ buffer.dataQueue.length) :
    releaseFrontBlocks count buffer = .ok (buffer.withoutFront count) := by
  induction count generalizing buffer with
  | zero => simp [releaseFrontBlocks, withoutFront]
  | succ count ih =>
    cases blocks : buffer.dataQueue with
    | nil => simp [blocks] at enough
    | cons block rest =>
      rw [blocks, List.length_cons] at enough
      simp only [releaseFrontBlocks, blocks]
      rw [ih _ (by simp only; omega)]
      simp only [withoutFront, blocks, Allocator.release, List.take_succ_cons, List.drop_succ_cons,
        List.append_assoc, List.singleton_append, Except.ok.injEq, mk.injEq, Allocator.mk.injEq,
        true_and, and_true]
      push_cast
      constructor
      · omega
      · rw [Int.add_mul]
        omega

theorem releaseBackBlocks_eq (count : Nat) (buffer : RollingSampleBuffer)
    (enough : count ≤ buffer.dataQueue.length) :
    releaseBackBlocks count buffer = .ok (buffer.withoutBack count) := by
  induction count generalizing buffer with
  | zero => simp [releaseBackBlocks, withoutBack]
  | succ count ih =>
    rcases List.eq_nil_or_concat buffer.dataQueue with blocks | ⟨initial, block, blocks⟩
    · simp [blocks] at enough
    · rw [List.concat_eq_append] at blocks
      rw [blocks, List.length_append, List.length_singleton] at enough
      have final : buffer.dataQueue.getLast? = some block := by simp [blocks]
      have others : buffer.dataQueue.dropLast = initial := by simp [blocks]
      have next := ih { buffer with
        allocator := buffer.allocator.release block
        dataQueue := initial } (by simp only; omega)
      have kept : initial.length + 1 - (count + 1) = initial.length - count := by omega
      simp only [releaseBackBlocks, releaseBack, final, others, bind, Except.bind]
      rw [next]
      simp only [withoutBack, blocks, Allocator.release, List.length_append, List.length_singleton,
        kept, List.take_append_of_le_length (Nat.sub_le initial.length count),
        List.drop_append_of_le_length (Nat.sub_le initial.length count), List.reverse_append,
        List.reverse_singleton, List.append_assoc, Except.ok.injEq, mk.injEq, Allocator.mk.injEq,
        true_and, and_true]
      push_cast
      omega

theorem Stored.nodup {buffer : RollingSampleBuffer} {stream : Bytes} (stored : buffer.Stored stream) :
    (buffer.allocator.released ++ buffer.dataQueue).Nodup :=
  stored.ledger.nodup_iff.mpr List.nodup_range

theorem Stored.mem_live {buffer : RollingSampleBuffer} {stream : Bytes}
    (stored : buffer.Stored stream) {block : BlockId} (member : block ∈ buffer.dataQueue) :
    block ∉ buffer.allocator.released := by
  intro gone
  exact (List.nodup_append.mp stored.nodup).2.2 block gone block member rfl

theorem Stored.uniformBlocks {buffer : RollingSampleBuffer} {stream : Bytes}
    (stored : buffer.Stored stream) (blocks : List BlockId) :
    Blocks.Uniform buffer.allocationLength.toNat (blocks.map buffer.allocator.memory) := by
  intro bytes member
  obtain ⟨block, -, rfl⟩ := List.mem_map.mp member
  have := stored.uniform block
  omega

theorem initial_stored (allocator : Allocator) (fresh : Fresh) (empty : allocator.obtained = 0)
    (untouched : allocator.released = []) (unused : allocator.allocatedCount = 0)
    (positive : 0 < allocator.individualAllocationSize)
    (small : allocator.individualAllocationSize < 2147483648)
    (uniform : ∀ block, (allocator.memory block).length = allocator.individualAllocationSize) :
    (initial allocator fresh).Stored [] := by
  have exact : toInt32 allocator.individualAllocationSize = allocator.individualAllocationSize :=
    toInt32_of_range (by omega) (by omega)
  refine ⟨?_, ?_, ?_, rfl, ?_, ?_, ?_, ?_, ?_, ?_, ?_, ?_⟩ <;>
    simp [initial, exact, empty, untouched, unused, uniform]
  exact positive

theorem Stored.withInfoQueue {buffer : RollingSampleBuffer} {stream : Bytes}
    (stored : buffer.Stored stream) (infoQueue : InfoQueue) :
    { buffer with infoQueue }.Stored stream :=
  ⟨stored.positive, stored.offsetLower, stored.offsetUpper, stored.written, stored.droppedLower,
    stored.droppedUpper, stored.span, stored.uniform, stored.content, stored.last, stored.ledger,
    stored.count⟩

theorem Stored.withExtrasHolder {buffer : RollingSampleBuffer} {stream : Bytes}
    (stored : buffer.Stored stream) (extrasHolder : SampleExtrasHolder) :
    { buffer with extrasHolder }.Stored stream :=
  ⟨stored.positive, stored.offsetLower, stored.offsetUpper, stored.written, stored.droppedLower,
    stored.droppedUpper, stored.span, stored.uniform, stored.content, stored.last, stored.ledger,
    stored.count⟩

theorem Stored.block_bytes {buffer : RollingSampleBuffer} {stream : Bytes}
    (stored : buffer.Stored stream) (count : Nat) :
    ((count * buffer.allocationLength.toNat : Nat) : Int) = count * buffer.allocationLength := by
  have positive := stored.positive
  rw [Int.natCast_mul, Int.toNat_of_nonneg (by omega)]

theorem Stored.withoutFront {buffer : RollingSampleBuffer} {stream : Bytes}
    (stored : buffer.Stored stream) {count : Nat} (enough : count ≤ buffer.dataQueue.length)
    (inside : buffer.totalBytesDropped + count * buffer.allocationLength ≤ stream.length) :
    (buffer.withoutFront count).Stored stream := by
  have bytes := stored.block_bytes count
  have droppedLower := stored.droppedLower
  have span := stored.span
  have remaining : ((buffer.dataQueue.length - count : Nat) : Int) * buffer.allocationLength =
      buffer.dataQueue.length * buffer.allocationLength - count * buffer.allocationLength := by
    rw [Int.ofNat_sub enough, Int.sub_mul]
  refine ⟨stored.positive, stored.offsetLower, stored.offsetUpper, stored.written, ?_, inside, ?_,
    stored.uniform, ?_, ?_, ?_, ?_⟩
  · simp only [RollingSampleBuffer.withoutFront]
    omega
  · simp only [RollingSampleBuffer.withoutFront, List.length_drop, remaining]
    omega
  · -- Both sides lose the same `count` blocks of bytes from the front.
    have shorter := congrArg (List.drop (count * buffer.allocationLength.toNat)) stored.content
    have total : (buffer.totalBytesDropped + count * buffer.allocationLength).toNat =
        buffer.totalBytesDropped.toNat + count * buffer.allocationLength.toNat := by omega
    rw [List.drop_take, List.drop_drop] at shorter
    simp only [RollingSampleBuffer.withoutFront, total, List.map_drop]
    rw [Blocks.flatten_drop (stored.uniformBlocks _), Nat.sub_add_eq]
    exact shorter
  · intro partly
    simp only [RollingSampleBuffer.withoutFront] at partly ⊢
    have more : ¬ buffer.dataQueue.length ≤ count := by
      intro all
      have same : count = buffer.dataQueue.length := by omega
      rw [same] at inside
      omega
    rw [List.getLast?_drop, if_neg more]
    exact stored.last partly
  · simp only [RollingSampleBuffer.withoutFront, List.append_assoc, List.take_append_drop]
    exact stored.ledger
  · simp only [RollingSampleBuffer.withoutFront, List.length_drop, stored.count]
    omega

theorem dropDownstreamTo_stored {buffer : RollingSampleBuffer} {stream : Bytes}
    (stored : buffer.Stored stream) {position : Int} (k : Int)
    (lower : buffer.totalBytesDropped ≤ position) (upper : position ≤ stream.length)
    (near : position - buffer.totalBytesDropped < 2147483648) :
    ∃ next, buffer.dropDownstreamTo (position + k * 4294967296) = .ok next ∧ next.Stored stream ∧
      Kept buffer next ∧ buffer.totalBytesDropped ≤ next.totalBytesDropped ∧
      next.totalBytesDropped ≤ position ∧
      position < next.totalBytesDropped + next.allocationLength := by
  have positive := stored.positive
  have span := stored.span
  have offsetUpper := stored.offsetUpper
  have relative : toInt32 (position + k * 4294967296 - buffer.totalBytesDropped) =
      position - buffer.totalBytesDropped := by
    rw [show position + k * 4294967296 - buffer.totalBytesDropped =
      position - buffer.totalBytesDropped + k * 4294967296 by omega, toInt32_add_period]
    exact toInt32_of_range (by omega) near
  obtain ⟨count, quotient, -, below, above⟩ :=
    quotient_bounds (show 0 ≤ position - buffer.totalBytesDropped by omega) positive
  have enough : count ≤ buffer.dataQueue.length := count_le positive (by omega)
  have bytes := stored.block_bytes count
  refine ⟨buffer.withoutFront count, ?_, stored.withoutFront enough (by omega), ⟨rfl, rfl, rfl⟩,
    ?_, ?_, ?_⟩
  · unfold dropDownstreamTo
    simp only [relative, quotient, Int.toNat_natCast]
    exact releaseFrontBlocks_eq count buffer enough
  · simp only [RollingSampleBuffer.withoutFront]
    omega
  · simp only [RollingSampleBuffer.withoutFront]
    omega
  · simp only [RollingSampleBuffer.withoutFront]
    omega

theorem Stored.keepFront {buffer : RollingSampleBuffer} {stream : Bytes}
    (stored : buffer.Stored stream) {keep : Nat} {position offset : Int}
    (enough : keep ≤ buffer.dataQueue.length) (lower : buffer.totalBytesDropped ≤ position)
    (upper : position ≤ stream.length) (offsetLower : 0 ≤ offset)
    (offsetUpper : offset ≤ buffer.allocationLength)
    (span : position + buffer.allocationLength = buffer.totalBytesDropped +
      keep * buffer.allocationLength + offset) :
    { buffer.withoutBack (buffer.dataQueue.length - keep) with
      totalBytesWritten := position
      lastAllocation := (buffer.withoutBack (buffer.dataQueue.length - keep)).dataQueue.getLast?
      lastAllocationOffset := offset }.Stored (stream.take position.toNat) := by
  have droppedLower := stored.droppedLower
  have bytes := stored.block_bytes keep
  have kept : buffer.dataQueue.length - (buffer.dataQueue.length - keep) = keep := by omega
  have length : ((stream.take position.toNat).length : Int) = position := by
    rw [List.length_take]
    omega
  refine ⟨stored.positive, offsetLower, offsetUpper, length.symm, droppedLower, ?_, ?_,
    stored.uniform, ?_, ?_, ?_, ?_⟩
  · simp only [RollingSampleBuffer.withoutBack, length]
    exact lower
  · simp only [RollingSampleBuffer.withoutBack, kept, List.length_take, Nat.min_eq_left enough]
    omega
  · have fewer : position.toNat - buffer.totalBytesDropped.toNat ≤
        keep * buffer.allocationLength.toNat := by omega
    have prior := congrArg (List.take (position.toNat - buffer.totalBytesDropped.toNat)) stored.content
    rw [List.take_take, Nat.min_eq_left (by omega)] at prior
    simp only [RollingSampleBuffer.withoutBack, kept, List.map_take]
    rw [Blocks.flatten_take (stored.uniformBlocks _), List.take_take, List.length_take,
      Nat.min_eq_left (show position.toNat ≤ stream.length by omega), Nat.min_eq_left fewer, prior,
      List.drop_take]
  · intro _
    rfl
  · simp only [RollingSampleBuffer.withoutBack, kept, List.append_assoc]
    have swapped : ((buffer.dataQueue.drop keep).reverse ++ buffer.dataQueue.take keep).Perm
        buffer.dataQueue := by
      calc (buffer.dataQueue.drop keep).reverse ++ buffer.dataQueue.take keep
        _ |>.Perm (buffer.dataQueue.drop keep ++ buffer.dataQueue.take keep) :=
          (List.reverse_perm _).append_right _
        _ |>.Perm (buffer.dataQueue.take keep ++ buffer.dataQueue.drop keep) := List.perm_append_comm
        _ = buffer.dataQueue := List.take_append_drop _ _
    exact (swapped.append_left _).trans stored.ledger
  · simp only [RollingSampleBuffer.withoutBack, kept, List.length_take, Nat.min_eq_left enough,
      stored.count]
    omega

theorem truncate_stored {buffer : RollingSampleBuffer} {stream : Bytes}
    (stored : buffer.Stored stream) {position : Int} (lower : buffer.totalBytesDropped ≤ position)
    (upper : position ≤ stream.length)
    (held : stream.length - buffer.totalBytesDropped < 2147483648) :
    ∃ next, buffer.truncate position = .ok next ∧ next.Stored (stream.take position.toNat) ∧
      Kept buffer next ∧ next.totalBytesDropped = buffer.totalBytesDropped := by
  have positive := stored.positive
  have span := stored.span
  have offsetLower := stored.offsetLower
  have offsetUpper := stored.offsetUpper
  have relative : toInt32 (position - buffer.totalBytesDropped) =
      position - buffer.totalBytesDropped := toInt32_of_range (by omega) (by omega)
  obtain ⟨index, quotient, remainder, below, above⟩ :=
    quotient_bounds (show 0 ≤ position - buffer.totalBytesDropped by omega) positive
  have enough : index ≤ buffer.dataQueue.length := count_le positive (by omega)
  have blocks : (buffer.dataQueue.length : Int) - 1 < 2147483648 := by
    by_cases some : 1 ≤ buffer.dataQueue.length
    · have grows : (buffer.dataQueue.length : Int) - 1 ≤
          (buffer.dataQueue.length - 1) * buffer.allocationLength :=
        le_mul_of_one_le_right (by omega) (by omega)
      rw [Int.sub_mul] at grows
      omega
    · omega
  have narrow : toInt32 (buffer.dataQueue.length - index - 1) = buffer.dataQueue.length - index - 1 :=
    toInt32_of_range (by omega) (by omega)
  unfold truncate releaseUpstreamFrom
  simp only [relative, quotient, remainder, narrow, bind, Except.bind]
  by_cases whole : position - buffer.totalBytesDropped - index * buffer.allocationLength = 0
  · have discards : ((buffer.dataQueue.length : Int) - index - 1 + 1).toNat =
        buffer.dataQueue.length - index := by omega
    have releases := releaseBackBlocks_eq (buffer.dataQueue.length - index)
      { buffer with totalBytesWritten := position } (Nat.sub_le _ _)
    simp only [whole, if_true, discards, releases]
    have kept := stored.keepFront enough lower upper
      (show 0 ≤ buffer.allocationLength by omega) (Int.le_refl _) (by omega)
    exact ⟨_, rfl, kept, ⟨rfl, rfl, rfl⟩, rfl⟩
  · have more : index + 1 ≤ buffer.dataQueue.length := by
      apply count_le positive
      push_cast
      rw [Int.add_mul]
      by_contra short
      have strict : index < buffer.dataQueue.length ∨ index = buffer.dataQueue.length := by omega
      rcases strict with fewer | same
      · have := Int.mul_le_mul_of_nonneg_right (show (index : Int) + 1 ≤ buffer.dataQueue.length by
          omega) (Int.le_of_lt positive)
        rw [Int.add_mul] at this
        omega
      · rw [← same] at span
        omega
    have discards : ((buffer.dataQueue.length : Int) - index - 1).toNat =
        buffer.dataQueue.length - (index + 1) := by omega
    have releases := releaseBackBlocks_eq (buffer.dataQueue.length - (index + 1))
      { buffer with totalBytesWritten := position } (Nat.sub_le _ _)
    simp only [whole, if_false, discards, releases]
    have kept := stored.keepFront more lower upper
      (show 0 ≤ position - buffer.totalBytesDropped - index * buffer.allocationLength by omega)
      (by omega)
      (by push_cast; rw [Int.add_mul]; omega)
    exact ⟨_, rfl, kept, ⟨rfl, rfl, rfl⟩, rfl⟩

theorem Stored.blocks_iff {buffer : RollingSampleBuffer} {stream : Bytes}
    (stored : buffer.Stored stream) (used : 0 < buffer.lastAllocationOffset) :
    buffer.dataQueue ≠ [] ↔ buffer.totalBytesDropped < stream.length := by
  have positive := stored.positive
  have span := stored.span
  have offsetUpper := stored.offsetUpper
  cases blocks : buffer.dataQueue with
  | nil =>
    rw [blocks, List.length_nil] at span
    simp only [ne_eq, not_true_eq_false, false_iff]
    omega
  | cons block rest =>
    rw [blocks, List.length_cons] at span
    push_cast at span
    have whole := Int.mul_nonneg (Int.natCast_nonneg rest.length) (Int.le_of_lt positive)
    rw [Int.add_mul] at span
    simp only [ne_eq, reduceCtorEq, not_false_eq_true, true_iff]
    omega

theorem truncate_offset {buffer next : RollingSampleBuffer} {position : Int}
    (truncates : buffer.truncate position = .ok next) :
    next.lastAllocationOffset =
      if (toInt32 (position - buffer.totalBytesDropped)).tmod buffer.allocationLength = 0 then
        next.allocationLength
      else (toInt32 (position - buffer.totalBytesDropped)).tmod buffer.allocationLength := by
  obtain ⟨released, -, result⟩ := bind_ok truncates
  cases result
  rfl

theorem truncate_blocks {buffer : RollingSampleBuffer} {stream : Bytes}
    (stored : buffer.Stored stream) {position : Int} (lower : buffer.totalBytesDropped ≤ position)
    (upper : position ≤ stream.length)
    (held : stream.length - buffer.totalBytesDropped < 2147483648) :
    ∃ next, buffer.truncate position = .ok next ∧
      (next.dataQueue ≠ [] ↔ buffer.totalBytesDropped < position) := by
  obtain ⟨next, truncates, storedNext, kept, dropped⟩ := truncate_stored stored lower upper held
  have relative : toInt32 (position - buffer.totalBytesDropped) =
      position - buffer.totalBytesDropped := toInt32_of_range (by omega) (by omega)
  have remainder : 0 ≤ (position - buffer.totalBytesDropped).tmod buffer.allocationLength :=
    Int.tmod_nonneg _ (by omega)
  have length : ((stream.take position.toNat).length : Int) = position := by
    have droppedLower := stored.droppedLower
    rw [List.length_take]
    omega
  have used : 0 < next.lastAllocationOffset := by
    rw [truncate_offset truncates, relative]
    have positive := storedNext.positive
    split <;> omega
  have blocks := storedNext.blocks_iff used
  rw [length, dropped] at blocks
  exact ⟨next, truncates, blocks⟩

-- A discard is a truncation that leaves a block for `back()`.
theorem discardUpstreamSamples_eq {buffer next : RollingSampleBuffer} {index : Nat}
    (truncates : { buffer with infoQueue := (buffer.infoQueue.discardUpstreamSamples index).2 }.truncate
      (buffer.infoQueue.discardUpstreamSamples index).1 = .ok next) :
    buffer.discardUpstreamSamples index =
      if next.dataQueue = [] then .error .emptyDataQueue else .ok next := by
  have released : RollingSampleBuffer.releaseUpstreamFrom
      { buffer with
        infoQueue := (buffer.infoQueue.discardUpstreamSamples index).2
        totalBytesWritten := (buffer.infoQueue.discardUpstreamSamples index).1 }
      (buffer.infoQueue.discardUpstreamSamples index).1 = .ok next := truncates
  simp only [discardUpstreamSamples, dropUpstreamFrom, released, bind, Except.bind,
    List.isEmpty_iff]

theorem clear_stored {buffer : RollingSampleBuffer} {stream : Bytes}
    (stored : buffer.Stored stream) :
    ∃ next, buffer.clear = .ok next ∧ next.Stored [] ∧ next.infoQueue = buffer.infoQueue.clear ∧
      next.totalBytesDropped = 0 ∧ next.dataQueue = [] := by
  have positive := stored.positive
  have releases := releaseBackBlocks_eq buffer.dataQueue.length
    { buffer with infoQueue := buffer.infoQueue.clear } (Nat.le_refl _)
  simp only [clear, bind, Except.bind, releases]
  refine ⟨_, rfl, ⟨positive, ?_, ?_, rfl, ?_, ?_, ?_, stored.uniform, ?_, ?_, ?_, ?_⟩, rfl, rfl, ?_⟩
  · exact Int.le_of_lt positive
  · exact Int.le_refl _
  · exact Int.le_refl _
  · exact Int.le_refl _
  · simp [withoutBack]
  · simp [withoutBack]
  · intro partly
    exact absurd partly (Int.lt_irrefl _)
  · simp only [withoutBack, Nat.sub_self, List.drop_zero, List.take_zero, List.append_nil]
    exact ((List.reverse_perm _).append_left _).trans stored.ledger
  · simp [withoutBack, stored.count]
  · simp [withoutBack]

theorem prepareForAppend_stored {buffer : RollingSampleBuffer} {stream : Bytes}
    (stored : buffer.Stored stream) (length : Int) :
    (buffer.prepareForAppend length).2.Stored stream ∧
      Kept buffer (buffer.prepareForAppend length).2 ∧
      (buffer.prepareForAppend length).2.totalBytesDropped = buffer.totalBytesDropped ∧
      (buffer.prepareForAppend length).2.lastAllocationOffset < buffer.allocationLength ∧
      (buffer.prepareForAppend length).1 = min length
        (buffer.allocationLength - (buffer.prepareForAppend length).2.lastAllocationOffset) := by
  have positive := stored.positive
  have span := stored.span
  have droppedLower := stored.droppedLower
  by_cases full : buffer.lastAllocationOffset = buffer.allocationLength
  · simp only [prepareForAppend, full, if_true, Allocator.allocate]
    refine ⟨⟨positive, Int.le_refl _, Int.le_of_lt positive, stored.written, stored.droppedLower,
      stored.droppedUpper, ?_, stored.uniform, ?_, ?_, ?_, ?_⟩, ⟨rfl, rfl, rfl⟩, trivial, positive, trivial⟩
    · simp only [List.length_append, List.length_singleton]
      push_cast
      rw [Int.add_mul]
      omega
    · have flat := Blocks.length_flatten (stored.uniformBlocks buffer.dataQueue)
      have bytes := stored.block_bytes buffer.dataQueue.length
      rw [List.length_map] at flat
      simp only [List.map_append, List.flatten_append]
      rw [List.take_append_of_le_length (by omega)]
      exact stored.content
    · intro _
      simp
    · simp only [List.range_succ, ← List.append_assoc]
      exact stored.ledger.append_right _
    · simp [stored.count]
  · have offsetUpper := stored.offsetUpper
    simp only [prepareForAppend, full, if_false]
    exact ⟨stored, Kept.refl _, trivial, by omega, trivial⟩

theorem Stored.exists_last {buffer : RollingSampleBuffer} {stream : Bytes}
    (stored : buffer.Stored stream) (partly : buffer.lastAllocationOffset < buffer.allocationLength) :
    ∃ initial block, buffer.dataQueue = initial ++ [block] ∧ buffer.lastAllocation = some block ∧
      block ∉ initial := by
  have span := stored.span
  have droppedUpper := stored.droppedUpper
  rcases List.eq_nil_or_concat buffer.dataQueue with none | ⟨initial, block, blocks⟩
  · rw [none, List.length_nil] at span
    omega
  rw [List.concat_eq_append] at blocks
  refine ⟨initial, block, blocks, ?_, ?_⟩
  · rw [stored.last partly, blocks, List.getLast?_append_of_ne_nil _ (by simp), List.getLast?_singleton]
  · have unique := (List.nodup_append.mp stored.nodup).2.1
    rw [blocks] at unique
    intro member
    exact (List.nodup_append.mp unique).2.2 block member block (by simp) rfl

-- The last block holds the stream up to the offset; the bytes go right behind it.
theorem Stored.content_overwrite {buffer : RollingSampleBuffer} {stream bytes : Bytes}
    (stored : buffer.Stored stream) {initial : List BlockId} {block : BlockId}
    (blocks : buffer.dataQueue = initial ++ [block]) (distinct : block ∉ initial)
    (room : bytes.length ≤ buffer.allocationLength - buffer.lastAllocationOffset) :
    (buffer.dataQueue.map (Function.update buffer.allocator.memory block
      (overwrite (buffer.allocator.memory block) buffer.lastAllocationOffset.toNat
        bytes))).flatten.take ((stream ++ bytes).length - buffer.totalBytesDropped.toNat) =
      (stream ++ bytes).drop buffer.totalBytesDropped.toNat := by
  have span := stored.span
  have offsetLower := stored.offsetLower
  have droppedLower := stored.droppedLower
  have droppedUpper := stored.droppedUpper
  have size := stored.uniform block
  have others : initial.map (Function.update buffer.allocator.memory block
      (overwrite (buffer.allocator.memory block) buffer.lastAllocationOffset.toNat bytes)) =
      initial.map buffer.allocator.memory := by
    apply List.map_congr_left
    intro other member
    apply Function.update_of_ne
    rintro rfl
    exact distinct member
  have whole := stored.block_bytes initial.length
  have blockCount : buffer.dataQueue.length = initial.length + 1 := by simp [blocks]
  rw [blockCount] at span
  push_cast at span
  rw [Int.add_mul] at span
  have before : stream.length - buffer.totalBytesDropped.toNat =
      (initial.map buffer.allocator.memory).length * buffer.allocationLength.toNat +
        buffer.lastAllocationOffset.toNat := by
    rw [List.length_map]
    omega
  have after : (stream ++ bytes).length - buffer.totalBytesDropped.toNat =
      (initial.map buffer.allocator.memory).length * buffer.allocationLength.toNat +
        (buffer.lastAllocationOffset.toNat + bytes.length) := by
    rw [List.length_append]
    omega
  have prior := stored.content
  simp only [blocks, List.map_append, List.map_singleton] at prior ⊢
  rw [before, Blocks.take_flatten_concat (stored.uniformBlocks _)] at prior
  rw [after, others, Function.update_self,
    Blocks.take_flatten_concat (stored.uniformBlocks _), take_overwrite (by omega),
    ← List.append_assoc, prior, List.drop_append_of_le_length (by omega)]

theorem copyToLastAllocation_stored {buffer : RollingSampleBuffer} {stream : Bytes}
    (stored : buffer.Stored stream) {src : Bytes} {count : Nat} (available : count ≤ src.length)
    (partly : buffer.lastAllocationOffset < buffer.allocationLength)
    (room : count ≤ buffer.allocationLength - buffer.lastAllocationOffset) :
    ∃ next, buffer.copyToLastAllocation src count = .ok next ∧ Kept buffer next ∧
      next.totalBytesDropped = buffer.totalBytesDropped ∧
      { next with
        lastAllocationOffset := next.lastAllocationOffset + count
        totalBytesWritten := next.totalBytesWritten + count }.Stored (stream ++ src.take count) := by
  have span := stored.span
  have offsetLower := stored.offsetLower
  have droppedUpper := stored.droppedUpper
  obtain ⟨initial, block, blocks, pointer, distinct⟩ := stored.exists_last partly
  have live : block ∉ buffer.allocator.released := stored.mem_live (by simp [blocks])
  have size := stored.uniform block
  have copied : (src.take count).length = count := by rw [List.length_take, Nat.min_eq_left available]
  have inside : buffer.allocator.inBlock block buffer.lastAllocationOffset (src.take count).length := by
    refine ⟨offsetLower, by omega, ?_⟩
    rw [copied]
    omega
  have fits : buffer.lastAllocationOffset.toNat + (src.take count).length ≤
      (buffer.allocator.memory block).length := by
    rw [copied]
    omega
  refine ⟨{ buffer with allocator := { buffer.allocator with
    memory := Function.update buffer.allocator.memory block
      (overwrite (buffer.allocator.memory block) buffer.lastAllocationOffset.toNat
        (src.take count)) } }, ?_, ⟨rfl, rfl, rfl⟩, rfl, ⟨stored.positive, ?_, ?_, ?_,
      stored.droppedLower, ?_, ?_, ?_, stored.content_overwrite blocks distinct (by omega),
      fun _ => stored.last partly, stored.ledger, stored.count⟩⟩
  · have nonneg : ¬ (count : Int) < 0 := by omega
    simp only [copyToLastAllocation, nonneg, if_false, pointer, Allocator.write, live, Int.toNat_natCast,
      if_pos inside, bind, Except.bind]
  · simp only
    omega
  · simp only
    omega
  · simp only [List.length_append, copied, stored.written]
    push_cast
    rfl
  · simp only [List.length_append]
    push_cast
    omega
  · simp only [List.length_append, copied]
    push_cast
    omega
  · intro other
    simp only [Function.update_apply]
    split
    next =>
      rw [length_overwrite fits]
      exact size
    next => exact stored.uniform other

def appendRoom (buffer : RollingSampleBuffer) : Int :=
  if buffer.lastAllocationOffset = buffer.allocationLength then buffer.allocationLength
  else buffer.allocationLength - buffer.lastAllocationOffset

theorem appendDataFixThis_stored {buffer : RollingSampleBuffer} {stream : Bytes}
    (stored : buffer.Stored stream) {src : Bytes} (allowEndOfInput : Bool)
    (nonneg : 0 ≤ toInt32 src.length) :
    ∃ (count : Nat) (next : RollingSampleBuffer),
      buffer.appendDataFixThis src allowEndOfInput = .ok (true, some (count : Int), next) ∧
      next.Stored (stream ++ src.take count) ∧ Kept buffer next ∧
      next.totalBytesDropped = buffer.totalBytesDropped ∧
      (count : Int) = min (toInt32 src.length) buffer.appendRoom := by
  obtain ⟨prepared, keptFirst, dropped, partly, limit⟩ :=
    prepareForAppend_stored stored (toInt32 src.length)
  have offsetLower := prepared.offsetLower
  have sameLength := keptFirst.allocationLength
  have narrower : toInt32 src.length ≤ src.length := toInt32_le (by omega)
  obtain ⟨count, counted⟩ : ∃ count : Nat, (buffer.prepareForAppend (toInt32 src.length)).1 = count :=
    ⟨(buffer.prepareForAppend (toInt32 src.length)).1.toNat, by omega⟩
  obtain ⟨next, copied, keptSecond, droppedNext, storedNext⟩ :=
    copyToLastAllocation_stored prepared (show count ≤ src.length by omega)
      (by rw [sameLength]; exact partly) (by omega)
  refine ⟨count, _, ?_, storedNext, ?_, droppedNext.trans dropped, ?_⟩
  · have notEnd : ¬ (count : Int) = kResultEndOfInput := by
      unfold kResultEndOfInput
      omega
    simp only [appendDataFixThis, counted, copied, notEnd, if_false, bind, Except.bind]
  · exact ⟨keptSecond.1.trans keptFirst.1, keptSecond.2.trans keptFirst.2,
      keptSecond.3.trans keptFirst.3⟩
  · rw [← counted, limit, appendRoom]
    congr 1
    by_cases full : buffer.lastAllocationOffset = buffer.allocationLength <;>
      simp [prepareForAppend, full, Allocator.allocate]

theorem appendDataFixThis_nonneg {buffer next : RollingSampleBuffer} {stream src : Bytes}
    (stored : buffer.Stored stream) {allowEndOfInput result : Bool} {count : Option Int}
    (appends : buffer.appendDataFixThis src allowEndOfInput = .ok (result, count, next)) :
    0 ≤ toInt32 src.length := by
  obtain ⟨prepared, kept, -, partly, limit⟩ := prepareForAppend_stored stored (toInt32 src.length)
  by_contra negative
  have length : (buffer.prepareForAppend (toInt32 src.length)).1 < 0 := by
    have := kept.allocationLength
    omega
  simp only [appendDataFixThis, copyToLastAllocation, length, if_true, bind, Except.bind] at appends
  cases appends

theorem Stored.read_front {buffer : RollingSampleBuffer} {stream : Bytes}
    (stored : buffer.Stored stream) {position length : Int}
    (lower : buffer.totalBytesDropped ≤ position) (positive : 0 < length)
    (upper : position + length ≤ stream.length)
    (inside : position + length ≤ buffer.totalBytesDropped + buffer.allocationLength) :
    ∃ block rest, buffer.dataQueue = block :: rest ∧
      buffer.allocator.read block (position - buffer.totalBytesDropped) length =
        .ok ((stream.drop position.toNat).take length.toNat) := by
  have span := stored.span
  have offsetUpper := stored.offsetUpper
  have droppedLower := stored.droppedLower
  cases blocks : buffer.dataQueue with
  | nil =>
    rw [blocks, List.length_nil] at span
    omega
  | cons block rest =>
    have live : block ∉ buffer.allocator.released := stored.mem_live (by simp [blocks])
    have size := stored.uniform block
    have bounds : buffer.allocator.inBlock block (position - buffer.totalBytesDropped) length :=
      ⟨by omega, by omega, by omega⟩
    have slice := congrArg
      (fun bytes => (bytes.drop (position - buffer.totalBytesDropped).toNat).take length.toNat)
      stored.content
    simp only [List.drop_take, List.take_take, List.drop_drop] at slice
    rw [Nat.min_eq_left (by omega), blocks, List.map_cons, Blocks.slice_head _ _ (by omega),
      show buffer.totalBytesDropped.toNat + (position - buffer.totalBytesDropped).toNat =
        position.toNat by omega] at slice
    refine ⟨block, rest, rfl, ?_⟩
    simp only [Allocator.read, live, if_false, if_pos bounds, slice]

theorem Stored.byte {buffer : RollingSampleBuffer} {stream : Bytes} (stored : buffer.Stored stream)
    {position : Int} (lower : buffer.totalBytesDropped ≤ position) (upper : position < stream.length) :
    ∃ block,
      buffer.dataQueue[((position - buffer.totalBytesDropped) / buffer.allocationLength).toNat]? =
        some block ∧
      (buffer.allocator.memory block)[((position - buffer.totalBytesDropped) %
        buffer.allocationLength).toNat]? = stream[position.toNat]? := by
  have positive := stored.positive
  have span := stored.span
  have offsetUpper := stored.offsetUpper
  have droppedLower := stored.droppedLower
  obtain ⟨index, offset, division, below, whole⟩ : ∃ index offset : Nat,
      ((position - buffer.totalBytesDropped) / buffer.allocationLength = index ∧
        (position - buffer.totalBytesDropped) % buffer.allocationLength = offset) ∧
      offset < buffer.allocationLength ∧
      position - buffer.totalBytesDropped = index * buffer.allocationLength + offset := by
    have relative : 0 ≤ position - buffer.totalBytesDropped := by omega
    refine ⟨((position - buffer.totalBytesDropped) / buffer.allocationLength).toNat,
      ((position - buffer.totalBytesDropped) % buffer.allocationLength).toNat, ?_⟩
    rw [Int.toNat_of_nonneg (Int.ediv_nonneg relative (Int.le_of_lt positive)),
      Int.toNat_of_nonneg (Int.emod_nonneg _ (Int.ne_of_gt positive))]
    exact ⟨⟨rfl, rfl⟩, Int.emod_lt_of_pos _ positive, (Int.ediv_mul_add_emod _ _).symm⟩
  have inside : index < buffer.dataQueue.length := by
    by_contra outside
    have past := Int.mul_le_mul_of_nonneg_right
      (show (buffer.dataQueue.length : Int) ≤ index by omega) (Int.le_of_lt positive)
    omega
  obtain ⟨block, present⟩ : ∃ block, buffer.dataQueue[index]? = some block :=
    ⟨_, List.getElem?_eq_getElem inside⟩
  have bytes := stored.block_bytes index
  have held := congrArg (fun bytes => bytes[(position - buffer.totalBytesDropped).toNat]?) stored.content
  have flat := Blocks.getElem?_flatten (stored.uniformBlocks buffer.dataQueue)
    (show (buffer.dataQueue.map buffer.allocator.memory)[index]? = some (buffer.allocator.memory block)
      by rw [List.getElem?_map, present, Option.map_some])
    (show offset < buffer.allocationLength.toNat by omega)
  simp only [List.getElem?_drop] at held
  rw [List.getElem?_take_of_lt (by omega),
    show (position - buffer.totalBytesDropped).toNat =
      index * buffer.allocationLength.toNat + offset by omega, flat,
    show buffer.totalBytesDropped.toNat + (index * buffer.allocationLength.toNat + offset) =
      position.toNat by omega] at held
  refine ⟨block, ?_, ?_⟩
  · rw [division.1, Int.toNat_natCast]
    exact present
  · rw [division.2, Int.toNat_natCast]
    exact held

-- `ready` is what the sink keeps: the bytes it got so far and the room it has left.
theorem copyBlocks_stored {σ : Type} {write : σ → Bytes → Except Fault σ}
    (ready : σ → Bytes → Int → Prop)
    (accepts : ∀ sink data room piece next, ready sink data room → (piece.length : Int) ≤ room →
      write sink piece = .ok next → ready next (data ++ piece) (room - piece.length))
    {buffer : RollingSampleBuffer} {stream : Bytes} (stored : buffer.Stored stream)
    {position remaining : Int} (k : Int) {rounds : Nat} (sink : σ) (data : Bytes)
    (lower : buffer.totalBytesDropped ≤ position) (nonneg : 0 ≤ remaining)
    (upper : position + remaining ≤ stream.length)
    (held : stream.length - buffer.totalBytesDropped < 2147483648)
    (enough : remaining.toNat ≤ rounds) (start : ready sink data remaining) :
    (∃ fault,
      copyBlocks write rounds (position + k * 4294967296) remaining buffer sink = .error fault ∧
      ∃ sink data room piece, ready sink data room ∧ (piece.length : Int) ≤ room ∧
        write sink piece = .error fault) ∨
    ∃ next final,
      copyBlocks write rounds (position + k * 4294967296) remaining buffer sink = .ok (next, final) ∧
      next.Stored stream ∧ Kept buffer next ∧ buffer.totalBytesDropped ≤ next.totalBytesDropped ∧
      next.totalBytesDropped ≤ position + remaining ∧
      ready final (data ++ (stream.drop position.toNat).take remaining.toNat) 0 := by
  induction rounds generalizing buffer position remaining sink data with
  | zero =>
    have done : remaining = 0 := by omega
    subst done
    refine .inr ⟨buffer, sink, ?_, stored, Kept.refl _, Int.le_refl _, by omega, ?_⟩
    · simp [copyBlocks]
    · simpa using start
  | succ rounds ih =>
    by_cases done : remaining ≤ 0
    · have zero : remaining = 0 := by omega
      subst zero
      refine .inr ⟨buffer, sink, ?_, stored, Kept.refl _, Int.le_refl _, by omega, ?_⟩
      · simp [copyBlocks]
      · simpa using start
    have droppedLower := stored.droppedLower
    obtain ⟨middle, drops, storedMiddle, kept, further, before, after⟩ :=
      dropDownstreamTo_stored stored k lower (by omega) (by omega)
    have relative : toInt32 (position + k * 4294967296 - middle.totalBytesDropped) =
        position - middle.totalBytesDropped := by
      rw [show position + k * 4294967296 - middle.totalBytesDropped =
        position - middle.totalBytesDropped + k * 4294967296 by omega, toInt32_add_period]
      exact toInt32_of_range (by omega) (by omega)
    obtain ⟨toCopy, copies⟩ : ∃ toCopy : Nat, (toCopy : Int) = min remaining
        (middle.allocationLength - (position - middle.totalBytesDropped)) :=
      ⟨(min remaining (middle.allocationLength - (position - middle.totalBytesDropped))).toNat,
        by omega⟩
    obtain ⟨block, rest, blocks, reads⟩ := storedMiddle.read_front before
      (show 0 < (toCopy : Int) by omega) (by omega) (by omega)
    have piece : (((stream.drop position.toNat).take (toCopy : Int).toNat).length : Int) = toCopy := by
      rw [List.length_take, List.length_drop]
      omega
    have fits : (((stream.drop position.toNat).take (toCopy : Int).toNat).length : Int) ≤ remaining :=
      piece.trans_le (by omega)
    have unfolds : copyBlocks write (rounds + 1) (position + k * 4294967296) remaining buffer sink =
        (write sink ((stream.drop position.toNat).take (toCopy : Int).toNat)).bind fun sink =>
          copyBlocks write rounds (position + toCopy + k * 4294967296) (remaining - toCopy) middle
            sink := by
      rw [copyBlocks, if_neg done]
      simp only [drops, relative, blocks, ← copies, reads, bind, Except.bind]
      rw [show position + k * 4294967296 + toCopy = position + toCopy + k * 4294967296 by omega]
    rw [unfolds]
    cases writes : write sink ((stream.drop position.toNat).take (toCopy : Int).toNat) with
    | error fault => exact .inl ⟨fault, rfl, sink, data, remaining, _, start, fits, writes⟩
    | ok written =>
      have readyNext := accepts _ _ _ _ _ start fits writes
      rw [piece] at readyNext
      rcases ih storedMiddle _ _ (show middle.totalBytesDropped ≤ position + toCopy by omega)
        (by omega) (by omega) (by omega) (by omega) readyNext with
        refused | ⟨next, final, copied, storedNext, keptNext, furtherNext, beforeNext, readyFinal⟩
      · exact .inl refused
      · refine .inr ⟨next, final, copied, storedNext, kept.trans keptNext, by omega, by omega, ?_⟩
        have split : (stream.drop position.toNat).take remaining.toNat =
            (stream.drop position.toNat).take toCopy ++
              (stream.drop (position + toCopy).toNat).take (remaining - toCopy).toNat := by
          rw [show remaining.toNat = toCopy + (remaining - toCopy).toNat by omega, List.take_add,
            List.drop_drop, show position.toNat + toCopy = (position + toCopy).toNat by omega]
        rw [split, ← List.append_assoc]
        exact readyFinal

end NDash.Extractor.RollingSampleBuffer

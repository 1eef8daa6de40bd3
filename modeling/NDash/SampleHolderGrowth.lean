import NDash.SampleHolder
import NDash.Shared.Machine

set_option autoImplicit false

namespace NDash

open Machine

inductive SampleHolderOp
  | setDataBuffer (data : Option Bytes) (dataLen : Int)
  | ensureSpaceForWrite (length : Int)
  | write (data : Bytes)
  | clearData

namespace SampleHolder

variable {holder next : SampleHolder}

def writeAll (holder : SampleHolder) : List Bytes → Except Fault (Bool × SampleHolder)
  | [] => .ok (true, holder)
  | piece :: more => do
    let (written, holder) ← holder.write piece
    if written then holder.writeAll more else .ok (false, holder)

def apply (holder : SampleHolder) : SampleHolderOp → Except Fault SampleHolder
  | .setDataBuffer data dataLen => .ok (holder.setDataBuffer data dataLen)
  | .ensureSpaceForWrite length => .ok (holder.ensureSpaceForWrite length).2
  | .write data => (holder.write data).map Prod.snd
  | .clearData => .ok holder.clearData

/-- A buffer that is set has the length it is said to have and room for what counts as written, and a
holder that has no buffer and may not get one is not asked for space. -/
def Legal (holder : SampleHolder) : SampleHolderOp → Prop
  | .setDataBuffer data dataLen => dataLen = ((data.getD []).length : Int) ∧ holder.writtenSize ≤ dataLen
  | .ensureSpaceForWrite length =>
    0 ≤ length ∧ (holder.buffer.isSome = true ∨ holder.bufferReplacementEnabled = true)
  | .write data => data ≠ [] ∨ holder.buffer.isSome = true
  | .clearData => True

def system (bufferReplacementEnabled : Bool) : System SampleHolder SampleHolderOp where
  Start holder := holder = { bufferReplacementEnabled }
  Step holder op next := holder.Legal op ∧ holder.apply op = .ok next

structure Sound (holder : SampleHolder) : Prop where
  nonneg : 0 ≤ holder.writtenSize
  written : holder.writtenSize ≤ holder.bufferLen
  size : holder.bufferLen ≤ ((holder.buffer.getD []).length : Int)

theorem Sound.room (sound : holder.Sound) :
    holder.Room holder.content (holder.bufferLen - holder.writtenSize) := by
  obtain ⟨nonneg, written, size⟩ := sound
  refine ⟨?_, size, ?_, rfl, by omega⟩
  · cases present : holder.buffer with
    | some buffer => exact .inl rfl
    | none =>
      rw [present] at size
      simp only [Option.getD_none, List.length_nil] at size
      right
      omega
  · simp only [content, List.length_take]
    omega

theorem Room.sound {data : Bytes} {room : Int} (ready : holder.Room data room) (nonneg : 0 ≤ room) :
    holder.Sound := by
  obtain ⟨-, size, written, -, enough⟩ := ready
  exact ⟨by omega, by omega, size⟩

theorem write_sound (sound : holder.Sound) (data : Bytes) :
    ∃ written next, holder.write data = .ok (written, next) ∧ next.Sound := by
  by_cases fits : (data.length : Int) ≤ holder.bufferLen - holder.writtenSize
  · obtain ⟨next, writes, room, -⟩ := write_room sound.room fits
    exact ⟨true, next, writes, room.sound (by omega)⟩
  · refine ⟨false, holder, ?_, sound⟩
    simp only [write, ge_iff_le, if_neg fits]

theorem replacement_keeps (old : Bytes) {position capacity : Nat} (inside : position ≤ old.length)
    (room : position ≤ capacity) :
    (overwrite (List.replicate capacity 0) 0 (old.take position)).length = capacity ∧
      (overwrite (List.replicate capacity 0) 0 (old.take position)).take position = old.take position := by
  have copied : (old.take position).length = position := by simp [inside]
  refine ⟨?_, ?_⟩
  · rw [length_overwrite (by simpa [copied] using room), List.length_replicate]
  · have taken : (overwrite (List.replicate capacity 0) 0 (old.take position)).take
        (0 + (old.take position).length) = _ := take_overwrite (Nat.zero_le _)
    rwa [copied, Nat.zero_add, List.take_zero, List.nil_append] at taken

theorem ensureSpaceForWrite_granted (sound : holder.Sound) {length : Int} (nonneg : 0 ≤ length)
    (granted : (holder.ensureSpaceForWrite length).1 = true) :
    ∃ room, length ≤ room ∧ (holder.ensureSpaceForWrite length).2.Room holder.content room := by
  obtain ⟨lower, written, size⟩ := sound
  cases present : holder.buffer with
  | none =>
    simp only [present, Option.getD_none, List.length_nil] at size
    have unwritten : holder.writtenSize = 0 := by omega
    have replaces : holder.bufferReplacementEnabled = true := by
      cases enabled : holder.bufferReplacementEnabled with
      | true => rfl
      | false => simp [ensureSpaceForWrite, present, createReplacementBuffer, enabled] at granted
    refine ⟨length, Int.le_refl _, ?_⟩
    simp only [ensureSpaceForWrite, present, createReplacementBuffer, replaces, if_true]
    refine ⟨by simp, ?_, ?_, ?_, ?_⟩
    · simp [Int.toNat_of_nonneg nonneg]
    · simp [unwritten, content]
    · simp [content, unwritten]
    · simp [unwritten]
  | some old =>
    simp only [present, Option.getD_some] at size
    have inside : holder.writtenSize.toNat ≤ old.length := by omega
    by_cases enough : holder.bufferLen - holder.writtenSize ≥ holder.writtenSize + length
    · have same : (holder.ensureSpaceForWrite length).2 = holder := by
        simp [ensureSpaceForWrite, present, enough]
      rw [same]
      refine ⟨holder.bufferLen - holder.writtenSize, by omega, ?_⟩
      exact Sound.room ⟨lower, written, by simpa [present] using size⟩
    · have replaces : holder.bufferReplacementEnabled = true := by
        cases enabled : holder.bufferReplacementEnabled with
        | true => rfl
        | false =>
          simp [ensureSpaceForWrite, present, enough, createReplacementBuffer, enabled] at granted
      refine ⟨length, Int.le_refl _, ?_⟩
      have copies : ∃ copied : Bytes, copied.length = (holder.writtenSize + length).toNat ∧
          copied.take holder.writtenSize.toNat = holder.content ∧
          (holder.ensureSpaceForWrite length).2 =
            { holder with buffer := some copied, bufferLen := holder.writtenSize + length } := by
        simp only [ensureSpaceForWrite, present, createReplacementBuffer, replaces, if_true,
          if_neg enough]
        by_cases position : holder.writtenSize > 0
        · obtain ⟨size, kept⟩ := replacement_keeps old inside
            (show holder.writtenSize.toNat ≤ (holder.writtenSize + length).toNat by omega)
          exact ⟨_, size, by rw [kept, content, present, Option.getD_some], by simp only [if_pos position]⟩
        · have unwritten : holder.writtenSize = 0 := by omega
          exact ⟨List.replicate _ 0, List.length_replicate, by simp [content, unwritten],
            by simp only [if_neg position]⟩
      obtain ⟨copied, length', kept, grown⟩ := copies
      rw [grown]
      refine ⟨by simp, ?_, ?_, kept, rfl⟩
      · simp only [Option.getD_some, length']
        omega
      · rw [← kept, List.length_take]
        simp only
        omega

theorem ensureSpaceForWrite_refused (length : Int)
    (held : holder.buffer.isSome = true ∨ holder.bufferReplacementEnabled = true)
    (refused : (holder.ensureSpaceForWrite length).1 = false) :
    (holder.ensureSpaceForWrite length).2 = holder := by
  unfold ensureSpaceForWrite at refused ⊢
  cases present : holder.buffer with
  | none =>
    have replaces : holder.bufferReplacementEnabled = true := by simpa [present] using held
    simp [present, createReplacementBuffer, replaces] at refused
  | some old =>
    simp only [present] at refused ⊢
    split
    next enough => rfl
    next short =>
      rw [if_neg short] at refused
      cases replacement : holder.createReplacementBuffer (holder.writtenSize + length) with
      | none => rfl
      | some bytes => simp [replacement] at refused

theorem apply_sound (sound : holder.Sound) {op : SampleHolderOp} (legal : holder.Legal op)
    (applied : holder.apply op = .ok next) : next.Sound := by
  cases op with
  | setDataBuffer data dataLen =>
    cases applied
    obtain ⟨length, written⟩ := legal
    exact ⟨sound.nonneg, written, Int.le_of_eq length⟩
  | ensureSpaceForWrite length =>
    cases applied
    cases granted : (holder.ensureSpaceForWrite length).1 with
    | true =>
      obtain ⟨room, enough, ready⟩ := ensureSpaceForWrite_granted sound legal.1 granted
      exact ready.sound (Int.le_trans legal.1 enough)
    | false =>
      rw [ensureSpaceForWrite_refused length legal.2 granted]
      exact sound
  | write data =>
    obtain ⟨written, result, writes, sound'⟩ := write_sound sound data
    rw [apply, writes] at applied
    cases applied
    exact sound'
  | clearData =>
    cases applied
    exact ⟨Int.le_refl _, Int.le_refl _, Int.natCast_nonneg _⟩

theorem reachable_sound {bufferReplacementEnabled : Bool}
    (reachable : Reachable (system bufferReplacementEnabled) holder) : holder.Sound := by
  refine Reachable.invariant Sound ?_ ?_ reachable
  · rintro _ rfl
    exact ⟨Int.le_refl _, Int.le_refl _, Int.le_refl _⟩
  · rintro holder op next sound ⟨legal, applied⟩
    exact apply_sound sound legal applied

theorem writeAll_room {data : Bytes} {room : Int} (ready : holder.Room data room) (pieces : List Bytes)
    (fits : (pieces.flatten.length : Int) ≤ room) :
    ∃ final, holder.writeAll pieces = .ok (true, final) ∧ final.content = data ++ pieces.flatten := by
  induction pieces generalizing holder data room with
  | nil => exact ⟨holder, rfl, by simpa using ready.bytes⟩
  | cons piece more ih =>
    rw [List.flatten_cons, List.length_append] at fits
    have first : (piece.length : Int) ≤ room := by omega
    obtain ⟨next, writes, ready', -⟩ := write_room ready first
    obtain ⟨final, rest, content⟩ := ih ready' (by omega)
    refine ⟨final, ?_, ?_⟩
    · rw [writeAll, writes]
      exact rest
    · rw [content, List.flatten_cons, List.append_assoc]

def Promises (holder : SampleHolder) : SampleHolderOp → Prop
  | .ensureSpaceForWrite length =>
    ((holder.ensureSpaceForWrite length).1 = true → ∀ pieces : List Bytes,
      (pieces.flatten.length : Int) ≤ length →
        ∃ final, (holder.ensureSpaceForWrite length).2.writeAll pieces = .ok (true, final) ∧
          final.content = holder.content ++ pieces.flatten) ∧
    ((holder.ensureSpaceForWrite length).1 = false → (holder.ensureSpaceForWrite length).2 = holder)
  | .write data =>
    ∃ written next, holder.write data = .ok (written, next) ∧ (written = true → ∃ bytes,
      holder.buffer = some bytes ∧ holder.writtenSize + data.length ≤ (bytes.length : Int))
  | _ => True

theorem sampleHolder_keeps_promises (bufferReplacementEnabled : Bool) (holder : SampleHolder)
    (reachable : Reachable (system bufferReplacementEnabled) holder) (op : SampleHolderOp)
    (legal : holder.Legal op) : holder.Promises op := by
  have sound := reachable_sound reachable
  cases op with
  | ensureSpaceForWrite length =>
    refine ⟨?_, ensureSpaceForWrite_refused length legal.2⟩
    intro granted pieces fits
    obtain ⟨room, enough, ready⟩ := ensureSpaceForWrite_granted sound legal.1 granted
    exact writeAll_room ready pieces (Int.le_trans fits enough)
  | write data =>
    obtain ⟨written, next, writes, -⟩ := write_sound sound data
    refine ⟨written, next, writes, ?_⟩
    rintro rfl
    cases present : holder.buffer with
    | none =>
      have some : data ≠ [] := legal.resolve_right (by simp [present])
      have size := sound.size
      have short := List.length_pos_iff.mpr some
      have nonneg := sound.nonneg
      have full : ¬ holder.bufferLen - holder.writtenSize ≥ (data.length : Int) := by
        simp only [present, Option.getD_none, List.length_nil] at size
        omega
      simp [write, if_neg full] at writes
    | some bytes =>
      refine ⟨bytes, rfl, ?_⟩
      simp only [write, present] at writes
      split at writes
      next =>
        split at writes
        next inside => exact inside.2
        next => cases writes
      next => cases writes
  | setDataBuffer data dataLen => trivial
  | clearData => trivial

def full : SampleHolder where
  buffer := some [1, 2]
  bufferLen := 2
  writtenSize := 2
  bufferReplacementEnabled := true

theorem sampleHolder_keeps_promises_when_full :
    (full.ensureSpaceForWrite 4).1 = true ∧ (full.ensureSpaceForWrite 4).2 ≠ full ∧
      Promises full (.ensureSpaceForWrite 4) := by
  have asked : Reachable (system true) _ := (Reachable.start (system true) rfl).next
    (.ensureSpaceForWrite 2) ⟨⟨by decide, .inr rfl⟩, rfl⟩
  have written : Reachable (system true) full := asked.next (.write [1, 2]) ⟨.inl (by decide), by decide⟩
  exact ⟨by decide, by decide,
    sampleHolder_keeps_promises true _ written (.ensureSpaceForWrite 4) ⟨by decide, .inr rfl⟩⟩

-- A refusal without a buffer leaves the length that was asked for, and the next write trusts it.
theorem sampleHolder_refusal_changes_length :
    ¬ Promises { bufferReplacementEnabled := false } (.ensureSpaceForWrite 4) ∧
      (ensureSpaceForWrite { bufferReplacementEnabled := false } 4).2.write [1, 2, 3, 4] =
        .error .nullPointer := by
  refine ⟨?_, by decide⟩
  rintro ⟨-, refused⟩
  exact absurd (refused (by decide)) (by decide)

end SampleHolder

end NDash

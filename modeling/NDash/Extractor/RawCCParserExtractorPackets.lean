import NDash.Extractor.RawCCReference

set_option autoImplicit false

namespace NDash.Extractor

open Upstream RawCC

namespace RawCC

-- The count of the entries is one byte.
structure Packet where
  pts : BitVec 32
  entries : List (UInt8 × UInt8 × UInt8)
  counted : entries.length < 2 ^ 8
deriving DecidableEq, Repr

def encodeEntries (entries : List (UInt8 × UInt8 × UInt8)) : Bytes :=
  entries.flatMap fun (flags, cc1, cc2) => [flags, cc1, cc2]

def Packet.encode (packet : Packet) : Bytes :=
  [byteAt packet.pts 24, byteAt packet.pts 16, byteAt packet.pts 8, byteAt packet.pts 0,
    UInt8.ofNat packet.entries.length] ++ encodeEntries packet.entries

structure Stream where
  flags : UInt8 × UInt8 × UInt8 := (0, 0, 0)
  packets : List Packet
deriving DecidableEq, Repr

def Stream.header (stream : Stream) : Bytes :=
  [0x52, 0x43, 0x43, 0x01, 0, stream.flags.1, stream.flags.2.1, stream.flags.2.2]

def Stream.encode (stream : Stream) : Bytes := stream.header ++ stream.packets.flatMap Packet.encode

def readEnds : List Bytes → List Nat
  | [] => []
  | chunk :: chunks => chunk.length :: (readEnds chunks).map (chunk.length + ·)

def markedFrom (ends : List Nat) (position : Nat) : List Packet → List (Packet × Bool)
  | [] => []
  | packet :: packets =>
    let behind := position + packet.encode.length
    (packet, decide (behind ∈ ends)) :: markedFrom ends behind packets

def Stream.marked (stream : Stream) (chunks : List Bytes) : List (Packet × Bool) :=
  markedFrom (readEnds chunks) kHeaderSize stream.packets

end RawCC

namespace RawCCParserExtractor

variable (settings : Settings)

def takeEntries (entries : List (UInt8 × UInt8 × UInt8)) (extractor : RawCCParserExtractor) :
    RawCCParserExtractor :=
  entries.foldl (fun extractor (flags, cc1, cc2) =>
    if settings.inWindow extractor.pts then
      extractor.takeEntry settings (settings.entry extractor.pts flags cc1 cc2)
    else extractor.skipEntry) extractor

def absorb (packet : Packet) (extractor : RawCCParserExtractor) : RawCCParserExtractor :=
  ((extractor.enterPacket settings packet.pts packet.entries.length).takeEntries settings
    packet.entries).settled

def absorbMarked (extractor : RawCCParserExtractor) (marked : Packet × Bool) :
    RawCCParserExtractor :=
  let absorbed := extractor.absorb settings marked.1
  if marked.2 then absorbed.flushSample settings else absorbed

def readAll : Stage → Bytes → List Bytes → Stage × Bytes
  | stage, pending, [] => (stage, pending)
  | stage, pending, chunk :: chunks =>
    match (fields settings).parse stage (pending ++ chunk) with
    | (.parsing reached, rest) =>
      readAll (.parsing (reached.atReadEnd settings rest)) rest chunks
    | failed => failed

variable {settings}

def Reported (reported : Option Nat) (after : RawCCParserExtractor) : Stage × Bytes → Prop
  | (.parsing reached, _) => reported = none ∧ after.settled = reached
  | (.failed _, _) => reported ≠ none

theorem feed_reads {extractor : RawCCParserExtractor} {chunks : List Bytes}
    (waiting : Waiting settings extractor) (fits : offered settings extractor chunks = true) :
    ∃ reported after, feed settings extractor chunks = .ok (reported, after) ∧
      Reported reported after (readAll settings extractor.stage extractor.pending chunks) := by
  induction chunks generalizing extractor with
  | nil => exact ⟨none, extractor, rfl, rfl, rfl⟩
  | cons chunk chunks ih =>
    simp only [offered, Bool.and_eq_true, decide_eq_true_eq] at fits
    obtain ⟨result, after, ran, reads⟩ := read_reads waiting fits.1
    rw [ran] at fits
    obtain ⟨rfl, waiting, reached, parsed, flushed⟩ | ⟨rfl, failed⟩ := reads
    · obtain ⟨reported, last, fed, ends⟩ := ih waiting fits.2
      refine ⟨reported.map (· + 1), last, feed_cons ran fed, ?_⟩
      rw [readAll, parsed]
      simp only
      rw [← flushed]
      change Reported _ last (readAll settings after.stage after.pending chunks)
      generalize readAll settings after.stage after.pending chunks = outcome at ends ⊢
      obtain ⟨stage, rest⟩ := outcome
      cases stage with
      | parsing reached => exact ⟨by rw [ends.1]; rfl, ends.2⟩
      | failed written => simpa [Reported] using ends
    · refine ⟨some 0, after, by simp only [feed, ran]; rfl, ?_⟩
      rw [readAll]
      generalize (fields settings).parse extractor.stage (extractor.pending ++ chunk) = parsed
        at failed ⊢
      obtain ⟨stage, rest⟩ := parsed
      subst failed
      exact Option.some_ne_none 0

/-! A block of the input that ends in front of a packet. -/

variable (settings) in
def Refused (parsed : Stage × Bytes) : Prop :=
  (∃ written, parsed.1 = .failed written) ∧ ∃ written entry, settings.accepts written entry = false

def Inside (parsed : Stage × Bytes) : Prop :=
  ∃ reached, parsed.1 = .parsing reached ∧
    (parsed.2 = [] → reached.state ≠ .parsingPtsAndCount)

theorem encodeEntries_cons (flags cc1 cc2 : UInt8) (entries : List (UInt8 × UInt8 × UInt8)) :
    encodeEntries ((flags, cc1, cc2) :: entries) = flags :: cc1 :: cc2 :: encodeEntries entries :=
  rfl

theorem takeEntries_cons (flags cc1 cc2 : UInt8) (entries : List (UInt8 × UInt8 × UInt8))
    (extractor : RawCCParserExtractor) :
    extractor.takeEntries settings ((flags, cc1, cc2) :: entries) =
      (if settings.inWindow extractor.pts then
          extractor.takeEntry settings (settings.entry extractor.pts flags cc1 cc2)
        else extractor.skipEntry).takeEntries settings entries := rfl

theorem InPacket.nextEntry {remaining : Nat} {extractor : RawCCParserExtractor}
    (packet : InPacket settings (remaining + 1) extractor) (flags cc1 cc2 : UInt8) :
    InPacket settings remaining
      (if settings.inWindow extractor.pts then
          extractor.takeEntry settings (settings.entry extractor.pts flags cc1 cc2)
        else extractor.skipEntry) := by
  split
  · exact packet.takeEntry _
  · refine ⟨packet.state, packet.producing, ?_⟩
    show extractor.expectedCount - (extractor.sampleIndex + 1) = remaining
    have := packet.left
    omega

theorem InPacket.takeEntries {entries : List (UInt8 × UInt8 × UInt8)}
    {extractor : RawCCParserExtractor} (packet : InPacket settings entries.length extractor) :
    InPacket settings 0 (extractor.takeEntries settings entries) := by
  induction entries generalizing extractor with
  | nil => exact packet
  | cons entry entries ih => exact ih (packet.nextEntry entry.1 entry.2.1 entry.2.2)

theorem InPacket.parse_entry {remaining : Nat} {extractor : RawCCParserExtractor}
    (packet : InPacket settings (remaining + 1) extractor) (flags cc1 cc2 : UInt8) (rest : Bytes) :
    (fields settings).parse extractor.stage (flags :: cc1 :: cc2 :: rest) =
        (fields settings).parse
          (if settings.inWindow extractor.pts then
              extractor.takeEntry settings (settings.entry extractor.pts flags cc1 cc2)
            else extractor.skipEntry).stage rest ∨
      Refused settings ((fields settings).parse extractor.stage (flags :: cc1 :: cc2 :: rest)) := by
  have phase : extractor.settled.progress.phase = .entries extractor.pts (remaining + 1) := by
    rw [progress_settled, packet.progress_eq]
    rfl
  have advanced : (fields settings).parse extractor.stage ([flags, cc1, cc2] ++ rest) = _ :=
    (fields settings).parse_field [flags, cc1, cc2]
      (show 0 < extractor.settled.progress.phase.width by rw [phase]; exact Nat.zero_lt_succ 2)
      (show 3 = extractor.settled.progress.phase.width by rw [phase]; rfl)
  change (fields settings).parse extractor.stage (flags :: cc1 :: cc2 :: rest) =
    (fields settings).parse (extractor.stage.advance settings [flags, cc1, cc2]) rest at advanced
  rw [packet.stage_entry] at advanced
  by_cases inside : settings.inWindow extractor.pts = true
  · simp only [inside, Bool.not_true, Bool.false_eq_true, if_false, if_true] at advanced ⊢
    by_cases taken : settings.accepts extractor.written
        (settings.entry extractor.pts flags cc1 cc2) = true
    · rw [if_pos taken] at advanced
      exact .inl advanced
    · rw [if_neg taken, parse_stage_failed] at advanced
      rw [advanced]
      exact .inr ⟨⟨_, rfl⟩, _, _, Bool.eq_false_iff.mpr taken⟩
  · simp only [inside, Bool.not_false, if_true] at advanced ⊢
    exact .inl advanced

theorem InPacket.parse_entries {entries : List (UInt8 × UInt8 × UInt8)}
    {extractor : RawCCParserExtractor} (packet : InPacket settings entries.length extractor)
    (rest : Bytes) :
    (fields settings).parse extractor.stage (encodeEntries entries ++ rest) =
        (fields settings).parse (extractor.takeEntries settings entries).stage rest ∨
      Refused settings
        ((fields settings).parse extractor.stage (encodeEntries entries ++ rest)) := by
  induction entries generalizing extractor with
  | nil => exact .inl rfl
  | cons entry entries ih =>
    obtain ⟨flags, cc1, cc2⟩ := entry
    obtain advanced | refused :=
      packet.parse_entry flags cc1 cc2 (encodeEntries entries ++ rest)
    · rw [encodeEntries_cons, takeEntries_cons]
      show (fields settings).parse _ (flags :: cc1 :: cc2 :: (encodeEntries entries ++ rest)) = _ ∨ _
      rw [List.cons_append, List.cons_append, List.cons_append, advanced]
      exact ih (packet.nextEntry flags cc1 cc2)
    · exact .inr refused

theorem InPacket.parse_inside {entries : List (UInt8 × UInt8 × UInt8)}
    {extractor : RawCCParserExtractor} (packet : InPacket settings entries.length extractor)
    {read : Bytes} (begins : read <+: encodeEntries entries)
    (short : read.length < (encodeEntries entries).length) :
    Inside ((fields settings).parse extractor.stage read) ∨
      Refused settings ((fields settings).parse extractor.stage read) := by
  induction entries generalizing extractor read with
  | nil => exact absurd short (Nat.not_lt_zero _)
  | cons entry entries ih =>
    obtain ⟨flags, cc1, cc2⟩ := entry
    by_cases few : read.length < 3
    · have phase : extractor.settled.progress.phase = .entries extractor.pts (entries.length + 1) := by
        rw [progress_settled, packet.progress_eq]
        rfl
      have stopped : (fields settings).parse extractor.stage read = (extractor.stage, read) := by
        apply (fields settings).parse_short
        show _ < extractor.settled.progress.phase.width
        rw [phase]
        exact few
      rw [stopped]
      refine .inl ⟨_, rfl, fun _ => ?_⟩
      rw [packet.settled_open]
      show extractor.state ≠ _
      rw [packet.state]
      nofun
    · rw [encodeEntries_cons] at begins short
      obtain ⟨first, rest₁, rfl, long₁⟩ := split_cons (Nat.le_of_not_lt few)
      obtain ⟨second, rest₂, rfl, long₂⟩ := split_cons long₁
      obtain ⟨third, rest, rfl, -⟩ := split_cons long₂
      simp only [List.cons_prefix_cons] at begins
      obtain ⟨rfl, rfl, rfl, begins⟩ := begins
      obtain advanced | refused := packet.parse_entry first second third rest
      · rw [advanced]
        exact ih (packet.nextEntry first second third) begins (by simpa using short)
      · exact .inr refused

theorem bigEndian_byteAt (value : BitVec 32) :
    bigEndian (byteAt value 24) (byteAt value 16) (byteAt value 8) (byteAt value 0) = value := by
  have bound := value.isLt
  apply BitVec.eq_of_toNat_eq
  simp only [bigEndian, byteAt, BitVec.toNat_ofNat, UInt8.toNat_ofNat', Nat.shiftRight_eq_div_pow]
  omega

theorem count_toNat (packet : Packet) :
    (UInt8.ofNat packet.entries.length).toNat = packet.entries.length := by
  rw [UInt8.toNat_ofNat']
  exact Nat.mod_eq_of_lt packet.counted

structure Between (extractor : RawCCParserExtractor) : Prop where
  state : extractor.state = .parsingPtsAndCount
  buf : extractor.buf = []
  readPos : extractor.readPos = 0

theorem Between.settled_eq {extractor : RawCCParserExtractor} (between : Between extractor) :
    extractor.settled = extractor := by
  rw [settled_outside (by rw [between.state]; nofun), bare, ← between.buf, ← between.readPos]

variable (settings) in
theorem enterPacket_inPacket (packet : Packet) (extractor : RawCCParserExtractor) :
    InPacket settings packet.entries.length
      (extractor.enterPacket settings packet.pts packet.entries.length) :=
  ⟨rfl, rfl, rfl⟩

variable (settings) in
theorem Between.parse_head {extractor : RawCCParserExtractor} (between : Between extractor)
    (packet : Packet) (rest : Bytes) :
    (fields settings).parse (.parsing extractor)
        (byteAt packet.pts 24 :: byteAt packet.pts 16 :: byteAt packet.pts 8 ::
          byteAt packet.pts 0 :: UInt8.ofNat packet.entries.length :: rest) =
      (fields settings).parse
        (extractor.enterPacket settings packet.pts packet.entries.length).stage rest := by
  have phase : extractor.settled.progress.phase = .ptsAndCount := by
    rw [progress_settled]
    simp only [progress, between.state]
  have advanced : (fields settings).parse extractor.stage
      ([byteAt packet.pts 24, byteAt packet.pts 16, byteAt packet.pts 8, byteAt packet.pts 0,
        UInt8.ofNat packet.entries.length] ++ rest) = _ :=
    (fields settings).parse_field _
      (show 0 < extractor.settled.progress.phase.width by rw [phase]; exact Nat.zero_lt_succ 4)
      (show 5 = extractor.settled.progress.phase.width by rw [phase]; rfl)
  change _ = (fields settings).parse (extractor.stage.advance settings _) rest at advanced
  rw [stage_ptsAndCount between.state, bigEndian_byteAt, count_toNat] at advanced
  rw [stage, between.settled_eq] at advanced
  exact advanced

theorem Between.parse_packet {extractor : RawCCParserExtractor} (between : Between extractor)
    (packet : Packet) (rest : Bytes) :
    (fields settings).parse (.parsing extractor) (packet.encode ++ rest) =
        (fields settings).parse (.parsing (extractor.absorb settings packet)) rest ∨
      Refused settings ((fields settings).parse (.parsing extractor) (packet.encode ++ rest)) := by
  have head := between.parse_head settings packet (encodeEntries packet.entries ++ rest)
  have whole : packet.encode ++ rest = byteAt packet.pts 24 :: byteAt packet.pts 16 ::
      byteAt packet.pts 8 :: byteAt packet.pts 0 :: UInt8.ofNat packet.entries.length ::
        (encodeEntries packet.entries ++ rest) := rfl
  rw [whole, head]
  exact (enterPacket_inPacket settings packet extractor).parse_entries rest

theorem Between.parse_inside {extractor : RawCCParserExtractor} (between : Between extractor)
    {packet : Packet} {read : Bytes} (begins : read <+: packet.encode)
    (short : read.length < packet.encode.length) (begun : read ≠ []) :
    Inside ((fields settings).parse (.parsing extractor) read) ∨
      Refused settings ((fields settings).parse (.parsing extractor) read) := by
  by_cases few : read.length < 5
  · have stopped : (fields settings).parse (.parsing extractor) read =
        (.parsing extractor, read) := by
      apply (fields settings).parse_short
      show _ < extractor.progress.phase.width
      simp only [progress, between.state]
      exact few
    rw [stopped]
    exact .inl ⟨extractor, rfl, fun empty => absurd empty begun⟩
  · obtain ⟨a, rest₁, rfl, long₁⟩ := split_cons (Nat.le_of_not_lt few)
    obtain ⟨b, rest₂, rfl, long₂⟩ := split_cons long₁
    obtain ⟨c, rest₃, rfl, long₃⟩ := split_cons long₂
    obtain ⟨d, rest₄, rfl, long₄⟩ := split_cons long₃
    obtain ⟨count, rest, rfl, -⟩ := split_cons long₄
    simp only [Packet.encode, List.cons_append, List.nil_append, List.cons_prefix_cons] at begins
    obtain ⟨rfl, rfl, rfl, rfl, rfl, begins⟩ := begins
    rw [between.parse_head]
    refine (enterPacket_inPacket settings packet extractor).parse_inside begins ?_
    simpa [Packet.encode] using short

theorem mem_readEnds_cons (chunk : Bytes) (chunks : List Bytes) (position : Nat) :
    position ∈ readEnds (chunk :: chunks) ↔
      position = chunk.length ∨ ∃ later ∈ readEnds chunks, position = chunk.length + later := by
  simp [readEnds, eq_comm]

theorem atReadEnd_inside {parsed : Stage × Bytes} {reached : RawCCParserExtractor}
    (inside : Inside parsed) (stage : parsed.1 = .parsing reached) :
    reached.atReadEnd settings parsed.2 = reached := by
  obtain ⟨same, stage', open'⟩ := inside
  rw [stage] at stage'
  cases stage'
  exact if_neg fun ended => open' ended.1 ended.2

variable (settings) in
def Continues (behind : RawCCParserExtractor) (length : Nat) (chunks : List Bytes)
    (outcome : Stage × Bytes) : Prop :=
  ∃ later, outcome = readAll settings
        (.parsing (if length ∈ readEnds chunks then behind.atReadEnd settings [] else behind)) []
        later ∧
    chunks.flatten.drop length = later.flatten ∧
    (∀ position, 0 < position → (position ∈ readEnds later ↔ length + position ∈ readEnds chunks)) ∧
    (length ∈ readEnds chunks ∨ later.head? ≠ some [])

theorem readAll_refused {stage : Stage} {pending chunk : Bytes} {chunks : List Bytes}
    (refused : Refused settings ((fields settings).parse stage (pending ++ chunk))) :
    Refused settings (readAll settings stage pending (chunk :: chunks)) := by
  rw [readAll]
  obtain ⟨⟨written, failed⟩, refuses⟩ := refused
  generalize (fields settings).parse stage (pending ++ chunk) = parsed at failed ⊢
  obtain ⟨reached, rest⟩ := parsed
  subst failed
  exact ⟨⟨written, rfl⟩, refuses⟩

theorem Continues.cons {behind : RawCCParserExtractor} {length : Nat} {chunks : List Bytes}
    {outcome : Stage × Bytes} (continues : Continues settings behind length chunks outcome)
    (positive : 0 < length) (chunk : Bytes) :
    Continues settings behind (chunk.length + length) (chunk :: chunks) outcome := by
  obtain ⟨later, same, left, ends, flushed⟩ := continues
  have shifted : ∀ position, 0 < position →
      (chunk.length + position ∈ readEnds (chunk :: chunks) ↔ position ∈ readEnds chunks) := by
    intro position positive
    rw [mem_readEnds_cons]
    constructor
    · rintro (equal | ⟨later, mem, equal⟩)
      · omega
      · rwa [show position = later by omega]
    · exact fun mem => .inr ⟨position, mem, rfl⟩
  refine ⟨later, ?_, ?_, fun position above => ?_, ?_⟩
  · simp only [shifted length positive]
    exact same
  · rw [List.flatten_cons, List.drop_append]
    simp [left]
  · rw [ends position above, Nat.add_assoc, shifted _ (by omega)]
  · rw [shifted length positive]
    exact flushed

theorem parse_nil (stage : Stage) : (fields settings).parse stage [] = (stage, []) :=
  (fields settings).parse_stop ((fields settings).step_nil stage)

theorem readAll_cons {stage : Stage} {pending chunk rest : Bytes} {reached : RawCCParserExtractor}
    (chunks : List Bytes)
    (parsed : (fields settings).parse stage (pending ++ chunk) = (.parsing reached, rest)) :
    readAll settings stage pending (chunk :: chunks) =
      readAll settings (.parsing (reached.atReadEnd settings rest)) rest chunks := by
  rw [readAll, parsed]

theorem readAll_crossing {stage : Stage} {behind : RawCCParserExtractor} {pending last first : Bytes}
    (chunks : List Bytes)
    (parsed : (fields settings).parse stage (pending ++ (last ++ first)) =
      (fields settings).parse (.parsing behind) first) :
    Continues settings behind last.length ((last ++ first) :: chunks)
      (readAll settings stage pending ((last ++ first) :: chunks)) := by
  cases first with
  | nil =>
    rw [List.append_nil] at parsed ⊢
    rw [parse_nil] at parsed
    have ended : last.length ∈ readEnds (last :: chunks) := (mem_readEnds_cons _ _ _).mpr (.inl rfl)
    refine ⟨chunks, ?_, ?_, fun position above => ?_, .inl ended⟩
    · rw [readAll_cons chunks parsed, if_pos ended]
    · simp
    · rw [mem_readEnds_cons]
      constructor
      · exact fun mem => .inr ⟨position, mem, rfl⟩
      · rintro (equal | ⟨later, mem, equal⟩)
        · omega
        · rwa [show position = later by omega]
  | cons byte first =>
    have unended : last.length ∉ readEnds ((last ++ byte :: first) :: chunks) := by
      rw [mem_readEnds_cons, List.length_append, List.length_cons]
      rintro (equal | ⟨later, -, equal⟩) <;> omega
    refine ⟨(byte :: first) :: chunks, ?_, ?_, fun position above => ?_, .inr nofun⟩
    · rw [if_neg unended, readAll, readAll, parsed]
      rfl
    · simp
    · rw [mem_readEnds_cons, mem_readEnds_cons, List.length_append]
      constructor
      · rintro (rfl | ⟨later, mem, rfl⟩)
        · exact .inl rfl
        · exact .inr ⟨later, mem, by omega⟩
      · rintro (equal | ⟨later, mem, equal⟩)
        · exact .inl (by omega)
        · exact .inr ⟨later, mem, by omega⟩

theorem readAll_block {start behind : RawCCParserExtractor} {block : Bytes}
    (inside : ∀ read, read <+: block → read.length < block.length → read ≠ [] →
      Inside ((fields settings).parse (.parsing start) read) ∨
        Refused settings ((fields settings).parse (.parsing start) read))
    (passes : ∀ rest, (fields settings).parse (.parsing start) (block ++ rest) =
        (fields settings).parse (.parsing behind) rest ∨
      Refused settings ((fields settings).parse (.parsing start) (block ++ rest)))
    {chunks : List Bytes} {read more : Bytes} (delivered : read ++ chunks.flatten = block ++ more)
    (short : read.length < block.length)
    (begun : read = [] → start.atReadEnd settings [] = start ∨ chunks.head? ≠ some []) :
    Continues settings behind (block.length - read.length) chunks
        (readAll settings ((fields settings).parse (.parsing start) read).1
          ((fields settings).parse (.parsing start) read).2 chunks) ∨
      Refused settings (readAll settings ((fields settings).parse (.parsing start) read).1
          ((fields settings).parse (.parsing start) read).2 chunks) := by
  induction chunks generalizing read with
  | nil =>
    have lengths := congrArg List.length delivered
    simp only [List.flatten_nil, List.append_nil, List.length_append] at lengths
    omega
  | cons chunk chunks ih =>
    have delivered' : (read ++ chunk) ++ chunks.flatten = block ++ more := by
      rw [List.append_assoc]
      exact delivered
    by_cases within : (read ++ chunk).length < block.length
    · -- The read ends inside the block, where it flushes nothing.
      have begins : read ++ chunk <+: block := by
        have both : read ++ chunk <+: block ++ more := ⟨_, delivered'⟩
        exact List.prefix_of_prefix_length_le both (List.prefix_append block more) within.le
      have total : block.length - read.length =
          chunk.length + (block.length - (read ++ chunk).length) := by
        rw [List.length_append] at within ⊢
        omega
      have goesOn {reached : RawCCParserExtractor} {rest : Bytes}
          (parsed : (fields settings).parse (.parsing start) (read ++ chunk) =
            (.parsing reached, rest))
          (unflushed : reached.atReadEnd settings rest = reached)
          (begun' : read ++ chunk = [] → start.atReadEnd settings [] = start) :
          Continues settings behind (block.length - read.length) (chunk :: chunks)
              (readAll settings ((fields settings).parse (.parsing start) read).1
                ((fields settings).parse (.parsing start) read).2 (chunk :: chunks)) ∨
            Refused settings (readAll settings ((fields settings).parse (.parsing start) read).1
              ((fields settings).parse (.parsing start) read).2 (chunk :: chunks)) := by
        have again := ih delivered' within fun empty => .inl (begun' empty)
        rw [parsed] at again
        rw [(fields settings).parse_append] at parsed
        rw [readAll_cons chunks parsed, unflushed, total]
        exact again.imp (fun continues => continues.cons (by omega) chunk) id
      by_cases nothing : read ++ chunk = []
      · obtain ⟨rfl, rfl⟩ := List.append_eq_nil_iff.mp nothing
        have unflushed : start.atReadEnd settings [] = start :=
          (begun rfl).resolve_right fun first => first rfl
        exact goesOn (parse_nil (.parsing start)) unflushed fun _ => unflushed
      · rcases inside _ begins within nothing with within | refused
        · obtain ⟨reached, stage, -⟩ := id within
          exact goesOn (Prod.ext stage rfl) (atReadEnd_inside within stage)
            fun empty => absurd empty nothing
        · rw [(fields settings).parse_append] at refused
          exact .inr (readAll_refused refused)
    · -- The chunk holds the last byte of the block.
      have long : block.length ≤ (read ++ chunk).length := Nat.le_of_not_lt within
      obtain ⟨last, rfl⟩ : read <+: block := by
        have both : read <+: block ++ more := ⟨_, delivered⟩
        exact List.prefix_of_prefix_length_le both (List.prefix_append block more) short.le
      obtain ⟨first, rfl⟩ : last <+: chunk := by
        have both : read ++ last <+: read ++ chunk :=
          List.prefix_of_prefix_length_le (List.prefix_append _ more) ⟨_, delivered'⟩ long
        exact (List.prefix_append_right_inj read).mp both
      have width : (read ++ last).length - read.length = last.length := by
        rw [List.length_append]
        omega
      rw [width]
      rcases passes first with parsed | refused
      · rw [List.append_assoc, (fields settings).parse_append] at parsed
        exact .inl (readAll_crossing chunks parsed)
      · rw [List.append_assoc, (fields settings).parse_append] at refused
        exact .inr (readAll_refused refused)

theorem readAll_over {start behind : RawCCParserExtractor} {block more : Bytes}
    (inside : ∀ read, read <+: block → read.length < block.length → read ≠ [] →
      Inside ((fields settings).parse (.parsing start) read) ∨
        Refused settings ((fields settings).parse (.parsing start) read))
    (passes : ∀ rest, (fields settings).parse (.parsing start) (block ++ rest) =
        (fields settings).parse (.parsing behind) rest ∨
      Refused settings ((fields settings).parse (.parsing start) (block ++ rest)))
    {chunks : List Bytes} (delivered : chunks.flatten = block ++ more) (positive : 0 < block.length)
    (begun : start.atReadEnd settings [] = start ∨ chunks.head? ≠ some []) :
    Continues settings behind block.length chunks (readAll settings (.parsing start) [] chunks) ∨
      Refused settings (readAll settings (.parsing start) [] chunks) := by
  have crossed := readAll_block inside passes (show [] ++ chunks.flatten = _ from delivered) positive
    fun _ => begun
  rw [parse_nil] at crossed
  exact crossed

theorem readAll_nothing {extractor : RawCCParserExtractor} {chunks : List Bytes}
    (unflushed : extractor.atReadEnd settings [] = extractor) (nothing : chunks.flatten = []) :
    readAll settings (.parsing extractor) [] chunks = (.parsing extractor, []) := by
  induction chunks with
  | nil => rfl
  | cons chunk chunks ih =>
    obtain ⟨rfl, rest⟩ := List.append_eq_nil_iff.mp nothing
    rw [readAll_cons chunks (parse_nil (.parsing extractor)), unflushed]
    exact ih rest

theorem Between.atReadEnd_eq {extractor : RawCCParserExtractor} (between : Between extractor) :
    extractor.atReadEnd settings [] = extractor.flushSample settings :=
  if_pos ⟨rfl, between.state⟩

theorem Between.flushSample {extractor : RawCCParserExtractor} (between : Between extractor) :
    Between (extractor.flushSample settings) := by
  unfold RawCCParserExtractor.flushSample
  split
  · exact ⟨between.state, between.buf, between.readPos⟩
  · exact between

variable (settings) in
theorem absorb_between (packet : Packet) (extractor : RawCCParserExtractor) :
    Between (extractor.absorb settings packet) := by
  have entered := (enterPacket_inPacket settings packet extractor).takeEntries
  rw [absorb, entered.settled_over]
  exact ⟨rfl, rfl, rfl⟩

theorem absorbMarked_between (marked : Packet × Bool) (extractor : RawCCParserExtractor) :
    Between (extractor.absorbMarked settings marked) := by
  have between := absorb_between settings marked.1 extractor
  simp only [absorbMarked]
  split
  · exact between.flushSample
  · exact between

theorem Between.readAll_packets {extractor : RawCCParserExtractor} (between : Between extractor)
    {packets : List Packet} {chunks : List Bytes} {ends : List Nat} {position : Nat}
    (delivered : chunks.flatten = packets.flatMap Packet.encode)
    (same : ∀ later, 0 < later → (later ∈ readEnds chunks ↔ position + later ∈ ends))
    (begun : extractor.atReadEnd settings [] = extractor ∨ chunks.head? ≠ some []) :
    readAll settings (.parsing extractor) [] chunks =
        (.parsing ((markedFrom ends position packets).foldl (absorbMarked settings) extractor), []) ∨
      Refused settings (readAll settings (.parsing extractor) [] chunks) := by
  induction packets generalizing extractor chunks position with
  | nil =>
    cases chunks with
    | nil => exact .inl rfl
    | cons chunk chunks =>
      obtain ⟨rfl, -⟩ := List.append_eq_nil_iff.mp delivered
      exact .inl (readAll_nothing (begun.resolve_right fun first => first rfl) delivered)
  | cons packet packets ih =>
    have positive : 0 < packet.encode.length := Nat.zero_lt_succ _
    have crossed := readAll_over
      (fun _ begins short begun => between.parse_inside begins short begun)
      (between.parse_packet packet) delivered positive begun
    rcases crossed with ⟨later, outcome, left, ends', flushed⟩ | refused
    · have next : (if packet.encode.length ∈ readEnds chunks then
            (extractor.absorb settings packet).atReadEnd settings []
          else extractor.absorb settings packet) =
          extractor.absorbMarked settings
            (packet, decide (position + packet.encode.length ∈ ends)) := by
        simp only [absorbMarked, same _ positive, (absorb_between settings packet extractor).atReadEnd_eq,
          decide_eq_true_eq]
      rw [next] at outcome
      simp only [outcome]
      refine ih (absorbMarked_between _ _) ?_ (fun position' above => ?_) ?_
      · rw [← left, delivered, List.flatMap_cons, List.drop_left]
      · rw [ends' position' above, same _ (by omega), Nat.add_assoc]
      · refine flushed.imp_left fun ended => ?_
        rw [(absorbMarked_between _ _).atReadEnd_eq]
        have marked : decide (position + packet.encode.length ∈ ends) = true :=
          decide_eq_true ((same _ positive).mp ended)
        simp only [absorbMarked, marked, if_true, flushSample_flushSample]
    · exact .inr refused

def started : RawCCParserExtractor := { state := .parsingPtsAndCount }

theorem parse_stream_header (stream : Stream) (rest : Bytes) :
    (fields settings).parse (.parsing {}) (stream.header ++ rest) =
      (fields settings).parse (.parsing started) rest :=
  (fields settings).parse_field stream.header (Nat.zero_lt_succ 7) rfl

variable (settings) in
theorem parse_inside_header (stream : Stream) (read : Bytes) (_ : read <+: stream.header)
    (short : read.length < stream.header.length) (_ : read ≠ []) :
    Inside ((fields settings).parse (.parsing {}) read) ∨
      Refused settings ((fields settings).parse (.parsing {}) read) := by
  rw [(fields settings).parse_short short]
  exact .inl ⟨{}, rfl, nofun⟩

/-- A stream delivered in any chunks is absorbed packet by packet, with a flush wherever a read ends
behind a packet; only an output that refuses an entry makes a read report an error. -/
theorem feed_stream (settings : Settings) (stream : Stream) (chunks : List Bytes)
    (delivered : chunks.flatten = stream.encode) (fits : offered settings {} chunks = true) :
    ∃ reported after, feed settings {} chunks = .ok (reported, after) ∧
      ((∀ written entry, settings.accepts written entry = true) → reported = none) ∧
      (reported = none →
        after.settled = (stream.marked chunks).foldl (absorbMarked settings) started) := by
  obtain ⟨reported, after, fed, ends⟩ := feed_reads waiting_initial fits
  refine ⟨reported, after, fed, ?_⟩
  have outcome : readAll settings (.parsing {}) [] chunks =
        (.parsing ((stream.marked chunks).foldl (absorbMarked settings) started), []) ∨
      Refused settings (readAll settings (.parsing {}) [] chunks) := by
    have crossed := readAll_over (parse_inside_header settings stream)
      (fun rest => .inl (parse_stream_header stream rest)) delivered (Nat.zero_lt_succ 7) (.inl rfl)
    rcases crossed with ⟨later, outcome, left, ends', -⟩ | refused
    · have unflushed : started.atReadEnd settings [] = started := rfl
      rw [unflushed, ite_self] at outcome
      rw [outcome]
      refine (show Between started from ⟨rfl, rfl, rfl⟩).readAll_packets ?_ ends' (.inl unflushed)
      rw [← left, delivered, Stream.encode, List.drop_left]
    · exact .inr refused
  change Reported reported after (readAll settings (.parsing {}) [] chunks) at ends
  rcases outcome with reached | ⟨⟨written, failed⟩, rejected, entry, refuses⟩
  · rw [reached] at ends
    exact ⟨fun _ => ends.1, fun _ => ends.2⟩
  · constructor
    · intro accepting
      rw [accepting] at refuses
      cases refuses
    · intro silent
      generalize readAll settings (.parsing {}) [] chunks = outcome at ends failed
      obtain ⟨stage, rest⟩ := outcome
      subst failed
      exact absurd silent ends

end RawCCParserExtractor

end NDash.Extractor

import NDash.Extractor.RawCCParserExtractor
import NDash.Shared.Incremental

set_option autoImplicit false

namespace NDash.Extractor

open Upstream RawCC

namespace RawCC

def bigEndian (first second third fourth : UInt8) : BitVec 32 :=
  BitVec.ofNat 32
    (first.toNat * 2 ^ 24 + second.toNat * 2 ^ 16 + third.toNat * 2 ^ 8 + fourth.toNat)

theorem shifted_or {low bits : Nat} (fits : low < 2 ^ bits) (high : Nat) :
    high * 2 ^ bits ||| low = high * 2 ^ bits + low := by
  rw [Nat.mul_comm, Nat.two_pow_add_eq_or_of_lt fits]

theorem bigEndian_eq (first second third fourth : UInt8) :
    first.toBitVec.setWidth 32 <<< 24 ||| second.toBitVec.setWidth 32 <<< 16 |||
      third.toBitVec.setWidth 32 <<< 8 ||| fourth.toBitVec.setWidth 32 =
        bigEndian first second third fourth := by
  have bound₁ := first.toNat_lt
  have bound₂ := second.toNat_lt
  have bound₃ := third.toNat_lt
  have bound₄ := fourth.toNat_lt
  apply BitVec.eq_of_toNat_eq
  simp only [BitVec.toNat_or, BitVec.toNat_shiftLeft, BitVec.toNat_setWidth, UInt8.toNat_toBitVec,
    bigEndian, BitVec.toNat_ofNat, Nat.shiftLeft_eq]
  generalize first.toNat = w at *
  generalize second.toNat = x at *
  generalize third.toNat = y at *
  generalize fourth.toNat = z at *
  rw [Nat.mod_eq_of_lt (show w < 2 ^ 32 by omega), Nat.mod_eq_of_lt (show x < 2 ^ 32 by omega),
    Nat.mod_eq_of_lt (show y < 2 ^ 32 by omega), Nat.mod_eq_of_lt (show z < 2 ^ 32 by omega),
    Nat.mod_eq_of_lt (show w * 2 ^ 24 < 2 ^ 32 by omega),
    Nat.mod_eq_of_lt (show x * 2 ^ 16 < 2 ^ 32 by omega),
    Nat.mod_eq_of_lt (show y * 2 ^ 8 < 2 ^ 32 by omega),
    Nat.mod_eq_of_lt (show w * 2 ^ 24 + x * 2 ^ 16 + y * 2 ^ 8 + z < 2 ^ 32 by omega),
    Nat.or_assoc, Nat.or_assoc, shifted_or bound₄ y,
    shifted_or (show y * 2 ^ 8 + z < 2 ^ 16 by omega),
    shifted_or (show x * 2 ^ 16 + (y * 2 ^ 8 + z) < 2 ^ 24 by omega)]
  omega

inductive Phase
  | header
  | ptsAndCount
  | entries (pts : BitVec 32) (remaining : Nat)
  | failed
deriving DecidableEq, Repr

structure Progress where
  phase : Phase
  written : List Bytes
deriving DecidableEq, Repr

def Phase.behind (pts : BitVec 32) (remaining : Nat) : Phase :=
  if remaining = 0 then .ptsAndCount else .entries pts remaining

def Phase.width : Phase → Nat
  | .header => 8
  | .ptsAndCount => 5
  | .entries _ _ => 3
  | .failed => 0

end RawCC

namespace RawCCParserExtractor

variable (settings : Settings)

def pending (extractor : RawCCParserExtractor) : Bytes := extractor.buf.drop extractor.readPos

def progress (extractor : RawCCParserExtractor) : Progress where
  phase :=
    match extractor.state with
    | .parsingHeader => .header
    | .parsingPtsAndCount => .ptsAndCount
    | .parsingEntries => .behind extractor.pts (extractor.expectedCount - extractor.sampleIndex)
  written := extractor.written

theorem available_eq (extractor : RawCCParserExtractor) :
    extractor.available = extractor.pending.length := by
  rw [available, pending, List.length_drop]

def skip (extractor : RawCCParserExtractor) (count : Nat) : RawCCParserExtractor :=
  { extractor with readPos := extractor.readPos + count }

theorem pending_skip {extractor : RawCCParserExtractor} {rest : Bytes} (taken : Bytes)
    (ahead : extractor.pending = taken ++ rest) :
    extractor.buf.drop (extractor.readPos + taken.length) = rest := by
  rw [← List.drop_drop]
  show extractor.pending.drop taken.length = rest
  rw [ahead, List.drop_left]

theorem readByte_pending {extractor : RawCCParserExtractor} {byte : UInt8} {rest : Bytes}
    (ahead : extractor.pending = byte :: rest) :
    extractor.readByte = (byte, extractor.skip 1) ∧ (extractor.skip 1).pending = rest := by
  unfold pending at ahead
  have found : extractor.buf[extractor.readPos]? = some byte := by
    rw [← List.head?_drop, ahead]
    rfl
  exact ⟨by rw [readByte, found]; rfl, pending_skip [byte] ahead⟩

theorem readInt_pending {extractor : RawCCParserExtractor} {first second third fourth : UInt8}
    {rest : Bytes} (ahead : extractor.pending = first :: second :: third :: fourth :: rest) :
    extractor.readInt = (bigEndian first second third fourth, extractor.skip 4) ∧
      (extractor.skip 4).pending = rest := by
  obtain ⟨read₁, ahead₁⟩ := readByte_pending ahead
  obtain ⟨read₂, ahead₂⟩ := readByte_pending ahead₁
  obtain ⟨read₃, ahead₃⟩ := readByte_pending ahead₂
  obtain ⟨read₄, ahead₄⟩ := readByte_pending ahead₃
  refine ⟨?_, ahead₄⟩
  simp only [readInt, read₁, read₂, read₃, read₄, bigEndian_eq]
  rfl

structure InPacket (remaining : Nat) (extractor : RawCCParserExtractor) : Prop where
  state : extractor.state = .parsingEntries
  producing : extractor.producingToQueue = settings.inWindow extractor.pts
  left : extractor.expectedCount - extractor.sampleIndex = remaining

def Ready (extractor : RawCCParserExtractor) : Prop :=
  extractor.state = .parsingEntries → ∃ remaining, InPacket settings (remaining + 1) extractor

structure Rested (extractor : RawCCParserExtractor) : Prop where
  unwritten : extractor.state = .parsingHeader → extractor.totalWritten = 0
  flushed : extractor.pending = [] → extractor.state = .parsingPtsAndCount →
    extractor.flushSample settings = extractor

structure Waiting (extractor : RawCCParserExtractor) : Prop where
  ready : Ready settings extractor
  rested : Rested settings extractor
  short : extractor.pending.length < extractor.progress.phase.width

/-! What the extractor makes of one field, apart from its buffer. -/

def enterPacket (pts : BitVec 32) (count : Nat) (extractor : RawCCParserExtractor) :
    RawCCParserExtractor :=
  { extractor with
    pts
    producingToQueue := settings.inWindow pts
    samplePts :=
      if extractor.totalWritten = 0 then settings.scaleToUs pts else extractor.samplePts
    expectedCount := count
    sampleIndex := 0
    state := .parsingEntries }

def skipEntry (extractor : RawCCParserExtractor) : RawCCParserExtractor :=
  { extractor with sampleIndex := extractor.sampleIndex + 1 }

def addEntry (entry : Bytes) (extractor : RawCCParserExtractor) : RawCCParserExtractor :=
  { extractor with
    written := extractor.written ++ [entry]
    sampleIndex := extractor.sampleIndex + 1
    totalWritten := extractor.totalWritten + 1 }

def takeEntry (entry : Bytes) (extractor : RawCCParserExtractor) : RawCCParserExtractor :=
  let extractor := extractor.addEntry entry
  if extractor.totalWritten > kMaxEntriesPerSample then extractor.flushSample settings
  else extractor

def leavePacket (extractor : RawCCParserExtractor) : RawCCParserExtractor :=
  { extractor with
    expectedCount := 0
    sampleIndex := 0
    state := .parsingPtsAndCount }

def bare (extractor : RawCCParserExtractor) : RawCCParserExtractor :=
  { extractor with buf := [], readPos := 0 }

def settled (extractor : RawCCParserExtractor) : RawCCParserExtractor :=
  if extractor.state = .parsingEntries ∧ extractor.expectedCount - extractor.sampleIndex = 0 then
    extractor.bare.leavePacket
  else extractor.bare

end RawCCParserExtractor

inductive RawCC.Stage
  | parsing (extractor : RawCCParserExtractor)
  | failed (written : List Bytes)
deriving DecidableEq, Repr

namespace RawCC

variable (settings : Settings)

def Stage.progress : Stage → Progress
  | .parsing extractor => extractor.progress
  | .failed written => ⟨.failed, written⟩

def Stage.advance (stage : Stage) (field : Bytes) : Stage :=
  match stage with
  | .failed written => .failed written
  | .parsing extractor =>
    match extractor.progress.phase, field with
    | .header, a :: b :: c :: d :: version :: _ =>
      if bigEndian a b c d = kHeader ∧ version = 0 then
        .parsing { extractor with version, state := .parsingPtsAndCount }
      else .failed extractor.written
    | .ptsAndCount, a :: b :: c :: d :: count :: _ =>
      .parsing (extractor.enterPacket settings (bigEndian a b c d) count.toNat).settled
    | .entries pts _, flags :: cc1 :: cc2 :: _ =>
      let entry := settings.entry pts flags cc1 cc2
      if !settings.inWindow pts then .parsing extractor.skipEntry.settled
      else if settings.accepts extractor.written entry then
        .parsing (extractor.takeEntry settings entry).settled
      else .failed extractor.written
    | _, _ => .parsing extractor

def fields : Incremental.Parser UInt8 Stage where
  width stage := stage.progress.phase.width
  advance := Stage.advance settings

end RawCC

namespace RawCCParserExtractor

variable (settings : Settings)

def stage (extractor : RawCCParserExtractor) : Stage := .parsing extractor.settled

/-- The extractor takes what the parser of the fields takes from the same bytes. Before it proceeds,
to a state with `post`, that is at least `consumed` of them. -/
def Follows (consumed : Nat) (post : RawCCParserExtractor → Prop) (before : RawCCParserExtractor) :
    Flow × RawCCParserExtractor → Prop
  | (.proceed, after) =>
    (fields settings).parse before.stage before.pending =
        (fields settings).parse after.stage after.pending ∧
      after.pending.length + consumed ≤ before.pending.length ∧ post after
  | (.wait, after) =>
    (fields settings).parse before.stage before.pending = (after.stage, after.pending) ∧
      Waiting settings after
  | (.fail, after) =>
    ((fields settings).parse before.stage before.pending).1 = .failed after.written

variable {settings} {post : RawCCParserExtractor → Prop}

theorem ready_of_state {extractor : RawCCParserExtractor}
    (outside : extractor.state ≠ .parsingEntries) : Ready settings extractor :=
  fun state => absurd state outside

theorem Follows.weaken {more fewer : Nat} {before : RawCCParserExtractor}
    {result : Flow × RawCCParserExtractor} (follows : Follows settings more post before result)
    (fewer_le : fewer ≤ more) : Follows settings fewer post before result := by
  obtain ⟨flow, after⟩ := result
  cases flow with
  | proceed =>
    obtain ⟨same, used, holds⟩ := follows
    exact ⟨same, by omega, holds⟩
  | wait => exact follows
  | fail => exact follows

theorem Follows.before {consumed : Nat} {first second : RawCCParserExtractor}
    {result : Flow × RawCCParserExtractor} (count : Nat)
    (same : (fields settings).parse first.stage first.pending =
      (fields settings).parse second.stage second.pending)
    (used : second.pending.length + count ≤ first.pending.length)
    (follows : Follows settings consumed post second result) :
    Follows settings (count + consumed) post first result := by
  obtain ⟨flow, after⟩ := result
  cases flow with
  | proceed =>
    obtain ⟨parsed, shorter, holds⟩ := follows
    exact ⟨same.trans parsed, by omega, holds⟩
  | wait => exact ⟨same.trans follows.1, follows.2⟩
  | fail => exact (congrArg Prod.fst same).trans follows

theorem Follows.andThen {first second : Nat} {middle : RawCCParserExtractor → Prop}
    {before : RawCCParserExtractor} {result : Flow × RawCCParserExtractor}
    {next : RawCCParserExtractor → Flow × RawCCParserExtractor}
    (follows : Follows settings first middle before result)
    (continues : ∀ {after}, middle after → Follows settings second post after (next after)) :
    Follows settings (first + second) post before (andThen result next) := by
  obtain ⟨flow, after⟩ := result
  cases flow with
  | proceed =>
    obtain ⟨same, used, holds⟩ := follows
    exact (continues holds).before first same used
  | wait => exact follows
  | fail => exact follows

theorem split_cons {count : Nat} {bytes : Bytes} (long : count + 1 ≤ bytes.length) :
    ∃ byte rest, bytes = byte :: rest ∧ count ≤ rest.length := by
  cases bytes with
  | nil => exact absurd long (Nat.not_succ_le_zero count)
  | cons byte rest => exact ⟨byte, rest, rfl, Nat.le_of_succ_le_succ long⟩

theorem flushSample_pending (extractor : RawCCParserExtractor) :
    (extractor.flushSample settings).pending = extractor.pending := by
  unfold flushSample
  split <;> rfl

theorem flushSample_unwritten {extractor : RawCCParserExtractor}
    (unwritten : extractor.totalWritten = 0) : extractor.flushSample settings = extractor := by
  simp [flushSample, unwritten]

theorem flushSample_flushSample (extractor : RawCCParserExtractor) :
    (extractor.flushSample settings).flushSample settings = extractor.flushSample settings := by
  by_cases due : (extractor.totalWritten > 0 && extractor.producingToQueue) = true
  · apply flushSample_unwritten
    simp only [flushSample, if_pos due]
  · simp only [flushSample, if_neg due]

theorem flushSample_state (extractor : RawCCParserExtractor) :
    (extractor.flushSample settings).state = extractor.state := by
  unfold flushSample
  split <;> rfl

theorem InPacket.progress_eq {remaining : Nat} {extractor : RawCCParserExtractor}
    (packet : InPacket settings remaining extractor) :
    extractor.progress = ⟨.behind extractor.pts remaining, extractor.written⟩ := by
  rw [progress, packet.state, packet.left]

theorem InPacket.flushSample {remaining : Nat} {extractor : RawCCParserExtractor}
    (packet : InPacket settings remaining extractor) :
    InPacket settings remaining (extractor.flushSample settings) := by
  unfold RawCCParserExtractor.flushSample
  split
  · exact ⟨packet.state, packet.producing, packet.left⟩
  · exact packet

theorem settled_outside {extractor : RawCCParserExtractor}
    (outside : extractor.state ≠ .parsingEntries) : extractor.settled = extractor.bare :=
  if_neg fun inside => outside inside.1

theorem InPacket.settled_open {remaining : Nat} {extractor : RawCCParserExtractor}
    (packet : InPacket settings (remaining + 1) extractor) : extractor.settled = extractor.bare := by
  apply if_neg
  rw [packet.left]
  exact fun ended => absurd ended.2 (Nat.succ_ne_zero remaining)

theorem InPacket.settled_over {extractor : RawCCParserExtractor}
    (packet : InPacket settings 0 extractor) : extractor.settled = extractor.leavePacket.bare :=
  if_pos ⟨packet.state, packet.left⟩

theorem progress_settled (extractor : RawCCParserExtractor) :
    extractor.settled.progress = extractor.progress := by
  unfold settled
  split
  · next ended => rw [progress, progress, ended.1, ended.2]; rfl
  · rfl

theorem flushSample_bare (extractor : RawCCParserExtractor) :
    (extractor.flushSample settings).bare = extractor.bare.flushSample settings := by
  unfold flushSample
  simp only [apply_ite bare]
  rfl

theorem bare_settled (extractor : RawCCParserExtractor) :
    extractor.bare.settled = extractor.settled := rfl

theorem takeEntry_bare (entry : Bytes) (extractor : RawCCParserExtractor) :
    (extractor.bare.takeEntry settings entry) = (extractor.takeEntry settings entry).bare := by
  simp only [takeEntry, apply_ite bare, flushSample_bare]
  rfl

theorem stage_parse_short {extractor : RawCCParserExtractor}
    (short : extractor.pending.length < extractor.progress.phase.width) :
    (fields settings).parse extractor.stage extractor.pending =
      (extractor.stage, extractor.pending) := by
  apply (fields settings).parse_short
  show _ < extractor.settled.progress.phase.width
  rw [progress_settled]
  exact short

variable (settings) in
theorem stage_parse_field {extractor : RawCCParserExtractor} {rest : Bytes} (field : Bytes)
    (positive : 0 < extractor.progress.phase.width)
    (wide : field.length = extractor.progress.phase.width)
    (ahead : extractor.pending = field ++ rest) :
    (fields settings).parse extractor.stage extractor.pending =
      (fields settings).parse (extractor.stage.advance settings field) rest := by
  rw [ahead]
  apply (fields settings).parse_field field
  · show 0 < extractor.settled.progress.phase.width
    rw [progress_settled]
    exact positive
  · show _ = extractor.settled.progress.phase.width
    rw [progress_settled]
    exact wide

theorem stage_header {extractor : RawCCParserExtractor} (state : extractor.state = .parsingHeader)
    (a b c d version : UInt8) (flags : Bytes) :
    extractor.stage.advance settings (a :: b :: c :: d :: version :: flags) =
      if bigEndian a b c d = kHeader ∧ version = 0 then
        .parsing { extractor.bare with version, state := .parsingPtsAndCount }
      else .failed extractor.written := by
  have outside : extractor.state ≠ .parsingEntries := by
    rw [state]
    nofun
  have phase : extractor.bare.progress.phase = .header := by
    simp only [progress, bare, state]
  simp only [stage, settled_outside outside, Stage.advance, phase]
  rfl

theorem stage_ptsAndCount {extractor : RawCCParserExtractor}
    (state : extractor.state = .parsingPtsAndCount) (a b c d count : UInt8) :
    extractor.stage.advance settings [a, b, c, d, count] =
      (extractor.enterPacket settings (bigEndian a b c d) count.toNat).stage := by
  have outside : extractor.state ≠ .parsingEntries := by
    rw [state]
    nofun
  have phase : extractor.bare.progress.phase = .ptsAndCount := by
    simp only [progress, bare, state]
  simp only [stage, settled_outside outside, Stage.advance, phase]
  rfl

theorem InPacket.stage_entry {remaining : Nat} {extractor : RawCCParserExtractor}
    (packet : InPacket settings (remaining + 1) extractor) (flags cc1 cc2 : UInt8) :
    extractor.stage.advance settings [flags, cc1, cc2] =
      if !settings.inWindow extractor.pts then extractor.skipEntry.stage
      else if settings.accepts extractor.written (settings.entry extractor.pts flags cc1 cc2) then
        (extractor.takeEntry settings (settings.entry extractor.pts flags cc1 cc2)).stage
      else .failed extractor.written := by
  have phase : extractor.bare.progress.phase = .entries extractor.pts (remaining + 1) := by
    have within : extractor.bare.progress = extractor.progress := rfl
    rw [within, packet.progress_eq]
    rfl
  simp only [stage, packet.settled_open, Stage.advance, phase, takeEntry_bare, bare_settled]
  rfl

theorem parse_stage_failed (written : List Bytes) (input : Bytes) :
    (fields settings).parse (.failed written) input = (.failed written, input) :=
  (fields settings).parse_closed rfl input

theorem parseHeader_follows {extractor : RawCCParserExtractor}
    (state : extractor.state = .parsingHeader) (unwritten : extractor.totalWritten = 0) :
    Follows settings 8
      (fun after => after.state = .parsingPtsAndCount ∧
        (after.pending = [] → after.totalWritten = 0)) extractor extractor.parseHeader := by
  have phase : extractor.progress = ⟨.header, extractor.written⟩ := by rw [progress, state]
  unfold parseHeader
  rw [available_eq]
  split
  · next short =>
    have short : extractor.pending.length < extractor.progress.phase.width := by
      rw [phase]
      exact short
    refine ⟨stage_parse_short short, ready_of_state ?_, ⟨fun _ => unwritten, ?_⟩, short⟩
    · rw [state]
      nofun
    · rw [state]
      nofun
  · next long =>
    obtain ⟨a, rest₁, ahead, long₁⟩ := split_cons (Nat.le_of_not_lt long)
    obtain ⟨b, rest₂, rfl, long₂⟩ := split_cons long₁
    obtain ⟨c, rest₃, rfl, long₃⟩ := split_cons long₂
    obtain ⟨d, rest₄, rfl, long₄⟩ := split_cons long₃
    obtain ⟨version, rest₅, rfl, long₅⟩ := split_cons long₄
    obtain ⟨x, rest₆, rfl, long₆⟩ := split_cons long₅
    obtain ⟨y, rest₇, rfl, long₇⟩ := split_cons long₆
    obtain ⟨z, rest, rfl, -⟩ := split_cons long₇
    obtain ⟨int, afterInt⟩ := readInt_pending ahead
    obtain ⟨byte, afterByte⟩ := readByte_pending afterInt
    have advanced := stage_parse_field settings [a, b, c, d, version, x, y, z]
      (by rw [phase]; exact Nat.zero_lt_succ 7) (by rw [phase]; rfl) ahead
    rw [stage_header state] at advanced
    simp only [int, byte]
    split
    · next wrong =>
      rw [if_neg (fun both => wrong both.1), parse_stage_failed] at advanced
      exact congrArg Prod.fst advanced
    · next right =>
      split
      · next wrong =>
        rw [if_neg (fun both => wrong both.2), parse_stage_failed] at advanced
        exact congrArg Prod.fst advanced
      · next zero =>
        rw [if_pos ⟨Decidable.not_not.mp right, Decidable.not_not.mp zero⟩] at advanced
        have left : extractor.buf.drop (extractor.readPos + 8) = rest :=
          pending_skip [a, b, c, d, version, x, y, z] ahead
        refine ⟨advanced.trans ?_, ?_, rfl, fun _ => unwritten⟩
        · show _ = (fields settings).parse _ (extractor.buf.drop (extractor.readPos + 8))
          rw [left, stage, settled_outside (by nofun)]
          rfl
        · show (extractor.buf.drop (extractor.readPos + 8)).length + 8 ≤ extractor.pending.length
          rw [left, ahead]
          exact Nat.le_refl _

variable (settings) in
theorem parsePtsAndCount_eq {extractor : RawCCParserExtractor} {a b c d count : UInt8}
    {rest : Bytes} (ahead : extractor.pending = a :: b :: c :: d :: count :: rest) :
    extractor.parsePtsAndCount settings =
      (.proceed, (extractor.skip 5).enterPacket settings (bigEndian a b c d) count.toNat) := by
  have long : ¬ extractor.available < kPtsAndCountSizeV0 := by
    rw [available_eq, ahead]
    simp [kPtsAndCountSizeV0]
  obtain ⟨int, afterInt⟩ := readInt_pending ahead
  have found : extractor.buf[extractor.readPos + 4]? = some count := by
    rw [← List.head?_drop, show extractor.buf.drop (extractor.readPos + 4) = _ from afterInt]
    rfl
  unfold parsePtsAndCount enterPacket
  by_cases fresh : extractor.totalWritten = 0
  · simp only [if_neg long, int, readByte, skip, fresh, if_true, found, Option.getD_some]
  · simp only [if_neg long, int, readByte, skip, fresh, if_false, found, Option.getD_some]

theorem parsePtsAndCount_follows {extractor : RawCCParserExtractor}
    (state : extractor.state = .parsingPtsAndCount)
    (begun : extractor.pending = [] → extractor.totalWritten = 0) :
    Follows settings 5 (fun after => ∃ count, InPacket settings count after) extractor
      (extractor.parsePtsAndCount settings) := by
  have phase : extractor.progress = ⟨.ptsAndCount, extractor.written⟩ := by rw [progress, state]
  by_cases short : extractor.pending.length < kPtsAndCountSizeV0
  · have stopped : extractor.parsePtsAndCount settings = (.wait, extractor) := by
      rw [parsePtsAndCount, available_eq, if_pos short]
    have short : extractor.pending.length < extractor.progress.phase.width := by
      rw [phase]
      exact short
    rw [stopped]
    refine ⟨stage_parse_short short, ready_of_state ?_,
      ⟨?_, fun empty _ => flushSample_unwritten (begun empty)⟩, short⟩
    · rw [state]
      nofun
    · rw [state]
      nofun
  · obtain ⟨a, rest₁, ahead, long₁⟩ := split_cons (Nat.le_of_not_lt short)
    obtain ⟨b, rest₂, rfl, long₂⟩ := split_cons long₁
    obtain ⟨c, rest₃, rfl, long₃⟩ := split_cons long₂
    obtain ⟨d, rest₄, rfl, long₄⟩ := split_cons long₃
    obtain ⟨count, rest, rfl, -⟩ := split_cons long₄
    have left : (extractor.skip 5).pending = rest := pending_skip [a, b, c, d, count] ahead
    rw [parsePtsAndCount_eq settings ahead]
    refine ⟨?_, ?_, count.toNat, rfl, rfl, rfl⟩
    · rw [stage_parse_field settings [a, b, c, d, count] (by rw [phase]; exact Nat.zero_lt_succ 4)
        (by rw [phase]; rfl) ahead, stage_ptsAndCount state]
      show _ = (fields settings).parse _ (extractor.skip 5).pending
      rw [left]
      rfl
    · show (extractor.skip 5).pending.length + 5 ≤ extractor.pending.length
      rw [left, ahead]
      exact Nat.le_refl _

theorem InPacket.follows_entry {remaining consumed : Nat} {before after : RawCCParserExtractor}
    {reached : Stage} {rest : Bytes} {result : Flow × RawCCParserExtractor}
    (packet : InPacket settings remaining after)
    (advanced : (fields settings).parse before.stage before.pending =
      (fields settings).parse reached rest)
    (same : after.stage = reached) (ahead : after.pending = rest)
    (three : rest.length + 3 ≤ before.pending.length)
    (follows : InPacket settings remaining after → Follows settings consumed post after result) :
    Follows settings (3 + consumed) post before result := by
  subst same ahead
  exact (follows packet).before 3 advanced three

theorem takeEntry_skip (entry : Bytes) (count : Nat) (extractor : RawCCParserExtractor) :
    ((extractor.skip count).takeEntry settings entry).stage =
      (extractor.takeEntry settings entry).stage := by
  rw [stage, ← bare_settled, ← takeEntry_bare, show (extractor.skip count).bare = extractor.bare from rfl,
    takeEntry_bare, bare_settled, stage]

theorem takeEntry_pending (entry : Bytes) (extractor : RawCCParserExtractor) :
    (extractor.takeEntry settings entry).pending = extractor.pending := by
  simp only [takeEntry, apply_ite pending, flushSample_pending, ite_self]
  rfl

theorem InPacket.takeEntry {remaining : Nat} {extractor : RawCCParserExtractor}
    (packet : InPacket settings (remaining + 1) extractor) (entry : Bytes) :
    InPacket settings remaining (extractor.takeEntry settings entry) := by
  have added : InPacket settings remaining (extractor.addEntry entry) := by
    refine ⟨packet.state, packet.producing, ?_⟩
    show extractor.expectedCount - (extractor.sampleIndex + 1) = remaining
    have := packet.left
    omega
  by_cases full : (extractor.addEntry entry).totalWritten > kMaxEntriesPerSample
  · rw [RawCCParserExtractor.takeEntry, if_pos full]
    exact added.flushSample
  · rw [RawCCParserExtractor.takeEntry, if_neg full]
    exact added

theorem translateEntries_follows {remaining : Nat} {extractor : RawCCParserExtractor}
    (packet : InPacket settings remaining extractor) :
    Follows settings (3 * remaining) (InPacket settings 0) extractor
      (translateEntries settings remaining extractor) := by
  induction remaining generalizing extractor with
  | zero => exact ⟨rfl, Nat.le_refl _, packet⟩
  | succ remaining ih =>
    have phase : extractor.progress = ⟨.entries extractor.pts (remaining + 1), extractor.written⟩ :=
      packet.progress_eq
    unfold translateEntries
    rw [available_eq]
    split
    · next short =>
      have short : extractor.pending.length < extractor.progress.phase.width := by
        rw [phase]
        exact short
      refine ⟨stage_parse_short short, fun _ => ⟨remaining, packet⟩, ⟨?_, ?_⟩, short⟩
      · rw [packet.state]
        nofun
      · rw [packet.state]
        nofun
    · next long =>
      obtain ⟨flags, rest₁, ahead, long₁⟩ := split_cons (Nat.le_of_not_lt long)
      obtain ⟨cc1, rest₂, rfl, long₂⟩ := split_cons long₁
      obtain ⟨cc2, rest, rfl, -⟩ := split_cons long₂
      obtain ⟨read₁, ahead₁⟩ := readByte_pending ahead
      obtain ⟨read₂, ahead₂⟩ := readByte_pending ahead₁
      obtain ⟨read₃, ahead₃⟩ := readByte_pending ahead₂
      have advanced := stage_parse_field settings [flags, cc1, cc2]
        (by rw [phase]; exact Nat.zero_lt_succ 2) (by rw [phase]; rfl) ahead
      rw [packet.stage_entry] at advanced
      have three : rest.length + 3 ≤ extractor.pending.length := by
        rw [ahead]
        exact Nat.le_refl _
      have total : 3 * (remaining + 1) = 3 + 3 * remaining := by omega
      simp only [read₁, read₂, read₃]
      rw [total]
      split
      · next outside =>
        have outside : (!settings.inWindow extractor.pts) = true := packet.producing ▸ outside
        rw [if_pos outside] at advanced
        have skipped : InPacket settings remaining (extractor.skip 3).skipEntry := by
          refine ⟨packet.state, packet.producing, ?_⟩
          show extractor.expectedCount - (extractor.sampleIndex + 1) = remaining
          have := packet.left
          omega
        exact skipped.follows_entry advanced rfl ahead₃ three ih
      · next inside =>
        have inside : ¬ (!settings.inWindow extractor.pts) = true := packet.producing ▸ inside
        rw [if_neg inside] at advanced
        split
        · next refused =>
          have refused : ¬ settings.accepts extractor.written
              (settings.entry extractor.pts flags cc1 cc2) = true :=
            (Bool.not_eq_true' _).mp refused ▸ Bool.false_ne_true
          rw [if_neg refused, parse_stage_failed] at advanced
          exact congrArg Prod.fst advanced
        · next taken =>
          have taken : settings.accepts extractor.written
              (settings.entry extractor.pts flags cc1 cc2) = true := by
            simp only [Bool.not_eq_true', Bool.not_eq_false] at taken
            exact taken
          rw [if_pos taken] at advanced
          have packet : InPacket settings (remaining + 1) (extractor.skip 3) :=
            ⟨packet.state, packet.producing, packet.left⟩
          exact (packet.takeEntry _).follows_entry advanced (takeEntry_skip _ 3 extractor)
            ((takeEntry_pending _ _).trans ahead₃) three ih

theorem parseEntries_follows {remaining : Nat} {extractor : RawCCParserExtractor}
    (packet : InPacket settings remaining extractor) :
    Follows settings (3 * remaining) (fun after => after.state = .parsingPtsAndCount) extractor
      (extractor.parseEntries settings) := by
  have follows := translateEntries_follows packet
  unfold parseEntries
  rw [packet.left]
  generalize translateEntries settings remaining extractor = result at follows ⊢
  obtain ⟨flow, after⟩ := result
  cases flow with
  | proceed =>
    obtain ⟨same, used, ended⟩ := follows
    refine ⟨same.trans ?_, used, rfl⟩
    rw [stage, ended.settled_over]
    rfl
  | wait => exact follows
  | fail => exact follows

theorem parsePacket_follows {extractor : RawCCParserExtractor}
    (state : extractor.state = .parsingPtsAndCount)
    (begun : extractor.pending = [] → extractor.totalWritten = 0) :
    Follows settings 5 (fun after => after.state = .parsingPtsAndCount) extractor
      (andThen (extractor.parsePtsAndCount settings) (parseEntries settings)) := by
  show Follows settings (5 + 0) _ _ _
  apply (parsePtsAndCount_follows state begun).andThen
  rintro after ⟨count, packet⟩
  exact (parseEntries_follows packet).weaken (Nat.zero_le _)

theorem andThen_assoc (result : Flow × RawCCParserExtractor)
    (first second : RawCCParserExtractor → Flow × RawCCParserExtractor) :
    andThen (andThen result first) second =
      andThen result fun extractor => andThen (first extractor) second := by
  obtain ⟨flow, extractor⟩ := result
  cases flow <;> rfl

theorem parseState_follows {extractor : RawCCParserExtractor} (ready : Ready settings extractor)
    (unwritten : extractor.state = .parsingHeader → extractor.totalWritten = 0)
    (ahead : extractor.pending ≠ []) :
    Follows settings 1 (fun after => after.state = .parsingPtsAndCount) extractor
      (extractor.parseState settings) := by
  unfold parseState
  split
  · next state =>
    rw [andThen_assoc]
    refine Follows.weaken ?_ (show 1 ≤ 8 + 5 by omega)
    exact (parseHeader_follows state (unwritten state)).andThen
      fun both => parsePacket_follows both.1 both.2
  · next state =>
    exact (parsePacket_follows state fun empty => absurd empty ahead).weaken (by omega)
  · next state =>
    obtain ⟨remaining, packet⟩ := ready state
    exact (parseEntries_follows packet).weaken (by omega)

theorem flushSample_ready {extractor : RawCCParserExtractor} (ready : Ready settings extractor) :
    Ready settings (extractor.flushSample settings) := by
  intro state
  rw [flushSample_state] at state
  obtain ⟨remaining, packet⟩ := ready state
  exact ⟨remaining, packet.flushSample⟩

section Reads

variable (settings)

-- The end of a read flushes when nothing is pending behind a packet.
def atReadEnd (rest : Bytes) (reached : RawCCParserExtractor) : RawCCParserExtractor :=
  if rest = [] ∧ reached.state = .parsingPtsAndCount then reached.flushSample settings else reached

def Reads (parsed : Stage × Bytes) (result : ExtractorResult) (after : RawCCParserExtractor) :
    Prop :=
  (result = .continueReading ∧ Waiting settings after ∧
      ∃ reached, parsed = (.parsing reached, after.pending) ∧
        after.settled = reached.atReadEnd settings after.pending) ∨
    (result = .ioError ∧ parsed.1 = .failed after.written)

end Reads

theorem Waiting.settled_atReadEnd {extractor : RawCCParserExtractor}
    (waiting : Waiting settings extractor) :
    extractor.settled = extractor.settled.atReadEnd settings extractor.pending := by
  unfold atReadEnd
  split
  · next ended =>
    have outside : extractor.state ≠ .parsingEntries := by
      intro inside
      obtain ⟨remaining, packet⟩ := waiting.ready inside
      rw [packet.settled_open] at ended
      exact absurd (inside.symm.trans ended.2) nofun
    rw [settled_outside outside] at ended ⊢
    rw [← flushSample_bare, waiting.rested.flushed ended.1 ended.2]
  · rfl

theorem progress_width (extractor : RawCCParserExtractor) :
    0 < extractor.progress.phase.width ∧ extractor.progress.phase.width ≤ 8 := by
  unfold progress
  split
  · simp [Phase.width]
  · simp [Phase.width]
  · simp only [Phase.behind]
    split
    · simp [Phase.width]
    · simp [Phase.width]

theorem parseBuffer_reads {fuel : Nat} {extractor : RawCCParserExtractor}
    (ready : Ready settings extractor)
    (unwritten : extractor.state = .parsingHeader → extractor.totalWritten = 0)
    (behind : extractor.pending = [] → extractor.state = .parsingPtsAndCount)
    (enough : extractor.pending.length < fuel) :
    ∃ result after, parseBuffer settings fuel extractor = .ok (result, after) ∧
      Reads settings ((fields settings).parse extractor.stage extractor.pending) result after := by
  induction fuel generalizing extractor with
  | zero => exact absurd enough (Nat.not_lt_zero _)
  | succ fuel ih =>
    unfold parseBuffer
    split
    · next inside =>
      have ahead : extractor.pending ≠ [] := by
        intro empty
        have left : extractor.pending.length = extractor.buf.length - extractor.readPos :=
          List.length_drop
        rw [empty, List.length_nil] at left
        omega
      have follows := parseState_follows ready unwritten ahead
      generalize extractor.parseState settings = result at follows ⊢
      obtain ⟨flow, after⟩ := result
      cases flow with
      | proceed =>
        obtain ⟨same, used, state⟩ := follows
        rw [same]
        exact ih (ready_of_state (by rw [state]; nofun)) (by rw [state]; nofun) (fun _ => state)
          (by omega)
      | wait =>
        obtain ⟨parsed, waiting⟩ := follows
        exact ⟨.continueReading, after, rfl,
          .inl ⟨rfl, waiting, after.settled, parsed, waiting.settled_atReadEnd⟩⟩
      | fail => exact ⟨.ioError, after, rfl, .inr ⟨rfl, follows⟩⟩
    · next past =>
      have empty : extractor.pending = [] := List.drop_eq_nil_of_le (Nat.le_of_not_lt past)
      have state := behind empty
      have outside : extractor.state ≠ .parsingEntries := by
        rw [state]
        nofun
      refine ⟨.continueReading, extractor.flushSample settings, rfl,
        .inl ⟨rfl, ⟨flushSample_ready ready,
          ⟨?_, fun _ _ => flushSample_flushSample extractor⟩, ?_⟩, extractor.settled, ?_, ?_⟩⟩
      · rw [flushSample_state, state]
        nofun
      · rw [flushSample_pending, empty]
        exact (progress_width _).1
      · rw [flushSample_pending, empty]
        exact (fields settings).parse_stop ((fields settings).step_nil _)
      · rw [flushSample_pending, atReadEnd, settled_outside outside, if_pos ⟨empty, state⟩,
          settled_outside (by rw [flushSample_state]; exact outside), flushSample_bare]

theorem Rested.compact {extractor : RawCCParserExtractor} (rested : Rested settings extractor) :
    Rested settings extractor.compact := by
  refine ⟨rested.unwritten, fun empty state => ?_⟩
  have same : (extractor.compact).flushSample settings = (extractor.flushSample settings).compact := by
    unfold flushSample
    simp only [apply_ite RawCCParserExtractor.compact]
    rfl
  rw [same, rested.flushed empty state]

theorem waiting_initial : Waiting settings {} :=
  ⟨ready_of_state nofun, ⟨fun _ => rfl, nofun⟩, Nat.zero_lt_succ 7⟩

theorem Waiting.compact {extractor : RawCCParserExtractor} (waiting : Waiting settings extractor) :
    Waiting settings extractor.compact := by
  refine ⟨fun state => ?_, waiting.rested.compact, waiting.short⟩
  obtain ⟨remaining, packet⟩ := waiting.ready state
  exact ⟨remaining, packet.state, packet.producing, packet.left⟩

theorem read_reads {extractor : RawCCParserExtractor} {data : Bytes}
    (waiting : Waiting settings extractor) (offered : data.length ≤ extractor.request) :
    ∃ result after, extractor.read settings (.bytes data) = .ok (result, after) ∧
      Reads settings ((fields settings).parse extractor.stage (extractor.pending ++ data))
        result after := by
  cases data with
  | nil =>
    refine ⟨.continueReading, extractor.compact, rfl, .inl ⟨rfl, waiting.compact,
      extractor.settled, ?_, waiting.settled_atReadEnd⟩⟩
    rw [List.append_nil]
    exact stage_parse_short waiting.short
  | cons byte data =>
    simp only [read, if_neg (Nat.not_lt.mpr offered)]
    have ready : Ready settings
        { extractor.compact with buf := extractor.compact.buf ++ byte :: data } := by
      intro state
      obtain ⟨remaining, packet⟩ := waiting.ready state
      exact ⟨remaining, packet.state, packet.producing, packet.left⟩
    apply parseBuffer_reads ready waiting.rested.unwritten
    · intro empty
      exact absurd (List.append_eq_nil_iff.mp empty).2 nofun
    · show (extractor.compact.buf ++ byte :: data).length < _
      rw [List.length_append]
      exact Nat.lt_succ_self _


end RawCCParserExtractor

end NDash.Extractor

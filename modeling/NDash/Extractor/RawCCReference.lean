import NDash.Extractor.RawCCParserExtractorCuts

set_option autoImplicit false

namespace NDash.Extractor

open Upstream RawCC

namespace RawCC

variable (settings : Settings)

/-! The grammar, read off a whole byte string: header(8) followed by packets of pts(4), count(1) and
count times entry(3). -/

namespace Reference

def InWindow (pts : BitVec 32) : Prop :=
  (∀ start ∈ settings.truncStartPts, start ≤ settings.scaleToUs pts) ∧
    ∀ stop ∈ settings.truncEndPts, settings.scaleToUs pts ≤ stop

instance (pts : BitVec 32) : Decidable (InWindow settings pts) :=
  inferInstanceAs (Decidable (_ ∧ _))

-- The last 45 kHz tick at or before the pts moved by the offset onto the master timeline.
def masterPts (pts : BitVec 32) : BitVec 32 :=
  BitVec.ofInt 32 (pts.toNat + settings.sampleOffset * 45 / 1000)

section Stamp

variable (stamp : BitVec 32 → BitVec 32)

-- pts, field, cc1, cc2, cc_valid
def entry (pts : BitVec 32) (flags cc1 cc2 : UInt8) : Bytes :=
  let time := (stamp pts).toNat
  [UInt8.ofNat (time / 2 ^ 24), UInt8.ofNat (time / 2 ^ 16 % 2 ^ 8),
    UInt8.ofNat (time / 2 ^ 8 % 2 ^ 8), UInt8.ofNat (time % 2 ^ 8),
    UInt8.ofNat (flags.toNat % 4), cc1, cc2, UInt8.ofNat (flags.toNat / 4 % 2)]

/-- How a packet ends: before `rest`, in an incomplete entry, or with an entry before `rest` that the
output refused. -/
inductive End
  | complete (rest : Bytes)
  | incomplete
  | refused (rest : Bytes)
deriving DecidableEq, Repr

def entries (pts : BitVec 32) : Nat → List Bytes → Bytes → List Bytes × End
  | 0, written, input => (written, .complete input)
  | remaining + 1, written, flags :: cc1 :: cc2 :: input =>
    if InWindow settings pts then
      let entry := entry stamp pts flags cc1 cc2
      if settings.accepts written entry then entries pts remaining (written ++ [entry]) input
      else (written, .refused input)
    else entries pts remaining written input
  | _ + 1, written, _ => (written, .incomplete)

def packets : Nat → List Bytes → Bytes → List Bytes × Option Bytes
  | fuel + 1, written, a :: b :: c :: d :: count :: input =>
    match entries settings stamp (bigEndian a b c d) count.toNat written input with
    | (written, .complete rest) => packets fuel written rest
    | (written, .incomplete) => (written, none)
    | (written, .refused rest) => (written, some rest)
  | _, written, _ => (written, none)

end Stamp

-- The packet has no entry to stamp, or its first one is stamped alike, or refused either way.
def PacketStamped (pts : BitVec 32) (count : Nat) (written : List Bytes) (input : Bytes) : Prop :=
  match count, input with
  | _ + 1, flags :: cc1 :: cc2 :: _ =>
    InWindow settings pts → settings.entryPts pts = masterPts settings pts ∨
      settings.accepts written (entry settings.entryPts pts flags cc1 cc2) = false ∧
        settings.accepts written (entry (masterPts settings) pts flags cc1 cc2) = false
  | _, _ => True

def Stamped : Nat → List Bytes → Bytes → Prop
  | fuel + 1, written, a :: b :: c :: d :: count :: input =>
    PacketStamped settings (bigEndian a b c d) count.toNat written input ∧
      match entries settings (masterPts settings) (bigEndian a b c d) count.toNat written input with
      | (written, .complete rest) => Stamped fuel written rest
      | _ => True
  | _, _, _ => True

end Reference

section

variable (stamp : BitVec 32 → BitVec 32)

def reference (input : Bytes) : List Bytes × Option Nat :=
  match input with
  | a :: b :: c :: d :: version :: _ :: _ :: _ :: rest =>
    if bigEndian a b c d = kHeader ∧ version = 0 then
      let (written, refused) := Reference.packets settings stamp rest.length [] rest
      (written, refused.map fun behind => input.length - behind.length)
    else ([], some 8)
  | _ => ([], none)

end

def Stamped (input : Bytes) : Prop :=
  match input with
  | a :: b :: c :: d :: version :: _ :: _ :: _ :: rest =>
    bigEndian a b c d = kHeader → version = 0 → Reference.Stamped settings rest.length [] rest
  | _ => True

variable {settings}

theorem byteAt_eq (value : BitVec 32) (shift : Nat) :
    byteAt value shift = UInt8.ofNat (value.toNat / 2 ^ shift % 2 ^ 8) := by
  apply UInt8.toNat.inj
  rw [byteAt, UInt8.toNat_ofNat', UInt8.toNat_ofNat', Nat.shiftRight_eq_div_pow, Nat.mod_mod]

theorem field_eq (flags : UInt8) : flags &&& 0x03 = UInt8.ofNat (flags.toNat % 4) := by
  have masked : flags.toNat &&& 3 = flags.toNat % 4 := Nat.and_two_pow_sub_one_eq_mod flags.toNat 2
  apply UInt8.toNat.inj
  rw [UInt8.toNat_and, UInt8.toNat_ofNat']
  show flags.toNat &&& 3 = _
  omega

theorem valid_eq (flags : UInt8) :
    (if flags &&& 0x04 ≠ 0 then 1 else 0) = UInt8.ofNat (flags.toNat / 4 % 2) := by
  have bit : ∀ bits : BitVec 8,
      bits.toNat / 4 % 2 = if bits &&& 4#8 ≠ 0#8 then 1 else 0 := by
    decide
  have same : flags &&& 0x04 ≠ 0 ↔ flags.toBitVec &&& 4#8 ≠ 0#8 :=
    not_congr UInt8.toBitVec_inj.symm
  rw [show flags.toNat = flags.toBitVec.toNat from rfl, bit]
  by_cases valid : flags &&& 0x04 ≠ 0
  · rw [if_pos valid, if_pos (same.mp valid)]
    rfl
  · rw [if_neg valid, if_neg (fun set => valid (same.mpr set))]
    rfl

theorem entry_eq (pts : BitVec 32) (flags cc1 cc2 : UInt8) :
    settings.entry pts flags cc1 cc2 = Reference.entry settings.entryPts pts flags cc1 cc2 := by
  have top : (settings.entryPts pts).toNat / 2 ^ 24 % 2 ^ 8 =
      (settings.entryPts pts).toNat / 2 ^ 24 := by
    have := (settings.entryPts pts).isLt
    omega
  simp only [Settings.entry, Reference.entry, byteAt_eq, field_eq, valid_eq, top, Nat.pow_zero,
    Nat.div_one]

variable (settings) in
def Ends (start : Progress) (input : Bytes) : List Bytes × Reference.End → Prop
  | (written, .complete rest) =>
    (grammar settings).parse start input = (grammar settings).parse ⟨.ptsAndCount, written⟩ rest ∧
      rest.length ≤ input.length
  | (written, .incomplete) =>
    ((grammar settings).parse start input).1.phase ≠ .failed ∧
      ((grammar settings).parse start input).1.written = written
  | (written, .refused rest) => (grammar settings).parse start input = (⟨.failed, written⟩, rest)

theorem Ends.before {first second : Progress} {input rest : Bytes}
    {result : List Bytes × Reference.End}
    (same : (grammar settings).parse first input = (grammar settings).parse second rest)
    (shorter : rest.length ≤ input.length) (ends : Ends settings second rest result) :
    Ends settings first input result := by
  obtain ⟨written, stop⟩ := result
  cases stop with
  | complete behind => exact ⟨same.trans ends.1, Nat.le_trans ends.2 shorter⟩
  | incomplete => rw [Ends, same]; exact ends
  | refused behind => exact same.trans ends

section Stamps

variable (stamp : BitVec 32 → BitVec 32)

variable {pts : BitVec 32} {flags cc1 cc2 : UInt8}

end Stamps

section Stamped

open Reference

variable {count : Nat} {written : List Bytes} {input : Bytes} {pts : BitVec 32}

end Stamped

end RawCC

namespace RawCCParserExtractor

section

variable (settings : Settings)

def feed : RawCCParserExtractor → List Bytes → Except Fault (Option Nat × RawCCParserExtractor)
  | extractor, [] => .ok (none, extractor)
  | extractor, chunk :: chunks => do
    let (result, extractor) ← extractor.read settings (.bytes chunk)
    if result = .ioError then return (some 0, extractor)
    else
      let (reported, extractor) ← feed extractor chunks
      return (reported.map (· + 1), extractor)

def offered : RawCCParserExtractor → List Bytes → Bool
  | _, [] => true
  | extractor, chunk :: chunks =>
    decide (chunk.length ≤ extractor.request) &&
      match extractor.read settings (.bytes chunk) with
      | .ok (.continueReading, extractor) => offered extractor chunks
      | _ => true

end

variable {settings : Settings}

theorem feed_cons {extractor after last : RawCCParserExtractor} {chunk : Bytes} {chunks : List Bytes}
    {reported : Option Nat}
    (ran : extractor.read settings (.bytes chunk) = .ok (.continueReading, after))
    (fed : feed settings after chunks = .ok (reported, last)) :
    feed settings extractor (chunk :: chunks) = .ok (reported.map (· + 1), last) := by
  simp only [feed, ran]
  change (feed settings after chunks).bind _ = _
  rw [fed]
  rfl

def Located (chunks : List Bytes) (reported : Option Nat) : Option Bytes → Prop
  | none => reported = none
  | some behind =>
    ∃ before chunk later, chunks = before ++ chunk :: later ∧ reported = some before.length ∧
      later.flatten.length ≤ behind.length ∧ behind.length < chunk.length + later.flatten.length

theorem Located.cons {chunks : List Bytes} {reported : Option Nat} {failed : Option Bytes}
    (located : Located chunks reported failed) (chunk : Bytes) :
    Located (chunk :: chunks) (reported.map (· + 1)) failed := by
  cases failed with
  | none =>
    cases (show reported = none from located)
    rfl
  | some behind =>
    obtain ⟨before, last, later, rfl, rfl, lower, upper⟩ := located
    exact ⟨chunk :: before, last, later, rfl, rfl, lower, upper⟩

end RawCCParserExtractor

end NDash.Extractor

import Mathlib.Algebra.Ring.Int.Defs
import NDash.Extractor.RawCCParserExtractorPackets
import NDash.Shared.Tiling

set_option autoImplicit false

namespace NDash.Extractor

open Upstream RawCC

namespace RawCC

variable (settings : Settings)

def Packet.captions (packet : Packet) : List (BitVec 32 × Bytes) :=
  if settings.inWindow packet.pts then
    packet.entries.map fun (flags, cc1, cc2) =>
      (packet.pts, settings.entry packet.pts flags cc1 cc2)
  else []

def Stream.captions (stream : Stream) : List (BitVec 32 × Bytes) :=
  stream.packets.flatMap (Packet.captions settings)

/-- How many captions lie behind the last packet of the window at whose end a read ends. -/
def unflushed (marked : List (Packet × Bool)) : Nat :=
  marked.foldl (fun count (packet, ended) =>
    if settings.inWindow packet.pts then
      if ended then 0 else count + packet.entries.length
    else count) 0

end RawCC

namespace RawCCParserExtractor

/-- The sample that was committed at `place` has the entry at `index`: its bytes are the last ones
that had been written by then. -/
def HasEntry (extractor : RawCCParserExtractor) (place index : Nat) : Prop :=
  ∃ sample commit, extractor.samples[place]? = some sample ∧
    extractor.commits[place]? = some commit ∧
    (commit * kSampleEntrySize : Int) - sample.offset - sample.size ≤ index * kSampleEntrySize ∧
    (index + 1) * kSampleEntrySize ≤ (commit * kSampleEntrySize : Int) - sample.offset

def AllCommitted (captions : List (BitVec 32 × Bytes)) (extractor : RawCCParserExtractor) : Prop :=
  (∀ index, index < captions.length → ∃! place, extractor.HasEntry place index) ∧
    (extractor.samples.map SampleMetadata.size).sum = (extractor.written.flatten.length : Int)

section Accounts

open Tiling

structure Accounts (captions : List (BitVec 32 × Bytes)) (extractor : RawCCParserExtractor) :
    Prop where
  written : extractor.written = captions.map Prod.snd
  committed : ∃ pieces, Tiles pieces (captions.length - extractor.totalWritten) ∧
    extractor.samples.map (fun sample => (sample.size, sample.offset)) =
      pieces.map (fun piece => ((piece.1 * kSampleEntrySize : Int), 0)) ∧
    extractor.commits = pieces.map Prod.snd
  enough : extractor.totalWritten ≤ captions.length

variable {settings : Settings} {captions : List (BitVec 32 × Bytes)}
  {extractor : RawCCParserExtractor}

theorem Accounts.of_same (accounts : Accounts captions extractor)
    {other : RawCCParserExtractor} (written : other.written = extractor.written)
    (total : other.totalWritten = extractor.totalWritten)
    (samples : other.samples = extractor.samples) (commits : other.commits = extractor.commits) :
    Accounts captions other := by
  obtain ⟨written', committed, enough⟩ := accounts
  exact ⟨written.trans written', by rw [total, samples, commits]; exact committed,
    by rw [total]; exact enough⟩

theorem Accounts.flushSample (accounts : Accounts captions extractor) :
    Accounts captions (extractor.flushSample settings) := by
  obtain ⟨pieces, tiles, sizes, commits⟩ := accounts.committed
  unfold RawCCParserExtractor.flushSample
  split
  · next due =>
    have positive : 0 < extractor.totalWritten := by
      simp only [Bool.and_eq_true, decide_eq_true_eq] at due
      exact due.1
    have added := tiles.snoc extractor.totalWritten positive
    rw [Nat.sub_add_cancel accounts.enough] at added
    refine ⟨accounts.written, ⟨_, added, ?_, ?_⟩, Nat.zero_le _⟩
    · simp [sizes]
    · simp [commits, accounts.written]
  · exact accounts

theorem Accounts.addEntry (accounts : Accounts captions extractor) (pts : BitVec 32)
    (entry : Bytes) : Accounts (captions ++ [(pts, entry)]) (extractor.addEntry entry) := by
  have pending : (captions ++ [(pts, entry)]).length - (extractor.totalWritten + 1) =
      captions.length - extractor.totalWritten := by
    rw [List.length_append, List.length_singleton]
    omega
  refine ⟨by simp [RawCCParserExtractor.addEntry, accounts.written], ?_, ?_⟩
  · show ∃ pieces, Tiles pieces (_ - (extractor.totalWritten + 1)) ∧ _
    rw [pending]
    exact accounts.committed
  · show extractor.totalWritten + 1 ≤ _
    rw [List.length_append, List.length_singleton]
    exact Nat.succ_le_succ accounts.enough

theorem Accounts.takeEntry (accounts : Accounts captions extractor) (pts : BitVec 32)
    (entry : Bytes) :
    Accounts (captions ++ [(pts, entry)]) (extractor.takeEntry settings entry) := by
  simp only [RawCCParserExtractor.takeEntry]
  split
  · exact (accounts.addEntry pts entry).flushSample
  · exact accounts.addEntry pts entry

theorem flushSample_totalWritten (producing : extractor.producingToQueue = true) :
    (extractor.flushSample settings).totalWritten = 0 := by
  by_cases positive : extractor.totalWritten > 0
  · rw [flushSample, if_pos (by simp [positive, producing])]
  · rw [flushSample_unwritten (Nat.eq_zero_of_not_pos positive)]
    exact Nat.eq_zero_of_not_pos positive

variable (settings) in
theorem takeEntry_totalWritten (producing : extractor.producingToQueue = true)
    (bounded : extractor.totalWritten ≤ kMaxEntriesPerSample) (entry : Bytes) :
    (extractor.takeEntry settings entry).totalWritten =
      (extractor.totalWritten + 1) % (kMaxEntriesPerSample + 1) := by
  have added : (extractor.addEntry entry).totalWritten = extractor.totalWritten + 1 := rfl
  have producing' : (extractor.addEntry entry).producingToQueue = true := producing
  simp only [takeEntry, added]
  split
  · next full =>
    rw [flushSample_totalWritten producing',
      show extractor.totalWritten + 1 = kMaxEntriesPerSample + 1 by omega, Nat.mod_self]
  · next room => rw [added, Nat.mod_eq_of_lt (by omega)]

variable (settings) in
theorem takeEntry_packet (extractor : RawCCParserExtractor) (entry : Bytes) :
    (extractor.takeEntry settings entry).pts = extractor.pts ∧
      (extractor.takeEntry settings entry).producingToQueue = extractor.producingToQueue := by
  simp only [takeEntry, flushSample]
  split
  · split <;> exact ⟨rfl, rfl⟩
  · exact ⟨rfl, rfl⟩

variable (settings) in
theorem takeEntries_packet (extractor : RawCCParserExtractor)
    (entries : List (UInt8 × UInt8 × UInt8)) :
    (extractor.takeEntries settings entries).pts = extractor.pts ∧
      (extractor.takeEntries settings entries).producingToQueue = extractor.producingToQueue := by
  induction entries generalizing extractor with
  | nil => exact ⟨rfl, rfl⟩
  | cons entry entries ih =>
    obtain ⟨flags, cc1, cc2⟩ := entry
    rw [takeEntries_cons]
    split
    · have packet := takeEntry_packet settings extractor
        (settings.entry extractor.pts flags cc1 cc2)
      exact ⟨(ih _).1.trans packet.1, (ih _).2.trans packet.2⟩
    · exact ih _

theorem Accounts.takeEntries (accounts : Accounts captions extractor)
    (inside : settings.inWindow extractor.pts = true)
    (producing : extractor.producingToQueue = true)
    (bounded : extractor.totalWritten ≤ kMaxEntriesPerSample)
    (entries : List (UInt8 × UInt8 × UInt8)) :
    Accounts
        (captions ++ entries.map fun (flags, cc1, cc2) =>
          (extractor.pts, settings.entry extractor.pts flags cc1 cc2))
        (extractor.takeEntries settings entries) ∧
      (extractor.takeEntries settings entries).totalWritten =
        (extractor.totalWritten + entries.length) % (kMaxEntriesPerSample + 1) := by
  induction entries generalizing captions extractor with
  | nil =>
    rw [List.map_nil, List.append_nil, List.length_nil, Nat.add_zero]
    exact ⟨accounts, (Nat.mod_eq_of_lt (Nat.lt_succ_of_le bounded)).symm⟩
  | cons entry entries ih =>
    obtain ⟨flags, cc1, cc2⟩ := entry
    have total := takeEntry_totalWritten settings producing bounded
      (settings.entry extractor.pts flags cc1 cc2)
    have packet := takeEntry_packet settings extractor (settings.entry extractor.pts flags cc1 cc2)
    have bounded' : (extractor.takeEntry settings
        (settings.entry extractor.pts flags cc1 cc2)).totalWritten ≤ kMaxEntriesPerSample := by
      rw [total]
      exact Nat.le_of_lt_succ (Nat.mod_lt _ (Nat.succ_pos _))
    have later := ih (accounts.takeEntry extractor.pts _) (by rw [packet.1]; exact inside)
      (packet.2.trans producing) bounded'
    rw [packet.1, total, Nat.mod_add_mod] at later
    rw [takeEntries_cons, if_pos inside, List.map_cons, List.append_cons, List.length_cons,
      Nat.add_comm entries.length 1, ← Nat.add_assoc]
    exact later

theorem takeEntries_outside (outside : settings.inWindow extractor.pts = false)
    (entries : List (UInt8 × UInt8 × UInt8)) :
    extractor.takeEntries settings entries =
      { extractor with sampleIndex := extractor.sampleIndex + entries.length } := by
  induction entries generalizing extractor with
  | nil => rfl
  | cons entry entries ih =>
    obtain ⟨flags, cc1, cc2⟩ := entry
    have outside' : settings.inWindow extractor.skipEntry.pts = false := outside
    rw [takeEntries_cons, if_neg (by rw [outside]; exact Bool.false_ne_true), ih outside',
      List.length_cons]
    simp only [skipEntry, Nat.add_assoc, Nat.add_comm entries.length 1]

theorem settled_same (extractor : RawCCParserExtractor) :
    extractor.settled.written = extractor.written ∧
      extractor.settled.totalWritten = extractor.totalWritten ∧
      extractor.settled.samples = extractor.samples ∧
      extractor.settled.commits = extractor.commits ∧
      extractor.settled.producingToQueue = extractor.producingToQueue ∧
      extractor.settled.samplePts = extractor.samplePts ∧ extractor.settled.pts = extractor.pts := by
  unfold settled
  split <;> exact ⟨rfl, rfl, rfl, rfl, rfl, rfl, rfl⟩

theorem Accounts.settled (accounts : Accounts captions extractor) :
    Accounts captions extractor.settled := by
  obtain ⟨written, total, samples, commits, -⟩ := extractor.settled_same
  exact accounts.of_same written total samples commits

def Counted (captions : List (BitVec 32 × Bytes)) (count : Nat) (extractor : RawCCParserExtractor) :
    Prop :=
  Accounts captions extractor ∧ extractor.totalWritten = count % (kMaxEntriesPerSample + 1)

theorem Counted.absorb_inside {count : Nat} (counted : Counted captions count extractor)
    {packet : Packet} (inside : settings.inWindow packet.pts = true) :
    Counted (captions ++ packet.captions settings) (count + packet.entries.length)
        (extractor.absorb settings packet) ∧
      (extractor.absorb settings packet).producingToQueue = true := by
  obtain ⟨accounts, total⟩ := counted
  have entered : Accounts captions
      (extractor.enterPacket settings packet.pts packet.entries.length) :=
    accounts.of_same rfl rfl rfl rfl
  have bounded : extractor.totalWritten ≤ kMaxEntriesPerSample := by
    rw [total]
    exact Nat.le_of_lt_succ (Nat.mod_lt _ (Nat.succ_pos _))
  obtain ⟨taken, total'⟩ := entered.takeEntries inside inside bounded packet.entries
  have producing := (takeEntries_packet settings
    (extractor.enterPacket settings packet.pts packet.entries.length) packet.entries).2
  obtain ⟨-, same, -, -, same', -⟩ := settled_same
    ((extractor.enterPacket settings packet.pts packet.entries.length).takeEntries settings
      packet.entries)
  refine ⟨⟨?_, ?_⟩, same'.trans (producing.trans inside)⟩
  · rw [Packet.captions, if_pos inside]
    exact taken.settled
  · rw [absorb, same, total']
    show (extractor.totalWritten + packet.entries.length) % _ = _
    rw [total, Nat.mod_add_mod]

theorem Counted.absorb_outside {count : Nat} (counted : Counted captions count extractor)
    {packet : Packet} (outside : settings.inWindow packet.pts = false) :
    Counted (captions ++ packet.captions settings) count (extractor.absorb settings packet) ∧
      (extractor.absorb settings packet).producingToQueue = false := by
  obtain ⟨accounts, total⟩ := counted
  have outside' : settings.inWindow
      (extractor.enterPacket settings packet.pts packet.entries.length).pts = false := outside
  have skipped : Accounts captions
      ((extractor.enterPacket settings packet.pts packet.entries.length).takeEntries settings
        packet.entries) := by
    rw [takeEntries_outside outside']
    exact accounts.of_same rfl rfl rfl rfl
  obtain ⟨-, same, -, -, same', -⟩ := settled_same
    ((extractor.enterPacket settings packet.pts packet.entries.length).takeEntries settings
      packet.entries)
  refine ⟨⟨?_, ?_⟩, ?_⟩
  · rw [Packet.captions, if_neg (by rw [outside]; exact Bool.false_ne_true), List.append_nil]
    exact skipped.settled
  · rw [absorb, same, takeEntries_outside outside']
    exact total
  · rw [absorb, same', takeEntries_outside outside']
    exact outside

theorem flushSample_outside (outside : extractor.producingToQueue = false) :
    extractor.flushSample settings = extractor := by
  rw [flushSample, if_neg (by simp [outside])]

theorem Counted.absorbMarked {count : Nat} (counted : Counted captions count extractor)
    (packet : Packet) (ended : Bool) :
    Counted (captions ++ packet.captions settings)
      (if settings.inWindow packet.pts then
          if ended then 0 else count + packet.entries.length
        else count)
      (extractor.absorbMarked settings (packet, ended)) := by
  unfold RawCCParserExtractor.absorbMarked
  cases within : settings.inWindow packet.pts with
  | true =>
    obtain ⟨absorbed, producing⟩ := counted.absorb_inside within
    cases ended with
    | true =>
      simp only [if_true]
      exact ⟨absorbed.1.flushSample, by rw [flushSample_totalWritten producing, Nat.zero_mod]⟩
    | false => exact absorbed
  | false =>
    obtain ⟨absorbed, outside⟩ := counted.absorb_outside within
    cases ended with
    | true =>
      simp only [if_true, flushSample_outside outside]
      exact absorbed
    | false => exact absorbed

variable (settings) in
theorem Counted.absorbAll {count : Nat} (counted : Counted captions count extractor)
    (marked : List (Packet × Bool)) :
    Counted (captions ++ marked.flatMap fun packet => packet.1.captions settings)
      (marked.foldl (fun count (packet, ended) =>
        if settings.inWindow packet.pts then
          if ended then 0 else count + packet.entries.length
        else count) count)
      (marked.foldl (RawCCParserExtractor.absorbMarked settings) extractor) := by
  induction marked generalizing captions count extractor with
  | nil => simpa using counted
  | cons packet marked ih =>
    rw [List.flatMap_cons, ← List.append_assoc]
    exact ih (counted.absorbMarked packet.1 packet.2)

theorem markedFrom_captions (ends : List Nat) (position : Nat) (packets : List Packet) :
    ((markedFrom ends position packets).flatMap fun packet => packet.1.captions settings) =
      packets.flatMap (Packet.captions settings) := by
  induction packets generalizing position with
  | nil => rfl
  | cons packet packets ih => simp [markedFrom, ih]

theorem Accounts.hasEntry_iff {pieces : List (Nat × Nat)}
    (sizes : extractor.samples.map (fun sample => (sample.size, sample.offset)) =
      pieces.map (fun piece => ((piece.1 * kSampleEntrySize : Int), 0)))
    (commits : extractor.commits = pieces.map Prod.snd) (place index : Nat) :
    extractor.HasEntry place index ↔ Holds pieces place index := by
  have samples : extractor.samples[place]?.map (fun sample => (sample.size, sample.offset)) =
      pieces[place]?.map (fun piece => ((piece.1 * kSampleEntrySize : Int), 0)) := by
    rw [← List.getElem?_map, sizes, List.getElem?_map]
  constructor
  · rintro ⟨sample, commit, found, found', above, below⟩
    rw [commits, List.getElem?_map] at found'
    obtain ⟨piece, here, rfl⟩ := Option.map_eq_some_iff.mp found'
    rw [found, here, Option.map_some, Option.map_some, Option.some.injEq, Prod.mk.injEq] at samples
    rw [samples.1, samples.2] at above
    rw [samples.2] at below
    refine ⟨piece, here, ?_, ?_⟩
    · simp only [kSampleEntrySize] at above
      omega
    · simp only [kSampleEntrySize] at below
      omega
  · rintro ⟨piece, here, above, below⟩
    rw [here, Option.map_some] at samples
    obtain ⟨sample, found, same⟩ := Option.map_eq_some_iff.mp samples
    rw [Prod.mk.injEq] at same
    refine ⟨sample, piece.2, found, ?_, ?_, ?_⟩
    · rw [commits, List.getElem?_map, here]
      rfl
    · rw [same.1, same.2]
      simp only [kSampleEntrySize]
      omega
    · rw [same.2]
      simp only [kSampleEntrySize]
      omega

theorem Accounts.sizes_sum (accounts : Accounts captions extractor) :
    (extractor.samples.map SampleMetadata.size).sum =
      ((captions.length - extractor.totalWritten) * kSampleEntrySize : Int) := by
  obtain ⟨pieces, tiles, sizes, -⟩ := accounts.committed
  have firsts : extractor.samples.map SampleMetadata.size =
      pieces.map fun piece => (piece.1 * kSampleEntrySize : Int) := by
    have := congrArg (List.map Prod.fst) sizes
    simpa [List.map_map, Function.comp_def] using this
  have total : (pieces.map fun piece => (piece.1 * kSampleEntrySize : Int)).sum =
      ((pieces.map Prod.fst).sum * kSampleEntrySize : Nat) := by
    clear tiles sizes firsts
    induction pieces with
    | nil => rfl
    | cons piece pieces ih =>
      rw [List.map_cons, List.sum_cons, ih, List.map_cons, List.sum_cons, Nat.add_mul]
      omega
  have enough := accounts.enough
  rw [firsts, total, tiles.sum]
  simp only [kSampleEntrySize]
  omega

theorem captions_bytes (packets : List Packet) :
    ((packets.flatMap (Packet.captions settings)).map Prod.snd).flatten.length =
      (packets.flatMap (Packet.captions settings)).length * kSampleEntrySize := by
  have entries : ∀ caption ∈ packets.flatMap (Packet.captions settings),
      caption.2.length = kSampleEntrySize := by
    intro caption inside
    obtain ⟨packet, -, inside⟩ := List.mem_flatMap.mp inside
    unfold Packet.captions at inside
    split at inside
    · obtain ⟨⟨flags, cc1, cc2⟩, -, rfl⟩ := List.mem_map.mp inside
      rfl
    · cases inside
  generalize packets.flatMap (Packet.captions settings) = captions at entries
  induction captions with
  | nil => rfl
  | cons caption captions ih =>
    have later := ih fun other inside => entries other (List.mem_cons_of_mem _ inside)
    rw [List.map_cons, List.flatten_cons, List.length_append, later,
      entries caption List.mem_cons_self, List.length_cons, Nat.succ_mul, Nat.add_comm]

theorem Accounts.allCommitted_iff {packets : List Packet}
    (accounts : Accounts (packets.flatMap (Packet.captions settings)) extractor) :
    AllCommitted (packets.flatMap (Packet.captions settings)) extractor ↔
      extractor.totalWritten = 0 := by
  have bytes : (extractor.written.flatten.length : Int) =
      (packets.flatMap (Packet.captions settings)).length * kSampleEntrySize := by
    rw [accounts.written, captions_bytes]
    exact Int.natCast_mul _ _
  have sizes := accounts.sizes_sum
  have enough := accounts.enough
  constructor
  · rintro ⟨-, all⟩
    rw [sizes, bytes] at all
    simp only [kSampleEntrySize] at all
    omega
  · intro nothing
    refine ⟨fun index below => ?_, ?_⟩
    · obtain ⟨pieces, tiles, pairs, commits⟩ := accounts.committed
      simp only [Accounts.hasEntry_iff pairs commits]
      exact tiles.existsUnique (by omega)
    · rw [sizes, bytes, nothing]
      simp

theorem started_accounts : Accounts [] started := ⟨rfl, ⟨[], .nil, rfl, rfl⟩, Nat.le_refl _⟩

theorem feed_counted {stream : Stream} {chunks : List Bytes}
    (absorbed : extractor.settled =
      (stream.marked chunks).foldl (RawCCParserExtractor.absorbMarked settings) started) :
    Counted (stream.captions settings) (unflushed settings (stream.marked chunks))
      extractor.settled := by
  have initial : Counted [] 0 started := ⟨started_accounts, rfl⟩
  have run := initial.absorbAll settings (stream.marked chunks)
  rw [List.nil_append, Stream.marked, markedFrom_captions] at run
  rw [absorbed]
  exact run

end Accounts

/-- When the input ends, every caption of the window is in exactly one sample if and only if the
captions behind the last packet of the window at whose end a read ended fill whole samples: a flush
is left out when the packet before it lies outside the window. -/
theorem endOfInput_allCommitted_iff (settings : Settings) (stream : Stream) (chunks : List Bytes)
    (delivered : chunks.flatten = stream.encode) (fits : offered settings {} chunks = true) :
    ∃ reported extractor, feed settings {} chunks = .ok (reported, extractor) ∧
      ((∀ written entry, settings.accepts written entry = true) → reported = none) ∧
      (reported = none → ∃ after,
        extractor.read settings .endOfInput = .ok (.endOfInput, after) ∧
          after.written = (stream.captions settings).map Prod.snd ∧
          (AllCommitted (stream.captions settings) after ↔
            unflushed settings (stream.marked chunks) % (kMaxEntriesPerSample + 1) = 0)) := by
  obtain ⟨reported, extractor, fed, accepted, absorbs⟩ :=
    feed_stream settings stream chunks delivered fits
  refine ⟨reported, extractor, fed, accepted, fun silent => ?_⟩
  have absorbed := absorbs silent
  have counted := feed_counted absorbed
  obtain ⟨written, total, samples, commits, -⟩ := extractor.settled_same
  refine ⟨extractor.compact.reset, rfl, written.symm.trans counted.1.written, ?_⟩
  have same : AllCommitted (stream.captions settings) extractor.compact.reset ↔
      AllCommitted (stream.captions settings) extractor.settled := by
    simp only [AllCommitted, HasEntry, written, samples, commits]
    exact Iff.rfl
  rw [same, ← counted.2]
  exact counted.1.allCommitted_iff

-- Two packets in one read, the second of them outside the window.
theorem endOfInput_allCommitted_iff_two_packets :
    let settings : Settings :=
      { scaleToUs := fun pts => (pts.toNat * 1000 / 45 : Nat), truncEndPts := some 1000 }
    let stream : Stream :=
      { packets := [⟨45#32, [(0xFD, 0x20, 0x41)], by decide⟩, ⟨90#32, [], by decide⟩] }
    unflushed settings (stream.marked [stream.encode]) = 1 ∧
      ∃ reported extractor, feed settings {} [stream.encode] = .ok (reported, extractor) ∧
        ((∀ written entry, settings.accepts written entry = true) → reported = none) ∧
        (reported = none → ∃ after,
          extractor.read settings .endOfInput = .ok (.endOfInput, after) ∧
            after.written = (stream.captions settings).map Prod.snd ∧
            (AllCommitted (stream.captions settings) after ↔
              unflushed settings (stream.marked [stream.encode]) % (kMaxEntriesPerSample + 1) = 0)) :=
  ⟨by decide, endOfInput_allCommitted_iff _ _ _ (by decide) (by decide)⟩

theorem endOfInput_loses_caption :
    let settings : Settings :=
      { scaleToUs := fun pts => (pts.toNat * 1000 / 45 : Nat), truncEndPts := some 1000 }
    let stream : Stream :=
      { packets := [⟨45#32, [(0xFD, 0x20, 0x41)], by decide⟩, ⟨90#32, [], by decide⟩] }
    ∃ extractor after, feed settings {} [stream.encode] = .ok (none, extractor) ∧
      extractor.read settings .endOfInput = .ok (.endOfInput, after) ∧
      after.written = (stream.captions settings).map Prod.snd ∧ after.samples = [] ∧
      ¬ AllCommitted (stream.captions settings) after := by
  intro settings stream
  let behind : RawCCParserExtractor :=
    { state := .parsingPtsAndCount
      buf := stream.encode
      readPos := 21
      pts := 90#32
      samplePts := 1000
      totalWritten := 1
      producingToQueue := false
      written := [[0, 0, 0, 45, 1, 0x20, 0x41, 1]] }
  refine ⟨behind, { written := behind.written }, by decide +kernel, rfl, by decide, rfl, ?_⟩
  rintro ⟨all, -⟩
  have length : 0 < (stream.captions settings).length := by decide
  obtain ⟨place, ⟨sample, commit, found, -⟩, -⟩ := all 0 length
  cases found

end RawCCParserExtractor

end NDash.Extractor

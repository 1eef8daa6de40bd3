import NDash.Extractor.RawCCParserExtractorSamples

set_option autoImplicit false

namespace NDash.Extractor

open Upstream RawCC

namespace RawCC

variable (settings : Settings)

def SampleShape (times : List (BitVec 32)) (sample : SampleMetadata) (commit : Nat) : Prop :=
  ∃ (count : Nat) (first last : BitVec 32), sample.size = count * kSampleEntrySize ∧ sample.offset = 0 ∧
    1 ≤ count ∧ count ≤ kMaxEntriesPerSample ∧ count ≤ commit ∧
    times[commit - count]? = some first ∧ times[commit - 1]? = some last ∧
    sample.timeUs = settings.scaleToUs first ∧
    sample.durationUs = settings.scaleToUs last - sample.timeUs

/-- The captions between two reads that end behind a packet of the window fit into one sample, and
the packet before such an end has the time of the last of them. -/
def batchesFit : List (BitVec 32) → List (Packet × Bool) → Bool
  | _, [] => true
  | batch, (packet, ended) :: marked =>
    if settings.inWindow packet.pts then
      let batch := batch ++ List.replicate packet.entries.length packet.pts
      decide (batch.length ≤ kMaxEntriesPerSample) &&
        if ended then
          batch.getLast?.all (fun last =>
            decide (settings.scaleToUs last = settings.scaleToUs packet.pts)) &&
            batchesFit [] marked
        else batchesFit batch marked
    else batchesFit batch marked

variable {settings}

theorem sampleShape_append {times : List (BitVec 32)} {sample : SampleMetadata} {commit : Nat}
    (written : commit ≤ times.length) (more : List (BitVec 32)) :
    SampleShape settings (times ++ more) sample commit ↔ SampleShape settings times sample commit := by
  have kept : ∀ index, index < commit → (times ++ more)[index]? = times[index]? :=
    fun index below => List.getElem?_append_left (by omega)
  unfold SampleShape
  refine exists_congr fun count => exists_congr fun first => exists_congr fun last => ?_
  by_cases within : 1 ≤ count ∧ count ≤ commit
  · rw [kept (commit - count) (by omega), kept (commit - 1) (by omega)]
  · constructor
    · rintro ⟨-, -, positive, -, enough, -⟩
      exact absurd ⟨positive, enough⟩ within
    · rintro ⟨-, -, positive, -, enough, -⟩
      exact absurd ⟨positive, enough⟩ within

theorem sampleShape_batch_iff {before batch : List (BitVec 32)} {first last : BitVec 32}
    {sample : SampleMetadata} {time : Int} (head : batch.head? = some first)
    (tail : batch.getLast? = some last) (size : sample.size = batch.length * kSampleEntrySize)
    (offset : sample.offset = 0) (start : sample.timeUs = settings.scaleToUs first)
    (duration : sample.durationUs = time - sample.timeUs) :
    SampleShape settings (before ++ batch) sample (before ++ batch).length ↔
      batch.length ≤ kMaxEntriesPerSample ∧ settings.scaleToUs last = time := by
  have positive : 0 < batch.length := by
    cases batch with
    | nil => cases head
    | cons => exact Nat.zero_lt_succ _
  have atFirst : (before ++ batch)[(before ++ batch).length - batch.length]? = some first := by
    rw [List.length_append, Nat.add_sub_cancel, List.getElem?_append_right (Nat.le_refl _),
      Nat.sub_self, ← List.head?_eq_getElem?]
    exact head
  have atLast : (before ++ batch)[(before ++ batch).length - 1]? = some last := by
    rw [← List.getLast?_eq_getElem?, List.getLast?_append, tail]
    rfl
  constructor
  · rintro ⟨count, first', last', size', -, -, bounded, -, -, atLast', -, duration'⟩
    have same : count = batch.length := by
      rw [size] at size'
      simp only [kSampleEntrySize] at size'
      omega
    rw [atLast] at atLast'
    cases atLast'
    subst same
    exact ⟨bounded, by omega⟩
  · rintro ⟨bounded, same⟩
    refine ⟨batch.length, first, last, size, offset, positive, bounded, ?_, atFirst, atLast, start, ?_⟩
    · rw [List.length_append]
      omega
    · rw [duration, same]

end RawCC

namespace RawCCParserExtractor

variable (settings : Settings)

def WellShaped (captions : List (BitVec 32 × Bytes)) (extractor : RawCCParserExtractor) : Prop :=
  ∀ (place : Nat) (sample : SampleMetadata) (commit : Nat), extractor.samples[place]? = some sample →
    extractor.commits[place]? = some commit →
    SampleShape settings (captions.map Prod.fst) sample commit

def Misshapen (captions : List (BitVec 32 × Bytes)) (extractor : RawCCParserExtractor) : Prop :=
  ∃ (place : Nat) (sample : SampleMetadata) (commit : Nat),
    extractor.samples[place]? = some sample ∧
    extractor.commits[place]? = some commit ∧ commit ≤ captions.length ∧
    ¬ SampleShape settings (captions.map Prod.fst) sample commit

def Grows (before after : RawCCParserExtractor) : Prop :=
  (∃ more, after.samples = before.samples ++ more) ∧ ∃ more, after.commits = before.commits ++ more

variable {settings} {captions : List (BitVec 32 × Bytes)} {extractor : RawCCParserExtractor}

theorem Grows.trans {first second third : RawCCParserExtractor} (before : Grows first second)
    (after : Grows second third) : Grows first third := by
  obtain ⟨⟨samples, same⟩, commits, same'⟩ := before
  obtain ⟨⟨samples', next⟩, commits', next'⟩ := after
  exact ⟨⟨samples ++ samples', by rw [next, same, List.append_assoc]⟩,
    commits ++ commits', by rw [next', same', List.append_assoc]⟩

theorem Grows.of_same {before after : RawCCParserExtractor}
    (samples : after.samples = before.samples) (commits : after.commits = before.commits) :
    Grows before after :=
  ⟨⟨[], by rw [samples, List.append_nil]⟩, [], by rw [commits, List.append_nil]⟩

variable (settings) in
theorem flushSample_grows (extractor : RawCCParserExtractor) :
    Grows extractor (extractor.flushSample settings) := by
  unfold flushSample
  split
  · exact ⟨⟨_, rfl⟩, _, rfl⟩
  · exact .of_same rfl rfl

variable (settings) in
theorem takeEntry_grows (extractor : RawCCParserExtractor) (entry : Bytes) :
    Grows extractor (extractor.takeEntry settings entry) := by
  have added : Grows extractor (extractor.addEntry entry) := .of_same rfl rfl
  simp only [takeEntry]
  split
  · exact added.trans (flushSample_grows settings _)
  · exact added

variable (settings) in
theorem takeEntries_grows (extractor : RawCCParserExtractor)
    (entries : List (UInt8 × UInt8 × UInt8)) :
    Grows extractor (extractor.takeEntries settings entries) := by
  induction entries generalizing extractor with
  | nil => exact .of_same rfl rfl
  | cons entry entries ih =>
    obtain ⟨flags, cc1, cc2⟩ := entry
    rw [takeEntries_cons]
    split
    · exact (takeEntry_grows settings _ _).trans (ih _)
    · exact (Grows.of_same rfl rfl).trans (ih _)

variable (settings) in
theorem absorbMarked_grows (extractor : RawCCParserExtractor) (marked : Packet × Bool) :
    Grows extractor (extractor.absorbMarked settings marked) := by
  have entered : Grows extractor
      (extractor.enterPacket settings marked.1.pts marked.1.entries.length) := .of_same rfl rfl
  have taken := entered.trans (takeEntries_grows settings _ marked.1.entries)
  obtain ⟨-, -, samples, commits, -⟩ := settled_same
    ((extractor.enterPacket settings marked.1.pts marked.1.entries.length).takeEntries settings
      marked.1.entries)
  have absorbed : Grows extractor (extractor.absorb settings marked.1) :=
    taken.trans (.of_same samples commits)
  simp only [absorbMarked]
  split
  · exact absorbed.trans (flushSample_grows settings _)
  · exact absorbed

theorem Misshapen.grow {after : RawCCParserExtractor} (misshapen : Misshapen settings captions extractor)
    (grows : Grows extractor after) (more : List (BitVec 32 × Bytes)) :
    Misshapen settings (captions ++ more) after := by
  obtain ⟨place, sample, commit, found, found', written, bad⟩ := misshapen
  obtain ⟨⟨samples, same⟩, commits, same'⟩ := grows
  refine ⟨place, sample, commit, ?_, ?_, ?_, ?_⟩
  · rw [same, List.getElem?_append_left (List.getElem?_eq_some_iff.mp found).1]
    exact found
  · rw [same', List.getElem?_append_left (List.getElem?_eq_some_iff.mp found').1]
    exact found'
  · rw [List.length_append]
    omega
  · rw [List.map_append, sampleShape_append (by rw [List.length_map]; exact written)]
    exact bad

theorem Misshapen.absorbAll (misshapen : Misshapen settings captions extractor)
    (marked : List (Packet × Bool)) :
    Misshapen settings (captions ++ marked.flatMap fun packet => packet.1.captions settings)
      (marked.foldl (absorbMarked settings) extractor) := by
  induction marked generalizing captions extractor with
  | nil => simpa using misshapen
  | cons packet marked ih =>
    rw [List.flatMap_cons, ← List.append_assoc]
    exact ih (misshapen.grow (absorbMarked_grows settings extractor packet) _)

theorem Misshapen.not_wellShaped (misshapen : Misshapen settings captions extractor) :
    ¬ WellShaped settings captions extractor := by
  obtain ⟨place, sample, commit, found, found', -, bad⟩ := misshapen
  exact fun shaped => bad (shaped place sample commit found found')

theorem WellShaped.snoc {after : RawCCParserExtractor} {sample : SampleMetadata} {commit : Nat}
    (shaped : WellShaped settings captions extractor)
    (lengths : extractor.samples.length = extractor.commits.length)
    (samples : after.samples = extractor.samples ++ [sample])
    (commits : after.commits = extractor.commits ++ [commit])
    (shape : SampleShape settings (captions.map Prod.fst) sample commit) :
    WellShaped settings captions after := by
  intro place other commit' found found'
  rw [samples] at found
  rw [commits] at found'
  by_cases earlier : place < extractor.samples.length
  · rw [List.getElem?_append_left earlier] at found
    rw [List.getElem?_append_left (lengths ▸ earlier)] at found'
    exact shaped place other commit' found found'
  · have last : place = extractor.samples.length := by
      have below := (List.getElem?_eq_some_iff.mp found).1
      rw [List.length_append, List.length_singleton] at below
      omega
    subst last
    rw [List.getElem?_concat_length] at found
    rw [lengths, List.getElem?_concat_length] at found'
    cases found
    cases found'
    exact shape

theorem Misshapen.snoc {after : RawCCParserExtractor} {sample : SampleMetadata}
    (lengths : extractor.samples.length = extractor.commits.length)
    (samples : after.samples = extractor.samples ++ [sample])
    (commits : after.commits = extractor.commits ++ [captions.length])
    (bad : ¬ SampleShape settings (captions.map Prod.fst) sample captions.length) :
    Misshapen settings captions after := by
  refine ⟨extractor.samples.length, sample, captions.length, ?_, ?_, Nat.le_refl _, bad⟩
  · rw [samples, List.getElem?_concat_length]
  · rw [commits, lengths, List.getElem?_concat_length]

section Batches

open Tiling

theorem Accounts.commit_le (accounts : Accounts captions extractor) {place commit : Nat}
    (found : extractor.commits[place]? = some commit) : commit ≤ captions.length := by
  obtain ⟨pieces, tiles, -, commits⟩ := accounts.committed
  rw [commits, List.getElem?_map] at found
  obtain ⟨piece, here, rfl⟩ := Option.map_eq_some_iff.mp found
  have bounds := tiles.mem_bounds piece (List.mem_of_getElem? here)
  omega

theorem Accounts.lengths (accounts : Accounts captions extractor) :
    extractor.samples.length = extractor.commits.length := by
  obtain ⟨pieces, -, sizes, commits⟩ := accounts.committed
  have := congrArg List.length sizes
  rw [List.length_map, List.length_map] at this
  rw [this, commits, List.length_map]

variable (settings) in
structure InBatch (captions : List (BitVec 32 × Bytes)) (batch : List (BitVec 32))
    (extractor : RawCCParserExtractor) : Prop where
  accounts : Accounts captions extractor
  total : extractor.totalWritten = batch.length
  bounded : batch.length ≤ kMaxEntriesPerSample
  times : ∃ before, captions.map Prod.fst = before ++ batch
  first : ∀ pts, batch.head? = some pts → extractor.samplePts = settings.scaleToUs pts
  shaped : WellShaped settings captions extractor

variable {batch : List (BitVec 32)}

theorem InBatch.of_same (within : InBatch settings captions batch extractor)
    {other : RawCCParserExtractor} (written : other.written = extractor.written)
    (total : other.totalWritten = extractor.totalWritten)
    (samples : other.samples = extractor.samples) (commits : other.commits = extractor.commits)
    (first : batch ≠ [] → other.samplePts = extractor.samplePts) :
    InBatch settings captions batch other := by
  refine ⟨within.accounts.of_same written total samples commits, total.trans within.total,
    within.bounded, within.times, fun pts head => ?_, ?_⟩
  · rw [first (by rintro rfl; cases head)]
    exact within.first pts head
  · unfold WellShaped
    rw [samples, commits]
    exact within.shaped

theorem flushed_shape_iff {before : List (BitVec 32)} (accounts : Accounts captions extractor)
    (times : captions.map Prod.fst = before ++ batch)
    (total : extractor.totalWritten = batch.length) {first last : BitVec 32}
    (head : batch.head? = some first) (tail : batch.getLast? = some last)
    (start : extractor.samplePts = settings.scaleToUs first)
    (producing : extractor.producingToQueue = true) :
    ∃ sample, (extractor.flushSample settings).samples = extractor.samples ++ [sample] ∧
      (extractor.flushSample settings).commits = extractor.commits ++ [captions.length] ∧
      (SampleShape settings (captions.map Prod.fst) sample captions.length ↔
        batch.length ≤ kMaxEntriesPerSample ∧
          settings.scaleToUs last = settings.scaleToUs extractor.pts) := by
  have positive : extractor.totalWritten > 0 := by
    rw [total]
    cases batch with
    | nil => cases head
    | cons => exact Nat.zero_lt_succ _
  have length : captions.length = (before ++ batch).length := by rw [← times, List.length_map]
  rw [flushSample, if_pos (by simp [positive, producing])]
  refine ⟨_, rfl, by rw [accounts.written, List.length_map], ?_⟩
  rw [length, times]
  exact sampleShape_batch_iff head tail (by simp [total]) rfl start rfl

theorem InBatch.flushSample (within : InBatch settings captions batch extractor)
    (producing : extractor.producingToQueue = true) :
    if batch.getLast?.all (fun last =>
        decide (settings.scaleToUs last = settings.scaleToUs extractor.pts)) then
      InBatch settings captions [] (extractor.flushSample settings)
    else Misshapen settings captions (extractor.flushSample settings) := by
  cases tail : batch.getLast? with
  | none =>
    have empty : batch = [] := List.getLast?_eq_none_iff.mp tail
    subst empty
    rw [flushSample_unwritten within.total]
    exact within
  | some last =>
    obtain ⟨first, rest, rfl⟩ := List.exists_cons_of_ne_nil
      (show batch ≠ [] by rintro rfl; cases tail)
    obtain ⟨before, times⟩ := within.times
    obtain ⟨sample, samples, commits, shape⟩ := flushed_shape_iff within.accounts times within.total
      rfl tail (within.first first rfl) producing
    simp only [Option.all_some, decide_eq_true_eq]
    split
    · next same =>
      refine ⟨within.accounts.flushSample, flushSample_totalWritten producing, Nat.zero_le _,
        ⟨_, (List.append_nil _).symm⟩, nofun, ?_⟩
      exact within.shaped.snoc within.accounts.lengths samples commits
        (shape.mpr ⟨within.bounded, same⟩)
    · next other =>
      exact .snoc within.accounts.lengths samples commits fun good => other (shape.mp good).2

theorem InBatch.addEntry (within : InBatch settings captions batch extractor)
    (start : batch = [] → extractor.samplePts = settings.scaleToUs extractor.pts)
    (entry : Bytes) (room : batch.length + 1 ≤ kMaxEntriesPerSample) :
    InBatch settings (captions ++ [(extractor.pts, entry)]) (batch ++ [extractor.pts])
      (extractor.addEntry entry) := by
  obtain ⟨before, times⟩ := within.times
  refine ⟨within.accounts.addEntry _ entry, ?_, ?_, ⟨before, ?_⟩, ?_, ?_⟩
  · simp [RawCCParserExtractor.addEntry, within.total]
  · rw [List.length_append]
    exact room
  · rw [List.map_append, times, List.append_assoc]
    rfl
  · intro pts head
    cases batch with
    | nil =>
      cases head
      exact start rfl
    | cons first rest => exact within.first pts head
  · intro place sample commit found found'
    rw [List.map_append,
      sampleShape_append (by rw [List.length_map]; exact within.accounts.commit_le found')]
    exact within.shaped place sample commit found found'

theorem InBatch.takeEntry (within : InBatch settings captions batch extractor)
    (start : batch = [] → extractor.samplePts = settings.scaleToUs extractor.pts)
    (producing : extractor.producingToQueue = true) (entry : Bytes) :
    if batch.length + 1 ≤ kMaxEntriesPerSample then
      InBatch settings (captions ++ [(extractor.pts, entry)]) (batch ++ [extractor.pts])
        (extractor.takeEntry settings entry)
    else
      Misshapen settings (captions ++ [(extractor.pts, entry)])
        (extractor.takeEntry settings entry) := by
  have added : (extractor.addEntry entry).totalWritten = batch.length + 1 :=
    congrArg (· + 1) within.total
  simp only [RawCCParserExtractor.takeEntry, added]
  split
  · next room =>
    rw [if_neg (Nat.not_lt.mpr room)]
    exact within.addEntry start entry room
  · next full =>
    rw [if_pos (Nat.lt_of_not_le full)]
    obtain ⟨before, times⟩ := within.times
    have accounts := within.accounts.addEntry extractor.pts entry
    have long : 0 < batch.length := by
      simp only [kMaxEntriesPerSample] at full
      omega
    obtain ⟨first, rest, rfl⟩ := List.exists_cons_of_ne_nil (List.ne_nil_of_length_pos long)
    have times' : (captions ++ [(extractor.pts, entry)]).map Prod.fst =
        before ++ (first :: rest ++ [extractor.pts]) := by
      simp [times]
    obtain ⟨sample, samples, commits, shape⟩ := flushed_shape_iff accounts times'
      (by simpa using added) rfl List.getLast?_concat (within.first first rfl) producing
    refine .snoc accounts.lengths samples commits fun good => ?_
    have bounded := (shape.mp good).1
    rw [List.length_append, List.length_singleton] at bounded
    exact full bounded

theorem InBatch.takeEntries (within : InBatch settings captions batch extractor)
    (start : batch = [] → extractor.samplePts = settings.scaleToUs extractor.pts)
    (inside : settings.inWindow extractor.pts = true)
    (producing : extractor.producingToQueue = true) (entries : List (UInt8 × UInt8 × UInt8)) :
    if batch.length + entries.length ≤ kMaxEntriesPerSample then
      InBatch settings
        (captions ++ entries.map fun (flags, cc1, cc2) =>
          (extractor.pts, settings.entry extractor.pts flags cc1 cc2))
        (batch ++ List.replicate entries.length extractor.pts)
        (extractor.takeEntries settings entries)
    else
      Misshapen settings
        (captions ++ entries.map fun (flags, cc1, cc2) =>
          (extractor.pts, settings.entry extractor.pts flags cc1 cc2))
        (extractor.takeEntries settings entries) := by
  induction entries generalizing captions batch extractor with
  | nil =>
    rw [List.length_nil, Nat.add_zero, if_pos within.bounded, List.replicate_zero, List.append_nil,
      List.map_nil, List.append_nil]
    exact within
  | cons entry entries ih =>
    obtain ⟨flags, cc1, cc2⟩ := entry
    have taken := within.takeEntry start producing (settings.entry extractor.pts flags cc1 cc2)
    have packet := takeEntry_packet settings extractor (settings.entry extractor.pts flags cc1 cc2)
    rw [takeEntries_cons, if_pos inside, List.map_cons, List.append_cons, List.length_cons,
      List.replicate_succ, List.append_cons batch]
    split at taken
    · have later := ih taken (fun empty => absurd empty (by simp)) (by rw [packet.1]; exact inside)
        (packet.2.trans producing)
      rw [packet.1, List.length_append, List.length_singleton, Nat.add_assoc, Nat.add_comm 1]
        at later
      exact later
    · next full =>
      rw [if_neg (by omega)]
      exact taken.grow (takeEntries_grows settings _ entries) _

theorem InBatch.enterPacket (within : InBatch settings captions batch extractor) (pts : BitVec 32)
    (count : Nat) :
    InBatch settings captions batch (extractor.enterPacket settings pts count) ∧
      (batch = [] → (extractor.enterPacket settings pts count).samplePts =
        settings.scaleToUs pts) := by
  refine ⟨within.of_same rfl rfl rfl rfl fun some => ?_, fun empty => ?_⟩
  · have unwritten : extractor.totalWritten ≠ 0 := by
      rw [within.total]
      exact (List.length_pos_of_ne_nil some).ne'
    exact if_neg unwritten
  · have unwritten : extractor.totalWritten = 0 := by rw [within.total, empty, List.length_nil]
    exact if_pos unwritten

theorem InBatch.settled (within : InBatch settings captions batch extractor) :
    InBatch settings captions batch extractor.settled := by
  obtain ⟨written, total, samples, commits, -, first, -⟩ := extractor.settled_same
  exact within.of_same written total samples commits fun _ => first

theorem InBatch.absorb_inside (within : InBatch settings captions batch extractor)
    {packet : Packet} (inside : settings.inWindow packet.pts = true) :
    (extractor.absorb settings packet).producingToQueue = true ∧
      (extractor.absorb settings packet).pts = packet.pts ∧
      if (batch ++ List.replicate packet.entries.length packet.pts).length ≤
          kMaxEntriesPerSample then
        InBatch settings (captions ++ packet.captions settings)
          (batch ++ List.replicate packet.entries.length packet.pts)
          (extractor.absorb settings packet)
      else
        Misshapen settings (captions ++ packet.captions settings)
          (extractor.absorb settings packet) := by
  obtain ⟨entered, start⟩ := within.enterPacket packet.pts packet.entries.length
  have taken := entered.takeEntries start inside inside packet.entries
  obtain ⟨-, -, samples, commits, producing, -, pts⟩ := settled_same
    ((extractor.enterPacket settings packet.pts packet.entries.length).takeEntries settings
      packet.entries)
  have packet' := takeEntries_packet settings
    (extractor.enterPacket settings packet.pts packet.entries.length) packet.entries
  refine ⟨producing.trans (packet'.2.trans inside), pts.trans packet'.1, ?_⟩
  rw [List.length_append, List.length_replicate, Packet.captions, if_pos inside]
  split at taken
  · next room =>
    rw [if_pos room]
    exact taken.settled
  · next full =>
    rw [if_neg full]
    have settled := taken.grow (Grows.of_same samples commits) []
    rw [List.append_nil] at settled
    exact settled

theorem InBatch.absorb_outside (within : InBatch settings captions batch extractor)
    {packet : Packet} (outside : settings.inWindow packet.pts = false) :
    (extractor.absorb settings packet).producingToQueue = false ∧
      InBatch settings (captions ++ packet.captions settings) batch
        (extractor.absorb settings packet) := by
  obtain ⟨entered, -⟩ := within.enterPacket packet.pts packet.entries.length
  have outside' : settings.inWindow
      (extractor.enterPacket settings packet.pts packet.entries.length).pts = false := outside
  have skipped := takeEntries_outside outside' packet.entries
  obtain ⟨-, -, -, -, producing, -, -⟩ := settled_same
    ((extractor.enterPacket settings packet.pts packet.entries.length).takeEntries settings
      packet.entries)
  refine ⟨?_, ?_⟩
  · rw [absorb, producing, skipped]
    exact outside
  · have taken : InBatch settings captions batch
        ((extractor.enterPacket settings packet.pts packet.entries.length).takeEntries settings
          packet.entries) := by
      rw [skipped]
      exact entered.of_same rfl rfl rfl rfl fun _ => rfl
    rw [Packet.captions, if_neg (by rw [outside]; exact Bool.false_ne_true), List.append_nil]
    exact taken.settled

theorem InBatch.absorbAll (within : InBatch settings captions batch extractor)
    (marked : List (Packet × Bool)) :
    WellShaped settings (captions ++ marked.flatMap fun packet => packet.1.captions settings)
        (marked.foldl (absorbMarked settings) extractor) ↔
      batchesFit settings batch marked = true := by
  induction marked generalizing captions batch extractor with
  | nil =>
    rw [List.flatMap_nil, List.append_nil]
    exact iff_of_true within.shaped rfl
  | cons packet marked ih =>
    obtain ⟨packet, ended⟩ := packet
    rw [List.flatMap_cons, ← List.append_assoc, List.foldl_cons]
    simp only [absorbMarked, batchesFit]
    cases window : settings.inWindow packet.pts with
    | false =>
      obtain ⟨outside, within⟩ := within.absorb_outside window
      simp only [flushSample_outside outside, ite_self, Bool.false_eq_true, if_false]
      exact ih within
    | true =>
      obtain ⟨producing, pts, absorbed⟩ := within.absorb_inside window
      simp only [if_true]
      split at absorbed
      · next room =>
        simp only [room, decide_true, Bool.true_and]
        cases ended with
        | false => exact ih absorbed
        | true =>
          have flushed := absorbed.flushSample producing
          rw [pts] at flushed
          simp only [if_true]
          split at flushed
          · next same =>
            rw [same, Bool.true_and]
            exact ih flushed
          · next other =>
            rw [Bool.eq_false_iff.mpr other, Bool.false_and]
            exact iff_of_false (flushed.absorbAll marked).not_wellShaped Bool.false_ne_true
      · next full =>
        simp only [full, decide_false, Bool.false_and]
        refine iff_of_false (Misshapen.not_wellShaped (.absorbAll ?_ marked)) Bool.false_ne_true
        split
        · have flushed := absorbed.grow (flushSample_grows settings _) []
          rw [List.append_nil] at flushed
          exact flushed
        · exact absorbed

theorem feed_wellShaped_iff {stream : Stream} {chunks : List Bytes}
    (absorbed : extractor.settled =
      (stream.marked chunks).foldl (absorbMarked settings) started) :
    WellShaped settings (stream.captions settings) extractor ↔
      batchesFit settings [] (stream.marked chunks) = true := by
  have initial : InBatch settings [] [] started :=
    ⟨started_accounts, rfl, Nat.zero_le _, ⟨[], rfl⟩, nofun, nofun⟩
  have run := initial.absorbAll (stream.marked chunks)
  rw [List.nil_append, Stream.marked, markedFrom_captions] at run
  obtain ⟨-, -, samples, commits, -⟩ := extractor.settled_same
  have same : WellShaped settings (stream.captions settings) extractor ↔
      WellShaped settings (stream.captions settings) extractor.settled := by
    unfold WellShaped
    rw [samples, commits]
  rw [same, absorbed]
  exact run

end Batches

/-- Every sample has the documented shape if and only if the captions between two flushes fit into one
sample and no flush comes behind a packet without entries that has a time of its own. -/
theorem samples_wellShaped_iff (settings : Settings) (stream : Stream) (chunks : List Bytes)
    (delivered : chunks.flatten = stream.encode) (fits : offered settings {} chunks = true) :
    ∃ reported extractor, feed settings {} chunks = .ok (reported, extractor) ∧
      ((∀ written entry, settings.accepts written entry = true) → reported = none) ∧
      (reported = none →
        extractor.written = (stream.captions settings).map Prod.snd ∧
          (WellShaped settings (stream.captions settings) extractor ↔
            batchesFit settings [] (stream.marked chunks) = true)) := by
  obtain ⟨reported, extractor, fed, accepted, absorbs⟩ :=
    feed_stream settings stream chunks delivered fits
  refine ⟨reported, extractor, fed, accepted, fun silent => ?_⟩
  have absorbed := absorbs silent
  have written := extractor.settled_same.1
  exact ⟨written.symm.trans (feed_counted absorbed).1.written, feed_wellShaped_iff absorbed⟩

-- One read that ends behind a packet without entries.
theorem samples_wellShaped_iff_empty_packet :
    let settings : Settings := { scaleToUs := fun pts => (pts.toNat * 1000 / 45 : Nat) }
    let stream : Stream :=
      { packets := [⟨45#32, [(0xFD, 0x20, 0x41)], by decide⟩, ⟨90#32, [], by decide⟩] }
    batchesFit settings [] (stream.marked [stream.encode]) = false ∧
      ∃ reported extractor, feed settings {} [stream.encode] = .ok (reported, extractor) ∧
        ((∀ written entry, settings.accepts written entry = true) → reported = none) ∧
        (reported = none →
          extractor.written = (stream.captions settings).map Prod.snd ∧
            (WellShaped settings (stream.captions settings) extractor ↔
              batchesFit settings [] (stream.marked [stream.encode]) = true)) :=
  ⟨by decide, samples_wellShaped_iff _ _ _ (by decide) (by decide)⟩

-- A packet of 121 entries is committed as one sample.
theorem samples_exceed_limit :
    let settings : Settings := { scaleToUs := fun pts => (pts.toNat * 1000 / 45 : Nat) }
    let stream : Stream :=
      { packets := [⟨45#32, List.replicate 121 (0xFD, 0x20, 0x41), by decide⟩] }
    ∃ extractor, feed settings {} [stream.encode] = .ok (none, extractor) ∧
      extractor.samples.map SampleMetadata.size = [968] ∧
      ¬ WellShaped settings (stream.captions settings) extractor := by
  intro settings stream
  have fits : offered settings {} [stream.encode] = true := by
    have short : stream.encode.length ≤ request {} := by decide +kernel
    simp only [offered, short, decide_true, Bool.true_and]
    split <;> rfl
  obtain ⟨reported, extractor, fed, accepted, absorbs⟩ := feed_stream settings stream [stream.encode]
    (by simp) fits
  obtain rfl := accepted fun _ _ => rfl
  have absorbed := absorbs rfl
  have size : extractor.samples.map SampleMetadata.size = [968] := by
    rw [← extractor.settled_same.2.2.1, absorbed]
    decide +kernel
  refine ⟨extractor, fed, size, fun shaped => ?_⟩
  have unfit : batchesFit settings [] (stream.marked [stream.encode]) = false := by decide +kernel
  exact absurd ((feed_wellShaped_iff absorbed).mp shaped) (by rw [unfit]; exact Bool.false_ne_true)

end RawCCParserExtractor

end NDash.Extractor

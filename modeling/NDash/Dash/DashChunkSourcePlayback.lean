import NDash.Dash.DashChunkSourceEvaluation

set_option autoImplicit false

namespace NDash.Dash

open Mpd Extractor DashChunkSource

/-- What the client of a source brings to a call of GetChunkOperation; `complete` is what loading an
initialization chunk yields. -/
structure Call where
  resolve : String → String → String
  evaluator : Evaluator
  now : Int
  position : Int
  complete : InitializationChunk → InitializationData

structure Playback where
  source : DashChunkSource
  queue : List MediaChunk := []
  ended : Bool := false

/-- One call and the completion of its chunk. The position is `start` until there is a chunk to
play. -/
def Playback.call (rate : PlaybackRate) (start : Int) (call : Call) (playback : Playback) :
    Except Fault Playback :=
  if playback.ended then .ok playback
  else do
    let position := if playback.queue = [] then start else call.position
    let (out, source) ← playback.source.getChunkOperation call.resolve rate call.evaluator call.now
      playback.queue position {}
    if out.endOfStream then return { playback with source, ended := true }
    else
      match out.chunk with
      | none => return { playback with source }
      | some (.initialization chunk) =>
        let source ← source.onChunkLoadCompleted chunk (call.complete chunk)
        return { playback with source }
      | some (.media chunk) =>
        return { playback with source, queue := playback.queue.take out.queueSize ++ [chunk] }

def play (source : DashChunkSource) (rate : PlaybackRate) (start : Int) (calls : Nat → Call) :
    Nat → Except Fault Playback
  | 0 => .ok { source }
  | count + 1 => do
    let playback ← play source rate start calls count
    playback.call rate start (calls count)

def Picks (evaluator : Evaluator) : Prop :=
  ∀ queue position formats evaluation, formats ≠ [] →
    (∃ selected ∈ formats,
      (evaluator queue position formats evaluation).format = some selected) ∧
      (evaluator queue position formats evaluation).queueSize = evaluation.queueSize

/-- A completed chunk has what it was made for. An index from the stream counts where the manifest has
none. -/
structure Delivers (numbering : Numbering) (representation : Representation)
    (chunk : InitializationChunk) (data : InitializationData) : Prop where
  format : representation.initializationUri.isSome → chunk.forInitialization = true →
    data.mediaFormat.isSome
  index : representation.index = none → chunk.forIndex = true → data.seekMap.isSome
  follows : representation.index = none → ∀ seekMap, data.seekMap = some seekMap →
    ∀ periodDurationUs, (wrappingSegmentIndex seekMap data.uri).Follows periodDurationUs numbering

section

variable (numbering : Int → Numbering) (calls : Nat → Call)

structure RepresentationHolder.Plays (period startTime : Int) (holder : RepresentationHolder) :
    Prop where
  shift : holder.segmentNumShift = 0
  start : holder.periodStartTime = startTime
  follows : ∀ index, holder.segmentIndex = some index →
    index.Follows holder.periodDuration (numbering period)
  waits : holder.segmentIndex = none →
    holder.representation.index = none ∧ holder.representation.indexUri.isSome
  delivers : ∀ count (chunk : InitializationChunk), chunk.parentId = period →
    chunk.format = holder.representation.format →
    Delivers (numbering period) holder.representation chunk ((calls count).complete chunk)

structure PeriodHolder.Plays (holder : PeriodHolder) : Prop where
  bounded : holder.indexIsUnbounded = false
  filled : holder.representationHolders ≠ []
  keyed : holder.Keyed
  representations : ∀ entry ∈ holder.representationHolders,
    entry.2.Plays numbering calls holder.localIndex holder.startTime

structure Span where
  index : Int
  startTime : Int
  availableStartTime : Int
  availableEndTime : Int
deriving DecidableEq, Repr

def PeriodHolder.span (holder : PeriodHolder) : Span where
  index := holder.localIndex
  startTime := holder.startTime
  availableStartTime := holder.availableStartTime
  availableEndTime := holder.availableEndTime

structure DashChunkSource.Ready (layout : List Span) (source : DashChunkSource) : Prop where
  spans : source.periodHolders.map PeriodHolder.span = layout
  distinct : (layout.map Span.index).Nodup
  plays : ∀ holder ∈ source.periodHolders, holder.Plays numbering calls
  live : source.live = false
  static : source.currentManifest.dynamic = false
  healthy : source.fatalError = false
  range : source.availableRange.isSome

namespace RepresentationHolder

variable {numbering calls} {period startTime : Int} {holder : RepresentationHolder}
  {index : DashSegmentIndex}

theorem Plays.toInt32_first (plays : holder.Plays numbering calls period startTime) :
    toInt32 ((numbering period).first + holder.segmentNumShift) = (numbering period).first := by
  have bound := (numbering period).first_le_last
  have lower := (numbering period).lower
  have upper := (numbering period).upper
  rw [plays.shift, Int.add_zero]
  exact toInt32_of_range lower (by omega)

theorem Plays.toInt32_last (plays : holder.Plays numbering calls period startTime) :
    toInt32 ((numbering period).last + holder.segmentNumShift) = (numbering period).last := by
  have bound := (numbering period).first_le_last
  have lower := (numbering period).lower
  have upper := (numbering period).upper
  rw [plays.shift, Int.add_zero]
  exact toInt32_of_range (by omega) upper

theorem Plays.isBeyondLastSegment (plays : holder.Plays numbering calls period startTime)
    (indexed : holder.segmentIndex = some index) (segmentNum : Int) :
    holder.isBeyondLastSegment segmentNum = .ok (decide ((numbering period).last < segmentNum)) := by
  have follows := plays.follows index indexed
  have last : holder.getLastSegmentNum = .ok (numbering period).last := by
    simp only [getLastSegmentNum, withIndex, indexed, follows.lastNum]
  have finite := (numbering period).finite
  rw [RepresentationHolder.isBeyondLastSegment, last]
  show Except.ok _ = _
  rw [plays.toInt32_last]
  simp [finite]

theorem Plays.getFirstSegmentNum (plays : holder.Plays numbering calls period startTime)
    (indexed : holder.segmentIndex = some index) :
    holder.getFirstSegmentNum = .ok (numbering period).first := by
  simp only [RepresentationHolder.getFirstSegmentNum, withIndex, indexed,
    (plays.follows index indexed).firstNum]

theorem Plays.isBeforeFirstSegment (plays : holder.Plays numbering calls period startTime)
    (indexed : holder.segmentIndex = some index) (segmentNum : Int) :
    holder.isBeforeFirstSegment segmentNum =
      .ok (decide (segmentNum < (numbering period).first)) := by
  rw [RepresentationHolder.isBeforeFirstSegment, plays.getFirstSegmentNum indexed]
  show Except.ok _ = _
  rw [plays.toInt32_first]

theorem Plays.getFirstAvailableSegmentNum (plays : holder.Plays numbering calls period startTime)
    (indexed : holder.segmentIndex = some index) :
    holder.getFirstAvailableSegmentNum = .ok (numbering period).first := by
  rw [RepresentationHolder.getFirstAvailableSegmentNum, plays.getFirstSegmentNum indexed]
  show Except.ok _ = _
  rw [plays.toInt32_first]

theorem Plays.getSegmentNum (plays : holder.Plays numbering calls period startTime)
    (indexed : holder.segmentIndex = some index) (position : Int) :
    holder.getSegmentNum position = .ok ((numbering period).numberAt (position - startTime)) := by
  have lower := (numbering period).lower
  have upper := (numbering period).upper
  have first := (numbering period).first_le (position - startTime)
  have last := (numbering period).le_last (position - startTime)
  simp only [RepresentationHolder.getSegmentNum, withIndex, indexed, plays.start,
    (plays.follows index indexed).segmentNum]
  show Except.ok _ = _
  rw [plays.shift, Int.add_zero, toInt32_of_range (by omega) (by omega)]

theorem Plays.internalNum (plays : holder.Plays numbering calls period startTime) {segmentNum : Int}
    (first : (numbering period).first ≤ segmentNum) (last : segmentNum ≤ (numbering period).last) :
    holder.internalNum segmentNum = segmentNum := by
  have lower := (numbering period).lower
  have upper := (numbering period).upper
  rw [RepresentationHolder.internalNum, plays.shift, Int.sub_zero]
  exact toInt32_of_range (by omega) (by omega)

def pendingInitialization (holder : RepresentationHolder) : Bool :=
  holder.mediaFormat.isNone && holder.representation.initializationUri.isSome

def pendingIndex (holder : RepresentationHolder) : Bool :=
  holder.segmentIndex.isNone && holder.representation.indexUri.isSome

def pending (holder : RepresentationHolder) : Nat :=
  holder.pendingInitialization.toNat + holder.pendingIndex.toNat

theorem Plays.indexed (plays : holder.Plays numbering calls period startTime)
    (none : holder.pending = 0) : ∃ index, holder.segmentIndex = some index := by
  cases found : holder.segmentIndex with
  | some index => exact ⟨index, rfl⟩
  | none =>
    have uri := (plays.waits found).2
    simp [pending, pendingIndex, found, uri] at none

theorem Plays.giveInitialization (plays : holder.Plays numbering calls period startTime)
    {count : Nat} {chunk : InitializationChunk} (itsPeriod : chunk.parentId = period)
    (itsFormat : chunk.format = holder.representation.format) :
    (DashChunkSource.giveInitialization holder ((calls count).complete chunk)).Plays numbering calls
      period startTime := by
  have delivers := plays.delivers count chunk itsPeriod itsFormat
  rw [giveInitialization_eq]
  refine ⟨plays.shift, plays.start, ?_, ?_, plays.delivers⟩
  · intro index indexed
    cases found : holder.segmentIndex with
    | some old =>
      rw [found, Option.some_or] at indexed
      cases indexed
      exact plays.follows _ found
    | none =>
      rw [found, Option.none_or, Option.map_eq_some_iff] at indexed
      obtain ⟨seekMap, given, rfl⟩ := indexed
      exact delivers.follows (plays.waits found).1 seekMap given _
  · intro missing
    exact plays.waits (Option.or_eq_none_iff.mp missing).1

structure Asks (holder : RepresentationHolder) (chunk : InitializationChunk) : Prop where
  format : chunk.format = holder.representation.format
  initialization : holder.pendingInitialization = true → chunk.forInitialization = true
  index : holder.pendingInitialization = false → chunk.forIndex = true

theorem pending_giveInitialization {chunk : InitializationChunk} {data : InitializationData}
    {numbers : Numbering} (asks : holder.Asks chunk)
    (delivers : Delivers numbers holder.representation chunk data)
    (unindexed : holder.segmentIndex = none → holder.representation.index = none)
    (some : holder.pending ≠ 0) :
    (DashChunkSource.giveInitialization holder data).pending < holder.pending := by
  have given := giveInitialization_eq holder data
  generalize DashChunkSource.giveInitialization holder data = after at given ⊢
  have initialization : after.pendingInitialization = true → holder.pendingInitialization = true := by
    rw [given]
    cases data.mediaFormat <;> simp [pendingInitialization]
  have index : after.pendingIndex = true → holder.pendingIndex = true := by
    rw [given]
    cases found : holder.segmentIndex <;> simp [pendingIndex, found]
  have loaded : holder.pendingInitialization = true → after.pendingInitialization = false := by
    intro waits
    have uri : holder.representation.initializationUri.isSome := by
      simp only [pendingInitialization, Bool.and_eq_true] at waits
      exact waits.2
    have isSome := delivers.format uri (asks.initialization waits)
    rw [given]
    cases format : data.mediaFormat <;> simp [pendingInitialization, format] at isSome ⊢
  have indexed : holder.pendingInitialization = false → holder.pendingIndex = true →
      after.pendingIndex = false := by
    intro waits indexWaits
    have none : holder.segmentIndex = none := by
      simp only [pendingIndex, Bool.and_eq_true, Option.isNone_iff_eq_none] at indexWaits
      exact indexWaits.1
    have isSome := delivers.index (unindexed none) (asks.index waits)
    rw [given]
    cases seekMap : data.seekMap <;> simp [pendingIndex, seekMap] at isSome ⊢
  unfold pending at some ⊢
  revert some initialization index loaded indexed
  generalize after.pendingInitialization = initialization, after.pendingIndex = index,
    holder.pendingInitialization = before, holder.pendingIndex = beforeIndex
  cases initialization <;> cases index <;> cases before <;> cases beforeIndex <;> simp

end RepresentationHolder

namespace DashChunkSource

variable {numbering calls} {resolve : String → String → String} {rate : PlaybackRate}
  {queue : List MediaChunk} {position : Int} {holder : PeriodHolder} {startingNewPeriod : Bool}
  {selected : Format} {representationHolder : RepresentationHolder}

variable (resolve rate queue position startingNewPeriod) in
theorem nextChunk_pending
    (found : holder.getRepresentationHolder selected.id = some representationHolder)
    (waits : representationHolder.pending ≠ 0) :
    ∃ chunk, nextChunk resolve rate queue position holder startingNewPeriod selected =
        .ok (.initialization chunk) ∧
      chunk.parentId = holder.localIndex ∧ representationHolder.Asks chunk := by
  have uri : (if representationHolder.mediaFormat.isNone then
      representationHolder.representation.initializationUri else none).isSome =
        representationHolder.pendingInitialization := by
    cases format : representationHolder.mediaFormat <;>
      simp [RepresentationHolder.pendingInitialization, format]
  have indexUri : (if representationHolder.segmentIndex.isNone then
      representationHolder.representation.indexUri else none).isSome =
        representationHolder.pendingIndex := by
    cases index : representationHolder.segmentIndex <;>
      simp [RepresentationHolder.pendingIndex, index]
  simp only [nextChunk, found]
  generalize (if representationHolder.mediaFormat.isNone = true then
    representationHolder.representation.initializationUri else none) = pendingUri at uri ⊢
  generalize (if representationHolder.segmentIndex.isNone = true then
    representationHolder.representation.indexUri else none) = pendingIndexUri at indexUri ⊢
  cases pendingUri with
  | some initializationUri =>
    simp only [Option.isSome_some, Bool.true_or, if_true, newInitializationChunk]
    simp only [Option.isSome_some] at uri
    cases merged : initializationUri.attemptMerge resolve pendingIndexUri with
    | some mergedUri => exact ⟨_, rfl, rfl, rfl, fun _ => rfl, fun _ => rfl⟩
    | none => exact ⟨_, rfl, rfl, rfl, fun _ => rfl, fun none => by simp [none] at uri⟩
  | none =>
    cases pendingIndexUri with
    | some indexUri =>
      refine ⟨_, rfl, rfl, rfl, fun some => ?_, fun _ => rfl⟩
      simp [some] at uri
    | none => simp [RepresentationHolder.pending, ← uri, ← indexUri] at waits

variable (resolve) in
theorem nextChunk_media {period startTime number : Int}
    (found : holder.getRepresentationHolder selected.id = some representationHolder)
    (loaded : representationHolder.pending = 0)
    (plays : representationHolder.Plays numbering calls period startTime)
    (segment : segmentToLoad rate queue position startingNewPeriod representationHolder = .ok number)
    (first : (numbering period).first ≤ number) (last : number ≤ (numbering period).last) :
    ∃ chunk, nextChunk resolve rate queue position holder startingNewPeriod selected =
        .ok (.media chunk) ∧
      chunk.parentId = holder.localIndex ∧ chunk.chunkIndex = number ∧
      chunk.format = representationHolder.representation.format := by
  obtain ⟨index, indexed⟩ := plays.indexed loaded
  have internal := plays.internalNum first last
  obtain ⟨uri, located⟩ :=
    Option.isSome_iff_exists.mp ((plays.follows index indexed).located number first last)
  have noUri : (if representationHolder.mediaFormat.isNone then
      representationHolder.representation.initializationUri else none) = none := by
    cases format : representationHolder.mediaFormat with
    | some mediaFormat => rfl
    | none =>
      simpa [RepresentationHolder.pending, RepresentationHolder.pendingInitialization,
        RepresentationHolder.pendingIndex, format, indexed] using loaded
  have segmentUri : representationHolder.getSegmentUri number = .ok (some uri) := by
    simp only [RepresentationHolder.getSegmentUri, RepresentationHolder.withIndex, indexed, internal,
      located]
  have times : ∃ startTime endTime, representationHolder.getSegmentStartTime number = .ok startTime ∧
      representationHolder.getSegmentEndTime number = .ok endTime := by
    simp only [RepresentationHolder.getSegmentStartTime, RepresentationHolder.getSegmentEndTime,
      RepresentationHolder.withIndex, indexed]
    exact ⟨_, _, rfl, rfl⟩
  obtain ⟨startTimeUs, endTimeUs, itsStart, itsEnd⟩ := times
  have made : newMediaChunk holder representationHolder number =
      .ok { parentId := holder.localIndex, format := representationHolder.representation.format,
            chunkIndex := number, startTimeUs, endTimeUs, uri } := by
    simp only [newMediaChunk, itsStart, itsEnd, segmentUri]
    rfl
  simp only [nextChunk, found, noUri, indexed, Option.isNone_some, Bool.false_eq_true, if_false,
    Option.isSome_none, Bool.or_self, segment]
  refine ⟨{ parentId := holder.localIndex, format := representationHolder.representation.format,
            chunkIndex := number, startTimeUs, endTimeUs, uri }, ?_, rfl, rfl, rfl⟩
  show (newMediaChunk holder representationHolder number).bind _ = _
  rw [made]
  rfl

variable {layout : List Span} {source : DashChunkSource}

theorem Ready.nodup (ready : source.Ready numbering calls layout) :
    (source.periodHolders.map PeriodHolder.localIndex).Nodup := by
  have distinct := ready.distinct
  rw [← ready.spans, List.map_map] at distinct
  exact distinct

theorem Ready.unique (ready : source.Ready numbering calls layout) {first second : PeriodHolder}
    (firstHeld : first ∈ source.periodHolders) (secondHeld : second ∈ source.periodHolders)
    (same : first.localIndex = second.localIndex) : first = second :=
  List.inj_on_of_nodup_map ready.nodup firstHeld secondHeld same

theorem Ready.find (ready : source.Ready numbering calls layout)
    (held : holder ∈ source.periodHolders) {period : Int} (index : holder.localIndex = period) :
    (source.periodHolders.find? fun other => other.localIndex = period) = some holder := by
  cases found : source.periodHolders.find? fun other => other.localIndex = period with
  | none =>
    have none := List.find?_eq_none.mp found holder held
    simp [index] at none
  | some other =>
    have otherIndex := List.find?_some found
    simp only [decide_eq_true_eq] at otherIndex
    rw [ready.unique (List.mem_of_find?_eq_some found) held (otherIndex.trans index.symm)]

def Indexed (source : DashChunkSource) (period : Int) (id : String) : Prop :=
  ∃ holder ∈ source.periodHolders, holder.localIndex = period ∧
    ∃ representationHolder, holder.getRepresentationHolder id = some representationHolder ∧
      representationHolder.segmentIndex.isSome

def Loaded (source : DashChunkSource) (queue : List MediaChunk) : Prop :=
  ∀ previous, queue.getLast? = some previous → source.Indexed previous.parentId previous.format.id

def completed (source : DashChunkSource) (holder : PeriodHolder)
    (representationHolder : RepresentationHolder) (id : String) (data : InitializationData) :
    DashChunkSource :=
  { source with
    periodHolders := source.periodHolders.map fun other =>
      if other.localIndex = holder.localIndex then
        { holder with
          representationHolders := PeriodHolder.store holder.representationHolders id
            (giveInitialization representationHolder data) }
      else other }

theorem Ready.onChunkLoadCompleted (ready : source.Ready numbering calls layout)
    (held : holder ∈ source.periodHolders) {chunk : InitializationChunk}
    (index : chunk.parentId = holder.localIndex)
    (found : holder.getRepresentationHolder chunk.format.id = some representationHolder)
    (data : InitializationData) :
    source.onChunkLoadCompleted chunk data =
      .ok (source.completed holder representationHolder chunk.format.id data) := by
  simp only [DashChunkSource.onChunkLoadCompleted, completed, index, ready.find held rfl, found]

variable {count : Nat} {chunk : InitializationChunk}

theorem Ready.completed (ready : source.Ready numbering calls layout)
    (held : holder ∈ source.periodHolders) (index : chunk.parentId = holder.localIndex)
    (found : holder.getRepresentationHolder chunk.format.id = some representationHolder)
    (asks : representationHolder.Asks chunk) :
    (source.completed holder representationHolder chunk.format.id
      ((calls count).complete chunk)).Ready numbering calls layout := by
  have plays := ready.plays holder held
  refine ⟨?_, ready.distinct, ?_, ready.live, ready.static, ready.healthy, ready.range⟩
  · rw [← ready.spans, DashChunkSource.completed, List.map_map]
    apply List.map_congr_left
    intro other member
    by_cases same : other.localIndex = holder.localIndex
    · rw [ready.unique member held same]
      simp [PeriodHolder.span]
    · simp [same]
  · intro after member
    obtain ⟨other, otherMember, rfl⟩ := List.mem_map.mp member
    by_cases same : other.localIndex = holder.localIndex
    · rw [if_pos same]
      have itself := PeriodHolder.getRepresentationHolder_id plays.keyed found
      refine ⟨plays.bounded, ?_, ?_, ?_⟩
      · simpa [PeriodHolder.store] using plays.filled
      · refine PeriodHolder.store_keyed ?_ plays.keyed
        rw [giveInitialization_eq]
        exact itself
      · intro entry entryMember
        obtain ⟨old, oldMember, rfl⟩ := List.mem_map.mp entryMember
        by_cases isId : old.1 = chunk.format.id
        · rw [if_pos isId]
          exact (plays.representations _ (PeriodHolder.mem_of_getRepresentationHolder found))
            |>.giveInitialization index asks.format
        · rw [if_neg isId]
          exact plays.representations old oldMember
    · rw [if_neg same]
      exact ready.plays other otherMember

theorem completed_holds (held : holder ∈ source.periodHolders)
    (found : holder.getRepresentationHolder chunk.format.id = some representationHolder)
    (data : InitializationData) :
    ∃ after ∈ (source.completed holder representationHolder chunk.format.id data).periodHolders,
      after.localIndex = holder.localIndex ∧
      after.getRepresentationHolder chunk.format.id =
        some (giveInitialization representationHolder data) := by
  refine ⟨_, List.mem_map_of_mem held, by rw [if_pos rfl], ?_⟩
  rw [if_pos rfl, PeriodHolder.getRepresentationHolder, PeriodHolder.lookup_store, if_pos rfl]
  rw [PeriodHolder.getRepresentationHolder] at found
  rw [found]
  rfl

theorem Ready.indexed_completed (ready : source.Ready numbering calls layout)
    (held : holder ∈ source.periodHolders)
    (found : holder.getRepresentationHolder chunk.format.id = some representationHolder)
    (data : InitializationData) {period : Int} {id : String} (indexed : source.Indexed period id) :
    (source.completed holder representationHolder chunk.format.id data).Indexed period id := by
  obtain ⟨other, otherHeld, itsIndex, itsHolder, itsFound, itsSegments⟩ := indexed
  by_cases same : other.localIndex = holder.localIndex
  · have isHolder := ready.unique otherHeld held same
    subst isHolder
    refine ⟨_, List.mem_map_of_mem held, by rw [if_pos rfl]; exact itsIndex, ?_⟩
    rw [if_pos rfl, PeriodHolder.getRepresentationHolder, PeriodHolder.lookup_store]
    by_cases isId : id = chunk.format.id
    · subst isId
      rw [found] at itsFound
      cases itsFound
      rw [PeriodHolder.getRepresentationHolder] at found
      refine ⟨giveInitialization representationHolder data, by rw [if_pos rfl, found]; rfl, ?_⟩
      rw [giveInitialization_eq]
      simp [itsSegments]
    · exact ⟨itsHolder, by rw [if_neg isId]; exact itsFound, itsSegments⟩
  · exact ⟨other, List.mem_map.mpr ⟨other, otherHeld, if_neg same⟩, itsIndex, itsHolder, itsFound,
      itsSegments⟩

def Cached (source : DashChunkSource) (period : Int) (budget : Nat) : Prop :=
  source.lastChunkWasInitialization = true ∧
    ∃ cached, source.evaluation.format = some cached ∧
      ∃ holder ∈ source.periodHolders, holder.localIndex = period ∧
        ∃ representationHolder,
          holder.getRepresentationHolder cached.id = some representationHolder ∧
            representationHolder.pending < budget

theorem loadFrom_eq {evaluator : Evaluator} {evaluation : FormatEvaluation} {made : Chunk}
    (evaluated : source.evaluate evaluator queue position holder = evaluation)
    (selection : evaluation.format = some selected)
    (next : nextChunk resolve rate queue position holder startingNewPeriod selected = .ok made) :
    source.loadFrom resolve rate evaluator queue position {} holder startingNewPeriod =
      .ok ({ queueSize := evaluation.queueSize, chunk := some made },
        { source with
          evaluation
          lastChunkWasInitialization := Chunk.isInitialization made }) := by
  simp only [loadFrom, evaluated, selection, Option.any_none, Bool.and_false, Bool.false_eq_true,
    if_false, next]
  rfl

theorem getChunkOperation_eq {range : TimeRange} {now : Int} {evaluator : Evaluator}
    {evaluation : FormatEvaluation} {made : Chunk} {between : DashChunkSource}
    (healthy : source.fatalError = false) (isRange : source.availableRange = some range)
    (chosen : source.choosePeriod rate (range.getCurrentBounds now) queue position =
      .ok (.from holder startingNewPeriod, position, between))
    (evaluated : between.evaluate evaluator queue position holder = evaluation)
    (selection : evaluation.format = some selected)
    (next : nextChunk resolve rate queue position holder startingNewPeriod selected = .ok made) :
    source.getChunkOperation resolve rate evaluator now queue position {} =
      .ok ({ queueSize := evaluation.queueSize, chunk := some made },
        { between with
          evaluation
          lastChunkWasInitialization := Chunk.isInitialization made }) := by
  simp only [getChunkOperation, healthy, isRange, Bool.false_eq_true, if_false]
  rw [chosen]
  exact loadFrom_eq evaluated selection next

end DashChunkSource

structure Leads (layout : List Span) (rate : PlaybackRate) (start : Int) (queue : List MediaChunk)
    (period number : Int) : Prop where
  first : (numbering period).first ≤ number
  last : number ≤ (numbering period).last
  chooses : ∀ (source : DashChunkSource) (position : Int) (bounds : Int × Int),
    source.Ready numbering calls layout → source.Loaded queue → (queue = [] → position = start) →
    ∃ holder ∈ source.periodHolders, holder.localIndex = period ∧
      ∃ startingNewPeriod edge,
        source.choosePeriod rate bounds queue position =
          .ok (.from holder startingNewPeriod, position, { source with startAtLiveEdge := edge }) ∧
        ∀ representationHolder index,
          representationHolder.Plays numbering calls period holder.startTime →
          representationHolder.segmentIndex = some index →
          segmentToLoad rate queue position startingNewPeriod representationHolder = .ok number

section

variable {numbering calls} {layout : List Span} {rate : PlaybackRate} {start period number : Int}
  {queue : List MediaChunk} {source : DashChunkSource}

theorem Playback.call_media {call : Call} {position : Int} {after : DashChunkSource}
    {chunk : MediaChunk} (isPosition : (if queue = [] then start else call.position) = position)
    (operation : source.getChunkOperation call.resolve rate call.evaluator call.now queue position {} =
      .ok ({ queueSize := queue.length, chunk := some (.media chunk) }, after)) :
    Playback.call rate start call { source, queue } =
      .ok { source := after, queue := queue ++ [chunk] } := by
  simp only [Playback.call, Bool.false_eq_true, if_false, isPosition]
  rw [operation]
  simp only [bind, Except.bind, List.take_length]
  rfl

theorem Playback.call_initialization {call : Call} {position : Int} {size : Nat}
    {after completed : DashChunkSource} {chunk : InitializationChunk}
    (isPosition : (if queue = [] then start else call.position) = position)
    (operation : source.getChunkOperation call.resolve rate call.evaluator call.now queue position {} =
      .ok ({ queueSize := size, chunk := some (.initialization chunk) }, after))
    (complete : after.onChunkLoadCompleted chunk (call.complete chunk) = .ok completed) :
    Playback.call rate start call { source, queue } = .ok { source := completed, queue } := by
  simp only [Playback.call, Bool.false_eq_true, if_false, isPosition]
  rw [operation]
  simp only [bind, Except.bind]
  rw [complete]
  rfl

/-- What a call writes besides the holders is not among what playback needs. -/
theorem DashChunkSource.Ready.write (ready : source.Ready numbering calls layout) (edge : Bool)
    (evaluation : FormatEvaluation) (last : Bool) :
    { source with
      startAtLiveEdge := edge
      evaluation
      lastChunkWasInitialization := last }.Ready numbering calls layout :=
  ⟨ready.spans, ready.distinct, ready.plays, ready.live, ready.static, ready.healthy, ready.range⟩

section

variable {holder : PeriodHolder} {representationHolder : RepresentationHolder} {selected : Format}

theorem DashChunkSource.loaded_concat {chunk : MediaChunk} (held : holder ∈ source.periodHolders)
    (itsPeriod : chunk.parentId = holder.localIndex)
    (found : holder.getRepresentationHolder chunk.format.id = some representationHolder)
    (indexed : representationHolder.segmentIndex.isSome) : source.Loaded (queue ++ [chunk]) := by
  intro previous last
  rw [List.getLast?_concat] at last
  cases last
  exact ⟨holder, held, itsPeriod.symm, representationHolder, found, indexed⟩

theorem DashChunkSource.cached_completed {count budget : Nat} {chunk : InitializationChunk}
    (held : holder ∈ source.periodHolders)
    (initialization : source.lastChunkWasInitialization = true)
    (selection : source.evaluation.format = some selected)
    (id : chunk.format.id = selected.id)
    (found : holder.getRepresentationHolder chunk.format.id = some representationHolder)
    (plays : representationHolder.Plays numbering calls holder.localIndex holder.startTime)
    (itsPeriod : chunk.parentId = holder.localIndex) (asks : representationHolder.Asks chunk)
    (waits : representationHolder.pending ≠ 0) (bound : representationHolder.pending ≤ budget) :
    (source.completed holder representationHolder chunk.format.id
      ((calls count).complete chunk)).Cached holder.localIndex budget := by
  have delivers := plays.delivers count chunk itsPeriod asks.format
  have fewer := RepresentationHolder.pending_giveInitialization asks delivers
    (fun missing => (plays.waits missing).1) waits
  obtain ⟨after, afterHeld, afterIndex, afterFound⟩ :=
    completed_holds held found ((calls count).complete chunk)
  rw [id] at afterFound
  exact ⟨initialization, selected, selection, after, afterHeld, afterIndex, _, afterFound, by omega⟩

end

theorem Leads.call (leads : Leads numbering calls layout rate start queue period number)
    (ready : source.Ready numbering calls layout) (loaded : source.Loaded queue) (count budget : Nat)
    (selects : ∀ holder ∈ source.periodHolders, holder.localIndex = period →
      ∀ position edge, ∃ evaluation selected representationHolder,
        { source with startAtLiveEdge := edge }.evaluate (calls count).evaluator queue position
          holder = evaluation ∧
        evaluation.format = some selected ∧ evaluation.queueSize = queue.length ∧
        holder.getRepresentationHolder selected.id = some representationHolder ∧
        representationHolder.pending ≤ budget) :
    (∃ after chunk, Playback.call rate start (calls count) { source, queue } =
        .ok { source := after, queue := queue ++ [chunk] } ∧
      chunk.parentId = period ∧ chunk.chunkIndex = number ∧
      after.Ready numbering calls layout ∧ after.Loaded (queue ++ [chunk]) ∧
      after.lastChunkWasInitialization = false) ∨
    ∃ after, Playback.call rate start (calls count) { source, queue } =
        .ok { source := after, queue } ∧
      after.Ready numbering calls layout ∧ after.Loaded queue ∧ after.Cached period budget := by
  obtain ⟨range, isRange⟩ := Option.isSome_iff_exists.mp ready.range
  generalize isPosition : (if queue = [] then start else (calls count).position) = position
  have atStart : queue = [] → position = start := by
    intro empty
    rw [← isPosition, if_pos empty]
  obtain ⟨holder, held, rfl, startingNewPeriod, edge, chosen, segments⟩ :=
    leads.chooses source position (range.getCurrentBounds (calls count).now) ready loaded atStart
  obtain ⟨evaluation, selected, representationHolder, evaluated, selection, size, found, bound⟩ :=
    selects holder held rfl position edge
  have plays := (ready.plays holder held).representations _
    (PeriodHolder.mem_of_getRepresentationHolder found)
  have itself := PeriodHolder.getRepresentationHolder_id (ready.plays holder held).keyed found
  by_cases none : representationHolder.pending = 0
  · obtain ⟨segmentIndex, indexed⟩ := plays.indexed none
    obtain ⟨chunk, next, itsPeriod, itsNumber, itsFormat⟩ := nextChunk_media
      (calls count).resolve found none plays
      (segments representationHolder segmentIndex plays indexed) leads.first leads.last
    have operation := getChunkOperation_eq ready.healthy isRange chosen evaluated selection next
    rw [size] at operation
    have id : chunk.format.id = selected.id := by rw [itsFormat, itself]
    rw [← id] at found
    exact .inl ⟨_, chunk, Playback.call_media isPosition operation, itsPeriod, itsNumber,
      ready.write edge evaluation _,
      loaded_concat held itsPeriod found (Option.isSome_of_eq_some indexed), rfl⟩
  · obtain ⟨chunk, next, itsPeriod, asks⟩ := nextChunk_pending (calls count).resolve rate queue
      position startingNewPeriod found none
    have operation := getChunkOperation_eq ready.healthy isRange chosen evaluated selection next
    have id : chunk.format.id = selected.id := by rw [asks.format, itself]
    rw [← id] at found
    have loading := ready.write edge evaluation true
    have complete := loading.onChunkLoadCompleted held itsPeriod found ((calls count).complete chunk)
    refine .inr ⟨_, Playback.call_initialization isPosition operation complete,
      loading.completed held itsPeriod found asks, ?_,
      cached_completed held rfl selection id found plays itsPeriod asks none bound⟩
    intro previous isLast
    exact loading.indexed_completed held found _ (loaded previous isLast)

theorem RepresentationHolder.pending_le (holder : RepresentationHolder) : holder.pending ≤ 2 := by
  have first := Bool.toNat_le holder.pendingInitialization
  have second := Bool.toNat_le holder.pendingIndex
  unfold RepresentationHolder.pending
  omega

variable (numbering calls) in
structure Arrived (layout : List Span) (queue : List MediaChunk) (period number : Int)
    (chunk : MediaChunk) (after : DashChunkSource) : Prop where
  period : chunk.parentId = period
  number : chunk.chunkIndex = number
  ready : after.Ready numbering calls layout
  loaded : after.Loaded (queue ++ [chunk])
  evaluates : after.lastChunkWasInitialization = false

variable {origin : DashChunkSource} {count : Nat}

theorem Leads.advance_cached (leads : Leads numbering calls layout rate start queue period number)
    {budget : Nat} (ready : source.Ready numbering calls layout) (loaded : source.Loaded queue)
    (cached : source.Cached period budget)
    (played : play origin rate start calls count = .ok { source, queue }) :
    ∃ later after chunk, play origin rate start calls later =
        .ok { source := after, queue := queue ++ [chunk] } ∧
      Arrived numbering calls layout queue period number chunk after := by
  induction budget generalizing source count with
  | zero =>
    obtain ⟨_, _, _, _, _, _, _, _, none⟩ := cached
    omega
  | succ budget ih =>
    obtain ⟨last, selected, format, holder, held, index, representationHolder, found, bound⟩ := cached
    have selects : ∀ other ∈ source.periodHolders, other.localIndex = period →
        ∀ position edge, ∃ evaluation selected representationHolder,
          { source with startAtLiveEdge := edge }.evaluate (calls count).evaluator queue position
            other = evaluation ∧
          evaluation.format = some selected ∧ evaluation.queueSize = queue.length ∧
          other.getRepresentationHolder selected.id = some representationHolder ∧
          representationHolder.pending ≤ budget := by
      intro other otherHeld otherIndex position edge
      rw [ready.unique otherHeld held (otherIndex.trans index.symm)]
      refine ⟨{ source.evaluation with queueSize := queue.length }, selected, representationHolder,
        ?_, format, rfl, found, by omega⟩
      simp [evaluate, last, format]
    have step : play origin rate start calls (count + 1) =
        Playback.call rate start (calls count) { source, queue } := by
      rw [play, played]
      rfl
    rcases leads.call ready loaded count budget selects with
      ⟨after, chunk, called, itsPeriod, itsNumber, afterReady, afterLoaded, evaluates⟩ |
      ⟨after, called, afterReady, afterLoaded, afterCached⟩
    · exact ⟨count + 1, after, chunk, step.trans called, itsPeriod, itsNumber, afterReady,
        afterLoaded, evaluates⟩
    · exact ih afterReady afterLoaded afterCached (step.trans called)

/-- From a state that evaluates, some calls later the segment has been loaded. -/
theorem Leads.advance (leads : Leads numbering calls layout rate start queue period number)
    (picks : ∀ count, Picks (calls count).evaluator)
    (ready : source.Ready numbering calls layout) (loaded : source.Loaded queue)
    (evaluates : source.lastChunkWasInitialization = false)
    (played : play origin rate start calls count = .ok { source, queue }) :
    ∃ later after chunk, play origin rate start calls later =
        .ok { source := after, queue := queue ++ [chunk] } ∧
      Arrived numbering calls layout queue period number chunk after := by
  have selects : ∀ holder ∈ source.periodHolders, holder.localIndex = period →
      ∀ position edge, ∃ evaluation selected representationHolder,
        { source with startAtLiveEdge := edge }.evaluate (calls count).evaluator queue position
          holder = evaluation ∧
        evaluation.format = some selected ∧ evaluation.queueSize = queue.length ∧
        holder.getRepresentationHolder selected.id = some representationHolder ∧
        representationHolder.pending ≤ 2 := by
    intro holder held index position edge
    have plays := ready.plays holder held
    have some : holder.formats ≠ [] := by
      simpa [PeriodHolder.formats] using plays.filled
    obtain ⟨⟨selected, listed, format⟩, size⟩ := picks count queue position holder.formats
      { source.evaluation with queueSize := queue.length } some
    obtain ⟨representationHolder, found⟩ := Option.isSome_iff_exists.mp
      (PeriodHolder.getRepresentationHolder_of_mem_formats plays.keyed listed)
    refine ⟨_, selected, representationHolder, rfl, ?_, ?_, found, representationHolder.pending_le⟩
    · simpa [evaluate, evaluates] using format
    · simpa [evaluate, evaluates] using size
  have step : play origin rate start calls (count + 1) =
      Playback.call rate start (calls count) { source, queue } := by
    rw [play, played]
    rfl
  rcases leads.call ready loaded count 2 selects with
    ⟨after, chunk, called, itsPeriod, itsNumber, afterReady, afterLoaded, evaluates⟩ |
    ⟨after, called, afterReady, afterLoaded, afterCached⟩
  · exact ⟨count + 1, after, chunk, step.trans called, itsPeriod, itsNumber, afterReady,
      afterLoaded, evaluates⟩
  · exact leads.advance_cached afterReady afterLoaded afterCached (step.trans called)

end

end

end NDash.Dash

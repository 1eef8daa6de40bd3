import NDash.Dash.DashChunkSourceForward

set_option autoImplicit false

namespace NDash.Dash.DashChunkSource

open Mpd

structure Exhausted (source : DashChunkSource) (queue : List MediaChunk) (previous : MediaChunk)
    (before : List PeriodHolder) (holder : PeriodHolder) (behind : List PeriodHolder) : Prop where
  last : queue.getLast? = some previous
  holders : source.periodHolders = before ++ holder :: behind
  consecutive : ∃ first, source.periodHolders.map PeriodHolder.localIndex =
    indicesFrom first source.periodHolders.length
  period : holder.localIndex = previous.parentId
  bounded : holder.indexIsUnbounded = false
  representation : ∃ representationHolder,
    holder.getRepresentationHolder previous.format.id = some representationHolder ∧
      representationHolder.isBeyondLastSegment previous.getNextChunkIndex = .ok true

theorem moveToNextPeriod_first {empty : List PeriodHolder} {next : PeriodHolder}
    (none : ∀ holder ∈ empty, holder.representationHolders = [])
    (some : next.representationHolders ≠ []) (later : List PeriodHolder) :
    moveToNextPeriod (empty ++ next :: later) = .ok next := by
  induction empty with
  | nil => rw [List.nil_append, moveToNextPeriod, if_neg some]
  | cons holder empty ih =>
    rw [List.cons_append, moveToNextPeriod, if_pos (none holder List.mem_cons_self)]
    exact ih fun other member => none other (List.mem_cons_of_mem _ member)

theorem moveOn_backwards (source : DashChunkSource) {rate : PlaybackRate}
    (backwards : rate.isForward = false) (previous : MediaChunk) :
    ∃ choice, source.moveOn rate previous = .ok choice := by
  unfold moveOn
  rw [backwards]
  simp only [Bool.false_eq_true, if_false]
  split
  · exact ⟨_, rfl⟩
  · exact ⟨_, rfl⟩

section Exhausted

variable {source : DashChunkSource} {queue : List MediaChunk} {previous : MediaChunk}
  {before behind : List PeriodHolder} {holder : PeriodHolder} {rate : PlaybackRate}
  (exhausted : source.Exhausted queue previous before holder behind)

include exhausted

theorem Exhausted.stands : source.Stands previous before holder behind := by
  obtain ⟨first, indices⟩ := exhausted.consecutive
  refine ⟨exhausted.holders, ?_, exhausted.period⟩
  rw [indices]
  exact nodup_indicesFrom first source.periodHolders.length

theorem Exhausted.choosePeriod (forward : rate.isForward = true) {bounds : Int × Int}
    (inWindow : ¬ (source.live = true ∧ previous.endTimeUs < bounds.1))
    (known : ¬ (source.currentManifest.dynamic = true ∧ bounds.2 ≤ previous.endTimeUs))
    (position : Int) :
    source.choosePeriod rate bounds queue position =
      (if behind.isEmpty then
        .ok (.stop (!source.currentManifest.dynamic && rate.isNormal))
      else source.moveOn rate previous).map
        fun choice => (choice, position, { source with startAtLiveEdge := false }) := by
  obtain ⟨representationHolder, found, beyond⟩ := exhausted.representation
  have follows : followsOutside rate representationHolder previous = .ok true := by
    rw [followsOutside, if_pos forward, beyond]
  have chosen := exhausted.stands.choosePeriod found follows exhausted.last exhausted.bounded inWindow
    known position
  simpa only [Bool.and_true, if_true] using chosen

end Exhausted

section Chosen

variable {source after : DashChunkSource} {range : TimeRange} {rate : PlaybackRate} {now : Int}
  {queue : List MediaChunk} {position found : Int} (running : source.fatalError = false)
  (published : source.availableRange = some range) (resolve : String → String → String)
  (evaluator : Evaluator) (out : ChunkOperationHolder)

include running published

theorem getChunkOperation_stop {endOfStream : Bool}
    (chosen : source.choosePeriod rate (range.getCurrentBounds now) queue position =
      .ok (.stop endOfStream, found, after)) :
    source.getChunkOperation resolve rate evaluator now queue position out =
      .ok ({ out with chunk := none, endOfStream := out.endOfStream || endOfStream }, after) := by
  unfold getChunkOperation
  rw [if_neg (by simp [running]), published]
  dsimp only
  rw [chosen]
  rfl

theorem getChunkOperation_from {holder : PeriodHolder} {startingNewPeriod : Bool}
    (chosen : source.choosePeriod rate (range.getCurrentBounds now) queue position =
      .ok (.from holder startingNewPeriod, found, after)) :
    source.getChunkOperation resolve rate evaluator now queue position out =
      after.loadFrom resolve rate evaluator queue found out holder startingNewPeriod := by
  unfold getChunkOperation
  rw [if_neg (by simp [running]), published]
  dsimp only
  rw [chosen]
  rfl

end Chosen

/-- Behind the last chunk of a period, playback goes on in the first later period that has a
representation; behind that of the last period it has come to its end. -/
theorem getChunkOperation_exhausted {source : DashChunkSource} {queue : List MediaChunk}
    {previous : MediaChunk} {before behind : List PeriodHolder} {holder : PeriodHolder}
    {range : TimeRange} (rate : PlaybackRate) (now : Int)
    (exhausted : source.Exhausted queue previous before holder behind)
    (running : source.fatalError = false) (published : source.availableRange = some range)
    (inWindow : ¬ (source.live = true ∧ previous.endTimeUs < (range.getCurrentBounds now).1))
    (known : ¬ (source.currentManifest.dynamic = true ∧
      (range.getCurrentBounds now).2 ≤ previous.endTimeUs))
    (forward : rate.isForward = true) (resolve : String → String → String) (evaluator : Evaluator)
    (position : Int) (out : ChunkOperationHolder) :
    (∀ empty next later, behind = empty ++ next :: later →
      (∀ other ∈ empty, other.representationHolders = []) → next.representationHolders ≠ [] →
        source.getChunkOperation resolve rate evaluator now queue position out =
          { source with startAtLiveEdge := false }.loadFrom resolve rate evaluator queue position out
            next true) ∧
      (behind = [] → source.getChunkOperation resolve rate evaluator now queue position out =
        .ok ({ out with
            chunk := none
            endOfStream := out.endOfStream || (!source.currentManifest.dynamic && rate.isNormal) },
          { source with startAtLiveEdge := false })) ∧
      ∀ reverse : PlaybackRate, reverse.isForward = false →
        ∃ choice, source.moveOn reverse previous = .ok choice := by
  have chosen := exhausted.choosePeriod forward inWindow known position
  refine ⟨?_, ?_, fun reverse backwards => source.moveOn_backwards backwards previous⟩
  · intro empty next later split none some
    have moved : source.moveOn rate previous = .ok (.from next true) := by
      simp only [moveOn, if_pos forward]
      rw [exhausted.stands.dropWhile, List.tail_cons, split, moveToNextPeriod_first none some later]
      rfl
    have more : behind.isEmpty = false := by simp [split]
    rw [more, moved] at chosen
    exact getChunkOperation_from running published resolve evaluator out chosen
  · rintro rfl
    exact getChunkOperation_stop running published resolve evaluator out chosen

namespace Sample

def media (index : Nat) : PeriodHolder where
  localIndex := index
  startTime := index * 4000000
  representationHolders := [("video", .create (index * 4000000) 4000000 {
    format := { id := "video" }
    index := some (numberedSegments.index fun timestamp _ _ => timestamp) })]
  representationIndices := [0]
  indexIsUnbounded := false
  availableStartTime := index * 4000000
  availableEndTime := index * 4000000 + 4000000

def empty (index : Nat) : PeriodHolder where
  localIndex := index
  startTime := index * 4000000
  indexIsUnbounded := false
  indexIsExplicit := true
  availableStartTime := index * 4000000
  availableEndTime := index * 4000000 + 4000000

def source (holders : List PeriodHolder) : DashChunkSource where
  currentManifest := { periods := [] }
  trackCriteria := anyTrack
  periodHolders := holders
  availableRange := some (.static 0 (holders.length * 4000000))

def lastSegment : MediaChunk where
  parentId := 0
  format := { id := "video" }
  chunkIndex := 2
  startTimeUs := 2000000
  endTimeUs := 4000000
  uri := .create "segment.mp4" "" 0 (-1)

theorem exhausted {behind : List PeriodHolder}
    (consecutive : behind.map PeriodHolder.localIndex = indicesFrom 1 behind.length) :
    (source (media 0 :: behind)).Exhausted [lastSegment] lastSegment [] (media 0) behind := by
  refine ⟨rfl, rfl, ⟨0, ?_⟩, rfl, rfl, ⟨_, rfl, by decide⟩⟩
  change (0 : Int) :: behind.map PeriodHolder.localIndex = indicesFrom 0 (behind.length + 1)
  rw [consecutive, indicesFrom_succ]
  rfl

end Sample

open Sample in
theorem getChunkOperation_exhausted_over_empty :
    (source [media 0, empty 1, media 2]).getChunkOperation (· ++ ·) {} firstFormat 0 [lastSegment] 0 {} =
      { source [media 0, empty 1, media 2] with startAtLiveEdge := false }.loadFrom (· ++ ·) {}
        firstFormat [lastSegment] 0 {} (media 2) true := by
  have found : (source [media 0, empty 1, media 2]).Exhausted [lastSegment] lastSegment [] (media 0)
      [empty 1, media 2] := exhausted (by decide)
  obtain ⟨continues, -, -⟩ := getChunkOperation_exhausted {} 0 found rfl rfl (by decide)
    (by decide) rfl (· ++ ·) firstFormat 0 {}
  exact continues [empty 1] (media 2) [] rfl (by simp [empty]) (by simp [media])

/-- At the end of a static presentation, a forward rate other than the normal one does not signal the
end of the stream; and a scan over trailing periods without representations reads the key behind the
last of them. -/
theorem getChunkOperation_exhausted_ends :
    let fast : PlaybackRate := { isNormal := false }
    (Sample.source [Sample.media 0]).Exhausted [Sample.lastSegment] Sample.lastSegment []
        (Sample.media 0) [] ∧
      ((Sample.source [Sample.media 0]).getChunkOperation (· ++ ·) fast firstFormat 0
        [Sample.lastSegment] 0 {}).map Prod.fst = .ok { chunk := none, endOfStream := false } ∧
      (Sample.source [Sample.media 0, Sample.empty 1]).Exhausted [Sample.lastSegment]
        Sample.lastSegment [] (Sample.media 0) [Sample.empty 1] ∧
      ((Sample.source [Sample.media 0, Sample.empty 1]).getChunkOperation (· ++ ·) {} firstFormat 0
        [Sample.lastSegment] 0 {}).map Prod.fst = .error .outOfBounds := by
  refine ⟨Sample.exhausted rfl, by decide, Sample.exhausted (by decide), by decide⟩

end NDash.Dash.DashChunkSource

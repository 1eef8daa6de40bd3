import NDash.Dash.DashChunkSourcePlayback

set_option autoImplicit false

namespace NDash.Dash

open Mpd Extractor DashChunkSource

def startSpan (layout : List Span) (start : Int) : Option Span :=
  match layout with
  | [] => none
  | first :: later =>
    if start < first.availableStartTime then some first
    else (first :: later).find? fun span => start < span.availableEndTime

namespace DashChunkSource

structure Stands (source : DashChunkSource) (previous : MediaChunk) (earlier : List PeriodHolder)
    (holder : PeriodHolder) (later : List PeriodHolder) : Prop where
  holders : source.periodHolders = earlier ++ holder :: later
  distinct : (source.periodHolders.map PeriodHolder.localIndex).Nodup
  period : holder.localIndex = previous.parentId

namespace Stands

variable {source : DashChunkSource} {previous : MediaChunk} {earlier later : List PeriodHolder}
  {holder : PeriodHolder} {representationHolder : RepresentationHolder} {rate : PlaybackRate}
  {outside : Bool} (stands : source.Stands previous earlier holder later)

include stands

theorem elsewhere {other : PeriodHolder} (member : other ∈ earlier ∨ other ∈ later) :
    other.localIndex ≠ previous.parentId := by
  have distinct := stands.distinct
  rw [stands.holders, List.map_append, List.map_cons] at distinct
  rw [← stands.period]
  intro same
  have apart := List.nodup_append.mp distinct
  rcases member with member | member
  · exact apart.2.2 _ (List.mem_map_of_mem member) _ List.mem_cons_self same
  · have absent := (List.nodup_cons.mp apart.2.1).1
    rw [← same] at absent
    exact absent (List.mem_map_of_mem member)

theorem find :
    source.periodHolders.find? (fun other => other.localIndex = previous.parentId) = some holder := by
  have none : earlier.find? (fun other => other.localIndex = previous.parentId) = none := by
    refine List.find?_eq_none.mpr fun other member => ?_
    simpa using stands.elsewhere (.inl member)
  rw [stands.holders, List.find?_append, none, Option.none_or,
    List.find?_cons_of_pos (by simp [stands.period])]

theorem dropWhile :
    source.periodHolders.dropWhile (fun other => other.localIndex ≠ previous.parentId) =
      holder :: later := by
  rw [stands.holders, List.dropWhile_append_of_pos]
  · rw [List.dropWhile_cons_of_neg (by simp [stands.period])]
  · intro other member
    simpa using stands.elsewhere (.inl member)

theorem takeWhile :
    source.periodHolders.takeWhile (fun other => other.localIndex ≠ previous.parentId) = earlier := by
  rw [stands.holders, List.takeWhile_append_of_pos]
  · rw [List.takeWhile_cons_of_neg (by simp [stands.period]), List.append_nil]
  · intro other member
    simpa using stands.elsewhere (.inl member)

variable (found : holder.getRepresentationHolder previous.format.id = some representationHolder)
  (follows : followsOutside rate representationHolder previous = .ok outside)

include found follows

theorem fellOffEnd : source.fellOffEnd rate previous = .ok (later.isEmpty && outside) := by
  unfold DashChunkSource.fellOffEnd
  cases later with
  | nil =>
    rw [stands.holders, List.getLast?_concat]
    simp only [stands.period, ne_eq, not_true_eq_false, if_false, found]
    rw [follows]
    rfl
  | cons next rest =>
    obtain ⟨last, isLast⟩ : ∃ last, (next :: rest).getLast? = some last :=
      ⟨_, List.getLast?_eq_some_getLast (List.cons_ne_nil _ _)⟩
    have other := stands.elsewhere (.inr (List.mem_of_getLast? isLast))
    rw [stands.holders, List.getLast?_append_of_ne_nil _ (List.cons_ne_nil _ _),
      List.getLast?_cons_cons, isLast]
    simp only [Ne.symm other, ne_eq, not_false_eq_true, if_true]
    rfl

theorem periodAfter (bounded : holder.indexIsUnbounded = false) :
    source.periodAfter rate previous =
      if outside then source.moveOn rate previous else .ok (.from holder false) := by
  unfold DashChunkSource.periodAfter
  rw [stands.find]
  simp only [bounded, Bool.false_eq_true, if_false, found]
  rw [follows]
  rfl

theorem choosePeriod {queue : List MediaChunk} {bounds : Int × Int}
    (last : queue.getLast? = some previous) (bounded : holder.indexIsUnbounded = false)
    (inWindow : ¬ (source.live = true ∧ previous.endTimeUs < bounds.1))
    (known : ¬ (source.currentManifest.dynamic = true ∧ bounds.2 ≤ previous.endTimeUs))
    (position : Int) :
    source.choosePeriod rate bounds queue position =
      (if later.isEmpty && outside then
        .ok (.stop (!source.currentManifest.dynamic && rate.isNormal))
      else if outside then source.moveOn rate previous
      else .ok (.from holder false)).map
        fun choice => (choice, position, { source with startAtLiveEdge := false }) := by
  have started : { source with startAtLiveEdge := false }.Stands previous earlier holder later :=
    ⟨stands.holders, stands.distinct, stands.period⟩
  have sameMove : source.moveOn rate previous =
      { source with startAtLiveEdge := false }.moveOn rate previous := rfl
  have notBehind : (source.live && decide (previous.endTimeUs < bounds.1)) = false := by
    simpa using inWindow
  have notAhead : (source.currentManifest.dynamic && decide (previous.endTimeUs ≥ bounds.2)) =
      false := by
    simpa using known
  rw [DashChunkSource.choosePeriod, last, sameMove]
  simp only [choosePeriodAfter, notBehind, notAhead, Bool.false_eq_true, if_false]
  rw [started.fellOffEnd found follows, started.periodAfter found follows bounded]
  cases later.isEmpty <;> cases outside <;>
    cases { source with startAtLiveEdge := false }.moveOn rate previous <;> rfl

end Stands

end DashChunkSource

section

variable {numbering : Int → Numbering} {calls : Nat → Call} {layout before behind : List Span}
  {span : Span} {rate : PlaybackRate} {queue : List MediaChunk} {source : DashChunkSource}

theorem scan_eq {holders : List PeriodHolder} {position : Int}
    (plays : ∀ holder ∈ holders, holder.Plays numbering calls) :
    findPeriodHolder.scan position holders =
      .ok (holders.find? fun holder => position < holder.availableEndTime) := by
  induction holders with
  | nil => rfl
  | cons holder later ih =>
    have here := plays holder List.mem_cons_self
    rw [findPeriodHolder.scan, PeriodHolder.getAvailableEndTime, here.bounded]
    by_cases inside : position < holder.availableEndTime
    · simp [inside, here.filled]
    · simpa [inside] using ih fun other member => plays other (List.mem_cons_of_mem _ member)

theorem DashChunkSource.Ready.findPeriodHolder (ready : source.Ready numbering calls layout)
    {start : Int} (starts : startSpan layout start = some span) :
    ∃ holder ∈ source.periodHolders, holder.span = span ∧
      findPeriodHolder source.periodHolders start = .ok (some holder) := by
  have plays := ready.plays
  rw [← ready.spans] at starts
  unfold DashChunkSource.findPeriodHolder
  cases holders : source.periodHolders with
  | nil => simp [holders, startSpan] at starts
  | cons first later =>
    rw [holders] at starts plays
    have filled := (plays first List.mem_cons_self).filled
    simp only [List.map_cons, startSpan] at starts
    split at starts
    · rename_i early
      cases starts
      exact ⟨first, List.mem_cons_self, rfl, if_pos ⟨early, filled⟩⟩
    · rename_i late
      rw [← List.map_cons, List.find?_map, Option.map_eq_some_iff] at starts
      obtain ⟨holder, found, itsSpan⟩ := starts
      refine ⟨holder, List.mem_of_find?_eq_some found, itsSpan, ?_⟩
      dsimp only
      rw [if_neg (fun both => late both.1), scan_eq plays]
      exact congrArg Except.ok found

theorem leads_start {start : Int} (starts : startSpan layout start = some span) :
    Leads numbering calls layout rate start [] span.index
      ((numbering span.index).numberAt (start - span.startTime)) := by
  refine ⟨(numbering span.index).first_le _, (numbering span.index).le_last _, ?_⟩
  intro source position bounds ready _ atStart
  obtain ⟨holder, held, itsSpan, found⟩ := ready.findPeriodHolder starts
  have startTime : holder.startTime = span.startTime := congrArg Span.startTime itsSpan
  rw [atStart rfl]
  refine ⟨holder, held, congrArg Span.index itsSpan, true, source.startAtLiveEdge, ?_, ?_⟩
  · have started : source.liveStart bounds start = (source, start) := by
      simp [liveStart, ready.live]
    simp only [choosePeriod, List.getLast?_nil, started]
    rw [found]
    rfl
  · intro representationHolder index plays indexed
    rw [← startTime]
    exact plays.getSegmentNum indexed start

def outside (rate : PlaybackRate) (numbers : Numbering) (previous : MediaChunk) : Bool :=
  if rate.isForward then numbers.last < previous.chunkIndex + 1
  else previous.chunkIndex - 1 < numbers.first

structure Behind (source : DashChunkSource) (before behind : List Span) (previous : MediaChunk)
    (earlier : List PeriodHolder) (holder : PeriodHolder) (later : List PeriodHolder)
    (representationHolder : RepresentationHolder) (index : DashSegmentIndex) : Prop where
  holders : source.periodHolders = earlier ++ holder :: later
  earlierSpans : earlier.map PeriodHolder.span = before
  laterSpans : later.map PeriodHolder.span = behind
  period : holder.localIndex = previous.parentId
  found : holder.getRepresentationHolder previous.format.id = some representationHolder
  indexed : representationHolder.segmentIndex = some index

variable {previous : MediaChunk} {earlier later : List PeriodHolder} {holder : PeriodHolder}
  {representationHolder : RepresentationHolder} {index : DashSegmentIndex}

theorem DashChunkSource.Ready.exists_behind (ready : source.Ready numbering calls layout)
    (loaded : source.Loaded queue) (split : layout = before ++ span :: behind)
    (last : queue.getLast? = some previous) (period : previous.parentId = span.index) :
    ∃ earlier holder later representationHolder index,
      Behind source before behind previous earlier holder later representationHolder index := by
  have spans := ready.spans
  rw [split] at spans
  obtain ⟨earlier, rest, holders, earlierSpans, restSpans⟩ := List.map_eq_append_iff.mp spans
  obtain ⟨holder, later, rfl, itsSpan, laterSpans⟩ := List.map_eq_cons_iff.mp restSpans
  have held : holder ∈ source.periodHolders := by
    rw [holders]
    exact List.mem_append_right _ List.mem_cons_self
  have itsPeriod : holder.localIndex = previous.parentId :=
    (congrArg Span.index itsSpan).trans period.symm
  obtain ⟨other, otherHeld, otherPeriod, representationHolder, found, indexed⟩ := loaded previous last
  rw [ready.unique otherHeld held (otherPeriod.trans itsPeriod.symm)] at found
  obtain ⟨index, indexed⟩ := Option.isSome_iff_exists.mp indexed
  exact ⟨earlier, holder, later, representationHolder, index, holders, earlierSpans, laterSpans,
    itsPeriod, found, indexed⟩

variable (here : Behind source before behind previous earlier holder later representationHolder index)

include here

theorem Behind.held : holder ∈ source.periodHolders := by
  rw [here.holders]
  exact List.mem_append_right _ List.mem_cons_self

theorem Behind.followsOutside (ready : source.Ready numbering calls layout) :
    followsOutside rate representationHolder previous =
      .ok (outside rate (numbering previous.parentId) previous) := by
  have plays := (ready.plays holder here.held).representations _
    (PeriodHolder.mem_of_getRepresentationHolder here.found)
  dsimp only at plays
  rw [here.period] at plays
  unfold DashChunkSource.followsOutside outside
  cases rate.isForward with
  | true => exact plays.isBeyondLastSegment here.indexed _
  | false => exact plays.isBeforeFirstSegment here.indexed _

theorem Behind.stands (ready : source.Ready numbering calls layout) :
    source.Stands previous earlier holder later :=
  ⟨here.holders, ready.nodup, here.period⟩

theorem Behind.choosePeriod (ready : source.Ready numbering calls layout)
    (last : queue.getLast? = some previous) (bounds : Int × Int) (position : Int) :
    source.choosePeriod rate bounds queue position =
      (if later.isEmpty && outside rate (numbering previous.parentId) previous then
        .ok (.stop rate.isNormal)
      else if outside rate (numbering previous.parentId) previous then source.moveOn rate previous
      else .ok (.from holder false)).map
        fun choice => (choice, position, { source with startAtLiveEdge := false }) := by
  have follows : DashChunkSource.followsOutside rate representationHolder previous =
      .ok (outside rate (numbering previous.parentId) previous) := here.followsOutside ready
  have inWindow : ¬ (source.live = true ∧ previous.endTimeUs < bounds.1) := by simp [ready.live]
  have known : ¬ (source.currentManifest.dynamic = true ∧ bounds.2 ≤ previous.endTimeUs) := by
    simp [ready.static]
  have chosen := (here.stands ready).choosePeriod here.found follows last
    (ready.plays holder here.held).bounded inWindow known position
  simpa only [ready.static, Bool.not_false, Bool.true_and] using chosen

omit here

def followingNumber (rate : PlaybackRate) (previous : MediaChunk) : Int :=
  if rate.isForward then previous.chunkIndex + 1 else previous.chunkIndex - 1

theorem leads_within {start : Int} (split : layout = before ++ span :: behind)
    (last : queue.getLast? = some previous) (period : previous.parentId = span.index)
    (lower : (numbering span.index).first ≤ previous.chunkIndex)
    (upper : previous.chunkIndex ≤ (numbering span.index).last)
    (within : outside rate (numbering span.index) previous = false) :
    Leads numbering calls layout rate start queue span.index (followingNumber rate previous) := by
  have range : (numbering span.index).first ≤ followingNumber rate previous ∧
      followingNumber rate previous ≤ (numbering span.index).last := by
    unfold outside at within
    unfold followingNumber
    split at within
    · rename_i forward
      rw [if_pos forward]
      simp only [decide_eq_false_iff_not] at within
      omega
    · rename_i reverse
      rw [if_neg reverse]
      simp only [decide_eq_false_iff_not] at within
      omega
  refine ⟨range.1, range.2, ?_⟩
  intro source position bounds ready loaded _
  obtain ⟨earlier, holder, later, representationHolder, index, here⟩ :=
    ready.exists_behind loaded split last period
  refine ⟨holder, here.held, here.period.trans period, false, false, ?_, ?_⟩
  · rw [here.choosePeriod ready last, period, within, Bool.and_false]
    rfl
  · intro representationHolder index _ _
    simp only [segmentToLoad, last, Bool.false_eq_true, if_false]
    unfold followingNumber
    split
    · rfl
    · rfl

theorem leads_across {start : Int} {entered : Span} (split : layout = before ++ span :: behind)
    (last : queue.getLast? = some previous) (period : previous.parentId = span.index)
    (beyond : outside rate (numbering span.index) previous = true) (more : behind ≠ [])
    (moves : ∀ (source : DashChunkSource) earlier holder later representationHolder index,
      source.Ready numbering calls layout →
      Behind source before behind previous earlier holder later representationHolder index →
      ∃ next ∈ source.periodHolders, next.span = entered ∧
        source.moveOn rate previous = .ok (.from next true)) :
    Leads numbering calls layout rate start queue entered.index
      (numbering entered.index).first := by
  refine ⟨Int.le_refl _, (numbering entered.index).first_le_last, ?_⟩
  intro source position bounds ready loaded _
  obtain ⟨earlier, holder, later, representationHolder, index, here⟩ :=
    ready.exists_behind loaded split last period
  obtain ⟨next, held, itsSpan, moved⟩ := moves source _ _ _ _ _ ready here
  have some : later.isEmpty = false := by
    rw [List.isEmpty_eq_false_iff]
    intro none
    have spans := here.laterSpans
    rw [none] at spans
    exact more spans.symm
  refine ⟨next, held, congrArg Span.index itsSpan, true, false, ?_, ?_⟩
  · rw [here.choosePeriod ready last, period, beyond, some, moved]
    rfl
  · intro representationHolder index plays indexed
    simp only [segmentToLoad, last, if_true]
    exact plays.getFirstAvailableSegmentNum indexed

theorem leads_next {start : Int} {next : Span} {rest : List Span}
    (split : layout = before ++ span :: next :: rest) (forward : rate.isForward = true)
    (last : queue.getLast? = some previous) (period : previous.parentId = span.index)
    (beyond : outside rate (numbering span.index) previous = true) :
    Leads numbering calls layout rate start queue next.index (numbering next.index).first := by
  refine leads_across split last period beyond (List.cons_ne_nil _ _) ?_
  intro source earlier holder later representationHolder index ready here
  obtain ⟨entered, others, rfl, itsSpan, -⟩ := List.map_eq_cons_iff.mp here.laterSpans
  have held : entered ∈ source.periodHolders := by
    rw [here.holders]
    simp
  refine ⟨entered, held, itsSpan, ?_⟩
  have filled := (ready.plays entered held).filled
  simp only [moveOn, forward, if_true]
  rw [(here.stands ready).dropWhile]
  simp only [List.tail_cons, moveToNextPeriod, filled, if_false]
  rfl

theorem leads_previous {start : Int} {former : Span} {rest : List Span}
    (split : layout = (rest ++ [former]) ++ span :: behind) (reverse : rate.isForward = false)
    (last : queue.getLast? = some previous) (period : previous.parentId = span.index)
    (beyond : outside rate (numbering span.index) previous = true) (more : behind ≠ []) :
    Leads numbering calls layout rate start queue former.index (numbering former.index).first := by
  refine leads_across split last period beyond more ?_
  intro source earlier holder later representationHolder index ready here
  obtain ⟨others, single, holders, -, singleSpans⟩ := List.map_eq_append_iff.mp here.earlierSpans
  obtain ⟨entered, none, rfl, itsSpan, noSpans⟩ := List.map_eq_cons_iff.mp singleSpans
  rw [List.map_eq_nil_iff.mp noSpans] at holders
  have held : entered ∈ source.periodHolders := by
    rw [here.holders, holders]
    simp
  refine ⟨entered, held, itsSpan, ?_⟩
  have filled := (ready.plays entered held).filled
  simp only [moveOn, reverse, Bool.false_eq_true, if_false]
  rw [(here.stands ready).takeWhile, holders, List.reverse_append]
  simp [moveToPrevPeriod, filled]

theorem Playback.call_stop {start : Int} {count : Nat} {endOfStream : Bool}
    (ready : source.Ready numbering calls layout)
    (stops : ∀ bounds position, source.choosePeriod rate bounds queue position =
      .ok (.stop endOfStream, position, { source with startAtLiveEdge := false })) :
    Playback.call rate start (calls count) { source, queue } =
      .ok { source := { source with startAtLiveEdge := false }, queue, ended := endOfStream } := by
  obtain ⟨range, isRange⟩ := Option.isSome_iff_exists.mp ready.range
  simp only [Playback.call, Bool.false_eq_true, if_false, getChunkOperation, ready.healthy, isRange,
    stops]
  cases endOfStream
  · rfl
  · rfl

def MediaChunk.segment (chunk : MediaChunk) : Int × Int := (chunk.parentId, chunk.chunkIndex)

def numbersFrom (rate : PlaybackRate) (numbers : Numbering) (number : Int) : List Int :=
  if rate.isForward then
    (List.range (numbers.last - number + 1).toNat).map fun offset : Nat => number + offset
  else (List.range (number - numbers.first + 1).toNat).map fun offset : Nat => number - offset

def segmentsFrom (rate : PlaybackRate) (numbering : Int → Numbering) (period number : Int) :
    List (Int × Int) :=
  (numbersFrom rate (numbering period) number).map fun number => (period, number)

variable (rate) in
theorem numbersFrom_cons {numbers : Numbering} (lower : numbers.first ≤ previous.chunkIndex)
    (upper : previous.chunkIndex ≤ numbers.last) :
    numbersFrom rate numbers previous.chunkIndex =
      previous.chunkIndex :: numbersFrom rate numbers (followingNumber rate previous) := by
  unfold numbersFrom followingNumber
  cases rate.isForward with
  | true =>
    have count : (numbers.last - previous.chunkIndex + 1).toNat =
        (numbers.last - (previous.chunkIndex + 1) + 1).toNat + 1 := by omega
    simp only [if_true]
    rw [count, List.range_succ_eq_map, List.map_cons, List.map_map]
    congr 1
    · simp
    · apply List.map_congr_left
      intro offset _
      simp
      omega
  | false =>
    have count : (previous.chunkIndex - numbers.first + 1).toNat =
        (previous.chunkIndex - 1 - numbers.first + 1).toNat + 1 := by omega
    simp only [Bool.false_eq_true, if_false]
    rw [count, List.range_succ_eq_map, List.map_cons, List.map_map]
    congr 1
    · simp
    · apply List.map_congr_left
      intro offset _
      simp
      omega

theorem numbersFrom_outside {numbers : Numbering} (beyond : outside rate numbers previous = true) :
    numbersFrom rate numbers (followingNumber rate previous) = [] := by
  unfold outside at beyond
  unfold numbersFrom followingNumber
  cases direction : rate.isForward with
  | true =>
    simp only [direction, if_true, decide_eq_true_eq] at beyond ⊢
    rw [show (numbers.last - (previous.chunkIndex + 1) + 1).toNat = 0 by omega]
    rfl
  | false =>
    simp only [direction, Bool.false_eq_true, if_false, decide_eq_true_eq] at beyond ⊢
    rw [show (previous.chunkIndex - 1 - numbers.first + 1).toNat = 0 by omega]
    rfl

variable {origin : DashChunkSource} {start number : Int} {count : Nat} {chunk : MediaChunk}

/-- A period that has been entered is played to its end in the direction of playback. -/
theorem finish_period (picks : ∀ count, Picks (calls count).evaluator)
    (split : layout = before ++ span :: behind)
    (lower : (numbering span.index).first ≤ number) (upper : number ≤ (numbering span.index).last)
    (arrived : Arrived numbering calls layout queue span.index number chunk source)
    (played : play origin rate start calls count = .ok { source, queue := queue ++ [chunk] }) :
    ∃ later after loaded last, play origin rate start calls later =
        .ok { source := after, queue := loaded ++ [last] } ∧
      Arrived numbering calls layout loaded span.index last.chunkIndex last after ∧
      (numbering span.index).first ≤ last.chunkIndex ∧
      last.chunkIndex ≤ (numbering span.index).last ∧
      outside rate (numbering span.index) last = true ∧
      (loaded ++ [last]).map MediaChunk.segment =
        queue.map MediaChunk.segment ++ segmentsFrom rate numbering span.index number := by
  induction remaining : (numbersFrom rate (numbering span.index) number).length
    generalizing number queue chunk source count with
  | zero =>
    have isNumber := arrived.number
    subst isNumber
    rw [numbersFrom_cons rate lower upper] at remaining
    simp at remaining
  | succ remaining ih =>
    have isNumber := arrived.number
    subst isNumber
    have isLast : (queue ++ [chunk]).getLast? = some chunk := List.getLast?_concat
    have here : chunk.segment = (span.index, chunk.chunkIndex) := by
      rw [MediaChunk.segment, arrived.period]
    have rest := numbersFrom_cons rate lower upper
    cases beyond : outside rate (numbering span.index) chunk with
    | true =>
      refine ⟨count, source, queue, chunk, played, arrived, lower, upper, beyond, ?_⟩
      rw [segmentsFrom, rest, numbersFrom_outside beyond, List.map_append]
      simp [here]
    | false =>
      have leads : Leads numbering calls layout rate start (queue ++ [chunk]) span.index
          (followingNumber rate chunk) :=
        leads_within split isLast arrived.period lower upper beyond
      obtain ⟨later, after, next, nextPlayed, nextArrived⟩ :=
        leads.advance picks arrived.ready arrived.loaded arrived.evaluates played
      rw [rest, List.length_cons, Nat.add_right_cancel_iff] at remaining
      obtain ⟨final, end_, loaded, last, lastPlayed, lastArrived, lastLower, lastUpper, ends, segments⟩ :=
        ih leads.first leads.last nextArrived nextPlayed remaining
      refine ⟨final, end_, loaded, last, lastPlayed, lastArrived, lastLower, lastUpper, ends, ?_⟩
      rw [segments, segmentsFrom, segmentsFrom, rest]
      simp [here]

end

end NDash.Dash

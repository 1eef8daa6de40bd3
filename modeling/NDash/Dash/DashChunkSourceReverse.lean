import Mathlib.Data.List.Induction
import NDash.Dash.DashChunkSourceForward

set_option autoImplicit false

namespace NDash.Dash

open Mpd Extractor DashChunkSource

def backwards : PlaybackRate where
  isForward := false
  isNormal := false

section

variable {criteria : TrackCriteria} {manifest : MediaPresentationDescription}
  {numbering : Int → Numbering} {calls : Nat → Call} {layout before behind : List Span}
  {span : Span} {queue : List MediaChunk} {source origin : DashChunkSource}
  {start number : Int} {count : Nat} {chunk : MediaChunk}

-- At the first segment of the last period, as at that of the first, there is nothing left to load.
theorem stops_backwards (split : layout = before ++ span :: behind)
    (edge : before = [] ∨ behind = [])
    (arrived : Arrived numbering calls layout queue span.index number chunk source)
    (beyond : outside backwards (numbering span.index) chunk = true) (bounds : Int × Int)
    (position : Int) :
    source.choosePeriod backwards bounds (queue ++ [chunk]) position =
      .ok (.stop false, position, { source with startAtLiveEdge := false }) := by
  have isLast : (queue ++ [chunk]).getLast? = some chunk := List.getLast?_concat
  obtain ⟨earlier, holder, later, representationHolder, index, here⟩ :=
    arrived.ready.exists_behind arrived.loaded split isLast arrived.period
  rw [here.choosePeriod arrived.ready isLast, arrived.period, beyond]
  cases later with
  | nil => rfl
  | cons next rest =>
    have first : before = [] := by
      rcases edge with none | none
      · exact none
      · have spans := here.laterSpans
        simp [none] at spans
    have noneEarlier : earlier = [] := by
      have spans := here.earlierSpans
      rw [first] at spans
      exact List.map_eq_nil_iff.mp spans
    have stays : source.moveOn backwards chunk = .ok (.stop false) := by
      simp only [moveOn, backwards, Bool.false_eq_true, if_false]
      rw [(here.stands arrived.ready).takeWhile, noneEarlier]
      rfl
    rw [stays]
    rfl

theorem stays_backwards (split : layout = before ++ span :: behind)
    (edge : before = [] ∨ behind = [])
    (arrived : Arrived numbering calls layout queue span.index number chunk source)
    (beyond : outside backwards (numbering span.index) chunk = true)
    (played : play origin backwards start calls count = .ok { source, queue := queue ++ [chunk] })
    {later : Nat} (after : count ≤ later) :
    ∃ same, play origin backwards start calls later = .ok { source := same, queue := queue ++ [chunk] } ∧
      Arrived numbering calls layout queue span.index number chunk same := by
  induction after with
  | refl => exact ⟨source, played, arrived⟩
  | step _ ih =>
    obtain ⟨same, playedSame, sameArrived⟩ := ih
    refine ⟨{ same with startAtLiveEdge := false }, ?_, ?_⟩
    · rw [play, playedSame]
      exact Playback.call_stop sameArrived.ready (stops_backwards split edge sameArrived beyond)
    · exact ⟨sameArrived.period, sameArrived.number, sameArrived.ready.write false _ _,
        sameArrived.loaded, sameArrived.evaluates⟩

def entered (numbering : Int → Numbering) (before behind : List Span) : List (Int × Int) :=
  if behind = [] then []
  else before.reverse.map fun former => (former.index, (numbering former.index).first)

theorem segmentsFrom_first (numbering : Int → Numbering) (period : Int) :
    segmentsFrom backwards numbering period (numbering period).first =
      [(period, (numbering period).first)] := by
  simp [segmentsFrom, numbersFrom, backwards]

/-- The start period is played down to its first segment. From there playback does not leave the
last period, and of each earlier one it loads the first segment. -/
theorem finish_backwards (picks : ∀ count, Picks (calls count).evaluator)
    (split : layout = before ++ span :: behind)
    (lower : (numbering span.index).first ≤ number) (upper : number ≤ (numbering span.index).last)
    (arrived : Arrived numbering calls layout queue span.index number chunk source)
    (played : play origin backwards start calls count = .ok { source, queue := queue ++ [chunk] }) :
    ∃ reached loaded, (∀ later, reached ≤ later → ∃ after,
        play origin backwards start calls later = .ok { source := after, queue := loaded }) ∧
      loaded.map MediaChunk.segment =
        queue.map MediaChunk.segment ++ segmentsFrom backwards numbering span.index number ++
          entered numbering before behind := by
  induction before using List.reverseRecOn
    generalizing span behind queue chunk source count number with
  | nil =>
    obtain ⟨reached, after, loaded, last, lastPlayed, lastArrived, -, -, beyond, segments⟩ :=
      finish_period picks split lower upper arrived played
    refine ⟨reached, loaded ++ [last], ?_, ?_⟩
    · intro later behindReached
      obtain ⟨same, playedSame, -⟩ :=
        stays_backwards split (.inl rfl) lastArrived beyond lastPlayed behindReached
      exact ⟨same, playedSame⟩
    · rw [segments]
      simp [entered]
  | append_singleton rest former ih =>
    obtain ⟨reached, after, loaded, last, lastPlayed, lastArrived, -, -, beyond, segments⟩ :=
      finish_period picks split lower upper arrived played
    by_cases isLastPeriod : behind = []
    · refine ⟨reached, loaded ++ [last], ?_, ?_⟩
      · intro later behindReached
        obtain ⟨same, playedSame, -⟩ :=
          stays_backwards split (.inr isLastPeriod) lastArrived beyond lastPlayed behindReached
        exact ⟨same, playedSame⟩
      · rw [segments]
        simp [entered, isLastPeriod]
    · have isLast : (loaded ++ [last]).getLast? = some last := List.getLast?_concat
      have leads : Leads numbering calls layout backwards start (loaded ++ [last]) former.index
          (numbering former.index).first :=
        leads_previous split rfl isLast lastArrived.period beyond isLastPeriod
      obtain ⟨entering, formerSource, formerChunk, formerPlayed, formerArrived⟩ :=
        leads.advance picks lastArrived.ready lastArrived.loaded lastArrived.evaluates lastPlayed
      have formerSplit : layout = rest ++ former :: span :: behind := by simpa using split
      obtain ⟨final, all, stays, allSegments⟩ :=
        ih formerSplit leads.first leads.last formerArrived formerPlayed
      refine ⟨final, all, stays, ?_⟩
      rw [allSegments, segments, segmentsFrom_first]
      simp [entered, isLastPeriod]

theorem length_flatMap_of_one_le {α β : Type} {list : List α} {parts : α → List β}
    (each : ∀ element ∈ list, 1 ≤ (parts element).length) :
    list.length ≤ (list.flatMap parts).length ∧
      ((list.flatMap parts).length = list.length →
        ∀ element ∈ list, (parts element).length = 1) := by
  induction list with
  | nil => simp
  | cons first rest ih =>
    have here := each first List.mem_cons_self
    obtain ⟨longer, singles⟩ := ih fun element member => each element (List.mem_cons_of_mem _ member)
    rw [List.flatMap_cons, List.length_append, List.length_cons]
    refine ⟨by omega, ?_⟩
    intro same element member
    rcases List.mem_cons.mp member with rfl | member
    · omega
    · exact singles (by omega) element member

def earlierSegments (numbering : Int → Numbering) (before : List Span) : List (Int × Int) :=
  before.reverse.flatMap fun former =>
    segmentsFrom backwards numbering former.index (numbering former.index).last

theorem length_segmentsFrom_last (numbering : Int → Numbering) (period : Int) :
    ((segmentsFrom backwards numbering period (numbering period).last).length : Int) =
      (numbering period).last - (numbering period).first + 1 := by
  have bound := (numbering period).first_le_last
  simp only [segmentsFrom, numbersFrom, backwards, Bool.false_eq_true, if_false, List.length_map,
    List.length_range]
  omega

theorem entered_eq_iff :
    entered numbering before behind = earlierSegments numbering before ↔
      before = [] ∨ (behind ≠ [] ∧ ∀ former ∈ before,
        (numbering former.index).first = (numbering former.index).last) := by
  have each : ∀ former ∈ before.reverse,
      1 ≤ (segmentsFrom backwards numbering former.index (numbering former.index).last).length := by
    intro former _
    have length := length_segmentsFrom_last numbering former.index
    have bound := (numbering former.index).first_le_last
    omega
  obtain ⟨longer, singles⟩ := length_flatMap_of_one_le each
  constructor
  · intro same
    have lengths := congrArg List.length same
    by_cases first : before = []
    · exact .inl first
    · have some : 0 < before.reverse.length := by
        rw [List.length_reverse]
        exact List.length_pos_iff.mpr first
      unfold entered earlierSegments at lengths
      by_cases isLast : behind = []
      · rw [if_pos isLast, List.length_nil] at lengths
        omega
      · rw [if_neg isLast, List.length_map] at lengths
        refine .inr ⟨isLast, ?_⟩
        intro former member
        have single := singles lengths.symm former (List.mem_reverse.mpr member)
        have length := length_segmentsFrom_last numbering former.index
        omega
  · rintro (first | ⟨more, single⟩)
    · simp [entered, earlierSegments, first]
    · rw [entered, if_neg more, earlierSegments, List.map_eq_flatMap]
      apply List.flatMap_congr
      intro former member
      rw [← single former (List.mem_reverse.mp member), segmentsFrom_first]

end

theorem findPeriodHolder_nowhere {numbering : Int → Numbering}
    {calls : Nat → Call} {layout : List Span} {source : DashChunkSource}
    (ready : source.Ready numbering calls layout) (held : source.periodHolders ≠ []) {start : Int}
    (nowhere : startSpan layout start = none) :
    findPeriodHolder source.periodHolders start = .ok none := by
  have plays := ready.plays
  rw [← ready.spans] at nowhere
  unfold DashChunkSource.findPeriodHolder
  cases holders : source.periodHolders with
  | nil => exact absurd holders held
  | cons first later =>
    rw [holders] at nowhere plays
    simp only [List.map_cons, startSpan] at nowhere
    split at nowhere
    · cases nowhere
    · rename_i late
      rw [← List.map_cons, List.find?_map, Option.map_eq_none_iff] at nowhere
      dsimp only
      rw [if_neg (fun both => late both.1), scan_eq plays]
      exact congrArg Except.ok nowhere

theorem play_nowhere {numbering : Int → Numbering} {calls : Nat → Call} {layout : List Span}
    {source : DashChunkSource} {rate : PlaybackRate} {start : Int}
    (ready : source.Ready numbering calls layout)
    (nowhere : findPeriodHolder source.periodHolders start = .ok none) (count : Nat) :
    (play source rate start calls count).map
      (fun playback => playback.queue.map MediaChunk.segment) = .ok [] := by
  obtain ⟨range, isRange⟩ := Option.isSome_iff_exists.mp ready.range
  have stopped : play source rate start calls 1 = .ok { source, ended := true } := by
    have started : source.liveStart (range.getCurrentBounds (calls 0).now) start =
        (source, start) := by
      simp [liveStart, ready.live]
    simp only [play, bind, Except.bind, Playback.call, getChunkOperation, ready.healthy, isRange,
      choosePeriod, List.getLast?_nil, if_true, started, nowhere, ready.static]
    rfl
  cases count with
  | zero => rfl
  | succ count =>
    rw [play_ended rfl stopped (Nat.le_add_left 1 count)]
    rfl

/-- With a negative rate, the segments that are loaded are all those from the start position down
exactly when playback starts in the first period, or before the last with one segment in each
earlier period. Behind the last period there is nothing to start from. -/
theorem reverse_playback_visits_earlier_segments_iff (criteria : TrackCriteria)
    (manifest : MediaPresentationDescription) (numbering : Int → Numbering) (calls : Nat → Call)
    (liveEdgeLatency : Int) (startAtLiveEdge : Bool) (start : Int)
    (playable : Playable criteria manifest numbering calls)
    (picks : ∀ count, Picks (calls count).evaluator) :
    ∃ enabled, (construct manifest liveEdgeLatency startAtLiveEdge).enable criteria none =
        .ok (true, enabled) ∧
      enabled.periodHolders.map PeriodHolder.localIndex = indicesFrom 0 manifest.periods.length ∧
      ((findPeriodHolder enabled.periodHolders start = .ok none ∧
          ∀ count, (play enabled backwards start calls count).map
            (fun playback => playback.queue.map MediaChunk.segment) = .ok []) ∨
        ∃ before holder behind, enabled.periodHolders = before ++ holder :: behind ∧
          findPeriodHolder enabled.periodHolders start = .ok (some holder) ∧
          ((∃ count, ∀ later, count ≤ later →
            (play enabled backwards start calls later).map
              (fun playback => playback.queue.map MediaChunk.segment) =
                .ok (segmentsFrom backwards numbering holder.localIndex
                  ((numbering holder.localIndex).numberAt (start - holder.startTime)) ++
                before.reverse.flatMap fun former =>
                  segmentsFrom backwards numbering former.localIndex
                    (numbering former.localIndex).last)) ↔
            before = [] ∨ (behind ≠ [] ∧ ∀ former ∈ before,
              (numbering former.localIndex).first = (numbering former.localIndex).last))) := by
  obtain ⟨enabled, isEnabled, indices, ready, starts⟩ :=
    playable.first_segment picks backwards liveEdgeLatency startAtLiveEdge start
  refine ⟨enabled, isEnabled, indices, ?_⟩
  cases isStart : startSpan (enabled.periodHolders.map PeriodHolder.span) start with
  | none =>
    have held : enabled.periodHolders ≠ [] := by
      intro nothing
      rw [nothing] at indices
      have periods := playable.nonempty
      simp_all [indicesFrom]
    have nowhere := findPeriodHolder_nowhere ready held isStart
    exact .inl ⟨nowhere, play_nowhere ready nowhere⟩
  | some span =>
  obtain ⟨before, holder, behind, holders, found, count, after, chunk, played, arrived⟩ :=
    starts span isStart
  refine .inr ⟨before, holder, behind, holders, found, ?_⟩
  have split : enabled.periodHolders.map PeriodHolder.span =
      before.map PeriodHolder.span ++ holder.span :: behind.map PeriodHolder.span := by
    rw [holders, List.map_append, List.map_cons]
  obtain ⟨reached, loaded, stays, segments⟩ := finish_backwards picks split
    ((numbering holder.localIndex).first_le _) ((numbering holder.localIndex).le_last _) arrived played
  have condition : entered numbering (before.map PeriodHolder.span) (behind.map PeriodHolder.span) =
      earlierSegments numbering (before.map PeriodHolder.span) ↔
      before = [] ∨ (behind ≠ [] ∧ ∀ former ∈ before,
        (numbering former.localIndex).first = (numbering former.localIndex).last) := by
    rw [entered_eq_iff]
    simp [PeriodHolder.span]
  have wanted : (before.reverse.flatMap fun former => segmentsFrom backwards numbering
      former.localIndex (numbering former.localIndex).last) =
      earlierSegments numbering (before.map PeriodHolder.span) := by
    rw [earlierSegments, ← List.map_reverse, List.flatMap_map]
    rfl
  rw [wanted, ← condition]
  constructor
  · rintro ⟨count, eventually⟩
    obtain ⟨source, final⟩ := stays (max count reached) (by omega)
    have same := eventually (max count reached) (by omega)
    rw [final] at same
    have lists : loaded.map MediaChunk.segment = _ := Except.ok.inj same
    rw [segments] at lists
    exact List.append_cancel_left lists
  · intro same
    refine ⟨reached, ?_⟩
    intro later behindReached
    obtain ⟨source, final⟩ := stays later behindReached
    rw [final, ← same]
    exact congrArg Except.ok segments

theorem play_fixed {origin : DashChunkSource} {rate : PlaybackRate} {start : Int}
    {calls : Nat → Call} {count : Nat} {reached : Playback}
    (played : play origin rate start calls count = .ok reached)
    (fixed : ∀ count, reached.call rate start (calls count) = .ok reached) {later : Nat}
    (after : count ≤ later) : play origin rate start calls later = .ok reached := by
  induction after with
  | refl => exact played
  | step _ ih =>
    rw [play, ih]
    exact fixed _

-- From the last segment of the first period down.
theorem reverse_playback_visits_earlier_segments_iff_first_period :
    (∃ enabled, (construct segmentedManifest 0 false).enable anyTrack none = .ok (true, enabled) ∧
      ∃ before holder behind, enabled.periodHolders = before ++ holder :: behind ∧
        findPeriodHolder enabled.periodHolders 3000000 = .ok (some holder) ∧
        ((∃ count, ∀ later, count ≤ later →
          (play enabled backwards 3000000 (fun _ => simpleCall) later).map
            (fun playback => playback.queue.map MediaChunk.segment) =
              .ok (segmentsFrom backwards (fun _ => twoSegmentNumbers) holder.localIndex
                (twoSegmentNumbers.numberAt (3000000 - holder.startTime)) ++
              before.reverse.flatMap fun former =>
                segmentsFrom backwards (fun _ => twoSegmentNumbers) former.localIndex 2)) ↔
          before = [] ∨ (behind ≠ [] ∧ ∀ former ∈ before, (1 : Int) = 2))) ∧
      (((construct segmentedManifest 0 false).enable anyTrack none).bind fun result =>
        (play result.2 backwards 3000000 (fun _ => simpleCall) 6).map fun final =>
          final.queue.map MediaChunk.segment) = .ok [(0, 2), (0, 1)] := by
  have run : (((construct segmentedManifest 0 false).enable anyTrack none).bind fun result =>
      (play result.2 backwards 3000000 (fun _ => simpleCall) 6).map fun final =>
        final.queue.map MediaChunk.segment) = .ok [(0, 2), (0, 1)] := by decide
  refine ⟨?_, run⟩
  obtain ⟨enabled, isEnabled, -, ⟨-, nothing⟩ | playback⟩ :=
    reverse_playback_visits_earlier_segments_iff anyTrack segmentedManifest
      (fun _ => twoSegmentNumbers) (fun _ => simpleCall) 0 false 3000000
      segmentedManifest_playable (fun _ => firstFormat_picks)
  · rw [isEnabled] at run
    cases (nothing 6).symm.trans run
  · exact ⟨enabled, isEnabled, playback⟩

/-- From the second period, which is the last, playback does not come to the first. -/
theorem reverse_playback_stays_in_last_period :
    Playable anyTrack segmentedManifest (fun _ => twoSegmentNumbers) (fun _ => simpleCall) ∧
    Picks simpleCall.evaluator ∧
    ¬ ∃ count, ∀ later, count ≤ later →
      (((construct segmentedManifest 0 false).enable anyTrack none).bind fun result =>
        (play result.2 backwards 7000000 (fun _ => simpleCall) later).map fun final =>
          final.queue.map MediaChunk.segment) = .ok [(1, 2), (1, 1), (0, 2), (0, 1)] := by
  refine ⟨segmentedManifest_playable, firstFormat_picks, ?_⟩
  rintro ⟨count, eventually⟩
  obtain ⟨enabled, isEnabled, reached, playedReached, fixed, segments⟩ :
      ∃ enabled, (construct segmentedManifest 0 false).enable anyTrack none = .ok (true, enabled) ∧
        ∃ reached, play enabled backwards 7000000 (fun _ => simpleCall) 4 = .ok reached ∧
          reached.call backwards 7000000 simpleCall = .ok reached ∧
          reached.queue.map MediaChunk.segment = [(1, 2), (1, 1)] :=
    ⟨_, rfl, _, rfl, rfl, by decide⟩
  have stays := play_fixed playedReached (fun _ => fixed) (Nat.le_max_right count 4)
  have same := eventually (max count 4) (Nat.le_max_left count 4)
  rw [isEnabled] at same
  replace same : (play enabled backwards 7000000 (fun _ => simpleCall) (max count 4)).map
      (fun final => final.queue.map MediaChunk.segment) =
        .ok [(1, 2), (1, 1), (0, 2), (0, 1)] := same
  rw [stays] at same
  have lists : reached.queue.map MediaChunk.segment = _ := Except.ok.inj same
  rw [segments] at lists
  cases lists

end NDash.Dash

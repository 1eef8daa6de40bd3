import NDash.Dash.DashChunkSourceEnable

set_option autoImplicit false

namespace NDash.Dash

open Mpd Extractor DashChunkSource

section

variable {criteria : TrackCriteria} {manifest : MediaPresentationDescription}
  {numbering : Int → Numbering} {calls : Nat → Call} {layout before behind : List Span}
  {span : Span} {rate : PlaybackRate} {queue : List MediaChunk} {source origin : DashChunkSource}
  {start number : Int} {count : Nat} {chunk : MediaChunk}

theorem play_ended {final : Playback} (ended : final.ended = true)
    (played : play origin rate start calls count = .ok final) {later : Nat} (after : count ≤ later) :
    play origin rate start calls later = .ok final := by
  induction after with
  | refl => exact played
  | step _ ih =>
    rw [play, ih]
    show Playback.call _ _ _ _ = _
    rw [Playback.call, if_pos ended]

theorem end_of_stream (split : layout = before ++ [span]) (normal : rate.isNormal = true)
    (arrived : Arrived numbering calls layout queue span.index number chunk source)
    (beyond : outside rate (numbering span.index) chunk = true)
    (played : play origin rate start calls count = .ok { source, queue := queue ++ [chunk] }) :
    ∃ after, play origin rate start calls (count + 1) =
      .ok { source := after, queue := queue ++ [chunk], ended := true } := by
  have isLast : (queue ++ [chunk]).getLast? = some chunk := List.getLast?_concat
  obtain ⟨earlier, holder, later, representationHolder, index, here⟩ :=
    arrived.ready.exists_behind arrived.loaded split isLast arrived.period
  have none : later = [] := List.map_eq_nil_iff.mp here.laterSpans
  have stops : ∀ bounds position, source.choosePeriod rate bounds (queue ++ [chunk]) position =
      .ok (.stop true, position, { source with startAtLiveEdge := false }) := by
    intro bounds position
    rw [here.choosePeriod arrived.ready isLast, arrived.period, beyond, none, normal]
    rfl
  refine ⟨{ source with startAtLiveEdge := false }, ?_⟩
  rw [play, played]
  exact Playback.call_stop arrived.ready stops

/-- The rest of the presentation, from a segment that has been loaded. -/
theorem finish_forward (picks : ∀ count, Picks (calls count).evaluator)
    (forward : rate.isForward = true) (normal : rate.isNormal = true)
    (split : layout = before ++ span :: behind)
    (lower : (numbering span.index).first ≤ number) (upper : number ≤ (numbering span.index).last)
    (arrived : Arrived numbering calls layout queue span.index number chunk source)
    (played : play origin rate start calls count = .ok { source, queue := queue ++ [chunk] }) :
    ∃ later after loaded, play origin rate start calls later =
        .ok { source := after, queue := loaded, ended := true } ∧
      loaded.map MediaChunk.segment =
        queue.map MediaChunk.segment ++ segmentsFrom rate numbering span.index number ++
          behind.flatMap fun next =>
            segmentsFrom rate numbering next.index (numbering next.index).first := by
  induction behind generalizing before span queue chunk source count number with
  | nil =>
    obtain ⟨later, after, loaded, last, lastPlayed, lastArrived, -, -, beyond, segments⟩ :=
      finish_period picks split lower upper arrived played
    obtain ⟨final, ended⟩ := end_of_stream split normal lastArrived beyond lastPlayed
    exact ⟨later + 1, final, loaded ++ [last], ended, by simpa using segments⟩
  | cons next rest ih =>
    obtain ⟨later, after, loaded, last, lastPlayed, lastArrived, -, -, beyond, segments⟩ :=
      finish_period picks split lower upper arrived played
    have isLast : (loaded ++ [last]).getLast? = some last := List.getLast?_concat
    have leads : Leads numbering calls layout rate start (loaded ++ [last]) next.index
        (numbering next.index).first :=
      leads_next split forward isLast lastArrived.period beyond
    obtain ⟨entering, nextSource, nextChunk, nextPlayed, nextArrived⟩ :=
      leads.advance picks lastArrived.ready lastArrived.loaded lastArrived.evaluates lastPlayed
    have nextSplit : layout = (before ++ [span]) ++ next :: rest := by simpa using split
    obtain ⟨final, finalSource, all, ended, allSegments⟩ :=
      ih nextSplit leads.first leads.last nextArrived nextPlayed
    refine ⟨final, finalSource, all, ended, ?_⟩
    rw [allSegments, segments]
    simp

end

/-- Playback at the normal rate loads each segment from the start position on once, in order, and
then comes to the end of the stream. -/
theorem forward_playback_visits_each_segment (criteria : TrackCriteria)
    (manifest : MediaPresentationDescription) (numbering : Int → Numbering) (calls : Nat → Call)
    (liveEdgeLatency : Int) (startAtLiveEdge : Bool) (start : Int)
    (playable : Playable criteria manifest numbering calls)
    (picks : ∀ count, Picks (calls count).evaluator) :
    ∃ enabled, (construct manifest liveEdgeLatency startAtLiveEdge).enable criteria none =
        .ok (true, enabled) ∧
      enabled.periodHolders.map PeriodHolder.localIndex = indicesFrom 0 manifest.periods.length ∧
      ((∃ holder ∈ enabled.periodHolders, start < holder.availableEndTime) →
        ∃ before holder behind, enabled.periodHolders = before ++ holder :: behind ∧
          findPeriodHolder enabled.periodHolders start = .ok (some holder) ∧
          ∃ count final, final.ended = true ∧
            (∀ later, count ≤ later → play enabled {} start calls later = .ok final) ∧
            final.queue.map MediaChunk.segment =
              segmentsFrom {} numbering holder.localIndex
                ((numbering holder.localIndex).numberAt (start - holder.startTime)) ++
              behind.flatMap fun later =>
                segmentsFrom {} numbering later.localIndex (numbering later.localIndex).first) := by
  obtain ⟨enabled, isEnabled, indices, -, starts⟩ :=
    playable.first_segment picks {} liveEdgeLatency startAtLiveEdge start
  refine ⟨enabled, isEnabled, indices, ?_⟩
  rintro ⟨inside, insideHeld, insideEnds⟩
  obtain ⟨span, isStart⟩ := startSpan_isSome insideHeld insideEnds
  obtain ⟨before, holder, behind, holders, found, count, after, chunk, played, arrived⟩ :=
    starts span isStart
  have split : enabled.periodHolders.map PeriodHolder.span =
      before.map PeriodHolder.span ++ holder.span :: behind.map PeriodHolder.span := by
    rw [holders, List.map_append, List.map_cons]
  obtain ⟨later, final, loaded, ended, segments⟩ := finish_forward picks rfl rfl split
    ((numbering holder.localIndex).first_le _) ((numbering holder.localIndex).le_last _) arrived played
  refine ⟨before, holder, behind, holders, found, later, _, rfl, fun _ => play_ended rfl ended, ?_⟩
  rw [segments, List.flatMap_map]
  rfl

def twoSegmentNumbers : Numbering where
  first := 1
  last := 2
  numberAt timeUs := max 1 (min 2 (toInt32 (1 + toInt32 (timeUs.tdiv 2000000))))
  first_le timeUs := by omega
  le_last timeUs := by omega
  finite := by decide
  lower := by decide
  upper := by decide

theorem numberedSegments_follows (rounded : Int → Int → Int → Int) :
    (numberedSegments.index rounded).Follows 4000000 twoSegmentNumbers := by
  have last : numberedSegments.getLastSegmentNum 4000000 = 2 := by decide
  have durationUs : numberedSegments.durationUs = 2000000 := by decide
  refine ⟨rfl, last, ?_, fun _ _ _ => rfl⟩
  intro timeUs
  have first : numberedSegments.getFirstSegmentNum = 1 := rfl
  have startNumber : numberedSegments.startNumber = 1 := rfl
  have noTimeline : numberedSegments.segmentTimeline = none := rfl
  have bounded : (2 : Int) ≠ kIndexUnbounded := by decide
  show numberedSegments.getSegmentNum rounded timeUs 4000000 = _
  simp only [MultiSegmentBase.getSegmentNum, noTimeline, last, first, startNumber, durationUs,
    twoSegmentNumbers]
  generalize toInt32 (1 + toInt32 (timeUs.tdiv 2000000)) = number
  split_ifs with early late
  · rw [show max 1 (min 2 number) = 1 by omega]
  · rw [show max 1 (min 2 number) = 2 by omega]
  · rw [show max 1 (min 2 number) = number by omega]

def segmentedPeriod (startMs : Nat) : Period where
  startMs
  adaptationSets := [{
    representations := [{
      format := { id := "video" }
      index := some (numberedSegments.index fun timestamp _ _ => timestamp)
      initializationUri := some (.create "init.mp4" "" 0 (-1)) }] }]

def segmentedManifest : MediaPresentationDescription where
  periods := [segmentedPeriod 0, segmentedPeriod 4000]
  duration := 8000

def anyTrack : TrackCriteria where
  matchesMimeType _ := true

def simpleCall : Call where
  resolve base reference := base ++ reference
  evaluator := firstFormat
  now := 0
  position := 0
  complete _ :=
    { mediaFormat := some {
        track := { type := .video, id := "1", language := "", validConfig := true, extraData := [] }
        durationUs := 0 } }

theorem firstFormat_picks : Picks firstFormat := by
  intro queue position formats evaluation some
  obtain ⟨first, rest, rfl⟩ := List.exists_cons_of_ne_nil some
  exact ⟨⟨first, List.mem_cons_self, rfl⟩, rfl⟩

theorem segmentedManifest_playable :
    Playable anyTrack segmentedManifest (fun _ => twoSegmentNumbers) (fun _ => simpleCall) := by
  have representation : ∀ index : Nat, PeriodHolder.periodDuration segmentedManifest index = 4000000 →
      ∀ representation ∈ [({
        format := { id := "video" }
        index := some (numberedSegments.index fun timestamp _ _ => timestamp)
        initializationUri := some (.create "init.mp4" "" 0 (-1)) } : Representation)],
      RepresentationPlayable segmentedManifest (fun _ => twoSegmentNumbers) (fun _ => simpleCall)
        index representation := by
    intro index duration representation member
    rw [List.mem_singleton.mp member]
    refine ⟨?_, nofun, ?_⟩
    · intro segmentIndex itsIndex
      cases itsIndex
      rw [duration]
      exact numberedSegments_follows _
    · intro count chunk _ _
      exact ⟨fun _ _ => rfl, nofun, nofun⟩
  refine ⟨rfl, by simp [segmentedManifest], ?_⟩
  intro index period listed
  match index with
  | 0 =>
    cases listed
    exact ⟨_, rfl, List.cons_ne_nil _ _, representation 0 rfl⟩
  | 1 =>
    cases listed
    exact ⟨_, rfl, List.cons_ne_nil _ _, representation 1 rfl⟩
  | later + 2 => simp [segmentedManifest] at listed

theorem segmentedManifest_inside {enabled : DashChunkSource}
    (isEnabled : (construct segmentedManifest 0 false).enable anyTrack none = .ok (true, enabled)) :
    ∃ holder ∈ enabled.periodHolders, 3000000 < holder.availableEndTime := by
  have ends : ((construct segmentedManifest 0 false).enable anyTrack none).map
      (fun result => result.2.periodHolders.map PeriodHolder.availableEndTime) =
        .ok [4000000, 8000000] := by decide
  rw [isEnabled] at ends
  have both : enabled.periodHolders.map PeriodHolder.availableEndTime = [4000000, 8000000] :=
    Except.ok.inj ends
  have listed : (4000000 : Int) ∈ enabled.periodHolders.map PeriodHolder.availableEndTime := by
    rw [both]
    exact List.mem_cons_self
  obtain ⟨holder, held, itsEnd⟩ := List.mem_map.mp listed
  exact ⟨holder, held, by omega⟩

-- The last segment of the first period, and both of the second.
theorem forward_playback_visits_each_segment_two_periods :
    (∃ enabled, (construct segmentedManifest 0 false).enable anyTrack none = .ok (true, enabled) ∧
      ∃ before holder behind, enabled.periodHolders = before ++ holder :: behind ∧
        findPeriodHolder enabled.periodHolders 3000000 = .ok (some holder) ∧
        ∃ count final, final.ended = true ∧
          (∀ later, count ≤ later →
            play enabled {} 3000000 (fun _ => simpleCall) later = .ok final) ∧
          final.queue.map MediaChunk.segment =
            segmentsFrom {} (fun _ => twoSegmentNumbers) holder.localIndex
              (twoSegmentNumbers.numberAt (3000000 - holder.startTime)) ++
            behind.flatMap fun later =>
              segmentsFrom {} (fun _ => twoSegmentNumbers) later.localIndex 1) ∧
      (((construct segmentedManifest 0 false).enable anyTrack none).bind fun result =>
        (play result.2 {} 3000000 (fun _ => simpleCall) 6).map fun final =>
          (final.ended, final.queue.map MediaChunk.segment)) =
        .ok (true, [(0, 2), (1, 1), (1, 2)]) := by
  refine ⟨?_, by decide⟩
  obtain ⟨enabled, isEnabled, -, playback⟩ := forward_playback_visits_each_segment anyTrack
    segmentedManifest (fun _ => twoSegmentNumbers) (fun _ => simpleCall) 0 false 3000000
    segmentedManifest_playable (fun _ => firstFormat_picks)
  exact ⟨enabled, isEnabled, playback (segmentedManifest_inside isEnabled)⟩

end NDash.Dash

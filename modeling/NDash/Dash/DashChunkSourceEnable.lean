import NDash.Dash.DashChunkSourceNext

set_option autoImplicit false

namespace NDash.Dash

open Mpd Extractor DashChunkSource

section

variable (criteria : TrackCriteria) (manifest : MediaPresentationDescription)
  (numbering : Int → Numbering) (calls : Nat → Call)

structure RepresentationPlayable (index : Nat) (representation : Representation) : Prop where
  follows : ∀ segmentIndex, representation.index = some segmentIndex →
    segmentIndex.Follows (PeriodHolder.periodDuration manifest index) (numbering index)
  waits : representation.index = none → representation.indexUri.isSome
  delivers : ∀ count (chunk : InitializationChunk), chunk.parentId = index →
    chunk.format = representation.format →
    Delivers (numbering index) representation chunk ((calls count).complete chunk)

/-- A static presentation that has, in each period, representations of the track with the same
finite numbering. -/
structure Playable : Prop where
  static : manifest.dynamic = false
  nonempty : manifest.periods ≠ []
  periods : ∀ (index : Nat) period, manifest.periods[index]? = some period →
    ∃ set, selectAdaptationSet period criteria = some set ∧ set.representations ≠ [] ∧
      ∀ representation ∈ set.representations,
        RepresentationPlayable manifest numbering calls index representation

variable {criteria manifest numbering calls}

theorem PeriodHolder.Plays.updateRepresentationIndependentProperties {holder : PeriodHolder}
    {duration : Int} {index : Option DashSegmentIndex} {period : Int}
    (filled : holder.representationHolders ≠ []) (keyed : holder.Keyed)
    (representations : ∀ entry ∈ holder.representationHolders,
      entry.2.Plays numbering calls holder.localIndex holder.startTime)
    (follows : ∀ segmentIndex, index = some segmentIndex →
      segmentIndex.Follows duration (numbering period)) :
    (holder.updateRepresentationIndependentProperties duration index).Plays numbering calls := by
  unfold PeriodHolder.updateRepresentationIndependentProperties
  cases index with
  | none => exact ⟨rfl, filled, keyed, representations⟩
  | some segmentIndex =>
    have last := (follows segmentIndex rfl).lastNum
    have finite := (numbering period).finite
    simp only [last, finite, decide_false, Bool.false_eq_true, if_false]
    exact ⟨rfl, filled, keyed, representations⟩

theorem Playable.create (playable : Playable criteria manifest numbering calls) {index : Nat}
    (within : index < manifest.periods.length) :
    ∃ holder, PeriodHolder.create index manifest index criteria = .ok holder ∧
      holder.Plays numbering calls := by
  have listed := List.getElem?_eq_getElem within
  obtain ⟨set, selected, some, representations⟩ := playable.periods index _ listed
  obtain ⟨first, rest, set'⟩ := List.exists_cons_of_ne_nil some
  have firstPlayable := representations first (by simp [set'])
  have created := PeriodHolder.create_eq (index : Int) listed selected set'
  refine ⟨_, created, ?_⟩
  apply PeriodHolder.Plays.updateRepresentationIndependentProperties
  · exact PeriodHolder.holdersOf_ne_nil some
  · intro entry member
    obtain ⟨representation, _, rfl⟩ := PeriodHolder.mem_holdersOf member
    rfl
  · intro entry member
    obtain ⟨representation, isListed, rfl⟩ := PeriodHolder.mem_holdersOf member
    have itsPlayable := representations representation isListed
    refine ⟨rfl, rfl, itsPlayable.follows, ?_, itsPlayable.delivers⟩
    intro missing
    exact ⟨missing, itsPlayable.waits missing⟩
  · exact firstPlayable.follows

theorem Playable.addPeriods (playable : Playable criteria manifest numbering calls)
    {count index : Nat} (all : index + count = manifest.periods.length) :
    ∃ added next, addPeriods criteria manifest count index (index : Int) = .ok (added, next) ∧
      ∀ holder ∈ added, holder.Plays numbering calls := by
  induction count generalizing index with
  | zero => exact ⟨[], index, rfl, by simp⟩
  | succ count ih =>
    obtain ⟨holder, created, plays⟩ := playable.create (show index < manifest.periods.length by omega)
    obtain ⟨added, next, rest, restPlays⟩ := ih (show index + 1 + count = _ by omega)
    refine ⟨holder :: added, next, ?_, List.forall_mem_cons.mpr ⟨plays, restPlays⟩⟩
    rw [DashChunkSource.addPeriods, created]
    push_cast at rest
    simp only [bind, Except.bind, rest]
    rfl

theorem DashChunkSource.getAvailableRange_static {source : DashChunkSource}
    (static : source.currentManifest.dynamic = false) (some : source.periodHolders ≠ [])
    (plays : ∀ holder ∈ source.periodHolders, holder.Plays numbering calls) :
    ∃ range, source.getAvailableRange = .ok range := by
  have isLast := List.getLast?_eq_some_getLast some
  have isHead := List.head?_eq_some_head some
  have bounded := (plays _ (List.getLast_mem some)).bounded
  refine ⟨.static (source.periodHolders.head some).availableStartTime
    (source.periodHolders.getLast some).availableEndTime, ?_⟩
  simp [getAvailableRange, isLast, isHead, static, PeriodHolder.getAvailableEndTime, bounded]

theorem DashChunkSource.processManifest_new {source : DashChunkSource} {first : Period}
    {rest : List Period} {added : List PeriodHolder} {next : Int} {range : TimeRange}
    (new : source.periodHolders = []) (periods : manifest.periods = first :: rest)
    (add : addPeriods source.trackCriteria manifest manifest.periods.length 0
      source.nextPeriodHolderIndex = .ok (added, next))
    (isRange : { source with periodHolders := added, nextPeriodHolderIndex := next }.getAvailableRange =
      .ok range) :
    source.processManifest manifest = .ok (true,
      { source with
        periodHolders := added
        nextPeriodHolderIndex := next
        availableRange := some range
        currentManifest := manifest }) := by
  have got : manifest.getPeriod 0 = .ok first := by
    simp [MediaPresentationDescription.getPeriod, periods]
  have removed : removeOldPeriods source.periodHolders first = [] := by
    rw [new]
    rfl
  unfold processManifest
  rw [got]
  simp only [bind, Except.bind, removed, List.length_nil, updatePeriods, List.nil_append,
    Nat.sub_zero, add, isRange]
  rfl

theorem Playable.enable (playable : Playable criteria manifest numbering calls)
    (liveEdgeLatency : Int) (startAtLiveEdge : Bool) :
    ∃ enabled, (construct manifest liveEdgeLatency startAtLiveEdge).enable criteria none =
        .ok (true, enabled) ∧
      enabled.periodHolders.map PeriodHolder.localIndex =
        indicesFrom 0 manifest.periods.length ∧
      enabled.Ready numbering calls (enabled.periodHolders.map PeriodHolder.span) ∧
      enabled.lastChunkWasInitialization = false := by
  obtain ⟨first, rest, periods⟩ := List.exists_cons_of_ne_nil playable.nonempty
  obtain ⟨added, next, add, plays⟩ := playable.addPeriods (show 0 + manifest.periods.length = _ by omega)
  obtain ⟨-, indices, -⟩ := addPeriods_spec add
  have some : added ≠ [] := by
    intro none
    rw [none, periods] at indices
    simp [indicesFrom] at indices
  obtain ⟨range, isRange⟩ : ∃ range, { construct manifest liveEdgeLatency startAtLiveEdge with
      trackCriteria := criteria
      periodHolders := added
      nextPeriodHolderIndex := next }.getAvailableRange = .ok range :=
    getAvailableRange_static playable.static some plays
  refine ⟨_, processManifest_new rfl periods add isRange, indices, ?_, rfl⟩
  refine ⟨rfl, ?_, plays, playable.static, playable.static, rfl, rfl⟩
  have nodup : (added.map PeriodHolder.localIndex).Nodup := by
    rw [indices]
    exact nodup_indicesFrom _ _
  rw [List.map_map]
  exact nodup

theorem startSpan_isSome {start : Int} {holders : List PeriodHolder} {holder : PeriodHolder}
    (held : holder ∈ holders) (inside : start < holder.availableEndTime) :
    ∃ span, startSpan (holders.map PeriodHolder.span) start = some span := by
  cases holders with
  | nil => cases held
  | cons first later =>
    simp only [List.map_cons, startSpan]
    split
    · exact ⟨_, rfl⟩
    · rw [← List.map_cons]
      refine Option.isSome_iff_exists.mp (List.find?_isSome.mpr ⟨holder.span, ?_, ?_⟩)
      · exact List.mem_map_of_mem held
      · exact decide_eq_true inside

theorem Playable.first_segment (playable : Playable criteria manifest numbering calls)
    (picks : ∀ count, Picks (calls count).evaluator) (rate : PlaybackRate) (liveEdgeLatency : Int)
    (startAtLiveEdge : Bool) (start : Int) :
    ∃ enabled, (construct manifest liveEdgeLatency startAtLiveEdge).enable criteria none =
        .ok (true, enabled) ∧
      enabled.periodHolders.map PeriodHolder.localIndex = indicesFrom 0 manifest.periods.length ∧
      enabled.Ready numbering calls (enabled.periodHolders.map PeriodHolder.span) ∧
      ∀ span, startSpan (enabled.periodHolders.map PeriodHolder.span) start = some span →
        ∃ before holder behind, enabled.periodHolders = before ++ holder :: behind ∧
          findPeriodHolder enabled.periodHolders start = .ok (some holder) ∧
          ∃ count after chunk, play enabled rate start calls count =
              .ok { source := after, queue := [] ++ [chunk] } ∧
            Arrived numbering calls (enabled.periodHolders.map PeriodHolder.span) [] holder.span.index
              ((numbering holder.localIndex).numberAt (start - holder.startTime)) chunk after := by
  obtain ⟨enabled, isEnabled, indices, ready, evaluates⟩ :=
    playable.enable liveEdgeLatency startAtLiveEdge
  refine ⟨enabled, isEnabled, indices, ready, ?_⟩
  intro span starts
  obtain ⟨holder, held, itsSpan, found⟩ := ready.findPeriodHolder starts
  obtain ⟨before, behind, holders⟩ := List.append_of_mem held
  subst itsSpan
  have leads : Leads numbering calls _ rate start [] holder.span.index _ := leads_start starts
  have played : play enabled rate start calls 0 = .ok { source := enabled, queue := [] } := rfl
  obtain ⟨count, after, chunk, first, arrived⟩ :=
    leads.advance picks ready (by simp [Loaded]) evaluates played
  exact ⟨before, holder, behind, holders, found, count, after, chunk, first, arrived⟩

end

end NDash.Dash

import NDash.DashThreadLicenses

set_option autoImplicit false

namespace NDash

open Machine

def EndedSince : List TrackEvent → Prop
  | [] => False
  | .repositioned :: _ => False
  | .endOfStream :: _ => True
  | _ :: earlier => EndedSince earlier

def SampledSince : List TrackEvent → Prop
  | [] => False
  | .repositioned :: _ => False
  | .sampleRead _ :: _ => True
  | _ :: earlier => SampledSince earlier

/-- Playback has ended only after the track, if it was running, had reported its end anew. -/
def EndsAnew : List TrackEvent → Prop
  | [] => True
  | .playbackEnded renderer :: earlier =>
    (renderer.Polled → EndedSince earlier) ∧ EndsAnew earlier
  | _ :: earlier => EndsAnew earlier

/-- The track was selected only while its renderer ran, and the data it has returned is of samples
that were read since it was last repositioned. -/
def DeliversFresh : List TrackEvent → Prop
  | [] => True
  | .selected renderer :: earlier => renderer.Polled ∧ DeliversFresh earlier
  | .fragment data _ :: earlier =>
    (∃ sample, lastSample earlier = some sample ∧ data <:+: sample.data ∧ SampledSince earlier) ∧
      DeliversFresh earlier
  | _ :: earlier => DeliversFresh earlier

/-- An accepted seek while buffering, or the last callback of a change of the rate. -/
def Repositions (thread : DashThread) (op : PlayerOp) : Prop :=
  match op with
  | .seek timeMs adjust => thread.state = .buffering ∧ thread.acceptsSeek timeMs adjust
  | .disabled index _ => thread.pendingDisable.erase index = []
  | _ => False

def Restarted (op : PlayerOp) (track : TrackContext) : Prop :=
  match op with
  | .disabled _ targetRate =>
    track.frameType = .video ∨ isNormal targetRate = true ∨ track.renderer.Polled
  | _ => track.renderer.Polled

def RestartsOpen (thread : DashThread) (op : PlayerOp) (_ : DashThread) : Prop :=
  Repositions thread op → ∀ track ∈ thread.tracks, Restarted op track → track.isEos = false

def LeavesNoSample (thread : DashThread) (op : PlayerOp) (_ : DashThread) : Prop :=
  match op with
  | .disabled index targetRate =>
    thread.pendingDisable.erase index = [] → isNormal targetRate = false →
      ∀ track ∈ thread.tracks, track.frameType ≠ .video → track.hasSample = false
  | _ => True

inductive Enables (thread : DashThread) (targetRate : Rat) (index : Nat) : DashThread → Prop
  | waits (pendingDisable : List Nat) (disabling : List (Nat × Rat))
      (pending : thread.pendingDisable.erase index ≠ []) :
      Enables thread targetRate index { thread with pendingDisable, disabling }
  | completes (disabling : List (Nat × Rat)) (last : thread.pendingDisable.erase index = []) :
      Enables thread targetRate index { thread with
        disabling
        pendingDisable := []
        state := .buffering
        isEos := false
        playbackRate := targetRate
        tracks := thread.tracks.map fun track => (track.enableForRate targetRate).note .repositioned
        mediaTimeReady := false
        sampleHolderConsumed := 0
        currentTrack := none }

theorem disabled_enables {conversions : Conversions} {thread next : DashThread} {index : Nat}
    {targetRate : Rat} {result : Int}
    (step : thread.step conversions (.disabled index targetRate) = some (.ok (result, next))) :
    Enables thread targetRate index next := by
  simp only [DashThread.step] at step
  split at step
  · cases step
    unfold DashThread.setPlaybackRateEnableTracks
    dsimp only
    split
    next pending => exact .waits _ _ (List.length_pos_iff.mp pending)
    next last =>
      have none : thread.pendingDisable.erase index = [] := by
        simpa using last
      rw [none]
      exact .completes _ none
  · cases step

structure Disables (thread next : DashThread) : Prop where
  same : next = thread ∨ next.state = .ready
  current : next.currentTrack = thread.currentTrack
  consumed : next.sampleHolderConsumed = thread.sampleHolderConsumed
  tracks : ∀ track ∈ next.tracks, ∃ older ∈ thread.tracks, ∃ renderer,
    track = { older with renderer } ∧ (renderer.Polled → older.renderer.Polled)

theorem setPlaybackRate_disables (thread : DashThread) (targetRate : Rat) :
    Disables thread (thread.setPlaybackRateDisableTracks targetRate) := by
  have stops (track : TrackContext) : ∃ renderer, track.stopRenderer = { track with renderer } ∧
      (renderer.Polled → track.renderer.Polled) := by
    unfold TrackContext.stopRenderer
    split
    next started => exact ⟨_, rfl, fun _ => .inl started⟩
    next => exact ⟨_, rfl, id⟩
  have disables (track : TrackContext) : ∃ renderer, track.disableRenderer = { track with renderer } ∧
      (renderer.Polled → track.renderer.Polled) := by
    unfold TrackContext.disableRenderer
    split
    next enabled => exact ⟨_, rfl, fun _ => .inr enabled⟩
    next => exact ⟨_, rfl, id⟩
  unfold DashThread.setPlaybackRateDisableTracks
  split
  · exact ⟨.inl rfl, rfl, rfl, fun track member => ⟨track, member, track.renderer, rfl, id⟩⟩
  · dsimp only
    split
    · refine ⟨.inr rfl, rfl, rfl, ?_⟩
      intro track member
      obtain ⟨older, at_, rfl⟩ := List.mem_map.mp member
      obtain ⟨renderer, stopped, polled⟩ := stops older
      exact ⟨older, at_, renderer, stopped, polled⟩
    · refine ⟨.inr rfl, rfl, rfl, ?_⟩
      intro track member
      obtain ⟨middle, between, rfl⟩ := List.mem_map.mp member
      obtain ⟨older, at_, rfl⟩ := List.mem_map.mp between
      obtain ⟨first, stopped, polled⟩ := stops older
      obtain ⟨second, disabled, still⟩ := disables older.stopRenderer
      refine ⟨older, at_, second, ?_, fun running => polled ?_⟩
      · rw [disabled, stopped]
      · have := still running
        rwa [stopped] at this

structure Heard (track : TrackContext) : Prop where
  ended : track.renderer.Polled → track.isEos = true → EndedSince track.history
  anew : EndsAnew track.history

theorem heard_rule :
    ReadRule (fun track => track.isEos = false ∧ EndsAnew track.history) Heard := by
  have vacuous {track : TrackContext} (going : track.isEos = false) (anew : EndsAnew track.history) :
      Heard track := ⟨fun _ ended => absurd (going.symm.trans ended) nofun, anew⟩
  constructor
  · rintro track ⟨going, anew⟩
    exact vacuous going anew
  · rintro track ⟨going, anew⟩
    exact ⟨fun _ _ => trivial, anew⟩
  · rintro track formatHolder ⟨going, anew⟩
    exact ⟨going, anew⟩
  · rintro track sample ⟨going, anew⟩
    exact ⟨going, anew⟩
  · rintro track sample ⟨going, anew⟩
    exact vacuous going anew
  · rintro track sample ⟨going, anew⟩ present
    exact vacuous going anew

theorem Heard.fill {track : TrackContext} (heard : Heard track) (rate : Rat)
    (reads : List ReadOutcome) : Heard (track.fill rate reads).2 :=
  heard_rule.fill rate reads heard fun going _ _ => ⟨going, heard.anew⟩

theorem Checks.heard {license cleared : Bool} {track next : TrackContext}
    (checks : Checks license track cleared next) (heard : Heard track) : Heard next := by
  cases checks <;> exact ⟨heard.ended, heard.anew⟩

theorem drains_heard {conversions : Conversions} {thread next : DashThread} {index : Nat}
    {track : TrackContext} {fi : DashFrameInfo} {bufferLen : Int}
    (heard : ∀ track ∈ thread.tracks, Heard track) (found : thread.tracks[index]? = some track)
    (drains : Drains conversions thread bufferLen fi index track next) :
    ∀ track ∈ next.tracks, Heard track := by
  have here := heard track (List.mem_of_getElem? found)
  cases drains with
  | finishes =>
    intro other member
    rcases List.mem_or_eq_of_mem_set member with older | rfl
    · exact heard other older
    · exact ⟨here.ended, here.anew⟩
  | continues =>
    intro other member
    rcases List.mem_or_eq_of_mem_set member with older | rfl
    · exact heard other older
    · exact ⟨here.ended, here.anew⟩

theorem copies_heard {conversions : Conversions} {thread next : DashThread} {bufferLen : Int}
    {reads : Nat → List ReadOutcome} {license : Bool} (heard : ∀ track ∈ thread.tracks, Heard track)
    (copies : Copies conversions thread bufferLen reads license next) :
    ∀ track ∈ next.tracks, Heard track := by
  have filled : ∀ track ∈ (thread.fillTrackSampleHolders reads).2.tracks, Heard track := by
    intro track member
    obtain ⟨older, at_, index, rfl⟩ := DashThread.mem_fill member
    exact (heard older at_).fill thread.playbackRate (reads index)
  cases copies with
  | declines => exact heard
  | resumes index track next buffering current found drains => exact drains_heard heard found drains
  | ends buffering current ended =>
    intro track member
    obtain ⟨noted, between, rfl⟩ := List.mem_map.mp member
    have here := filled noted between
    refine ⟨here.ended, fun polled => ?_, here.anew⟩
    obtain ⟨older, at_, index, rfl⟩ := DashThread.mem_fill between
    -- A track that has nothing to read is left as it was.
    rcases fill_snd thread.playbackRate (reads index) older with same | ⟨going, running, -, -⟩
    · rw [same] at polled ⊢
      exact (heard older at_).ended polled
        ((DashThread.fill_eq_false thread reads).mp ended older at_ polled)
    · have gone := (DashThread.fill_eq_false thread reads).mp ended older at_ running
      cases going.symm.trans gone
  | waits => exact filled
  | blocks index track checked readerPosition buffering current found sampled checks =>
    have here := filled track (List.mem_of_getElem? found)
    intro other member
    rcases List.mem_or_eq_of_mem_set member with older | rfl
    · exact filled other older
    · exact checks.heard ⟨here.ended, here.anew⟩
  | begins index track checked readerPosition fi next buffering current found sampled checks
      populated drains =>
    have here := filled track (List.mem_of_getElem? found)
    refine drains_heard ?_ (List.getElem?_set_self (List.getElem?_eq_some_iff.mp found).1) drains
    intro other member
    rcases List.mem_or_eq_of_mem_set member with older | rfl
    · exact filled other older
    · exact checks.heard ⟨here.ended, here.anew⟩

theorem seekRenderer_eq (track : TrackContext) :
    track.seekRenderer =
      if track.renderer.Polled then { track with renderer := .started } else track := by
  unfold TrackContext.seekRenderer RendererState.Polled
  cases track with
  | mk frameType hasSample isEos formatHolder sampleHolder checkPssh preferTrick renderer history =>
    cases renderer <;> rfl

theorem enableForRate_polled (targetRate : Rat) (track : TrackContext) :
    ((track.enableForRate targetRate).renderer.Polled ↔
        track.frameType = .video ∨ isNormal targetRate = true ∨ track.renderer.Polled) ∧
      (track.enableForRate targetRate).isEos = track.isEos ∧
      (track.enableForRate targetRate).history = track.history := by
  unfold TrackContext.enableForRate
  split
  next restarted =>
    have applies : track.frameType = .video ∨ isNormal targetRate = true := by
      simpa using restarted
    refine ⟨⟨fun _ => ?_, fun _ => .inl rfl⟩, rfl, rfl⟩
    exact applies.imp id .inl
  next kept =>
    have not : ¬ (track.frameType = .video ∨ isNormal targetRate = true) := by
      simpa using kept
    refine ⟨⟨fun polled => .inr (.inr polled), fun applies => ?_⟩, rfl, rfl⟩
    rcases applies with video | normal | polled
    · exact absurd (.inl video) not
    · exact absurd (.inr normal) not
    · exact polled

theorem seeks_heard {thread next : DashThread} {timeMs : Int} {adjust : Int → Int}
    (heard : ∀ track ∈ thread.tracks, Heard track)
    (opens : RestartsOpen thread (.seek timeMs adjust) next)
    (seeks : Seeks thread timeMs adjust next) : ∀ track ∈ next.tracks, Heard track := by
  cases seeks with
  | stays => exact heard
  | moves buffering accepted =>
    intro track member
    obtain ⟨older, at_, rfl⟩ := List.mem_map.mp member
    have going := opens ⟨buffering, accepted⟩ older at_
    have anew := (heard older at_).anew
    rw [seekRenderer_eq]
    split
    next polled =>
      exact ⟨fun _ ended => absurd ((going polled).symm.trans ended) nofun, anew⟩
    next idle => exact ⟨fun polled => absurd polled idle, anew⟩

theorem enables_heard {thread next : DashThread} {targetRate : Rat} {index : Nat}
    (heard : ∀ track ∈ thread.tracks, Heard track)
    (opens : RestartsOpen thread (.disabled index targetRate) next)
    (enables : Enables thread targetRate index next) : ∀ track ∈ next.tracks, Heard track := by
  cases enables with
  | waits => exact heard
  | completes disabling last =>
    intro track member
    obtain ⟨older, at_, rfl⟩ := List.mem_map.mp member
    obtain ⟨polled, ended, history⟩ := enableForRate_polled targetRate older
    constructor
    · intro running gone
      have restarted := polled.mp running
      cases (opens last older at_ restarted).symm.trans (ended.symm.trans gone)
    · change EndsAnew (older.enableForRate targetRate).history
      rw [history]
      exact (heard older at_).anew

theorem disables_heard {thread next : DashThread} (heard : ∀ track ∈ thread.tracks, Heard track)
    (disables : Disables thread next) : ∀ track ∈ next.tracks, Heard track := by
  intro track member
  obtain ⟨older, at_, renderer, rfl, polled⟩ := disables.tracks track member
  have here := heard older at_
  exact ⟨fun running => here.ended (polled running), here.anew⟩

theorem updateMediaTime_tracks (thread : DashThread) (newDecoderTimeMs : Int) :
    (thread.updateMediaTime newDecoderTimeMs).tracks = thread.tracks ∧
      (thread.updateMediaTime newDecoderTimeMs).state = thread.state ∧
      (thread.updateMediaTime newDecoderTimeMs).currentTrack = thread.currentTrack := by
  obtain ⟨_, _, _, _, _, updated, -⟩ := thread.updateMediaTime_eq newDecoderTimeMs
  rw [updated]
  exact ⟨rfl, rfl, rfl⟩

theorem restartsOpen_heard {conversions : Conversions} {thread : DashThread}
    (reachable : Reachable ((playerSystem conversions).restrict RestartsOpen) thread) :
    ∀ track ∈ thread.tracks, Heard track := by
  refine reachable.invariant (fun thread => ∀ track ∈ thread.tracks, Heard track) ?_ ?_
  · intro thread loaded track member
    rw [loaded.fresh track member]
    exact ⟨nofun, trivial⟩
  · rintro thread op next heard ⟨⟨result, step⟩, opens⟩
    cases op with
    | copyFrame bufferLen reads license =>
      exact copies_heard heard (copyFrameImpl_copies (Option.some.inj step))
    | updateMediaTime newDecoderTimeMs =>
      cases step
      rw [(updateMediaTime_tracks thread newDecoderTimeMs).1]
      exact heard
    | seek timeMs adjust =>
      have seeks := seekImpl_seeks thread timeMs adjust
      rw [Except.ok.inj (Option.some.inj step)] at seeks
      exact seeks_heard heard opens seeks
    | setPlaybackRate targetRate =>
      cases step
      exact disables_heard heard (setPlaybackRate_disables thread targetRate)
    | disabled index targetRate => exact enables_heard heard opens (disabled_enables step)

theorem repositions_running {conversions : Conversions} {thread next : DashThread} {op : PlayerOp}
    {result : Int} (step : thread.step conversions op = some (.ok (result, next)))
    (repositions : Repositions thread op) :
    (∀ track ∈ next.tracks, track.renderer.Polled → track.isEos = false) ↔
      ∀ track ∈ thread.tracks, Restarted op track → track.isEos = false := by
  cases op with
  | copyFrame => cases repositions
  | updateMediaTime => cases repositions
  | setPlaybackRate => cases repositions
  | seek timeMs adjust =>
    have seeks := seekImpl_seeks thread timeMs adjust
    rw [Except.ok.inj (Option.some.inj step)] at seeks
    cases seeks with
    | stays _ _ _ _ _ _ _ keeps => exact absurd repositions keeps
    | moves =>
      rw [List.forall_mem_map]
      refine forall₂_congr fun track _ => ?_
      have polled : ((track.seekRenderer.clearSample).note .repositioned).renderer.Polled ↔
          track.renderer.Polled := by
        rw [seekRenderer_eq]
        split
        next running => exact ⟨fun _ => running, fun _ => .inl rfl⟩
        next => exact .rfl
      have ended : ((track.seekRenderer.clearSample).note .repositioned).isEos = track.isEos := by
        rw [seekRenderer_eq]
        split <;> rfl
      rw [polled, ended]
      exact .rfl
  | disabled index targetRate =>
    cases disabled_enables step with
    | waits _ _ pending => exact absurd repositions pending
    | completes =>
      rw [List.forall_mem_map]
      refine forall₂_congr fun track _ => ?_
      obtain ⟨polled, ended, -⟩ := enableForRate_polled targetRate track
      rw [show ((track.enableForRate targetRate).note .repositioned).renderer.Polled ↔ _ from polled,
        show ((track.enableForRate targetRate).note .repositioned).isEos = _ from ended]
      exact .rfl

/-- As long as no track is restarted at its end, every running track is read until it reports its end
anew, and playback does not end before. An accepted seek or a completed change of the rate has every
running track read again exactly if none that it restarts is at its end. -/
theorem repositioned_tracks_return {conversions : Conversions} {thread : DashThread}
    (reachable : Reachable ((playerSystem conversions).restrict RestartsOpen) thread) :
    (∀ track ∈ thread.tracks,
      (track.renderer.Polled → track.isEos = true → EndedSince track.history) ∧
        EndsAnew track.history) ∧
      ∀ op result next, thread.step conversions op = some (.ok (result, next)) →
        Repositions thread op →
        ((∀ track ∈ next.tracks, track.renderer.Polled → track.isEos = false) ↔
          ∀ track ∈ thread.tracks, Restarted op track → track.isEos = false) := by
  refine ⟨?_, fun op result next step repositions => repositions_running step repositions⟩
  intro track member
  have heard := restartsOpen_heard reachable track member
  exact ⟨heard.ended, heard.anew⟩

def twoTracks : DashThread :=
  { state := .buffering
    tracks := [{ frameType := .video, renderer := .started },
      { frameType := .audio, renderer := .started }] }

theorem twoTracks_loaded : twoTracks.Loaded :=
  ⟨rfl, rfl, rfl, ⟨rfl, rfl⟩, rfl, by simp [twoTracks]⟩

def videoFrame : List ReadOutcome :=
  [.formatRead { format := some (640, 480) }, .sampleRead { data := [1] } false]

theorem repositioned_tracks_return_forward :
    ∃ thread : DashThread, thread.tracks.map (·.history) = [[.repositioned], [.repositioned]] ∧
      (∀ track ∈ thread.tracks,
        (track.renderer.Polled → track.isEos = true → EndedSince track.history) ∧
          EndsAnew track.history) ∧
        ∀ op result next, thread.step exactConversions op = some (.ok (result, next)) →
          Repositions thread op →
          ((∀ track ∈ next.tracks, track.renderer.Polled → track.isEos = false) ↔
            ∀ track ∈ thread.tracks, Restarted op track → track.isEos = false) := by
  have start := Reachable.start ((playerSystem exactConversions).restrict RestartsOpen)
    twoTracks_loaded
  have going : ∀ track ∈ twoTracks.tracks, Restarted (.seek 10000 id) track → track.isEos = false := by
    simp [twoTracks]
  have moved := start.next (.seek 10000 id) ⟨⟨0, rfl⟩, fun _ => going⟩
  exact ⟨_, rfl, repositioned_tracks_return moved⟩

/-- The audio track ends, the player seeks, and playback ends with the video track although the audio
track has not been read since. -/
theorem ended_track_stays_away :
    ∃ thread : DashThread, Reachable (playerSystem exactConversions) thread ∧
      thread.tracks.map (fun track => (track.renderer, track.history)) =
        [(.started, [.playbackEnded .started, .endOfStream, .repositioned,
            .fragment [1] { type := .video, flags := 3, frameLen := 1, width := 640, height := 480 },
            .selected .started, .sampleRead { data := [1] },
            .formatRead { format := some (640, 480) }]),
          (.started, [.playbackEnded .started, .repositioned, .endOfStream])] ∧
      ¬ ∀ track ∈ thread.tracks, EndsAnew track.history := by
  have start := Reachable.start (playerSystem exactConversions) twoTracks_loaded
  have first := start.next (.copyFrame 9 (fun index =>
    if index = 0 then videoFrame else [.endOfStream]) true) ⟨1, rfl⟩
  have moved := first.next (.seek 10000 id) ⟨0, rfl⟩
  have last := moved.next (.copyFrame 9 (fun _ => [.endOfStream]) true) ⟨-1, rfl⟩
  have ended := last.next (.copyFrame 9 (fun _ => []) true) ⟨0, rfl⟩
  refine ⟨_, ended, rfl, ?_⟩
  intro kept
  obtain ⟨anew, -⟩ := kept _ (List.mem_cons_of_mem _ (List.mem_singleton.mpr rfl))
  exact anew (.inl rfl)

end NDash

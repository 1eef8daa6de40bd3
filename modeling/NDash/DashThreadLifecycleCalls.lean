import Mathlib.Data.List.Nodup
import Mathlib.Data.List.Perm.Subperm
import NDash.DashThreadLifecycleRuns

set_option autoImplicit false

namespace NDash

open Chunk Machine

def PlayerLifecycle.Pushes (player : PlayerLifecycle) : LifecycleOp → Prop
  | .control _ => True
  | .disableAndClear _ _ => True
  | .loadComplete _ index _ => ∃ track, player.tracks[index]? = some track ∧
      track.renderer.source.state = .disabling
  | _ => False

namespace PlayerLifecycle

variable {player : PlayerLifecycle} {stage : CallStage} {index : Nat} {track : LifecycleTrack}

def Stopped (rate : Rat) (track : LifecycleTrack) : Prop :=
  track.renderer.Rests ∧
    (track.renderer.Fresh ∨ if Plays rate track then track.renderer.Active .enabled
      else track.renderer.Waiting)

theorem Stopped.enabled {rate : Rat} (stopped : Stopped rate track)
    (enabled : track.renderer.state = .enabled) : track.renderer.Active .enabled := by
  obtain ⟨-, fresh | standing⟩ := stopped
  · simp [fresh.state] at enabled
  · split at standing
    next => exact standing
    next => simp [standing.state] at enabled

theorem Stopped.idle {rate : Rat} (stopped : Stopped rate track)
    (idle : track.renderer.state ≠ .enabled) : track.renderer.Fresh ∨ track.renderer.Waiting := by
  obtain ⟨-, fresh | standing⟩ := stopped
  · exact .inl fresh
  · split at standing
    next => exact absurd standing.state idle
    next => exact .inr standing

theorem stopTrack_stopped {rate : Rat} (settled : Settled rate track) :
    ∃ renderer, stopTrack index track = .ok renderer ∧ Stopped rate { track with renderer } ∧
      (track.renderer.state ≠ .unprepared → renderer.state ≠ .unprepared) := by
  obtain ⟨rests, fresh | standing⟩ := settled
  · have notStarted : track.renderer.state ≠ .started := by simp [fresh.state]
    exact ⟨track.renderer, if_neg notStarted, ⟨rests, .inl fresh⟩, id⟩
  · by_cases plays : Plays rate track
    · rw [if_pos plays] at standing
      obtain ⟨stopped, stops, active, same⟩ := TrackRenderer.stop_active standing
      refine ⟨stopped, (if_pos standing.state).trans stops, ⟨rests.same same, .inr ?_⟩, ?_⟩
      · have playsStill : Plays rate { track with renderer := stopped } := plays
        rw [if_pos playsStill]
        exact active
      · simp [active.state]
    · rw [if_neg plays] at standing
      have notStarted : track.renderer.state ≠ .started := by simp [standing.state]
      refine ⟨track.renderer, if_neg notStarted, ⟨rests, .inr ?_⟩, id⟩
      rw [if_neg plays]
      exact standing

theorem mem_enabledTracks {tracks : List LifecycleTrack} :
    index ∈ enabledTracks tracks ↔
      ∃ track, tracks[index]? = some track ∧ track.renderer.state = .enabled := by
  unfold enabledTracks
  simp only [List.mem_filterMap, List.mem_mapIdx]
  constructor
  · rintro ⟨entry, ⟨place, inside, rfl⟩, taken⟩
    dsimp only at taken
    split at taken
    next enabled =>
      cases taken
      exact ⟨_, List.getElem?_eq_getElem inside, enabled⟩
    next => cases taken
  · rintro ⟨track, here, enabled⟩
    obtain ⟨inside, rfl⟩ := List.getElem?_eq_some_iff.mp here
    exact ⟨_, ⟨index, inside, rfl⟩, if_pos enabled⟩

theorem nodup_enabledTracks (tracks : List LifecycleTrack) : (enabledTracks tracks).Nodup := by
  unfold enabledTracks
  refine List.Nodup.filterMap ?_ ?_
  · intro first second place firstTaken secondTaken
    rw [Option.mem_def] at firstTaken secondTaken
    obtain ⟨enabled, same⟩ := Option.ite_none_right_eq_some.mp firstTaken
    obtain ⟨enabledAgain, sameAgain⟩ := Option.ite_none_right_eq_some.mp secondTaken
    exact Prod.ext (Option.some.inj (same.trans sameAgain.symm)) (enabled.trans enabledAgain.symm)
  · refine List.Nodup.of_map Prod.fst ?_
    have places : (tracks.mapIdx fun index track => (index, track.renderer.state)).map Prod.fst =
        List.range tracks.length := by
      apply List.ext_getElem
      · simp
      · intro place before after
        simp
    rw [places]
    exact List.nodup_range

theorem stopTracks_stopped (player : PlayerLifecycle)
    (settled : ∀ (index : Nat) (track : LifecycleTrack), player.tracks[index]? = some track →
      Settled player.playbackRate track) :
    ∃ tracks, player.stopTracks =
        .ok { player with tracks, pendingDisable := enabledTracks tracks } ∧
      tracks.map (·.frameType) = player.tracks.map (·.frameType) ∧
      (∀ (index : Nat) (track : LifecycleTrack), tracks[index]? = some track →
        Stopped player.playbackRate track) ∧
      ((∀ track ∈ player.tracks, track.renderer.state ≠ .unprepared) →
        ∀ track ∈ tracks, track.renderer.state ≠ .unprepared) := by
  have each (index : Nat) (track : LifecycleTrack) (here : player.tracks[index]? = some track) :
      ∃ renderer, stopTrack index track = .ok renderer ∧
        Stopped player.playbackRate { track with renderer } ∧
          (track.renderer.state ≠ .unprepared → renderer.state ≠ .unprepared) :=
    stopTrack_stopped (settled index track here)
  obtain ⟨tracks, changed, types, places⟩ := changeTracks_ok (fun _ track renderer =>
    Stopped player.playbackRate { track with renderer } ∧
      (track.renderer.state ≠ .unprepared → renderer.state ≠ .unprepared)) each
  refine ⟨tracks, ?_, types, ?_, ?_⟩
  · simp only [stopTracks, changed, bind, Except.bind]
  · intro index track here
    obtain ⟨before, -, type, stopped, -⟩ := places index track here
    obtain ⟨frameType, renderer⟩ := track
    cases type
    exact stopped
  · intro prepared track member
    obtain ⟨index, here⟩ := List.getElem?_of_mem member
    obtain ⟨before, was, -, -, kept⟩ := places index track here
    exact kept (prepared before (List.mem_of_getElem? was))

theorem disablePending_disables (player : PlayerLifecycle) {rate : Rat} (disableDone : DisableDone)
    (pending : player.pendingDisable = enabledTracks player.tracks)
    (stopped : ∀ (index : Nat) (track : LifecycleTrack), player.tracks[index]? = some track →
      Stopped rate track) :
    ∃ tracks, player.disablePending disableDone = .ok { player with tracks } ∧
      tracks.map (·.frameType) = player.tracks.map (·.frameType) ∧
      ∀ (index : Nat) (track : LifecycleTrack), tracks[index]? = some track →
        if index ∈ player.pendingDisable then track.renderer.Disabling disableDone
        else track.renderer.Rests ∧ (track.renderer.Fresh ∨ track.renderer.Waiting) ∧
          ∃ before, player.tracks[index]? = some before ∧ track.renderer = before.renderer := by
  have each (index : Nat) (track : LifecycleTrack) (here : player.tracks[index]? = some track) :
      ∃ renderer, (if index ∈ player.pendingDisable then track.renderer.disable disableDone
          else .ok track.renderer) = .ok renderer ∧
        (if index ∈ player.pendingDisable then renderer.Disabling disableDone
        else renderer.Rests ∧ (renderer.Fresh ∨ renderer.Waiting) ∧
          renderer = track.renderer) := by
    have stood := stopped index track here
    by_cases member : index ∈ player.pendingDisable
    · rw [pending] at member
      obtain ⟨same, again, enabled⟩ := mem_enabledTracks.mp member
      rw [here] at again
      cases again
      obtain ⟨renderer, disables, disabling⟩ :=
        TrackRenderer.disable_disabling (stood.enabled enabled) stood.1 disableDone
      rw [← pending] at member
      refine ⟨renderer, (if_pos member).trans disables, ?_⟩
      rw [if_pos member]
      exact disabling
    · have idle : track.renderer.state ≠ .enabled := by
        intro enabled
        rw [pending] at member
        exact member (mem_enabledTracks.mpr ⟨track, here, enabled⟩)
      refine ⟨track.renderer, if_neg member, ?_⟩
      rw [if_neg member]
      exact ⟨stood.1, stood.idle idle, rfl⟩
  obtain ⟨tracks, changed, types, places⟩ := changeTracks_ok (fun index track renderer =>
    if index ∈ player.pendingDisable then renderer.Disabling disableDone
    else renderer.Rests ∧ (renderer.Fresh ∨ renderer.Waiting) ∧ renderer = track.renderer) each
  refine ⟨tracks, changed, types, ?_⟩
  intro index track here
  obtain ⟨before, was, -, standing⟩ := places index track here
  split at standing
  next member =>
    rw [if_pos member]
    exact standing
  next member =>
    rw [if_neg member]
    exact ⟨standing.1, standing.2.1, before, was, standing.2.2⟩

theorem enabledTracks_inside {tracks : List LifecycleTrack} (member : index ∈ enabledTracks tracks) :
    index < tracks.length := by
  obtain ⟨track, here, -⟩ := mem_enabledTracks.mp member
  exact (List.getElem?_eq_some_iff.mp here).1

-- A loaded player always plays its video, so that there is a renderer to disable.
theorem enabledTracks_none {rate : Rat} {tracks : List LifecycleTrack}
    (types : tracks.map (·.frameType) = [] ∨ tracks.map (·.frameType) = [.video, .audio, .cc])
    (stopped : ∀ (index : Nat) (track : LifecycleTrack), tracks[index]? = some track →
      Stopped rate track)
    (prepared : ∀ track ∈ tracks, track.renderer.state ≠ .unprepared)
    (none : enabledTracks tracks = []) : tracks = [] := by
  rcases types with empty | three
  · exact List.map_eq_nil_iff.mp empty
  · cases tracks with
    | nil => rfl
    | cons video tracks =>
      have type : video.frameType = .video := (List.cons.inj three).1
      obtain ⟨-, fresh | standing⟩ := stopped 0 video rfl
      · exact absurd fresh.state (prepared video (by simp))
      · have plays : Plays rate video := .inl type
        rw [if_pos plays] at standing
        have member : 0 ∈ enabledTracks (video :: tracks) :=
          mem_enabledTracks.mpr ⟨video, rfl, standing.state⟩
        simp [none] at member

theorem setPlaybackRateDisableTracks_at {targetRate : Rat}
    (sound : player.At (.rateAsked targetRate)) :
    ∃ next, setPlaybackRateDisableTracks targetRate { player with posted := [] } = .ok next ∧
      (next.At (.rateDisabling targetRate) ∨ next.At (.rateDone targetRate)) := by
  obtain ⟨caller, -, pending, notIdle, notPreparing, prepared⟩ := sound.holds
  have unsignaled : player.unloadSignaled = true ↔ False := by
    simpa using sound.unloadSignal
  by_cases same : player.playbackRate = targetRate
  · refine ⟨_, if_pos same, .inr ⟨sound.stands, ⟨caller, rfl, pending,
      ⟨notIdle, notPreparing, prepared⟩, fun _ => same⟩, sound.distinct, sound.inside, sound.types,
      sound.unloaded, ?_, ?_⟩⟩
    · simp
    · simpa using unsignaled
  · obtain ⟨tracks, stops, types, stopped, keeps⟩ :=
      stopTracks_stopped { player with posted := [], state := .ready } sound.stands
    have typed : tracks.map (·.frameType) = [] ∨
        tracks.map (·.frameType) = [.video, .audio, .cc] := by
      rw [types]
      exact sound.types
    by_cases none : enabledTracks tracks = []
    · have empty := enabledTracks_none typed stopped (keeps prepared) none
      subst empty
      refine ⟨{ player with
        posted := [], state := .ready, tracks := [], pendingDisable := []
        playbackRateSignaled := true }, ?_, .inr ⟨by simp, ⟨caller, rfl, rfl,
          ⟨nofun, nofun, List.forall_mem_nil _⟩, fun some => absurd rfl some⟩, List.nodup_nil,
          List.forall_mem_nil _, .inl rfl, ?_, ?_, ?_⟩⟩
      · simp only [setPlaybackRateDisableTracks, if_neg same, stops, none, bind, Except.bind]
        rfl
      · simp
      · simp
      · simpa using unsignaled
    · have some : (enabledTracks tracks).isEmpty = false := by
        simpa using none
      obtain ⟨disabled, disables, disabledTypes, standing⟩ := disablePending_disables
        { player with
          posted := [], state := .ready, tracks, pendingDisable := enabledTracks tracks }
        (.setPlaybackRateEnableTracks targetRate) rfl stopped
      have ran : setPlaybackRateDisableTracks targetRate { player with posted := [] } =
          .ok { player with
            posted := [], state := .ready, tracks := disabled
            pendingDisable := enabledTracks tracks } := by
        simp only [setPlaybackRateDisableTracks, if_neg same, stops, some, Bool.false_eq_true,
          if_false, bind, Except.bind]
        exact disables
      refine ⟨_, ran, .inl ⟨?_, ⟨caller, rfl, none, same, rfl⟩, nodup_enabledTracks tracks, ?_, ?_,
        nofun, ?_, ?_⟩⟩
      · intro index track here
        have stands := standing index track here
        simp only [Stands]
        split at stands
        next member =>
          rw [if_pos member]
          exact stands
        next member =>
          obtain ⟨rests, fresh | waiting, before, was, kept⟩ := stands
          · have state := keeps prepared before (List.mem_of_getElem? was)
            rw [← kept] at state
            exact absurd fresh.state state
          · rw [if_neg member]
            exact ⟨rests, waiting⟩
      · intro index member
        have inside := enabledTracks_inside member
        have lengths := congrArg List.length disabledTypes
        simp only [List.length_map] at lengths
        exact lengths ▸ inside
      · rw [disabledTypes]
        exact typed
      · have unsignaledRate := sound.rateSignal
        simpa using unsignaledRate
      · simpa using unsignaled

theorem unloadImpl_at (sound : player.At .unloadAsked) :
    ∃ next, unloadImpl { player with posted := [] } = .ok next ∧
      (next.At .unloadDisabling ∨ next.At .unloadDone) := by
  obtain ⟨caller, -, pending⟩ := sound.holds
  have unsignaledRate : player.playbackRateSignaled = true ↔ False := by
    simpa using sound.rateSignal
  have unsignaled : player.unloadSignaled = true ↔ False := by
    simpa using sound.unloadSignal
  obtain ⟨tracks, stops, types, stopped, -⟩ :=
    stopTracks_stopped { player with posted := [], state := .ended } sound.stands
  have typed : tracks.map (·.frameType) = [] ∨
      tracks.map (·.frameType) = [.video, .audio, .cc] := by
    rw [types]
    exact sound.types
  by_cases none : enabledTracks tracks = []
  · have ran : unloadImpl { player with posted := [] } = .ok { player with
        posted := [], state := .ended, tracks, pendingDisable := [], unloadSignaled := true } := by
      simp only [unloadImpl, stops, none, bind, Except.bind]
      rfl
    refine ⟨_, ran, .inr ⟨?_, ⟨caller, rfl, rfl, rfl⟩, List.nodup_nil, List.forall_mem_nil _, typed,
      nofun, ?_, ?_⟩⟩
    · intro index track here
      have stood := stopped index track here
      have idle : track.renderer.state ≠ .enabled := by
        intro enabled
        have member : index ∈ enabledTracks tracks :=
          mem_enabledTracks.mpr ⟨track, here, enabled⟩
        simp [none] at member
      exact ⟨stood.1, .inr (stood.idle idle)⟩
    · simpa using unsignaledRate
    · simp
  · have some : (enabledTracks tracks).isEmpty = false := by
      simpa using none
    obtain ⟨disabled, disables, disabledTypes, standing⟩ := disablePending_disables
      { player with
        posted := [], state := .ended, tracks, pendingDisable := enabledTracks tracks }
      .unloadImplDisabled rfl stopped
    have ran : unloadImpl { player with posted := [] } = .ok { player with
        posted := [], state := .ended, tracks := disabled
        pendingDisable := enabledTracks tracks } := by
      simp only [unloadImpl, stops, some, Bool.false_eq_true, if_false, bind, Except.bind]
      exact disables
    refine ⟨_, ran, .inl ⟨?_, ⟨caller, rfl, none, rfl⟩, nodup_enabledTracks tracks, ?_, ?_, nofun,
      ?_, ?_⟩⟩
    · intro index track here
      have stands := standing index track here
      simp only [Stands]
      split at stands
      next member =>
        rw [if_pos member]
        exact stands
      next member =>
        rw [if_neg member]
        exact ⟨stands.1, stands.2.1⟩
    · intro index member
      have inside := enabledTracks_inside member
      have lengths := congrArg List.length disabledTypes
      simp only [List.length_map] at lengths
      exact lengths ▸ inside
    · rw [disabledTypes]
      exact typed
    · simpa using unsignaledRate
    · simpa using unsignaled

theorem notifyUnloadWaiter_at (sound : player.At .unloadNotifying) :
    At { player with posted := [], unloadSignaled := true } .unloadDone := by
  obtain ⟨caller, -, pending, ended⟩ := sound.holds
  refine ⟨?_, ⟨caller, rfl, pending, ended⟩, sound.distinct, sound.inside, sound.types,
    sound.unloaded, ?_, ?_⟩
  · intro index track here
    have stands := sound.stands index track here
    exact ⟨stands.1, .inl stands.2⟩
  · simpa using sound.rateSignal
  · simp

theorem At.length_le (sound : player.At stage) : player.tracks.length ≤ 3 := by
  have lengths := sound.types.imp (congrArg List.length) (congrArg List.length)
  simp only [List.length_map, List.length_nil, List.length_cons] at lengths
  omega

theorem At.pending_le (sound : player.At stage) : player.pendingDisable.length ≤ 3 := by
  have within : player.pendingDisable ⊆ List.range player.tracks.length :=
    fun index member => List.mem_range.mpr (sound.inside index member)
  have fits := (sound.distinct.subperm within).length_le
  rw [List.length_range] at fits
  exact fits.trans sound.length_le

theorem runControl_at (sound : player.At stage) {task : ControlTask} (posted : task ∈ player.posted) :
    ∃ next after, player.runControl task = .ok next ∧ next.At after ∧
      Closer player next stage after := by
  have erased (only : player.posted = [task]) : player.posted.erase task = [] := by
    rw [only]
    simp
  have holds := sound.holds
  cases stage with
  | free => simp [holds.2.1] at posted
  | rateDisabling targetRate => simp [holds.2.1] at posted
  | rateDone targetRate => simp [holds.2.1] at posted
  | unloadDisabling => simp [holds.2.1] at posted
  | unloadDone => simp [holds.2.1] at posted
  | rateAsked targetRate =>
    have only := holds.2.1
    obtain rfl : task = .setPlaybackRateDisableTracks targetRate := by simpa [only] using posted
    simp only [runControl, erased only]
    obtain ⟨next, ran, still | done⟩ := setPlaybackRateDisableTracks_at sound
    · have few := still.pending_le
      refine ⟨next, _, ran, still, still.holds.1.trans holds.1.symm, ?_⟩
      simp only [CallStage.remaining]
      omega
    · refine ⟨next, _, ran, done, done.holds.1.trans holds.1.symm, ?_⟩
      simp only [CallStage.remaining]
      omega
  | unloadAsked =>
    have only := holds.2.1
    obtain rfl : task = .unloadImpl := by simpa [only] using posted
    simp only [runControl, erased only]
    obtain ⟨next, ran, still | done⟩ := unloadImpl_at sound
    · have few := still.pending_le
      refine ⟨next, _, ran, still, still.holds.1.trans holds.1.symm, ?_⟩
      simp only [CallStage.remaining]
      omega
    · refine ⟨next, _, ran, done, done.holds.1.trans holds.1.symm, ?_⟩
      simp only [CallStage.remaining]
      omega
  | unloadNotifying =>
    have only := holds.2.1
    obtain rfl : task = .notifyUnloadWaiter := by simpa [only] using posted
    simp only [runControl, erased only]
    have done := notifyUnloadWaiter_at sound
    refine ⟨_, _, rfl, done, rfl, ?_⟩
    simp only [CallStage.remaining]
    omega

theorem callSetPlaybackRate_at (sound : player.At stage) (idle : player.caller = none)
    (loaded : player.Loaded) (targetRate : Rat) :
    (player.callSetPlaybackRate targetRate).At (.rateAsked targetRate) := by
  have holds := sound.holds
  cases stage with
  | free =>
    refine ⟨sound.stands, ⟨rfl, ?_, holds.2.2, loaded⟩, sound.distinct, sound.inside, sound.types,
      sound.unloaded, by simp [callSetPlaybackRate], ?_⟩
    · simp [callSetPlaybackRate, holds.2.1]
    · simpa [callSetPlaybackRate] using sound.unloadSignal
  | rateAsked _ => simp [holds.1] at idle
  | rateDisabling _ => simp [holds.1] at idle
  | rateDone _ => simp [holds.1] at idle
  | unloadAsked => simp [holds.1] at idle
  | unloadDisabling => simp [holds.1] at idle
  | unloadNotifying => simp [holds.1] at idle
  | unloadDone => simp [holds.1] at idle

theorem callUnload_at (sound : player.At stage) (idle : player.caller = none) :
    player.callUnload.At .unloadAsked := by
  have holds := sound.holds
  cases stage with
  | free =>
    refine ⟨sound.stands, ⟨rfl, ?_, holds.2.2⟩, sound.distinct, sound.inside, sound.types,
      sound.unloaded, ?_, ?_⟩
    · simp [callUnload, holds.2.1]
    · simpa [callUnload] using sound.rateSignal
    · simpa [callUnload] using sound.unloadSignal
  | rateAsked _ => simp [holds.1] at idle
  | rateDisabling _ => simp [holds.1] at idle
  | rateDone _ => simp [holds.1] at idle
  | unloadAsked => simp [holds.1] at idle
  | unloadDisabling => simp [holds.1] at idle
  | unloadNotifying => simp [holds.1] at idle
  | unloadDone => simp [holds.1] at idle

theorem At.signaled_iff (sound : player.At stage) :
    player.signaled = true ↔
      (∃ targetRate, stage = .rateDone targetRate) ∨ stage = .unloadDone := by
  have holds := sound.holds
  have rate := sound.rateSignal
  have unload := sound.unloadSignal
  cases stage with
  | free => simp [signaled, holds.1]
  | rateAsked _ => simpa [signaled, holds.1] using rate
  | rateDisabling _ => simpa [signaled, holds.1] using rate
  | rateDone _ => simpa [signaled, holds.1] using rate
  | unloadAsked => simpa [signaled, holds.1] using unload
  | unloadDisabling => simpa [signaled, holds.1] using unload
  | unloadNotifying => simpa [signaled, holds.1] using unload
  | unloadDone => simpa [signaled, holds.1] using unload

/-- No source is enabled once the player has been unloaded, and no task is bound to one. -/
theorem At.unloaded_idle (sound : player.At .unloadDone) {track : LifecycleTrack}
    (member : track ∈ player.tracks) :
    track.renderer.Rests ∧ track.renderer.source.state ≠ .enabled ∧
      ¬ track.renderer.state.Polled := by
  obtain ⟨index, here⟩ := List.getElem?_of_mem member
  obtain ⟨rests, released | fresh | waiting⟩ := sound.stands index track here
  · simp [rests, released.source, released.state, RendererState.Polled]
  · simp [rests, fresh.dormant.state, fresh.state, RendererState.Polled]
  · simp [rests, waiting.dormant.state, waiting.state, RendererState.Polled]

theorem resume_at (sound : player.At stage) (signaled : player.signaled = true) :
    ∃ next, player.resume = .ok next ∧ next.At .free := by
  rcases sound.signaled_iff.mp signaled with ⟨targetRate, rfl⟩ | rfl
  · obtain ⟨caller, posted, pending, -⟩ := sound.holds
    have unsignaled := sound.unloadSignal
    simp only [resume, caller]
    refine ⟨_, rfl, sound.stands, ⟨rfl, posted, pending⟩, sound.distinct, sound.inside, sound.types,
      sound.unloaded, by simp, ?_⟩
    simpa using unsignaled
  · obtain ⟨caller, posted, pending, ended⟩ := sound.holds
    have unsignaled := sound.rateSignal
    have unbound : player.tracks.any (fun track => track.renderer.source.disablePosted) = false := by
      rw [List.any_eq_false]
      intro track member
      simp [(sound.unloaded_idle member).1.posted]
    have disabled : ∀ track ∈ player.tracks, track.renderer.source.state ≠ .enabled :=
      fun track member => (sound.unloaded_idle member).2.1
    simp only [resume, caller, unbound, dcheck_ok disabled, bind, Except.bind, Bool.false_eq_true,
      if_false]
    refine ⟨_, rfl, by simp, ⟨rfl, posted, pending⟩, sound.distinct, ?_, .inl rfl, ?_, ?_, by simp⟩
    · simp [pending]
    · simp [ended]
    · simpa using unsignaled

def Steady (player next : PlayerLifecycle) (stage after : CallStage) : Prop :=
  after = stage ∧ next.caller = player.caller ∧ next.pendingDisable = player.pendingDisable

theorem moved_steady {tracks : List LifecycleTrack} {state : PlayerState}
    {result : Except Fault PlayerLifecycle} (sound : player.At stage)
    (ran : result = .ok { player with tracks, state }) (moved : player.Moved tracks)
    (advances : Advances player.state state) :
    ∃ next after, result = .ok next ∧ next.At after ∧ Steady player next stage after :=
  ⟨_, stage, ran, sound.moved moved advances, rfl, rfl, rfl⟩

theorem onManifestRefreshed_steady (sound : player.At stage) (answers : LifecycleAnswers) :
    ∃ next after, player.onManifestRefreshed answers = .ok next ∧ next.At after ∧
      Steady player next stage after := by
  obtain ⟨tracks, state, ran, after⟩ := onManifestRefreshed_at sound answers
  exact ⟨_, stage, ran, after, rfl, rfl, rfl⟩

/-- What one step does to the player: it leaves the blocked call alone, it brings the call closer to
its end, or the control thread calls or returns. -/
theorem apply_at (sound : player.At stage) {op : LifecycleOp} (legal : player.Legal op) :
    ∃ next after, player.apply op = .ok next ∧ next.At after ∧
      (Steady player next stage after ∧ ¬ player.Pushes op ∨ Closer player next stage after ∨
        player.caller = none ∨ op = .resume) := by
  cases op with
  | update answers =>
    obtain ⟨tracks, state, ran, moved, advances⟩ := update_moved sound.readsPlayed answers
    obtain ⟨next, after, ran, sound, steady⟩ := moved_steady sound ran moved advances
    exact ⟨next, after, ran, sound, .inl ⟨steady, id⟩⟩
  | manifestRefreshed answers =>
    obtain ⟨next, after, ran, sound, steady⟩ := onManifestRefreshed_steady sound answers
    exact ⟨next, after, ran, sound, .inl ⟨steady, id⟩⟩
  | manifestError =>
    refine ⟨_, stage, rfl, onManifestError_at sound, .inl ⟨⟨rfl, ?_, ?_⟩, id⟩⟩ <;>
      unfold onManifestError <;> split <;> rfl
  | copyFrame reads ended =>
    obtain ⟨tracks, state, ran, moved, advances⟩ :=
      copyFrameImpl_moved sound.readsPlayed reads ended
    obtain ⟨next, after, ran, sound, steady⟩ := moved_steady sound ran moved advances
    exact ⟨next, after, ran, sound, .inl ⟨steady, id⟩⟩
  | seek answers =>
    obtain ⟨tracks, state, ran, moved, advances⟩ := seekImpl_moved sound.readsPlayed answers
    obtain ⟨next, after, ran, sound, steady⟩ := moved_steady sound ran moved advances
    exact ⟨next, after, ran, sound, .inl ⟨steady, id⟩⟩
  | loadComplete answers index outcome =>
    obtain ⟨track, canceled, here, loading, reports⟩ := legal
    obtain ⟨next, ran, ⟨enabled, still, caller, pending⟩ | ⟨after, still, closer⟩⟩ :=
      loadComplete_at sound here loading reports answers
    · refine ⟨next, stage, ran, still, .inl ⟨⟨rfl, caller, pending⟩, ?_⟩⟩
      rintro ⟨again, there, disabling⟩
      rw [here] at there
      cases there
      simp [enabled] at disabling
    · exact ⟨next, after, ran, still, .inr (.inl closer)⟩
  | disableAndClear answers index =>
    obtain ⟨track, here, posted⟩ := legal
    obtain ⟨next, after, ran, still, closer⟩ := disableAndClear_at sound here posted answers
    exact ⟨next, after, ran, still, .inr (.inl closer)⟩
  | control task =>
    obtain ⟨next, after, ran, still, closer⟩ := runControl_at sound legal
    exact ⟨next, after, ran, still, .inr (.inl closer)⟩
  | callSetPlaybackRate targetRate =>
    exact ⟨_, _, rfl, callSetPlaybackRate_at sound legal.1 legal.2 targetRate,
      .inr (.inr (.inl legal.1))⟩
  | callUnload =>
    exact ⟨_, _, rfl, callUnload_at sound legal, .inr (.inr (.inl legal))⟩
  | resume =>
    obtain ⟨next, ran, free⟩ := resume_at sound legal
    exact ⟨next, .free, ran, free, .inr (.inr (.inr rfl))⟩

end PlayerLifecycle

theorem lifecycle_at {player : PlayerLifecycle} (reachable : Reachable lifecycleSystem player) :
    ∃ stage, player.At stage := by
  refine Reachable.invariant (fun player => ∃ stage, player.At stage) ?_ ?_ reachable
  · rintro _ rfl
    exact ⟨.free, by simp, ⟨rfl, rfl, rfl⟩, List.nodup_nil, List.forall_mem_nil _, .inl rfl,
      fun _ => ⟨rfl, rfl⟩, by simp, by simp⟩
  · rintro player op next ⟨stage, sound⟩ ⟨legal, ran⟩
    obtain ⟨reached, after, again, still, -⟩ := PlayerLifecycle.apply_at sound legal
    rw [ran] at again
    cases again
    exact ⟨after, still⟩

namespace TrackRenderer

def Corresponds (renderer : TrackRenderer) : Prop :=
  (renderer.sourceIsEnabled = true ↔ renderer.state.Polled) ∧
    (match renderer.state with
      | .released => renderer.source.state = .idle
      | .unprepared => renderer.source.state = .initialized
      | .prepared => renderer.source.state = .prepared ∨ renderer.source.state = .disabling
      | .enabled | .started => renderer.source.state = .enabled) ∧
    (renderer.state ≠ .released → (renderer.source.registered = true ↔
      renderer.source.state = .enabled ∨ renderer.source.state = .disabling))

variable {renderer : TrackRenderer}

theorem Fresh.corresponds (fresh : renderer.Fresh) : renderer.Corresponds := by
  simp [Corresponds, fresh.state, fresh.disabled, fresh.dormant.state, fresh.dormant.registered,
    RendererState.Polled]

theorem Waiting.corresponds (waiting : renderer.Waiting) : renderer.Corresponds := by
  simp [Corresponds, waiting.state, waiting.disabled, waiting.dormant.state,
    waiting.dormant.registered, RendererState.Polled]

theorem Released.corresponds (released : renderer.Released) : renderer.Corresponds := by
  simp [Corresponds, released.state, released.disabled, released.source, RendererState.Polled]

theorem Active.corresponds (active : renderer.Active .started) : renderer.Corresponds := by
  simp [Corresponds, active.state, active.enabled, active.serving.state, active.serving.registered,
    RendererState.Polled]

theorem Disabling.corresponds {disableDone : DisableDone}
    (disabling : renderer.Disabling disableDone) : renderer.Corresponds := by
  simp [Corresponds, disabling.state, disabling.disabled, disabling.clearing.state,
    disabling.clearing.registered, RendererState.Polled]

end TrackRenderer

/-- Whatever order the tasks, the loads and the calls come in, no state check of a renderer, a source
or the player fails, and each renderer is in the state of its source. -/
theorem lifecycle_checks_hold (player : PlayerLifecycle)
    (reachable : Reachable lifecycleSystem player) :
    (∀ op, player.Legal op → ∃ next, player.apply op = .ok next) ∧
      ∀ track ∈ player.tracks, track.renderer.Corresponds := by
  obtain ⟨stage, sound⟩ := lifecycle_at reachable
  refine ⟨?_, ?_⟩
  · intro op legal
    obtain ⟨next, after, ran, -⟩ := PlayerLifecycle.apply_at sound legal
    exact ⟨next, ran⟩
  · intro track member
    obtain ⟨index, here⟩ := List.getElem?_of_mem member
    rcases (sound.stands index track here).cases with
      ⟨-, fresh | waiting | released | active⟩ | ⟨disableDone, -, disabling, -⟩
    · exact fresh.corresponds
    · exact waiting.corresponds
    · exact released.corresponds
    · exact active.corresponds
    · exact disabling.corresponds

def LifecycleAnswers.loads : LifecycleAnswers where
  prepares := fun _ => true
  starts := fun _ => true
  buffers := fun _ => true
  ready := fun _ => false
  seeks := fun _ => ⟨false, false, false⟩

def playingRenderer : TrackRenderer where
  state := .started
  sourceIsEnabled := true
  source := { state := .enabled, enabledTrackCount := 1, loader := .loading false
              registered := true }

def playingLifecycle : PlayerLifecycle where
  state := .buffering
  tracks := [⟨.video, playingRenderer⟩, ⟨.audio, playingRenderer⟩, ⟨.cc, playingRenderer⟩]

def disablingRenderer : TrackRenderer where
  state := .prepared
  disableDoneCallback := some (.setPlaybackRateEnableTracks 2)
  source := { state := .disabling, enabledTrackCount := 1, loader := .loading true
              registered := true, disableDoneCallback := true }

def disablingLifecycle : PlayerLifecycle where
  state := .ready
  tracks := [⟨.video, disablingRenderer⟩, ⟨.audio, disablingRenderer⟩, ⟨.cc, disablingRenderer⟩]
  pendingDisable := [0, 1, 2]
  caller := some (.setPlaybackRate 2)

theorem reachable_playingLifecycle : Reachable lifecycleSystem playingLifecycle := by
  have preparing : Reachable lifecycleSystem { state := .preparing } :=
    (Reachable.start lifecycleSystem rfl).next (.update .loads) ⟨trivial, rfl⟩
  exact preparing.next (.manifestRefreshed .loads) ⟨trivial, rfl⟩

theorem reachable_disablingLifecycle : Reachable lifecycleSystem disablingLifecycle := by
  have called : Reachable lifecycleSystem (playingLifecycle.callSetPlaybackRate 2) :=
    reachable_playingLifecycle.next (.callSetPlaybackRate 2)
      ⟨⟨rfl, by decide, by decide, by decide⟩, rfl⟩
  exact called.next (.control (.setPlaybackRateDisableTracks 2)) ⟨.head _, by rfl⟩

theorem lifecycle_checks_hold_disabling :
    (∀ op, disablingLifecycle.Legal op → ∃ next, disablingLifecycle.apply op = .ok next) ∧
      ∀ track ∈ disablingLifecycle.tracks, track.renderer.Corresponds :=
  lifecycle_checks_hold disablingLifecycle reachable_disablingLifecycle

namespace PlayerLifecycle

variable {player : PlayerLifecycle} {stage : CallStage}

/-- How many steps a blocked call still needs, at most: its task, one for each renderer that is being
disabled and, for Unload, the notification of the waiter. -/
def remaining (player : PlayerLifecycle) : Nat :=
  match player.caller, player.posted with
  | none, _ => 0
  | some (.setPlaybackRate _), [] => player.pendingDisable.length
  | some (.setPlaybackRate _), _ => 4
  | some .unload, .notifyUnloadWaiter :: _ => 1
  | some .unload, [] => if player.pendingDisable = [] then 0 else player.pendingDisable.length + 1
  | some .unload, _ => 5

theorem At.remaining_eq (sound : player.At stage) :
    player.remaining = stage.remaining player.pendingDisable.length := by
  have holds := sound.holds
  cases stage with
  | free => simp [remaining, holds.1, CallStage.remaining]
  | rateAsked _ => simp [remaining, holds.1, holds.2.1, CallStage.remaining]
  | rateDisabling _ => simp [remaining, holds.1, holds.2.1, CallStage.remaining]
  | rateDone _ => simp [remaining, holds.1, holds.2.1, holds.2.2.1, CallStage.remaining]
  | unloadAsked => simp [remaining, holds.1, holds.2.1, CallStage.remaining]
  | unloadDisabling => simp [remaining, holds.1, holds.2.1, holds.2.2.1, CallStage.remaining]
  | unloadNotifying => simp [remaining, holds.1, holds.2.1, CallStage.remaining]
  | unloadDone => simp [remaining, holds.1, holds.2.1, holds.2.2.1, CallStage.remaining]

theorem Disabling.pushed {track : LifecycleTrack} {index : Nat} {disableDone : DisableDone}
    (here : player.tracks[index]? = some track) (disabling : track.renderer.Disabling disableDone)
    (answers : LifecycleAnswers) : ∃ op, player.Pushes op ∧ player.Legal op := by
  rcases disabling.clearing.work with ⟨-, posted⟩ | ⟨loading, -⟩
  · exact ⟨.disableAndClear answers index, trivial, track, here, posted⟩
  · exact ⟨.loadComplete answers index .canceled, ⟨track, here, disabling.clearing.state⟩, track,
      true, here, loading, by simp⟩

theorem At.pushed (sound : player.At stage) (blocked : player.caller ≠ none)
    (waits : player.signaled = false) (answers : LifecycleAnswers) :
    ∃ op, player.Pushes op ∧ player.Legal op := by
  have posted (task : ControlTask) (member : task ∈ player.posted) :
      ∃ op, player.Pushes op ∧ player.Legal op :=
    ⟨.control task, trivial, member⟩
  have pending (nonempty : player.pendingDisable ≠ []) :
      ∃ index track, player.tracks[index]? = some track ∧ index ∈ player.pendingDisable := by
    obtain ⟨index, member⟩ := List.exists_mem_of_ne_nil _ nonempty
    exact ⟨index, _, List.getElem?_eq_getElem (sound.inside index member), member⟩
  have undone : ¬ ((∃ targetRate, stage = .rateDone targetRate) ∨ stage = .unloadDone) := by
    rw [← sound.signaled_iff, waits]
    nofun
  have holds := sound.holds
  cases stage with
  | free => exact absurd holds.1 blocked
  | rateAsked targetRate =>
    exact posted (.setPlaybackRateDisableTracks targetRate) (by simp [holds.2.1])
  | unloadAsked => exact posted .unloadImpl (by simp [holds.2.1])
  | unloadNotifying => exact posted .notifyUnloadWaiter (by simp [holds.2.1])
  | rateDone targetRate => exact absurd (.inl ⟨targetRate, rfl⟩) undone
  | unloadDone => exact absurd (.inr rfl) undone
  | rateDisabling _ =>
    obtain ⟨index, track, here, member⟩ := pending holds.2.2.1
    have stands := sound.stands index track here
    simp only [Stands, if_pos member] at stands
    exact Disabling.pushed here stands answers
  | unloadDisabling =>
    obtain ⟨index, track, here, member⟩ := pending holds.2.2.1
    have stands := sound.stands index track here
    simp only [Stands, if_pos member] at stands
    exact Disabling.pushed here stands answers

def Outcome (player : PlayerLifecycle) : BlockedCall → Prop
  | .setPlaybackRate targetRate =>
    (player.tracks ≠ [] → player.playbackRate = targetRate) ∧
      ∀ track ∈ player.tracks,
        if Plays targetRate track then
          track.renderer.state = .started ∧ track.renderer.source.state = .enabled
        else track.renderer.state = .prepared ∧ track.renderer.source.state = .prepared
  | .unload =>
    ∀ track ∈ player.tracks,
      ¬ track.renderer.state.Polled ∧ track.renderer.source.disablePosted = false ∧
        ∀ canceled, track.renderer.source.loader ≠ .loading canceled

theorem At.outcome (sound : player.At stage) {call : BlockedCall} (caller : player.caller = some call)
    (signaled : player.signaled = true) : player.Outcome call := by
  rcases sound.signaled_iff.mp signaled with ⟨targetRate, rfl⟩ | rfl
  · obtain ⟨calls, -, -, ⟨-, -, prepared⟩, rate⟩ := sound.holds
    rw [caller] at calls
    cases calls
    refine ⟨rate, fun track member => ?_⟩
    obtain ⟨index, here⟩ := List.getElem?_of_mem member
    obtain ⟨-, fresh | standing⟩ := sound.stands index track here
    · exact absurd fresh.state (prepared track member)
    · rw [rate (List.ne_nil_of_mem member)] at standing
      split at standing
      next plays =>
        rw [if_pos plays]
        exact ⟨standing.state, standing.serving.state⟩
      next idle =>
        rw [if_neg idle]
        exact ⟨standing.state, standing.dormant.state⟩
  · obtain ⟨calls, -⟩ := sound.holds
    rw [caller] at calls
    cases calls
    intro track member
    obtain ⟨index, here⟩ := List.getElem?_of_mem member
    obtain ⟨rests, -, unpolled⟩ := sound.unloaded_idle member
    obtain ⟨-, released | fresh | waiting⟩ := sound.stands index track here
    · exact ⟨unpolled, rests.posted, released.unloaded⟩
    · exact ⟨unpolled, rests.posted, by simp [fresh.dormant.loader]⟩
    · exact ⟨unpolled, rests.posted, by simp [waiting.dormant.loader]⟩

theorem step_remaining {call : BlockedCall} (sound : player.At stage)
    (caller : player.caller = some call) {op : LifecycleOp} (unfinished : op ≠ .resume)
    {next : PlayerLifecycle} (step : lifecycleSystem.Step player op next) :
    (∃ after, next.At after) ∧ next.caller = some call ∧ next.remaining ≤ player.remaining ∧
      (player.Pushes op → next.remaining < player.remaining) := by
  obtain ⟨legal, ran⟩ := step
  obtain ⟨reached, after, again, still, change⟩ := apply_at sound legal
  rw [ran] at again
  cases again
  rw [still.remaining_eq, sound.remaining_eq]
  rcases change with ⟨⟨rfl, same, pending⟩, quiet⟩ | ⟨same, closer⟩ | none | finished
  · rw [pending]
    exact ⟨⟨_, still⟩, same.trans caller, Nat.le_refl _, fun pushes => absurd pushes quiet⟩
  · exact ⟨⟨_, still⟩, same.trans caller, Nat.le_of_lt closer, fun _ => closer⟩
  · simp [caller] at none
  · exact absurd finished unfinished

end PlayerLifecycle

open PlayerLifecycle in
/-- A change of the rate and Unload always come to an end: while the waiter is not signaled a step
that serves the call is possible, at most five such steps are taken before it is, whatever else
happens, and by then the renderers are where the call was to take them. -/
theorem lifecycle_ends_blocked_calls (player : PlayerLifecycle)
    (reachable : Reachable lifecycleSystem player) (call : BlockedCall)
    (blocked : player.caller = some call) :
    (player.signaled = false →
        ∃ op next, player.Pushes op ∧ lifecycleSystem.Step player op next) ∧
      (∀ count last, Paced (lifecycleSystem.restrict fun _ op _ => op ≠ .resume)
          Pushes player count last → count ≤ 5 ∧ last.caller = some call) ∧
      (player.signaled = true → player.Outcome call) := by
  obtain ⟨stage, sound⟩ := lifecycle_at reachable
  refine ⟨?_, ?_, fun signaled => sound.outcome blocked signaled⟩
  · intro waits
    let answers : LifecycleAnswers := { prepares := fun _ => true, starts := fun _ => false
                                        buffers := fun _ => false, ready := fun _ => false
                                        seeks := fun _ => ⟨false, false, false⟩ }
    obtain ⟨op, pushes, legal⟩ := sound.pushed (by simp [blocked]) waits answers
    obtain ⟨next, after, ran, -⟩ := apply_at sound legal
    exact ⟨op, next, pushes, legal, ran⟩
  · intro count last run
    have preserved : Preserves (lifecycleSystem.restrict fun _ op _ => op ≠ .resume)
        fun player => (∃ stage, player.At stage) ∧ player.caller = some call := by
      rintro player op next ⟨⟨stage, sound⟩, caller⟩ ⟨step, unfinished⟩
      have kept := step_remaining sound caller unfinished step
      exact ⟨kept.1, kept.2.1⟩
    have bound := run.bounded remaining preserved
      (by
        rintro player op next ⟨⟨stage, sound⟩, caller⟩ ⟨step, unfinished⟩
        exact (step_remaining sound caller unfinished step).2.2.1)
      (by
        rintro player op next ⟨⟨stage, sound⟩, caller⟩ ⟨step, unfinished⟩
        exact (step_remaining sound caller unfinished step).2.2.2)
      ⟨⟨stage, sound⟩, blocked⟩
    have most : player.remaining ≤ 5 := by
      have few := sound.pending_le
      rw [sound.remaining_eq]
      cases stage <;> simp only [CallStage.remaining] <;> omega
    exact ⟨by omega, bound.2.2⟩

open PlayerLifecycle in
theorem lifecycle_ends_blocked_calls_disabling :
    (disablingLifecycle.signaled = false →
        ∃ op next, disablingLifecycle.Pushes op ∧ lifecycleSystem.Step disablingLifecycle op next) ∧
      (∀ count last, Paced (lifecycleSystem.restrict fun _ op _ => op ≠ .resume)
          Pushes disablingLifecycle count last →
            count ≤ 5 ∧ last.caller = some (.setPlaybackRate 2)) ∧
      (disablingLifecycle.signaled = true → disablingLifecycle.Outcome (.setPlaybackRate 2)) :=
  lifecycle_ends_blocked_calls disablingLifecycle reachable_disablingLifecycle
    (.setPlaybackRate 2) rfl

end NDash

import NDash.DashThreadLifecycle

set_option autoImplicit false

namespace NDash

open Chunk Machine

theorem changeRenderers_ok {change : Nat → LifecycleTrack → Except Fault TrackRenderer}
    (Post : Nat → LifecycleTrack → TrackRenderer → Prop) {tracks : List LifecycleTrack}
    (start : Nat)
    (each : ∀ index track, tracks[index]? = some track →
      ∃ renderer, change (start + index) track = .ok renderer ∧ Post (start + index) track renderer) :
    ∃ next, changeRenderers change start tracks = .ok next ∧
      next.map (·.frameType) = tracks.map (·.frameType) ∧
      ∀ index track, next[index]? = some track → ∃ before, tracks[index]? = some before ∧
        track.frameType = before.frameType ∧ Post (start + index) before track.renderer := by
  induction tracks generalizing start with
  | nil => exact ⟨[], rfl, rfl, by simp⟩
  | cons track tracks ih =>
    obtain ⟨renderer, changed, post⟩ := each 0 track rfl
    obtain ⟨next, rest, types, places⟩ := ih (start + 1) fun index later here => by
      rw [Nat.add_assoc, Nat.add_comm 1 index]
      exact each (index + 1) later here
    refine ⟨{ track with renderer } :: next, ?_, by simp [types], ?_⟩
    · rw [Nat.add_zero] at changed
      simp only [changeRenderers, changed, rest, bind, Except.bind]
    · intro index later here
      cases index with
      | zero =>
        cases here
        exact ⟨track, rfl, rfl, post⟩
      | succ index =>
        obtain ⟨before, was, type, left⟩ := places index later here
        refine ⟨before, was, type, ?_⟩
        rw [Nat.add_comm index 1, ← Nat.add_assoc]
        exact left

namespace PlayerLifecycle

theorem changeTracks_ok {player : PlayerLifecycle}
    {change : Nat → LifecycleTrack → Except Fault TrackRenderer}
    (Post : Nat → LifecycleTrack → TrackRenderer → Prop)
    (each : ∀ index track, player.tracks[index]? = some track →
      ∃ renderer, change index track = .ok renderer ∧ Post index track renderer) :
    ∃ tracks, player.changeTracks change = .ok { player with tracks } ∧
      tracks.map (·.frameType) = player.tracks.map (·.frameType) ∧
      ∀ index track, tracks[index]? = some track → ∃ before, player.tracks[index]? = some before ∧
        track.frameType = before.frameType ∧ Post index before track.renderer := by
  obtain ⟨tracks, changed, types, places⟩ :=
    changeRenderers_ok Post 0 fun index track here => by simpa using each index track here
  refine ⟨tracks, ?_, types, by simpa using places⟩
  simp only [changeTracks, changed, bind, Except.bind]

end PlayerLifecycle

inductive CallStage
  | free
  | rateAsked (targetRate : Rat)
  | rateDisabling (targetRate : Rat)
  | rateDone (targetRate : Rat)
  | unloadAsked
  | unloadDisabling
  | unloadNotifying
  | unloadDone
deriving DecidableEq, Repr

def CallStage.remaining (pending : Nat) : CallStage → Nat
  | .rateAsked _ => 4
  | .rateDisabling _ => pending
  | .unloadAsked => 5
  | .unloadDisabling => pending + 1
  | .unloadNotifying => 1
  | _ => 0

namespace PlayerLifecycle

def Plays (rate : Rat) (track : LifecycleTrack) : Prop :=
  track.frameType = .video ∨ isNormal rate = true

instance (rate : Rat) (track : LifecycleTrack) : Decidable (Plays rate track) :=
  inferInstanceAs (Decidable (_ ∨ _))

def Settled (rate : Rat) (track : LifecycleTrack) : Prop :=
  track.renderer.Rests ∧
    (track.renderer.Fresh ∨ if Plays rate track then track.renderer.Active .started
      else track.renderer.Waiting)

def Stands (player : PlayerLifecycle) : CallStage → Nat → LifecycleTrack → Prop
  | .rateDisabling targetRate, index, track =>
    if index ∈ player.pendingDisable then
      track.renderer.Disabling (.setPlaybackRateEnableTracks targetRate)
    else track.renderer.Rests ∧ track.renderer.Waiting
  | .unloadDisabling, index, track =>
    if index ∈ player.pendingDisable then track.renderer.Disabling .unloadImplDisabled
    else track.renderer.Rests ∧ (track.renderer.Fresh ∨ track.renderer.Waiting)
  | .unloadNotifying, _, track => track.renderer.Rests ∧ track.renderer.Released
  | .unloadDone, _, track =>
    track.renderer.Rests ∧
      (track.renderer.Released ∨ track.renderer.Fresh ∨ track.renderer.Waiting)
  | _, _, track => Settled player.playbackRate track

def Holds (player : PlayerLifecycle) : CallStage → Prop
  | .free => player.caller = none ∧ player.posted = [] ∧ player.pendingDisable = []
  | .rateAsked targetRate => player.caller = some (.setPlaybackRate targetRate) ∧
      player.posted = [.setPlaybackRateDisableTracks targetRate] ∧ player.pendingDisable = [] ∧
      player.Loaded
  | .rateDisabling targetRate => player.caller = some (.setPlaybackRate targetRate) ∧
      player.posted = [] ∧ player.pendingDisable ≠ [] ∧ player.playbackRate ≠ targetRate ∧
      player.state = .ready
  | .rateDone targetRate => player.caller = some (.setPlaybackRate targetRate) ∧
      player.posted = [] ∧ player.pendingDisable = [] ∧ player.Loaded ∧
      (player.tracks ≠ [] → player.playbackRate = targetRate)
  | .unloadAsked => player.caller = some .unload ∧ player.posted = [.unloadImpl] ∧
      player.pendingDisable = []
  | .unloadDisabling => player.caller = some .unload ∧ player.posted = [] ∧
      player.pendingDisable ≠ [] ∧ player.state = .ended
  | .unloadNotifying => player.caller = some .unload ∧ player.posted = [.notifyUnloadWaiter] ∧
      player.pendingDisable = [] ∧ player.state = .ended
  | .unloadDone => player.caller = some .unload ∧ player.posted = [] ∧
      player.pendingDisable = [] ∧ player.state = .ended

structure At (player : PlayerLifecycle) (stage : CallStage) : Prop where
  stands : ∀ index track, player.tracks[index]? = some track → player.Stands stage index track
  holds : player.Holds stage
  distinct : player.pendingDisable.Nodup
  inside : ∀ index ∈ player.pendingDisable, index < player.tracks.length
  types : player.tracks.map (·.frameType) = [] ∨
    player.tracks.map (·.frameType) = [.video, .audio, .cc]
  unloaded : player.state = .idle ∨ player.state = .preparing →
    player.tracks = [] ∧ player.playbackRate = 1
  rateSignal : player.playbackRateSignaled = true ↔ ∃ targetRate, stage = .rateDone targetRate
  unloadSignal : player.unloadSignaled = true ↔ stage = .unloadDone

variable {player : PlayerLifecycle} {stage : CallStage} {index : Nat} {track : LifecycleTrack}

theorem Stands.polled (stands : player.Stands stage index track)
    (polled : track.renderer.state.Polled) :
    track.renderer.Rests ∧ track.renderer.Active .started ∧
      ∀ after : LifecycleTrack, after.frameType = track.frameType → after.renderer.Rests →
        after.renderer.Active .started → player.Stands stage index after := by
  have notPrepared : track.renderer.state ≠ .prepared := by
    rcases polled with state | state <;> simp [state]
  have notUnprepared : track.renderer.state ≠ .unprepared := by
    rcases polled with state | state <;> simp [state]
  have notReleased : track.renderer.state ≠ .released := by
    rcases polled with state | state <;> simp [state]
  have settled (settles : Settled player.playbackRate track) :
      track.renderer.Rests ∧ track.renderer.Active .started ∧
        ∀ after : LifecycleTrack, after.frameType = track.frameType → after.renderer.Rests →
          after.renderer.Active .started → Settled player.playbackRate after := by
    obtain ⟨rests, fresh | standing⟩ := settles
    · exact absurd fresh.state notUnprepared
    · by_cases plays : Plays player.playbackRate track
      · rw [if_pos plays] at standing
        refine ⟨rests, standing, fun after type restsAfter active => ⟨restsAfter, .inr ?_⟩⟩
        have playsAfter : Plays player.playbackRate after := by
          unfold Plays
          rw [type]
          exact plays
        rw [if_pos playsAfter]
        exact active
      · rw [if_neg plays] at standing
        exact absurd standing.state notPrepared
  cases stage with
  | rateDisabling targetRate =>
    simp only [Stands] at stands
    split at stands
    next => exact absurd stands.state notPrepared
    next => exact absurd stands.2.state notPrepared
  | unloadDisabling =>
    simp only [Stands] at stands
    split at stands
    next => exact absurd stands.state notPrepared
    next =>
      rcases stands.2 with fresh | waiting
      · exact absurd fresh.state notUnprepared
      · exact absurd waiting.state notPrepared
  | unloadNotifying => exact absurd stands.2.state notReleased
  | unloadDone =>
    rcases stands.2 with released | fresh | waiting
    · exact absurd released.state notReleased
    · exact absurd fresh.state notUnprepared
    · exact absurd waiting.state notPrepared
  | free => exact settled stands
  | rateAsked targetRate => exact settled stands
  | rateDone targetRate => exact settled stands
  | unloadAsked => exact settled stands

theorem stands_congr {next : PlayerLifecycle} (pending : next.pendingDisable = player.pendingDisable)
    (rate : next.playbackRate = player.playbackRate) (stage : CallStage) (index : Nat)
    (track : LifecycleTrack) :
    next.Stands stage index track ↔ player.Stands stage index track := by
  cases stage <;> simp only [Stands, pending, rate]

structure Moved (player : PlayerLifecycle) (tracks : List LifecycleTrack) : Prop where
  types : tracks.map (·.frameType) = player.tracks.map (·.frameType)
  places : ∀ (index : Nat) (track : LifecycleTrack), tracks[index]? = some track →
    ∃ before, player.tracks[index]? = some before ∧ track.frameType = before.frameType ∧
      (track.renderer = before.renderer ∨
        before.renderer.state.Polled ∧ track.renderer.Active .started ∧
          before.renderer.SameCallbacks track.renderer)

theorem Moved.refl (player : PlayerLifecycle) : player.Moved player.tracks :=
  ⟨rfl, fun _ track here => ⟨track, here, rfl, .inl rfl⟩⟩

theorem Moved.length {tracks : List LifecycleTrack} (moved : player.Moved tracks) :
    tracks.length = player.tracks.length := by
  have lengths := congrArg List.length moved.types
  simpa using lengths

theorem Moved.prepared {tracks : List LifecycleTrack} (moved : player.Moved tracks)
    (prepared : ∀ track ∈ player.tracks, track.renderer.state ≠ .unprepared) :
    ∀ track ∈ tracks, track.renderer.state ≠ .unprepared := by
  intro track member
  obtain ⟨index, here⟩ := List.getElem?_of_mem member
  obtain ⟨before, was, -, same | ⟨-, active, -⟩⟩ := moved.places index track here
  · rw [same]
    exact prepared before (List.mem_of_getElem? was)
  · simp [active.state]

def Advances (state next : PlayerState) : Prop :=
  next = state ∨ (state = .idle ∧ next = .preparing) ∨
    ((state = .preparing ∨ state = .buffering) ∧ next = .ended)

theorem Holds.moved {tracks : List LifecycleTrack} {state : PlayerState}
    (holds : player.Holds stage) (moved : player.Moved tracks)
    (advances : Advances player.state state) :
    Holds { player with tracks, state } stage := by
  have loaded (was : player.Loaded) : Loaded { player with tracks, state } := by
    obtain ⟨notIdle, notPreparing, prepared⟩ := was
    refine ⟨?_, ?_, moved.prepared prepared⟩
    · rcases advances with rfl | ⟨idle, -⟩ | ⟨-, rfl⟩
      · exact notIdle
      · exact absurd idle notIdle
      · nofun
    · rcases advances with rfl | ⟨idle, -⟩ | ⟨-, rfl⟩
      · exact notPreparing
      · exact absurd idle notIdle
      · nofun
  have kept (settled : player.state = .ready ∨ player.state = .ended) : state = player.state := by
    rcases advances with same | ⟨idle, -⟩ | ⟨was, -⟩
    · exact same
    · rcases settled with other | other <;> simp [other] at idle
    · rcases settled with other | other <;> simp [other] at was
  have nonempty (some : tracks ≠ []) : player.tracks ≠ [] := by
    intro none
    exact some (List.length_eq_zero_iff.mp (by rw [moved.length, none, List.length_nil]))
  cases stage with
  | free => exact holds
  | rateAsked targetRate => exact ⟨holds.1, holds.2.1, holds.2.2.1, loaded holds.2.2.2⟩
  | rateDisabling targetRate =>
    obtain ⟨caller, posted, pending, rate, ready⟩ := holds
    exact ⟨caller, posted, pending, rate, (kept (.inl ready)).trans ready⟩
  | rateDone targetRate =>
    obtain ⟨caller, posted, pending, was, rate⟩ := holds
    exact ⟨caller, posted, pending, loaded was, fun some => rate (nonempty some)⟩
  | unloadAsked => exact holds
  | unloadDisabling =>
    obtain ⟨caller, posted, pending, ended⟩ := holds
    exact ⟨caller, posted, pending, (kept (.inr ended)).trans ended⟩
  | unloadNotifying =>
    obtain ⟨caller, posted, pending, ended⟩ := holds
    exact ⟨caller, posted, pending, (kept (.inr ended)).trans ended⟩
  | unloadDone =>
    obtain ⟨caller, posted, pending, ended⟩ := holds
    exact ⟨caller, posted, pending, (kept (.inr ended)).trans ended⟩

theorem At.moved {tracks : List LifecycleTrack} {state : PlayerState} (sound : player.At stage)
    (moved : player.Moved tracks) (advances : Advances player.state state) :
    At { player with tracks, state } stage where
  stands := by
    intro index track here
    have congruent : Stands { player with tracks, state } stage index track ↔
        player.Stands stage index track := stands_congr rfl rfl stage index track
    rw [congruent]
    obtain ⟨before, was, type, same | ⟨polled, active, callbacks⟩⟩ := moved.places index track here
    · have stood := sound.stands index before was
      obtain ⟨frameType, renderer⟩ := track
      obtain ⟨frameTypeBefore, rendererBefore⟩ := before
      cases type
      cases same
      exact stood
    · obtain ⟨rests, -, after⟩ := (sound.stands index before was).polled polled
      exact after track type (rests.same callbacks) active
  holds := sound.holds.moved moved advances
  distinct := sound.distinct
  inside := by
    intro index pending
    rw [moved.length]
    exact sound.inside index pending
  types := by
    rw [moved.types]
    exact sound.types
  unloaded := by
    intro early
    have was : player.state = .idle ∨ player.state = .preparing := by
      rcases advances with same | ⟨idle, -⟩ | ⟨-, ended⟩
      · rwa [same] at early
      · exact .inl idle
      · simp [ended] at early
    obtain ⟨empty, rate⟩ := sound.unloaded was
    exact ⟨List.length_eq_zero_iff.mp (by rw [moved.length, empty, List.length_nil]), rate⟩
  rateSignal := sound.rateSignal
  unloadSignal := sound.unloadSignal

def ReadsPlayed (player : PlayerLifecycle) : Prop :=
  ∀ (index : Nat) (track : LifecycleTrack), player.tracks[index]? = some track →
    track.renderer.state.Polled → track.renderer.Active .started

theorem At.readsPlayed (sound : player.At stage) : player.ReadsPlayed :=
  fun index track here polled => ((sound.stands index track here).polled polled).2.1

theorem changeTracks_moved (change : Nat → LifecycleTrack → Except Fault TrackRenderer)
    (played : player.ReadsPlayed)
    (idle : ∀ index track, ¬ track.renderer.state.Polled → change index track = .ok track.renderer)
    (acts : ∀ index track, track.renderer.Active .started →
      ∃ renderer, change index track = .ok renderer ∧ renderer.Active .started ∧
        track.renderer.SameCallbacks renderer) :
    ∃ tracks, player.changeTracks change = .ok { player with tracks } ∧ player.Moved tracks := by
  have each (index : Nat) (track : LifecycleTrack) (here : player.tracks[index]? = some track) :
      ∃ renderer, change index track = .ok renderer ∧ (renderer = track.renderer ∨
        track.renderer.state.Polled ∧ renderer.Active .started ∧
          track.renderer.SameCallbacks renderer) := by
    by_cases polled : track.renderer.state.Polled
    · obtain ⟨renderer, acted, active, same⟩ := acts index track (played index track here polled)
      exact ⟨renderer, acted, .inr ⟨polled, active, same⟩⟩
    · exact ⟨track.renderer, idle index track polled, .inl rfl⟩
  obtain ⟨tracks, changed, types, places⟩ := changeTracks_ok (fun _ track renderer =>
    renderer = track.renderer ∨ track.renderer.state.Polled ∧ renderer.Active .started ∧
      track.renderer.SameCallbacks renderer) each
  exact ⟨tracks, changed, types, places⟩

theorem update_moved (played : player.ReadsPlayed) (answers : LifecycleAnswers) :
    ∃ tracks state, player.update answers = .ok { player with tracks, state } ∧
      player.Moved tracks ∧ Advances player.state state := by
  unfold update
  split
  next idle => exact ⟨player.tracks, .preparing, rfl, .refl player, .inr (.inl ⟨idle, rfl⟩)⟩
  next =>
    obtain ⟨tracks, changed, moved⟩ := changeTracks_moved (bufferTrack answers) played
      (fun _ _ unpolled => if_neg unpolled) (by
        intro index track active
        have polled : track.renderer.state.Polled := .inl active.state
        simp only [bufferTrack, if_pos polled]
        exact TrackRenderer.buffer_active active _ _)
    exact ⟨tracks, player.state, changed, moved, .inl rfl⟩
  next => exact ⟨player.tracks, player.state, rfl, .refl player, .inl rfl⟩

theorem readFrames_active {renderer : TrackRenderer} (reads : List Bool)
    (active : renderer.Active .started) :
    ∃ next, readFrames reads renderer = .ok next ∧ next.Active .started ∧
      renderer.SameCallbacks next := by
  induction reads generalizing renderer with
  | nil => exact ⟨renderer, rfl, active, rfl, rfl, rfl⟩
  | cons asksPosition reads ih =>
    obtain ⟨middle, read, activeMiddle, same⟩ := TrackRenderer.readFrame_active active
    obtain ⟨next, rest, activeNext, sameNext⟩ := ih activeMiddle
    have position := TrackRenderer.getBufferedPositionUs_active activeMiddle
    refine ⟨next, ?_, activeNext, same.trans sameNext⟩
    cases asksPosition <;> simp [readFrames, read, position, rest, bind, Except.bind]

theorem copyFrameImpl_moved (played : player.ReadsPlayed) (reads : Nat → List Bool) (ended : Bool) :
    ∃ tracks state, player.copyFrameImpl reads ended = .ok { player with tracks, state } ∧
      player.Moved tracks ∧ Advances player.state state := by
  unfold copyFrameImpl
  split
  next => exact ⟨player.tracks, player.state, rfl, .refl player, .inl rfl⟩
  next buffering =>
    obtain ⟨tracks, changed, moved⟩ := changeTracks_moved (fun index track =>
        if track.renderer.state.Polled then readFrames (reads index) track.renderer
        else .ok track.renderer) played (fun _ _ unpolled => if_neg unpolled) (by
        intro index track active
        have polled : track.renderer.state.Polled := .inl active.state
        simp only [if_pos polled]
        exact readFrames_active _ active)
    have was : player.state = .buffering := Decidable.not_not.mp buffering
    simp only [changed, bind, Except.bind]
    cases ended with
    | false => exact ⟨tracks, player.state, rfl, moved, .inl rfl⟩
    | true => exact ⟨tracks, .ended, rfl, moved, .inr (.inr ⟨.inr was, rfl⟩)⟩

theorem seekTrack_active (answers : LifecycleAnswers) (index : Nat)
    (active : track.renderer.Active .started) :
    ∃ renderer, seekTrack answers index track = .ok renderer ∧ renderer.Active .started ∧
      track.renderer.SameCallbacks renderer := by
  obtain ⟨stopped, stops, activeStopped, sameStopped⟩ := TrackRenderer.stop_active active
  obtain ⟨sought, seeks, activeSought, sameSought⟩ :=
    TrackRenderer.seekTo_active activeStopped (answers.seeks index)
  obtain ⟨next, starts, activeNext, sameNext⟩ := TrackRenderer.start_active activeSought
  refine ⟨next, ?_, activeNext, (sameStopped.trans sameSought).trans sameNext⟩
  simp only [seekTrack, if_pos active.state, stops, if_pos activeStopped.state, seeks, starts, bind,
    Except.bind]

theorem seekTrack_idle (answers : LifecycleAnswers) (index : Nat)
    (unpolled : ¬ track.renderer.state.Polled) :
    seekTrack answers index track = .ok track.renderer := by
  have notStarted : track.renderer.state ≠ .started := fun started => unpolled (.inl started)
  have notEnabled : track.renderer.state ≠ .enabled := fun enabled => unpolled (.inr enabled)
  simp only [seekTrack, if_neg notStarted, if_neg notEnabled, bind, Except.bind]

theorem seekImpl_moved (played : player.ReadsPlayed) (answers : LifecycleAnswers) :
    ∃ tracks state, player.seekImpl answers = .ok { player with tracks, state } ∧
      player.Moved tracks ∧ Advances player.state state := by
  unfold seekImpl
  split
  next => exact ⟨player.tracks, player.state, rfl, .refl player, .inl rfl⟩
  next =>
    obtain ⟨tracks, changed, moved⟩ := changeTracks_moved (seekTrack answers) played
      (fun index _ unpolled => seekTrack_idle answers index unpolled)
      (fun index _ active => seekTrack_active answers index active)
    exact ⟨tracks, player.state, changed, moved, .inl rfl⟩

end PlayerLifecycle

end NDash

import NDash.DashThreadLifecycleStages

set_option autoImplicit false

namespace NDash

open Chunk Machine

theorem modify_place {tracks : List LifecycleTrack} {place index : Nat}
    {change : LifecycleTrack → LifecycleTrack} {track : LifecycleTrack}
    (here : (tracks.modify place change)[index]? = some track) :
    ∃ before, tracks[index]? = some before ∧
      track = if place = index then change before else before := by
  rw [List.getElem?_modify] at here
  obtain ⟨before, was, changed⟩ := Option.map_eq_some_iff.mp here
  exact ⟨before, was, changed.symm⟩

theorem modify_types {tracks : List LifecycleTrack} (place : Nat)
    {change : LifecycleTrack → LifecycleTrack}
    (keeps : ∀ track, (change track).frameType = track.frameType) :
    (tracks.modify place change).map (·.frameType) = tracks.map (·.frameType) := by
  apply List.ext_getElem?
  intro index
  simp only [List.getElem?_map, List.getElem?_modify]
  cases tracks[index]? with
  | none => rfl
  | some track => by_cases same : place = index <;> simp [same, keeps]

namespace PlayerLifecycle

variable {player : PlayerLifecycle} {stage : CallStage} {index : Nat} {track : LifecycleTrack}

theorem Stands.cases (stands : player.Stands stage index track) :
    (track.renderer.Rests ∧ (track.renderer.Fresh ∨ track.renderer.Waiting ∨
        track.renderer.Released ∨ track.renderer.Active .started)) ∨
      ∃ disableDone, index ∈ player.pendingDisable ∧ track.renderer.Disabling disableDone ∧
        ((∃ targetRate, stage = .rateDisabling targetRate ∧
            disableDone = .setPlaybackRateEnableTracks targetRate) ∨
          stage = .unloadDisabling ∧ disableDone = .unloadImplDisabled) := by
  have settled (settles : Settled player.playbackRate track) :
      track.renderer.Rests ∧ (track.renderer.Fresh ∨ track.renderer.Waiting ∨
        track.renderer.Released ∨ track.renderer.Active .started) := by
    obtain ⟨rests, fresh | standing⟩ := settles
    · exact ⟨rests, .inl fresh⟩
    · split at standing
      next => exact ⟨rests, .inr (.inr (.inr standing))⟩
      next => exact ⟨rests, .inr (.inl standing)⟩
  cases stage with
  | rateDisabling targetRate =>
    simp only [Stands] at stands
    split at stands
    next pending => exact .inr ⟨_, pending, stands, .inl ⟨targetRate, rfl, rfl⟩⟩
    next => exact .inl ⟨stands.1, .inr (.inl stands.2)⟩
  | unloadDisabling =>
    simp only [Stands] at stands
    split at stands
    next pending => exact .inr ⟨_, pending, stands, .inr ⟨rfl, rfl⟩⟩
    next =>
      obtain ⟨rests, fresh | waiting⟩ := stands
      · exact .inl ⟨rests, .inl fresh⟩
      · exact .inl ⟨rests, .inr (.inl waiting)⟩
  | unloadNotifying => exact .inl ⟨stands.1, .inr (.inr (.inl stands.2))⟩
  | unloadDone =>
    obtain ⟨rests, released | fresh | waiting⟩ := stands
    · exact .inl ⟨rests, .inr (.inr (.inl released))⟩
    · exact .inl ⟨rests, .inl fresh⟩
    · exact .inl ⟨rests, .inr (.inl waiting)⟩
  | free => exact .inl (settled stands)
  | rateAsked targetRate => exact .inl (settled stands)
  | rateDone targetRate => exact .inl (settled stands)
  | unloadAsked => exact .inl (settled stands)

theorem startTracks_ok (answers : LifecycleAnswers) {tracks : List LifecycleTrack} (start : Nat)
    (fresh : ∀ track ∈ tracks, track.renderer.Fresh ∧ track.renderer.Rests) :
    ∃ all next, startTracks answers start tracks = .ok (all, next) ∧
      next.map (·.frameType) = tracks.map (·.frameType) ∧
      ∀ track ∈ next, track.renderer.Rests ∧
        (track.renderer.Fresh ∨ track.renderer.Active .started) := by
  induction tracks generalizing start with
  | nil => exact ⟨true, [], rfl, rfl, by simp⟩
  | cons track tracks ih =>
    obtain ⟨freshHere, rests⟩ := fresh track (by simp)
    have later : ∀ track ∈ tracks, track.renderer.Fresh ∧ track.renderer.Rests :=
      fun track member => fresh track (by simp [member])
    cases prepares : answers.prepares start with
    | false =>
      refine ⟨false, track :: tracks, ?_, rfl, ?_⟩
      · simp only [startTracks, prepares, TrackRenderer.prepare_fails freshHere, bind, Except.bind]
        rfl
      · intro other member
        obtain ⟨freshOther, restsOther⟩ := fresh other member
        exact ⟨restsOther, .inl freshOther⟩
    | true =>
      obtain ⟨prepared, succeeds, waiting, samePrepared⟩ := TrackRenderer.prepare_succeeds freshHere
      obtain ⟨enabled, enables, active, sameEnabled⟩ :=
        TrackRenderer.enable_active waiting (answers.starts start)
      obtain ⟨started, starts, running, sameStarted⟩ := TrackRenderer.start_active active
      obtain ⟨all, next, rest, types, standing⟩ := ih (start + 1) later
      refine ⟨all, { track with renderer := started } :: next, ?_, by simp [types], ?_⟩
      · simp only [startTracks, prepares, succeeds, enables, starts, rest, bind, Except.bind,
          Bool.not_true, Bool.false_eq_true, if_false]
      · intro other member
        rcases List.mem_cons.mp member with rfl | member
        · exact ⟨rests.same ((samePrepared.trans sameEnabled).trans sameStarted), .inr running⟩
        · exact standing other member

theorem Holds.preparing (holds : player.Holds stage) (preparing : player.state = .preparing) :
    stage = .free ∨ stage = .unloadAsked := by
  cases stage with
  | free => exact .inl rfl
  | unloadAsked => exact .inr rfl
  | rateAsked targetRate => exact absurd preparing holds.2.2.2.2.1
  | rateDone targetRate => exact absurd preparing holds.2.2.2.1.2.1
  | rateDisabling targetRate => simp [holds.2.2.2.2] at preparing
  | unloadDisabling => simp [holds.2.2.2] at preparing
  | unloadNotifying => simp [holds.2.2.2] at preparing
  | unloadDone => simp [holds.2.2.2] at preparing

theorem At.started {tracks : List LifecycleTrack} {state : PlayerState} (sound : player.At stage)
    (preparing : player.state = .preparing)
    (types : tracks.map (·.frameType) = [.video, .audio, .cc])
    (standing : ∀ track ∈ tracks, track.renderer.Rests ∧
      (track.renderer.Fresh ∨ track.renderer.Active .started))
    (loaded : state ≠ .idle ∧ state ≠ .preparing) :
    At { player with tracks, state } stage := by
  obtain ⟨empty, rate⟩ := sound.unloaded (.inr preparing)
  have settled (track : LifecycleTrack) (member : track ∈ tracks) :
      Settled player.playbackRate track := by
    obtain ⟨rests, fresh | active⟩ := standing track member
    · exact ⟨rests, .inl fresh⟩
    · have plays : Plays player.playbackRate track := .inr (by simp [rate, isNormal])
      refine ⟨rests, .inr ?_⟩
      rw [if_pos plays]
      exact active
  have early : state = .idle ∨ state = .preparing →
      tracks = [] ∧ player.playbackRate = 1 := by
    rintro (idle | preparing)
    · exact absurd idle loaded.1
    · exact absurd preparing loaded.2
  have nothing (index : Nat) (pending : index ∈ player.pendingDisable) : index < tracks.length := by
    have none := sound.inside index pending
    simp [empty] at none
  rcases sound.holds.preparing preparing with rfl | rfl
  · exact ⟨fun index track here => settled track (List.mem_of_getElem? here), sound.holds,
      sound.distinct, nothing, .inr types, early, sound.rateSignal, sound.unloadSignal⟩
  · exact ⟨fun index track here => settled track (List.mem_of_getElem? here), sound.holds,
      sound.distinct, nothing, .inr types, early, sound.rateSignal, sound.unloadSignal⟩

theorem onManifestRefreshed_at (sound : player.At stage) (answers : LifecycleAnswers) :
    ∃ tracks state, player.onManifestRefreshed answers = .ok { player with tracks, state } ∧
      At { player with tracks, state } stage := by
  by_cases preparing : player.state = .preparing
  · obtain ⟨renderer, creates, fresh, rests⟩ := TrackRenderer.create_fresh
    obtain ⟨empty, -⟩ := sound.unloaded (.inr preparing)
    have created : ∀ track ∈ ([⟨.video, renderer⟩, ⟨.audio, renderer⟩, ⟨.cc, renderer⟩] :
        List LifecycleTrack), track.renderer.Fresh ∧ track.renderer.Rests := by
      intro track member
      simp only [List.mem_cons, List.not_mem_nil, or_false] at member
      rcases member with rfl | rfl | rfl <;> exact ⟨fresh, rests⟩
    obtain ⟨all, tracks, started, types, standing⟩ := startTracks_ok answers 0 created
    have loads : player.onManifestRefreshed answers =
        if !all then .ok { player with tracks, state := .ended }
        else update answers { player with tracks, state := .buffering } := by
      simp only [onManifestRefreshed, preparing, creates, empty, List.nil_append, started, bind,
        Except.bind, ne_eq, not_true_eq_false, if_false]
    rw [loads]
    cases all with
    | false =>
      exact ⟨tracks, .ended, rfl, sound.started preparing types standing ⟨nofun, nofun⟩⟩
    | true =>
      have loaded : At { player with tracks, state := .buffering } stage :=
        sound.started preparing types standing ⟨nofun, nofun⟩
      obtain ⟨final, state, updated, moved, advances⟩ := update_moved loaded.readsPlayed answers
      exact ⟨final, state, updated, loaded.moved moved advances⟩
  · exact ⟨player.tracks, player.state, if_pos preparing, sound⟩

theorem onManifestError_at (sound : player.At stage) : player.onManifestError.At stage := by
  unfold onManifestError
  split
  next preparing =>
    exact sound.moved (.refl player) (.inr (.inr ⟨.inl preparing, rfl⟩))
  next => exact sound

theorem loadComplete_served (sound : player.At stage) (here : player.tracks[index]? = some track)
    (active : track.renderer.Active .started) (answers : LifecycleAnswers)
    (outcome : LoaderOutcome) :
    ∃ tracks, player.loadComplete answers index outcome = .ok { player with tracks } ∧
      At { player with tracks } stage := by
  obtain ⟨source, completes, serves⟩ := SourceLifecycle.loadComplete_serves active.serving outcome
    (answers.starts index)
  simp only [loadComplete, here, completes, bind, Except.bind, Bool.false_eq_true, if_false]
  refine ⟨_, rfl, sound.moved ⟨modify_types index fun _ => rfl, ?_⟩ (.inl rfl)⟩
  intro place after there
  obtain ⟨before, was, changed⟩ := modify_place there
  refine ⟨before, was, ?_⟩
  by_cases same : index = place
  · subst same
    rw [here] at was
    cases was
    rw [if_pos rfl] at changed
    subst changed
    exact ⟨rfl, .inr ⟨.inl active.state, ⟨active.state, active.enabled, serves.serving⟩, rfl,
      serves.callback, serves.posted⟩⟩
  · rw [if_neg same] at changed
    subst changed
    exact ⟨rfl, .inl rfl⟩

structure Cleared (disableDone : DisableDone) (renderer : TrackRenderer) : Prop where
  waiting : renderer.Waiting
  callback : renderer.disableDoneCallback = some disableDone
  source : renderer.source.disableDoneCallback = true
  posted : renderer.source.disablePosted = false

theorem disableAndClear_cleared {renderer : TrackRenderer} {disableDone : DisableDone}
    (disabling : renderer.Disabling disableDone) {source : SourceLifecycle}
    (cleared : source.Dormant .prepared .idle) (callback : source.disableDoneCallback = true)
    (posted : source.disablePosted = false) :
    Cleared disableDone { renderer with source } :=
  ⟨⟨disabling.state, disabling.disabled, cleared⟩, disabling.callback, callback, posted⟩

theorem setRenderer_reset (player : PlayerLifecycle) (index : Nat) (renderer : TrackRenderer) :
    (player.setRenderer index renderer).tracks.modify index
        (fun track => { track with renderer := track.renderer.resetCallbacks }) =
      player.tracks.modify index fun track => { track with renderer := renderer.resetCallbacks } := by
  simp only [setRenderer]
  rw [List.modify_modify_eq]
  rfl

theorem setRenderer_types (player : PlayerLifecycle) (index : Nat) (renderer : TrackRenderer) :
    (player.setRenderer index renderer).tracks.map (·.frameType) =
      player.tracks.map (·.frameType) :=
  modify_types index fun _ => rfl

theorem erase_shorter {pending : List Nat} (member : index ∈ pending) :
    (pending.erase index).length < pending.length := by
  have some := List.length_pos_of_mem member
  rw [List.length_erase_of_mem member]
  omega

theorem mem_erase_pending (sound : player.At stage) (other : Nat) :
    other ∈ player.pendingDisable.erase index ↔ other ≠ index ∧ other ∈ player.pendingDisable :=
  sound.distinct.mem_erase_iff

theorem At.calledBack {renderer : TrackRenderer} (sound : player.At stage)
    (pending : index ∈ player.pendingDisable) (waiting : renderer.Waiting)
    (posted : renderer.source.disablePosted = false)
    (left : player.pendingDisable.erase index ≠ []) :
    At { player with
      pendingDisable := player.pendingDisable.erase index
      tracks := player.tracks.modify index fun track =>
        { track with renderer := renderer.resetCallbacks } } stage := by
  have rests := TrackRenderer.resetCallbacks_rests posted
  have waits := TrackRenderer.resetCallbacks_waiting waiting
  have busy : (∃ targetRate, stage = .rateDisabling targetRate) ∨ stage = .unloadDisabling := by
    have some : player.pendingDisable ≠ [] := List.ne_nil_of_mem pending
    have holds := sound.holds
    cases stage with
    | rateDisabling targetRate => exact .inl ⟨targetRate, rfl⟩
    | unloadDisabling => exact .inr rfl
    | free => exact absurd holds.2.2 some
    | rateAsked targetRate => exact absurd holds.2.2.1 some
    | rateDone targetRate => exact absurd holds.2.2.1 some
    | unloadAsked => exact absurd holds.2.2 some
    | unloadNotifying => exact absurd holds.2.2.1 some
    | unloadDone => exact absurd holds.2.2.1 some
  have state : player.state ≠ .idle ∧ player.state ≠ .preparing := by
    rcases busy with ⟨targetRate, rfl⟩ | rfl
    · simp [sound.holds.2.2.2.2]
    · simp [sound.holds.2.2.2]
  refine ⟨?_, ?_, sound.distinct.erase index, ?_, ?_, ?_, sound.rateSignal, sound.unloadSignal⟩
  · intro place after there
    obtain ⟨before, was, changed⟩ := modify_place there
    have stood := sound.stands place before was
    by_cases same : index = place
    · subst same
      rw [if_pos rfl] at changed
      subst changed
      have gone : index ∉ player.pendingDisable.erase index := sound.distinct.not_mem_erase
      rcases busy with ⟨targetRate, rfl⟩ | rfl
      · simp only [Stands, if_neg gone]
        exact ⟨rests, waits⟩
      · simp only [Stands, if_neg gone]
        exact ⟨rests, .inr waits⟩
    · rw [if_neg same] at changed
      subst changed
      have kept : place ∈ player.pendingDisable.erase index ↔ place ∈ player.pendingDisable := by
        rw [mem_erase_pending sound]
        exact ⟨And.right, fun member => ⟨fun equal => same equal.symm, member⟩⟩
      rcases busy with ⟨targetRate, rfl⟩ | rfl
      · simp only [Stands, kept] at stood ⊢
        exact stood
      · simp only [Stands, kept] at stood ⊢
        exact stood
  · have holds := sound.holds
    rcases busy with ⟨targetRate, rfl⟩ | rfl
    · exact ⟨holds.1, holds.2.1, left, holds.2.2.2⟩
    · exact ⟨holds.1, holds.2.1, left, holds.2.2.2⟩
  · intro place member
    rw [List.length_modify]
    exact sound.inside place (List.mem_of_mem_erase member)
  · have types : (player.tracks.modify index fun track =>
        { track with renderer := renderer.resetCallbacks }).map (·.frameType) =
          player.tracks.map (·.frameType) := modify_types index fun _ => rfl
    simp only [types]
    exact sound.types
  · rintro (idle | preparing)
    · exact absurd idle state.1
    · exact absurd preparing state.2

structure Resumed (rate : Rat) (last index : Nat) (track : LifecycleTrack) : Prop where
  rests : index ≠ last → track.renderer.Rests
  posted : track.renderer.source.disablePosted = false
  standing : if Plays rate track then track.renderer.Active .started else track.renderer.Waiting

theorem Resumed.settled {rate : Rat} {last : Nat} (resumed : Resumed rate last index track) :
    Settled rate (if last = index then
      { track with renderer := track.renderer.resetCallbacks } else track) := by
  obtain ⟨rests, posted, standing⟩ := resumed
  by_cases same : last = index
  · rw [if_pos same]
    refine ⟨TrackRenderer.resetCallbacks_rests posted, .inr ?_⟩
    have sameType : Plays rate { track with renderer := track.renderer.resetCallbacks } ↔
        Plays rate track := Iff.rfl
    rw [if_congr sameType rfl rfl]
    split at standing
    next plays =>
      rw [if_pos plays]
      exact TrackRenderer.resetCallbacks_active standing
    next idle =>
      rw [if_neg idle]
      exact TrackRenderer.resetCallbacks_waiting standing
  · rw [if_neg same]
    exact ⟨rests fun equal => same equal.symm, .inr standing⟩

theorem Resumed.prepared {rate : Rat} {last : Nat} (resumed : Resumed rate last index track) :
    track.renderer.state ≠ .unprepared := by
  have standing := resumed.standing
  split at standing
  next => simp [standing.state]
  next => simp [standing.state]

theorem Resumed.moved {rate : Rat} {last : Nat} {after : LifecycleTrack}
    (resumed : Resumed rate last index track) (type : after.frameType = track.frameType)
    (changed : after.renderer = track.renderer ∨
      track.renderer.state.Polled ∧ after.renderer.Active .started ∧
        track.renderer.SameCallbacks after.renderer) :
    Resumed rate last index after := by
  have plays : Plays rate after ↔ Plays rate track := by
    unfold Plays
    rw [type]
  rcases changed with same | ⟨polled, active, callbacks⟩
  · refine ⟨?_, ?_, ?_⟩
    · rw [same]
      exact resumed.rests
    · rw [same]
      exact resumed.posted
    · rw [same, if_congr plays rfl rfl]
      exact resumed.standing
  · refine ⟨fun other => (resumed.rests other).same callbacks,
      callbacks.posted.trans resumed.posted, ?_⟩
    have standing := resumed.standing
    rw [if_congr plays rfl rfl]
    split at standing
    next played =>
      rw [if_pos played]
      exact active
    next =>
      rcases polled with started | enabled
      · simp [standing.state] at started
      · simp [standing.state] at enabled

theorem enableTrack_resumes {rate : Rat} (answers : LifecycleAnswers)
    (waiting : track.renderer.Waiting) :
    ∃ renderer, enableTrack answers rate index track = .ok renderer ∧
      track.renderer.SameCallbacks renderer ∧
      if Plays rate track then renderer.Active .started else renderer.Waiting := by
  unfold enableTrack
  by_cases plays : Plays rate track
  · obtain ⟨enabled, enables, active, sameEnabled⟩ :=
      TrackRenderer.enable_active waiting (answers.starts index)
    obtain ⟨started, starts, running, sameStarted⟩ := TrackRenderer.start_active active
    refine ⟨started, (if_pos plays).trans ?_, sameEnabled.trans sameStarted, ?_⟩
    · simp only [enables, starts, bind, Except.bind]
    · rw [if_pos plays]
      exact running
  · refine ⟨track.renderer, if_neg plays, ⟨rfl, rfl, rfl⟩, ?_⟩
    rw [if_neg plays]
    exact waiting

theorem setPlaybackRateEnableTracks_last {last : Nat} {targetRate : Rat}
    (answers : LifecycleAnswers) (pending : player.pendingDisable = [last])
    (differs : player.playbackRate ≠ targetRate)
    (standing : ∀ (index : Nat) (track : LifecycleTrack), player.tracks[index]? = some track →
      track.renderer.Waiting ∧ track.renderer.source.disablePosted = false ∧
        (index ≠ last → track.renderer.Rests)) :
    ∃ tracks state, player.setPlaybackRateEnableTracks answers targetRate last =
        .ok { player with
          state, tracks, pendingDisable := [], playbackRate := targetRate
          playbackRateSignaled := true } ∧
      (state ≠ .idle ∧ state ≠ .preparing) ∧
      tracks.map (·.frameType) = player.tracks.map (·.frameType) ∧
      ∀ (index : Nat) (track : LifecycleTrack), tracks[index]? = some track →
        Resumed targetRate last index track := by
  let resumed : PlayerLifecycle := { player with
    state := .buffering, pendingDisable := [], playbackRate := targetRate }
  have each (index : Nat) (track : LifecycleTrack) (here : resumed.tracks[index]? = some track) :
      ∃ renderer, enableTrack answers targetRate index track = .ok renderer ∧
        Resumed targetRate last index { track with renderer } := by
    obtain ⟨waiting, posted, rests⟩ := standing index track here
    obtain ⟨renderer, enables, same, stands⟩ := enableTrack_resumes answers waiting
    exact ⟨renderer, enables, fun other => (rests other).same same, same.posted.trans posted, stands⟩
  obtain ⟨tracks, changed, types, places⟩ := changeTracks_ok
    (fun index track renderer => Resumed targetRate last index { track with renderer }) each
  have resumes (index : Nat) (track : LifecycleTrack) (here : tracks[index]? = some track) :
      Resumed targetRate last index track := by
    obtain ⟨before, -, type, after⟩ := places index track here
    obtain ⟨frameType, renderer⟩ := track
    cases type
    exact after
  let signaled : PlayerLifecycle := { resumed with tracks, playbackRateSignaled := true }
  have played : signaled.ReadsPlayed := by
    intro index track here polled
    have stands := (resumes index track here).standing
    split at stands
    next => exact stands
    next => rcases polled with state | state <;> simp [stands.state] at state
  obtain ⟨final, state, updated, moved, advances⟩ := update_moved played answers
  refine ⟨final, state, ?_, ?_, moved.types.trans types, ?_⟩
  · simp only [setPlaybackRateEnableTracks, pending, dcheck_ok (List.mem_singleton_self _),
      List.erase_cons_head, List.length_nil, Nat.lt_irrefl, if_false, dcheck_ok differs, bind,
      Except.bind]
    have changes : changeTracks { player with
        state := .buffering, pendingDisable := [], playbackRate := targetRate }
          (enableTrack answers targetRate) = .ok { resumed with tracks } := changed
    simp only [changes]
    exact updated
  · rcases advances with rfl | ⟨idle, -⟩ | ⟨-, rfl⟩
    · simp
    · cases idle
    · simp
  · intro index track here
    obtain ⟨before, was, type, after⟩ := moved.places index track here
    exact (resumes index before was).moved type after

theorem rate_calledBack {targetRate : Rat} {renderer : TrackRenderer}
    (sound : player.At (.rateDisabling targetRate)) (pending : index ∈ player.pendingDisable)
    (cleared : Cleared (.setPlaybackRateEnableTracks targetRate) renderer)
    (answers : LifecycleAnswers) :
    ∃ next, player.sourceCleared answers index renderer = .ok next ∧
      ((next.At (.rateDisabling targetRate) ∧
          next.pendingDisable.length < player.pendingDisable.length) ∨
        next.At (.rateDone targetRate)) := by
  obtain ⟨caller, posted, -, differs, ready⟩ := sound.holds
  by_cases left : player.pendingDisable.erase index = []
  · have alone : player.pendingDisable = [index] := by
      have split := List.perm_cons_erase pending
      rw [left] at split
      exact List.perm_singleton.mp split
    have standing (place : Nat) (track : LifecycleTrack)
        (here : (player.setRenderer index renderer).tracks[place]? = some track) :
        track.renderer.Waiting ∧ track.renderer.source.disablePosted = false ∧
          (place ≠ index → track.renderer.Rests) := by
      obtain ⟨before, was, changed⟩ := modify_place here
      by_cases same : index = place
      · rw [if_pos same] at changed
        subst changed
        exact ⟨cleared.waiting, cleared.posted, fun other => absurd same.symm other⟩
      · rw [if_neg same] at changed
        subst changed
        have stood := sound.stands place _ was
        have gone : place ∉ player.pendingDisable := by
          rw [alone]
          simpa using fun equal => same equal.symm
        simp only [Stands, if_neg gone] at stood
        exact ⟨stood.2, stood.1.posted, fun _ => stood.1⟩
    have only : (player.setRenderer index renderer).pendingDisable = [index] := alone
    obtain ⟨tracks, state, changes, loaded, types, resumed⟩ :=
      setPlaybackRateEnableTracks_last answers only differs standing
    have ran : player.sourceCleared answers index renderer = .ok { player with
        state, pendingDisable := [], playbackRate := targetRate, playbackRateSignaled := true
        tracks := tracks.modify index fun track =>
          { track with renderer := track.renderer.resetCallbacks } } := by
      simp only [sourceCleared, cleared.source, if_true, disableDone, cleared.callback, changes, bind,
        Except.bind]
      rfl
    refine ⟨_, ran, .inr ⟨?_, ⟨caller, posted, rfl, ⟨loaded.1, loaded.2, ?_⟩, fun _ => rfl⟩,
      List.nodup_nil, List.forall_mem_nil _, ?_, ?_, ?_, ?_⟩⟩
    · intro place track here
      obtain ⟨before, was, rfl⟩ := modify_place here
      exact (resumed place before was).settled
    · intro track member
      obtain ⟨place, here⟩ := List.getElem?_of_mem member
      obtain ⟨before, was, rfl⟩ := modify_place here
      have prepared := (resumed place before was).prepared
      split
      next => exact prepared
      next => exact prepared
    · have reset : (tracks.modify index fun track =>
          { track with renderer := track.renderer.resetCallbacks }).map (·.frameType) =
            tracks.map (·.frameType) := modify_types index fun _ => rfl
      simp only [reset, types, setRenderer_types]
      exact sound.types
    · rintro (idle | preparing)
      · exact absurd idle loaded.1
      · exact absurd preparing loaded.2
    · simp
    · have unsignaled := sound.unloadSignal
      simp only [reduceCtorEq] at unsignaled ⊢
      exact unsignaled
  · refine ⟨_, ?_, .inl ⟨sound.calledBack pending cleared.waiting cleared.posted left,
      erase_shorter pending⟩⟩
    have member : index ∈ (player.setRenderer index renderer).pendingDisable := pending
    have some : 0 < ((player.setRenderer index renderer).pendingDisable.erase index).length :=
      List.length_pos_iff.mpr left
    simp only [sourceCleared, cleared.source, if_true, disableDone, cleared.callback,
      setPlaybackRateEnableTracks, dcheck_ok member, if_pos some, bind, Except.bind,
      setRenderer_reset]
    rfl

theorem unload_calledBack {renderer : TrackRenderer} (sound : player.At .unloadDisabling)
    (pending : index ∈ player.pendingDisable) (cleared : Cleared .unloadImplDisabled renderer)
    (answers : LifecycleAnswers) :
    ∃ next, player.sourceCleared answers index renderer = .ok next ∧
      ((next.At .unloadDisabling ∧ next.pendingDisable.length < player.pendingDisable.length) ∨
        next.At .unloadNotifying) := by
  obtain ⟨caller, posted, -, ended⟩ := sound.holds
  have member : index ∈ (player.setRenderer index renderer).pendingDisable := pending
  by_cases left : player.pendingDisable.erase index = []
  · have alone : player.pendingDisable = [index] := by
      have split := List.perm_cons_erase pending
      rw [left] at split
      exact List.perm_singleton.mp split
    let emptied : PlayerLifecycle := { player.setRenderer index renderer with pendingDisable := [] }
    have each (place : Nat) (track : LifecycleTrack) (here : emptied.tracks[place]? = some track) :
        ∃ released, releaseTrack place track = .ok released ∧ (released.Released ∧
          released.source.disablePosted = false ∧ (place ≠ index → released.Rests)) := by
      obtain ⟨before, was, changed⟩ := modify_place here
      have idle : (track.renderer.Fresh ∨ track.renderer.Waiting) ∧
          track.renderer.source.disablePosted = false ∧ (place ≠ index → track.renderer.Rests) := by
        by_cases same : index = place
        · rw [if_pos same] at changed
          subst changed
          exact ⟨.inr cleared.waiting, cleared.posted, fun other => absurd same.symm other⟩
        · rw [if_neg same] at changed
          subst changed
          have stood := sound.stands place _ was
          have gone : place ∉ player.pendingDisable := by
            rw [alone]
            simpa using fun equal => same equal.symm
          simp only [Stands, if_neg gone] at stood
          exact ⟨stood.2, stood.1.posted, fun _ => stood.1⟩
      obtain ⟨standing, unposted, rests⟩ := idle
      obtain ⟨released, releases, gone, same⟩ := TrackRenderer.release_released standing
      have kept : track.renderer.state ≠ .released := by
        rcases standing with fresh | waiting
        · simp [fresh.state]
        · simp [waiting.state]
      exact ⟨released, (if_pos kept).trans releases, gone, same.posted.trans unposted,
        fun other => (rests other).same same⟩
    obtain ⟨tracks, changed, types, places⟩ := changeTracks_ok (fun place _ released =>
      released.Released ∧ released.source.disablePosted = false ∧ (place ≠ index → released.Rests))
      each
    have ran : player.sourceCleared answers index renderer = .ok { player with
        pendingDisable := [], posted := [.notifyUnloadWaiter]
        tracks := tracks.modify index fun track =>
          { track with renderer := track.renderer.resetCallbacks } } := by
      have erased : (player.setRenderer index renderer).pendingDisable.erase index = [] := left
      have none : (player.setRenderer index renderer).posted = [] := posted
      simp only [sourceCleared, cleared.source, if_true, disableDone, cleared.callback,
        unloadImplDisabled, dcheck_ok member, erased, List.length_nil, Nat.lt_irrefl, if_false, bind,
        Except.bind]
      simp only [emptied] at changed
      simp only [changed]
      simp only [none]
      rfl
    refine ⟨_, ran, .inr ⟨?_, ⟨caller, rfl, rfl, ended⟩, List.nodup_nil, List.forall_mem_nil _,
      ?_, ?_, ?_, ?_⟩⟩
    · intro place track here
      obtain ⟨middle, was, rfl⟩ := modify_place here
      obtain ⟨before, -, -, released, unposted, rests⟩ := places place middle was
      by_cases same : index = place
      · rw [if_pos same]
        exact ⟨TrackRenderer.resetCallbacks_rests unposted,
          TrackRenderer.resetCallbacks_released released⟩
      · rw [if_neg same]
        exact ⟨rests fun equal => same equal.symm, released⟩
    · have reset : (tracks.modify index fun track =>
          { track with renderer := track.renderer.resetCallbacks }).map (·.frameType) =
            tracks.map (·.frameType) := modify_types index fun _ => rfl
      have started : emptied.tracks.map (·.frameType) = player.tracks.map (·.frameType) :=
        setRenderer_types player index renderer
      simp only [reset, types, started]
      exact sound.types
    · simp [ended]
    · have unsignaled := sound.rateSignal
      simpa using unsignaled
    · have unsignaled := sound.unloadSignal
      simpa using unsignaled
  · refine ⟨_, ?_, .inl ⟨sound.calledBack pending cleared.waiting cleared.posted left,
      erase_shorter pending⟩⟩
    have some : 0 < ((player.setRenderer index renderer).pendingDisable.erase index).length :=
      List.length_pos_iff.mpr left
    simp only [sourceCleared, cleared.source, if_true, disableDone, cleared.callback,
      unloadImplDisabled, dcheck_ok member, if_pos some, bind, Except.bind, setRenderer_reset]
    rfl

def Closer (player next : PlayerLifecycle) (stage after : CallStage) : Prop :=
  next.caller = player.caller ∧
    CallStage.remaining next.pendingDisable.length after <
      CallStage.remaining player.pendingDisable.length stage

theorem calledBack_at {renderer : TrackRenderer} {disableDone : DisableDone}
    (sound : player.At stage) (pending : index ∈ player.pendingDisable)
    (cleared : Cleared disableDone renderer)
    (expected : (∃ targetRate, stage = .rateDisabling targetRate ∧
        disableDone = .setPlaybackRateEnableTracks targetRate) ∨
      stage = .unloadDisabling ∧ disableDone = .unloadImplDisabled)
    (answers : LifecycleAnswers) :
    ∃ next after, player.sourceCleared answers index renderer = .ok next ∧ next.At after ∧
      Closer player next stage after := by
  have some : 0 < player.pendingDisable.length := List.length_pos_of_mem pending
  rcases expected with ⟨targetRate, rfl, rfl⟩ | ⟨rfl, rfl⟩
  · have caller := sound.holds.1
    obtain ⟨next, ran, ⟨still, fewer⟩ | done⟩ := rate_calledBack sound pending cleared answers
    · exact ⟨next, _, ran, still, still.holds.1.trans caller.symm, fewer⟩
    · exact ⟨next, _, ran, done, done.holds.1.trans caller.symm, some⟩
  · have caller := sound.holds.1
    obtain ⟨next, ran, ⟨still, fewer⟩ | done⟩ := unload_calledBack sound pending cleared answers
    · exact ⟨next, _, ran, still, still.holds.1.trans caller.symm, Nat.succ_lt_succ fewer⟩
    · exact ⟨next, _, ran, done, done.holds.1.trans caller.symm, Nat.succ_lt_succ some⟩

theorem loadComplete_at (sound : player.At stage) (here : player.tracks[index]? = some track)
    {canceled : Bool} (loading : track.renderer.source.loader = .loading canceled)
    {outcome : LoaderOutcome} (reports : outcome = .canceled ↔ canceled = true)
    (answers : LifecycleAnswers) :
    ∃ next, player.loadComplete answers index outcome = .ok next ∧
      ((track.renderer.source.state = .enabled ∧ next.At stage ∧
          next.caller = player.caller ∧ next.pendingDisable = player.pendingDisable) ∨
        ∃ after, next.At after ∧ Closer player next stage after) := by
  rcases (sound.stands index track here).cases with
    ⟨-, fresh | waiting | released | active⟩ | ⟨disableDone, pending, disabling, expected⟩
  · simp [fresh.dormant.loader] at loading
  · simp [waiting.dormant.loader] at loading
  · exact absurd loading (released.unloaded canceled)
  · obtain ⟨tracks, ran, after⟩ := loadComplete_served sound here active answers outcome
    exact ⟨_, ran, .inl ⟨active.serving.state, after, rfl, rfl⟩⟩
  · have work : track.renderer.source.loader = .loading true ∧
        track.renderer.source.disablePosted = false := by
      rcases disabling.clearing.work with ⟨idle, -⟩ | work
      · simp [idle] at loading
      · exact work
    have stopped : outcome = .canceled := by
      rw [work.1] at loading
      cases loading
      exact reports.mpr rfl
    have completes : track.renderer.source.loadComplete outcome (answers.starts index) =
        .ok (true, { track.renderer.source with
          loader := .idle, enabledTrackCount := track.renderer.source.enabledTrackCount - 1
          state := .prepared, registered := false }) := by
      simp [stopped, SourceLifecycle.loadComplete, SourceLifecycle.disableAndClear,
        disabling.clearing.state, disabling.clearing.count, disabling.clearing.registered, dcheck,
        bind, Except.bind]
    have zero : track.renderer.source.enabledTrackCount - 1 = 0 := by
      rw [disabling.clearing.count]
      rfl
    have cleared : Cleared disableDone { track.renderer with source := { track.renderer.source with
        loader := .idle, enabledTrackCount := track.renderer.source.enabledTrackCount - 1
        state := .prepared, registered := false } } :=
      disableAndClear_cleared disabling ⟨rfl, zero, rfl, rfl⟩ disabling.clearing.callback work.2
    obtain ⟨next, after, ran, sound, closer⟩ := calledBack_at sound pending cleared expected answers
    refine ⟨next, ?_, .inr ⟨after, sound, closer⟩⟩
    simp only [loadComplete, here, completes, bind, Except.bind, if_true]
    exact ran

theorem disableAndClear_at (sound : player.At stage) (here : player.tracks[index]? = some track)
    (posted : track.renderer.source.disablePosted = true) (answers : LifecycleAnswers) :
    ∃ next after, player.disableAndClear answers index = .ok next ∧ next.At after ∧
      Closer player next stage after := by
  rcases (sound.stands index track here).cases with
    ⟨rests, -⟩ | ⟨disableDone, pending, disabling, expected⟩
  · simp [rests.posted] at posted
  · have idle : track.renderer.source.loader = .idle := by
      rcases disabling.clearing.work with ⟨idle, -⟩ | ⟨-, unposted⟩
      · exact idle
      · simp [unposted] at posted
    have clears : track.renderer.source.runDisableAndClear =
        .ok { track.renderer.source with
          disablePosted := false, enabledTrackCount := track.renderer.source.enabledTrackCount - 1
          state := .prepared, registered := false } := by
      simp [SourceLifecycle.runDisableAndClear, SourceLifecycle.disableAndClear,
        disabling.clearing.state, disabling.clearing.count, disabling.clearing.registered, dcheck,
        bind, Except.bind]
    have zero : track.renderer.source.enabledTrackCount - 1 = 0 := by
      rw [disabling.clearing.count]
      rfl
    simp only [disableAndClear, here, clears, bind, Except.bind]
    refine calledBack_at sound pending ?_ expected answers
    exact disableAndClear_cleared disabling ⟨rfl, zero, idle, rfl⟩ disabling.clearing.callback rfl

end PlayerLifecycle

end NDash

import NDash.DashThreadReposition

set_option autoImplicit false

namespace NDash

open Machine

namespace DashThread

/-- Whether SetPlaybackRateDisableTracks signals the waiter itself: the rate is as it should be, or no
renderer is to be disabled. -/
def signalsAtOnce (thread : DashThread) (targetRate : Rat) : Bool :=
  thread.playbackRate = targetRate ||
    (thread.setPlaybackRateDisableTracks targetRate).pendingDisable.isEmpty

structure SamePlayer (thread next : DashThread) : Prop where
  state : next.state = thread.state
  playbackRate : next.playbackRate = thread.playbackRate
  renderers : next.tracks.map (·.renderer) = thread.tracks.map (·.renderer)
  pendingDisable : next.pendingDisable = thread.pendingDisable
  currentTrack : next.currentTrack = thread.currentTrack
  consumed : next.sampleHolderConsumed = thread.sampleHolderConsumed
  samples : next.tracks.map (fun track => (track.hasSample, track.sampleHolder)) =
    thread.tracks.map fun track => (track.hasSample, track.sampleHolder)

def toDisable (thread : DashThread) : List Nat :=
  ((thread.tracks.map (·.stopRenderer)).mapIdx fun index track => (index, track.renderer)).filterMap
    fun entry => if entry.2 = .enabled then some entry.1 else none

theorem stopRenderer_enabled (track : TrackContext) :
    track.stopRenderer.renderer = .enabled ↔ track.renderer.Polled := by
  unfold TrackContext.stopRenderer RendererState.Polled
  split
  · next started => simp [started]
  · next notStarted => simp [notStarted]

theorem stopRenderer_unpolled {track : TrackContext} (unpolled : ¬ track.renderer.Polled) :
    track.stopRenderer = track :=
  if_neg fun started => unpolled (.inl started)

theorem mem_toDisable {thread : DashThread} {index : Nat} :
    index ∈ thread.toDisable ↔
      ∃ track, thread.tracks[index]? = some track ∧ track.renderer.Polled := by
  unfold toDisable
  simp only [List.mem_filterMap, List.mem_mapIdx, List.length_map, List.getElem_map]
  constructor
  · rintro ⟨entry, ⟨position, inside, rfl⟩, taken⟩
    dsimp only at taken
    split at taken
    · next enabled =>
      cases taken
      exact ⟨_, List.getElem?_eq_getElem inside, (stopRenderer_enabled _).mp enabled⟩
    · cases taken
  · rintro ⟨track, here, polled⟩
    obtain ⟨inside, rfl⟩ := List.getElem?_eq_some_iff.mp here
    exact ⟨_, ⟨index, inside, rfl⟩, if_pos ((stopRenderer_enabled _).mpr polled)⟩

theorem toDisable_eq_nil_iff (thread : DashThread) :
    thread.toDisable = [] ↔ ∀ track ∈ thread.tracks, ¬ track.renderer.Polled := by
  rw [List.eq_nil_iff_forall_not_mem]
  constructor
  · intro none track member polled
    obtain ⟨index, here⟩ := List.getElem?_of_mem member
    exact none index (mem_toDisable.mpr ⟨track, here, polled⟩)
  · intro unpolled index member
    obtain ⟨track, here, polled⟩ := mem_toDisable.mp member
    exact unpolled track (List.mem_of_getElem? here) polled

section

variable {thread : DashThread} {targetRate : Rat}

theorem disableTracks_same (same : thread.playbackRate = targetRate) :
    thread.setPlaybackRateDisableTracks targetRate = thread :=
  if_pos same

theorem disableTracks_none (differs : thread.playbackRate ≠ targetRate)
    (none : thread.toDisable = []) :
    thread.setPlaybackRateDisableTracks targetRate =
      { thread with state := .ready, pendingDisable := [] } := by
  have stopped : thread.tracks.map (·.stopRenderer) = thread.tracks := by
    have unpolled := (toDisable_eq_nil_iff thread).mp none
    have same : thread.tracks.map (·.stopRenderer) = thread.tracks.map id :=
      List.map_congr_left fun track member => stopRenderer_unpolled (unpolled track member)
    rw [same, List.map_id]
  unfold toDisable at none
  unfold setPlaybackRateDisableTracks
  rw [if_neg differs]
  dsimp only
  rw [none, stopped]
  rfl

theorem disableTracks_some (differs : thread.playbackRate ≠ targetRate)
    (running : thread.toDisable ≠ []) :
    thread.setPlaybackRateDisableTracks targetRate = { thread with
      state := .ready
      tracks := (thread.tracks.map (·.stopRenderer)).map (·.disableRenderer)
      pendingDisable := thread.toDisable
      disabling := thread.disabling ++ thread.toDisable.map fun index => (index, targetRate) } := by
  unfold setPlaybackRateDisableTracks
  rw [if_neg differs]
  dsimp only
  rw [if_neg]
  · rfl
  · exact fun empty => running (List.isEmpty_iff.mp empty)

theorem signalsAtOnce_iff : thread.signalsAtOnce targetRate = true ↔
    thread.playbackRate = targetRate ∨ thread.toDisable = [] := by
  unfold signalsAtOnce
  rw [Bool.or_eq_true, decide_eq_true_eq]
  by_cases same : thread.playbackRate = targetRate
  · simp [same]
  · by_cases none : thread.toDisable = []
    · simp [disableTracks_none same none, none]
    · simp [disableTracks_some same none, same, none]

/-- A change of the rate that is refused leaves the player as it was unless there is no renderer to
disable. -/
theorem refused_same_iff :
    (thread.signalsAtOnce targetRate = true →
        thread.SamePlayer (thread.setPlaybackRateDisableTracks targetRate)) ↔
      thread.playbackRate = targetRate ∨ (∃ track ∈ thread.tracks, track.renderer.Polled) ∨
        thread.state = .ready ∧ thread.pendingDisable = [] := by
  rw [signalsAtOnce_iff]
  have runs : (∃ track ∈ thread.tracks, track.renderer.Polled) ↔ thread.toDisable ≠ [] := by
    rw [ne_eq, toDisable_eq_nil_iff]
    simp
  rw [runs]
  by_cases same : thread.playbackRate = targetRate
  · simp only [same, true_or, true_imp_iff, iff_true]
    rw [disableTracks_same same]
    exact ⟨rfl, rfl, rfl, rfl, rfl, rfl, rfl⟩
  · by_cases none : thread.toDisable = []
    · rw [disableTracks_none same none]
      constructor
      · intro kept
        have player := kept (.inr none)
        exact .inr (.inr ⟨player.state.symm, player.pendingDisable.symm⟩)
      · rintro (impossible | impossible | ⟨ready, settled⟩) -
        · exact absurd impossible same
        · exact absurd none impossible
        · exact ⟨ready.symm, rfl, rfl, settled.symm, rfl, rfl, rfl⟩
    · simp [same, none]

end

end DashThread

namespace PlayerOp

def arrival : PlayerOp → Option (Nat × Rat)
  | .disabled index targetRate => some (index, targetRate)
  | _ => none

def isRateChange : PlayerOp → Bool
  | .setPlaybackRate _ => true
  | _ => false

end PlayerOp

theorem Drains.playbackRate {conversions : Conversions} {thread next : DashThread}
    {bufferLen : Int} {fi : DashFrameInfo} {index : Nat} {track : TrackContext}
    (drains : Drains conversions thread bufferLen fi index track next) :
    next.playbackRate = thread.playbackRate := by
  cases drains <;> rfl

theorem Copies.playbackRate {conversions : Conversions} {thread next : DashThread}
    {bufferLen : Int} {reads : Nat → List ReadOutcome} {license : Bool}
    (copies : Copies conversions thread bufferLen reads license next) :
    next.playbackRate = thread.playbackRate := by
  cases copies with
  | declines => rfl
  | resumes _ _ _ _ _ _ drains => exact drains.playbackRate
  | ends => rfl
  | waits => rfl
  | blocks => rfl
  | begins _ _ _ _ _ _ _ _ _ _ _ _ drains =>
    have kept := drains.playbackRate
    exact kept

namespace DashThread

structure Waits (started thread : DashThread) (pending : List Nat) : Prop where
  state : thread.state = .ready
  playbackRate : thread.playbackRate = started.playbackRate
  tracks : thread.tracks = started.tracks
  pendingDisable : thread.pendingDisable.Perm pending

variable {conversions : Conversions} {started thread next : DashThread}

theorem other_playbackRate {op : PlayerOp} (noChange : op.isRateChange = false)
    (noArrival : op.arrival = none) (step : (playerSystem conversions).Step thread op next) :
    next.playbackRate = thread.playbackRate := by
  obtain ⟨result, step⟩ := step
  cases op with
  | copyFrame bufferLen reads license =>
    exact (copyFrameImpl_copies (Option.some.inj step)).playbackRate
  | seek timeMs adjust =>
    have seeks := seekImpl_seeks thread timeMs adjust
    rw [Except.ok.inj (Option.some.inj step)] at seeks
    cases seeks <;> rfl
  | setPlaybackRate targetRate => cases noChange
  | disabled index targetRate => cases noArrival
  | updateMediaTime newDecoderTimeMs =>
    cases step
    obtain ⟨_, _, _, _, _, same, -⟩ := thread.updateMediaTime_eq newDecoderTimeMs
    rw [same]

theorem Waits.other {pending : List Nat} (waits : Waits started thread pending) {op : PlayerOp}
    (noChange : op.isRateChange = false) (noArrival : op.arrival = none)
    (step : (playerSystem conversions).Step thread op next) : Waits started next pending := by
  obtain ⟨state, playbackRate, tracks, pendingDisable⟩ := waits
  have idle : thread.state ≠ .buffering := by rw [state]; exact nofun
  obtain ⟨result, step⟩ := step
  cases op with
  | copyFrame bufferLen reads license =>
    have copied : thread.copyFrameImpl conversions bufferLen reads license = .ok (-1, thread) :=
      if_pos idle
    have stepped := Option.some.inj step
    rw [copied] at stepped
    cases stepped
    exact ⟨state, playbackRate, tracks, pendingDisable⟩
  | seek timeMs adjust =>
    have seeks := seekImpl_seeks thread timeMs adjust
    rw [Except.ok.inj (Option.some.inj step)] at seeks
    cases seeks with
    | stays => exact ⟨state, playbackRate, tracks, pendingDisable⟩
    | moves buffering => exact absurd buffering idle
  | setPlaybackRate targetRate => cases noChange
  | disabled index targetRate => cases noArrival
  | updateMediaTime newDecoderTimeMs =>
    cases step
    obtain ⟨_, _, _, _, _, same, -⟩ := thread.updateMediaTime_eq newDecoderTimeMs
    rw [same]
    exact ⟨state, playbackRate, tracks, pendingDisable⟩

structure Changes (targetRate : Rat) (thread next : DashThread) : Prop where
  state : next.state = .buffering
  playbackRate : next.playbackRate = targetRate
  tracks : next.tracks =
    thread.tracks.map fun track => (track.enableForRate targetRate).note .repositioned

theorem Waits.arrival {pending : List Nat} {index : Nat} {targetRate : Rat}
    (waits : Waits started thread (index :: pending))
    (step : (playerSystem conversions).Step thread (.disabled index targetRate) next) :
    if pending = [] then Changes targetRate thread next else Waits started next pending := by
  obtain ⟨state, playbackRate, tracks, pendingDisable⟩ := waits
  have erased : (thread.pendingDisable.erase index).Perm pending := by
    have := pendingDisable.erase index
    rwa [List.erase_cons_head] at this
  obtain ⟨result, step⟩ := step
  simp only [DashThread.step] at step
  split at step
  · cases step
    unfold setPlaybackRateEnableTracks
    dsimp only
    rw [erased.length_eq]
    split
    · next last =>
      rw [last, List.length_nil, if_neg (Nat.lt_irrefl 0)]
      exact ⟨rfl, rfl, rfl⟩
    · next more =>
      rw [if_pos (List.length_pos_iff.mpr more)]
      exact ⟨state, playbackRate, tracks, erased⟩
  · cases step

theorem others_playbackRate {ops : List PlayerOp} {final : DashThread}
    (run : Run (playerSystem conversions) thread ops final)
    (noChanges : ∀ op ∈ ops, op.isRateChange = false)
    (noArrivals : ops.filterMap PlayerOp.arrival = []) :
    final.playbackRate = thread.playbackRate := by
  rw [List.filterMap_eq_nil_iff] at noArrivals
  induction run with
  | nil => rfl
  | cons step _ ih =>
    rw [List.forall_mem_cons] at noChanges noArrivals
    rw [ih noChanges.2 noArrivals.2, other_playbackRate noChanges.1 noArrivals.1 step]

/-- The change happens once in the run, with a callback behind which no other arrives, and finds the
player as it has waited since the start. -/
structure ChangesOnce (conversions : Conversions) (targetRate : Rat) (started thread : DashThread)
    (ops : List PlayerOp) (final : DashThread) : Prop where
  change : ∃ before index after waiting changed,
    ops = before ++ .disabled index targetRate :: after ∧
    Run (playerSystem conversions) thread before waiting ∧ Waits started waiting [index] ∧
    (playerSystem conversions).Step waiting (.disabled index targetRate) changed ∧
    Changes targetRate waiting changed ∧
    Run (playerSystem conversions) changed after final ∧ after.filterMap PlayerOp.arrival = []
  playbackRate : final.playbackRate = targetRate

theorem ChangesOnce.cons {targetRate : Rat} {op : PlayerOp} {ops : List PlayerOp}
    {final : DashThread} (step : (playerSystem conversions).Step thread op next)
    (changes : ChangesOnce conversions targetRate started next ops final) :
    ChangesOnce conversions targetRate started thread (op :: ops) final := by
  obtain ⟨⟨before, index, after, waiting, changed, rfl, run, rest⟩, playbackRate⟩ := changes
  exact ⟨⟨op :: before, index, after, waiting, changed, rfl, .cons step run, rest⟩, playbackRate⟩

theorem Waits.run {pending rest : List Nat} {targetRate : Rat} {ops : List PlayerOp}
    {final : DashThread} (waits : Waits started thread pending) (some_pending : pending ≠ [])
    (run : Run (playerSystem conversions) thread ops final)
    (noChanges : ∀ op ∈ ops, op.isRateChange = false)
    (arrive : (ops.filterMap PlayerOp.arrival ++ rest.map fun index => (index, targetRate)).Perm
      (pending.map fun index => (index, targetRate))) :
    if rest = [] then ChangesOnce conversions targetRate started thread ops final
    else Waits started final rest := by
  induction run generalizing pending with
  | nil =>
    have same := arrive.map Prod.fst
    simp only [List.filterMap_nil, List.nil_append, List.map_map, Function.comp_def,
      List.map_id'] at same
    split
    · next none =>
      rw [none, List.nil_perm] at same
      exact absurd same some_pending
    · exact ⟨waits.state, waits.playbackRate, waits.tracks, waits.pendingDisable.trans same.symm⟩
  | @cons thread middle final op ops step later ih =>
    rw [List.forall_mem_cons] at noChanges
    cases arrival : op.arrival with
    | none =>
      rw [List.filterMap_cons_none arrival] at arrive
      have result := ih (waits.other noChanges.1 arrival step) some_pending noChanges.2 arrive
      split
      · next none =>
        rw [if_pos none] at result
        exact result.cons step
      · next more =>
        rw [if_neg more] at result
        exact result
    | some entry =>
      rw [List.filterMap_cons_some arrival, List.cons_append] at arrive
      have member := arrive.subset List.mem_cons_self
      obtain ⟨index, isPending, rfl⟩ := List.mem_map.mp member
      obtain rfl : op = .disabled index targetRate := by
        cases op <;> cases arrival
        rfl
      have split_pending := List.perm_cons_erase isPending
      have waits' : Waits started thread (index :: pending.erase index) :=
        ⟨waits.state, waits.playbackRate, waits.tracks, waits.pendingDisable.trans split_pending⟩
      have arrive' := (arrive.trans (split_pending.map _)).cons_inv
      have arrived := waits'.arrival step
      split at arrived
      · next last =>
        rw [last, List.map_nil, List.perm_nil, List.append_eq_nil_iff, List.map_eq_nil_iff] at arrive'
        rw [if_pos arrive'.2]
        rw [last] at waits'
        have kept := others_playbackRate later noChanges.2 arrive'.1
        exact ⟨⟨[], index, ops, thread, middle, rfl, .nil _, waits', step, arrived, later, arrive'.1⟩,
          kept.trans arrived.playbackRate⟩
      · next more =>
        have result := ih arrived more noChanges.2 arrive'
        split
        · next none =>
          rw [if_pos none] at result
          exact result.cons step
        · next pending_left =>
          rw [if_neg pending_left] at result
          exact result

/-- A change that is refused leaves the player as it was if a renderer runs or there is nothing to
leave. One that is not refused happens once, with the last callback, in whatever order they arrive. -/
theorem setPlaybackRate_refused_iff (conversions : Conversions) (thread : DashThread)
    (targetRate : Rat) :
    ((thread.signalsAtOnce targetRate = true →
        thread.SamePlayer (thread.setPlaybackRateDisableTracks targetRate)) ↔
      thread.playbackRate = targetRate ∨ (∃ track ∈ thread.tracks, track.renderer.Polled) ∨
        thread.state = .ready ∧ thread.pendingDisable = []) ∧
    let started := thread.setPlaybackRateDisableTracks targetRate
    (thread.signalsAtOnce targetRate = false → ∀ (ops : List PlayerOp) (rest : List Nat) final,
      Run (playerSystem conversions) started ops final →
      (∀ op ∈ ops, op.isRateChange = false) →
      (ops.filterMap PlayerOp.arrival ++ rest.map fun index => (index, targetRate)).Perm
        (thread.toDisable.map fun index => (index, targetRate)) →
      if rest = [] then ChangesOnce conversions targetRate started started ops final
      else Waits started final rest) := by
  refine ⟨refused_same_iff, ?_⟩
  intro started accepted ops rest final run noChanges arrive
  rw [← Bool.not_eq_true, signalsAtOnce_iff, not_or] at accepted
  have same : started = _ := disableTracks_some accepted.1 accepted.2
  have waits : Waits started started thread.toDisable := by
    refine ⟨?_, rfl, rfl, ?_⟩
    · rw [same]
    · rw [same]
  exact waits.run accepted.2 run noChanges arrive

end DashThread

namespace RateSample

def player : DashThread where
  state := .buffering
  tracks := [{ frameType := .video, renderer := .started },
    { frameType := .audio, renderer := .started }]

end RateSample

theorem DashThread.setPlaybackRate_last_first :
    ∃ final, Run (playerSystem exactConversions) (RateSample.player.setPlaybackRateDisableTracks 2)
        [.disabled 1 2, .updateMediaTime (-1), .disabled 0 2] final ∧
      final.playbackRate = 2 := by
  have run : ∃ final, Run (playerSystem exactConversions)
      (RateSample.player.setPlaybackRateDisableTracks 2)
      [.disabled 1 2, .updateMediaTime (-1), .disabled 0 2] final :=
    ⟨_, .cons ⟨0, rfl⟩ (.cons ⟨0, rfl⟩ (.cons ⟨0, rfl⟩ (.nil _)))⟩
  obtain ⟨final, run⟩ := run
  have outcome := (setPlaybackRate_refused_iff exactConversions RateSample.player 2).2 (by decide)
    _ [] final run (by decide) (by decide)
  exact ⟨final, run, outcome.playbackRate⟩

/-- Before there are tracks a change of the rate takes the player out of its state. -/
theorem DashThread.setPlaybackRate_refused_ready :
    let thread : DashThread := {}
    ¬ (thread.signalsAtOnce 2 = true →
      thread.SamePlayer (thread.setPlaybackRateDisableTracks 2)) := by
  intro thread kept
  have player := kept (by decide)
  exact absurd player.state (by decide)

end NDash

import NDash.LoadControlGrants
import NDash.Shared.Latch

set_option autoImplicit false

namespace NDash

namespace LoadControl

variable {Loader : Type} [DecidableEq Loader] {settings : Settings}

structure Moment where
  wanted : Bool
  highest : WatermarkLevel
  loading : Bool
  filling : Bool
deriving DecidableEq, Repr

def moment (control : LoadControl Loader) : Moment where
  wanted := !control.loaders.isEmpty && (loading control.loaders || haveNextLoadPosition control.loaders)
  highest := highestState control.loaders control.bufferState
  loading := loading control.loaders
  filling := control.fillingBuffers

def Moment.short (moment : Moment) : Bool :=
  moment.wanted && moment.highest = .belowLowWatermark

def Moment.unfilled (moment : Moment) : Bool :=
  moment.wanted && moment.highest = .betweenWatermarks

variable (settings) in
def watched : Machine.System (LoadControl Loader × List (Report Loader) × List Moment)
    (Event Loader) where
  Start state := state = ({}, [], [])
  Step state event next :=
    (machine settings).Step (state.1, state.2.1) event (next.1, next.2.1) ∧
      next.2.2 = state.2.2 ++ [moment next.1]

omit [DecidableEq Loader] in
theorem fills_latch (control : LoadControl Loader) (filling : Bool) :
    fills control.loaders control.bufferState filling =
      Latch.next Moment.short Moment.unfilled filling (moment control) := by
  simp only [fills, Latch.next, Moment.short, Moment.unfilled, moment, Bool.and_or_distrib_left,
    Bool.and_assoc]

def tells (control : LoadControl Loader) : Bool :=
  Latch.next Moment.filling Moment.loading control.lastLoadingNotify (moment control)

structure Told (control : LoadControl Loader) : Prop where
  last : control.lastLoadingNotify = tells control
  count : control.lastLoadingNotify = decide (control.notified.length % 2 = 1)
  alternates : ∀ index told, control.notified[index]? = some told → told = decide (index % 2 = 0)

theorem alternates_append {notified : List Bool}
    (alternates : ∀ index told, notified[index]? = some told → told = decide (index % 2 = 0))
    {next : Bool} (fits : next = decide (notified.length % 2 = 0)) :
    ∀ index told, (notified ++ [next])[index]? = some told → told = decide (index % 2 = 0) := by
  intro index told here
  rcases Nat.lt_or_ge index notified.length with before | after
  · rw [List.getElem?_append_left before] at here
    exact alternates index told here
  · have last : index = notified.length := by
      have inside := (List.getElem?_eq_some_iff.mp here).1
      simp only [List.length_append, List.length_singleton] at inside
      omega
    subst last
    simp only [List.getElem?_append_right (Nat.le_refl _), Nat.sub_self,
      List.getElem?_cons_zero, Option.some.injEq] at here
    rw [← here]
    exact fits

omit [DecidableEq Loader] in
theorem notify_told (control : LoadControl Loader)
    (count : control.lastLoadingNotify = decide (control.notified.length % 2 = 1))
    (alternates : ∀ index told, control.notified[index]? = some told →
      told = decide (index % 2 = 0)) :
    Told (notify control) ∧ (notify control).lastLoadingNotify = tells control := by
  unfold notify
  split
  next starts =>
    simp only [Bool.and_eq_true, Bool.not_eq_true'] at starts
    obtain ⟨filling, silent⟩ := starts
    rw [silent, eq_comm, decide_eq_false_iff_not] at count
    have even : control.notified.length % 2 = 0 := by omega
    refine ⟨⟨?_, ?_, alternates_append alternates (by simp [even])⟩, ?_⟩
    · simp [tells, Latch.next, moment, filling]
    · simp only [List.length_append, List.length_singleton]
      exact (decide_eq_true (by omega)).symm
    · simp [tells, Latch.next, moment, filling]
  next =>
    split
    next stops =>
      simp only [Bool.and_eq_true, Bool.not_eq_true'] at stops
      obtain ⟨⟨idle, told⟩, quiet⟩ := stops
      rw [told, eq_comm, decide_eq_true_eq] at count
      refine ⟨⟨?_, ?_, alternates_append alternates (by simp [count])⟩, ?_⟩
      · simp [tells, Latch.next, moment, idle]
      · simp only [List.length_append, List.length_singleton]
        exact (decide_eq_false (by omega)).symm
      · simp [tells, Latch.next, moment, idle, quiet]
    next neither stays =>
      have same : control.lastLoadingNotify = tells control := by
        simp only [tells, Latch.next, moment]
        cases filling : control.fillingBuffers <;> cases told : control.lastLoadingNotify <;>
          simp_all
      exact ⟨⟨same, count, alternates⟩, same⟩

omit [DecidableEq Loader] in
theorem updateControlState_told (control : LoadControl Loader)
    (count : control.lastLoadingNotify = decide (control.notified.length % 2 = 1))
    (alternates : ∀ index told, control.notified[index]? = some told →
      told = decide (index % 2 = 0)) :
    Told (updateControlState control) ∧
      (updateControlState control).lastLoadingNotify =
        Latch.next Moment.filling Moment.loading control.lastLoadingNotify
          (moment (updateControlState control)) := by
  let filling := fills control.loaders control.bufferState control.fillingBuffers
  obtain ⟨told, last⟩ := notify_told { control with fillingBuffers := filling } count alternates
  obtain ⟨lastLoadingNotify, notified, kept⟩ := notify_eq { control with fillingBuffers := filling }
  have same : moment (updateControlState control) =
      moment { control with fillingBuffers := filling } := by
    simp only [updateControlState, moment, filling, kept]
  refine ⟨⟨told.last, told.count, told.alternates⟩, ?_⟩
  rw [same]
  exact last

/-- What a call does: it computes the control state again, it changes nothing, or it registers. -/
theorem step_cases {state : LoadControl Loader × List (Report Loader)} (sound : Sound state)
    {event : Event Loader} (legal : Legal state.2 event) {granted : Bool}
    {after : LoadControl Loader} (ran : step settings state.1 event = .ok (granted, after)) :
    (∃ stored : LoadControl Loader, after = updateControlState stored ∧
        stored.fillingBuffers = state.1.fillingBuffers ∧
        stored.lastLoadingNotify = state.1.lastLoadingNotify ∧
        stored.notified = state.1.notified) ∨
      after = state.1 ∨
      ∃ entry targetBufferSize, Fresh entry ∧
        after = { state.1 with loaders := state.1.loaders ++ [entry], targetBufferSize } := by
  cases event with
  | register loader contribution =>
    cases ran
    have absent : ∀ entry ∈ state.1.loaders, entry.1 ≠ loader := by
      intro entry member
      apply legal (LoaderState.report entry)
      rw [← sound.reports]
      exact List.mem_map_of_mem member
    refine .inr (.inr ⟨(loader, { bufferSizeContribution := contribution }),
      toInt32 (state.1.targetBufferSize + contribution), rfl, ?_⟩)
    rw [LoadControl.register, filter_absent absent]
  | unregister loader =>
    obtain ⟨found, lookup, -⟩ := sound.lookup legal
    simp only [step, LoadControl.unregister, lookup, Except.map] at ran
    cases ran
    exact .inl ⟨_, rfl, rfl, rfl, rfl⟩
  | update loader playback next loading allocated =>
    obtain ⟨found, lookup, inside⟩ := sound.lookup legal.1
    obtain ⟨updated, changed, again⟩ :=
      update_eq settings sound.keys lookup inside playback next loading allocated
    rw [step, again] at ran
    cases ran
    rcases changed with rfl | ⟨rfl, same⟩
    · exact .inl ⟨_, rfl, rfl, rfl, rfl⟩
    · exact .inr (.inl same)

omit [DecidableEq Loader] in
theorem moment_fresh (control : LoadControl Loader) {entry : Loader × LoaderState}
    (fresh : Fresh entry) (targetBufferSize : Int) :
    let registered : LoadControl Loader :=
      { control with loaders := control.loaders ++ [entry], targetBufferSize }
    (moment registered).loading = (moment control).loading ∧
      Latch.next Moment.short Moment.unfilled control.fillingBuffers (moment registered) =
        Latch.next Moment.short Moment.unfilled control.fillingBuffers (moment control) := by
  intro registered
  have idle : entry.2.loading = false := by rw [fresh]
  refine ⟨by simp [moment, registered, loading, idle], ?_⟩
  rw [← fills_latch registered, ← fills_latch control]
  exact fills_fresh control.loaders control.bufferState _ fresh

structure Recalled (state : LoadControl Loader × List (Report Loader) × List Moment) : Prop where
  sound : Sound (state.1, state.2.1)
  told : Told state.1
  filling : state.1.fillingBuffers = Latch.state Moment.short Moment.unfilled state.2.2
  last : state.1.lastLoadingNotify = Latch.state Moment.filling Moment.loading state.2.2

theorem recalled_preserved : Machine.Preserves (watched settings)
    fun state : LoadControl Loader × List (Report Loader) × List Moment => Recalled state := by
  rintro ⟨control, reports, history⟩ event ⟨after, recorded, moments⟩ recalled ⟨step, appended⟩
  obtain ⟨sound, told, filling, last⟩ := recalled
  have kept : Sound (after, recorded) := sound_preserved _ _ _ sound step
  obtain ⟨legal, ⟨granted, ran⟩, -⟩ := step
  dsimp only at appended filling last told
  subst appended
  suffices flags : Told after ∧
      after.fillingBuffers =
        Latch.next Moment.short Moment.unfilled control.fillingBuffers (moment after) ∧
      after.lastLoadingNotify =
        Latch.next Moment.filling Moment.loading control.lastLoadingNotify (moment after) by
    refine ⟨kept, flags.1, ?_, ?_⟩
    · rw [Latch.state_append, ← filling]
      exact flags.2.1
    · rw [Latch.state_append, ← last]
      exact flags.2.2
  have cached : control.fillingBuffers =
      Latch.next Moment.short Moment.unfilled control.fillingBuffers (moment control) := by
    rw [← fills_latch]
    exact sound.cached.filling.symm
  rcases step_cases sound legal ran with
    ⟨stored, rfl, sameFilling, sameLast, sameNotified⟩ | rfl | ⟨entry, target, fresh, rfl⟩
  · obtain ⟨toldAfter, lastAfter⟩ := updateControlState_told stored
      (by rw [sameLast, sameNotified]; exact told.count)
      (by rw [sameNotified]; exact told.alternates)
    refine ⟨toldAfter, ?_, ?_⟩
    · rw [← sameFilling, ← fills_latch]
      obtain ⟨loaders, -, bufferState, filling, -⟩ := updateControlState_eq stored
      rw [loaders, bufferState, filling]
    · rw [← sameLast]
      exact lastAfter
  · exact ⟨told, cached, told.last⟩
  · obtain ⟨loading, filling⟩ := moment_fresh control fresh target
    have lastSame : control.lastLoadingNotify =
        Latch.next Moment.filling Moment.loading control.lastLoadingNotify
          (moment { control with
            loaders := control.loaders ++ [entry], targetBufferSize := target }) := by
      refine told.last.trans ?_
      simp only [tells, Latch.next, loading]
      rfl
    exact ⟨⟨lastSame, told.count, told.alternates⟩, cached.trans filling.symm, lastSame⟩

theorem reachable_recalled {state : LoadControl Loader × List (Report Loader) × List Moment}
    (reachable : Machine.Reachable (watched settings) state) : Recalled state := by
  apply reachable.invariant (fun state => Recalled state) _ recalled_preserved
  rintro _ rfl
  exact ⟨⟨rfl, List.nodup_nil, rfl, rfl, .inr ⟨rfl, rfl, nofun⟩⟩, ⟨rfl, rfl, nofun⟩, rfl, rfl⟩

/-- At some call a loader or the allocator was below the low watermark with something to load, and
at no call since was everything above the high watermark or nothing left to load. -/
def Fills (history : List Moment) : Prop :=
  ∃ earlier trigger later, history = earlier ++ trigger :: later ∧ trigger.short = true ∧
    ∀ moment ∈ later, moment.short = true ∨ moment.unfilled = true

/-- At some call the buffers were being filled, and at every call since they were or a load ran. -/
def Loads (history : List Moment) : Prop :=
  ∃ earlier trigger later, history = earlier ++ trigger :: later ∧ trigger.filling = true ∧
    ∀ moment ∈ later, moment.filling = true ∨ moment.loading = true

omit [DecidableEq Loader] in
theorem foldl_lower_known (loaders : List (Loader × LoaderState)) (best : Int)
    {entry : Loader × LoaderState} (member : entry ∈ loaders)
    (known : entry.2.nextLoadPositionUs ≠ -1) : loaders.foldl lower best ≠ -1 := by
  obtain ⟨before, after, rfl⟩ := List.append_of_mem member
  rw [List.foldl_append, List.foldl_cons]
  refine ((foldl_lower after _).1 ?_).1
  simp only [lower]
  split <;> omega

omit [DecidableEq Loader] in
theorem le_foldl_lower {position : Int} (loaders : List (Loader × LoaderState)) (best : Int)
    (above : best ≠ -1 → position ≤ best)
    (least : ∀ entry ∈ loaders, entry.2.nextLoadPositionUs ≠ -1 →
      position ≤ entry.2.nextLoadPositionUs)
    (known : loaders.foldl lower best ≠ -1) : position ≤ loaders.foldl lower best := by
  induction loaders generalizing best with
  | nil => exact above known
  | cons first loaders ih =>
    refine ih (lower best first) ?_ (fun entry member => least entry (.tail _ member)) known
    simp only [lower]
    split
    next taken => exact fun _ => least first (.head _) taken.1
    next => exact above

/-- A load is granted exactly when the buffers are being filled, with the hysteresis between the two
watermarks, less is allocated than the contributions allow and the loader is the furthest behind: the
loader that is starved most never waits for another one. -/
theorem grants_exactly {state : LoadControl Loader × List (Report Loader) × List Moment}
    (reachable : Machine.Reachable (watched settings) state) {loader : Loader}
    {playback next : Int} {loading : Bool} {allocated : Nat}
    (legal : Legal state.2.1 (.update loader playback next loading allocated)) :
    ∃ granted after,
      step settings state.1 (.update loader playback next loading allocated) =
          .ok (granted, after) ∧
        (granted = true ↔ allocated < toSizeT (toInt32 (total state.2.1)) ∧ next ≠ -1 ∧
          Smallest (record state.2.1 (.update loader playback next loading allocated)) loader next ∧
          Fills (state.2.2 ++ [moment after])) := by
  have recalled := reachable_recalled reachable
  obtain ⟨after, ran, sound, ⟨stored, rfl, member⟩, -⟩ :=
    recalled.sound.update settings legal.1 playback next loading allocated
  refine ⟨_, after, ran, ?_⟩
  have later : Recalled (after, record state.2.1 (.update loader playback
      stored.nextLoadPositionUs loading allocated), state.2.2 ++ [moment after]) :=
    recalled_preserved _ _ _ recalled ⟨⟨legal, ⟨_, ran⟩, rfl⟩, rfl⟩
  have fills : after.fillingBuffers = true ↔ Fills (state.2.2 ++ [moment after]) := by
    rw [later.filling]
    exact Latch.state_iff _
  have target : after.targetBufferSize = toInt32 (total state.2.1) := by
    rw [sound.target, total_update]
  have reports : after.loaders.map LoaderState.report = record state.2.1 (.update loader playback
      stored.nextLoadPositionUs loading allocated) := sound.reports
  rw [decide_eq_true_iff, target, ← fills]
  constructor
  · rintro ⟨room, known, below⟩
    obtain ⟨filling, smallest⟩ := sound.granted member (legal.2.resolve_left known) below
    exact ⟨room, known, smallest, filling⟩
  · rintro ⟨room, known, smallest, filling⟩
    refine ⟨room, known, ?_⟩
    obtain start | ⟨-, -, untouched⟩ := sound.cached.start
    · rw [start, maxLoadStart, if_pos filling]
      refine le_foldl_lower _ _ (fun absent => absurd rfl absent) ?_
        (foldl_lower_known _ _ member known)
      intro entry inside reported
      refine smallest.2 (LoaderState.report entry) ?_ reported
      rw [← reports]
      exact List.mem_map_of_mem inside
    · have idle := fills_untouched untouched after.bufferState after.fillingBuffers
      rw [sound.cached.filling, filling] at idle
      cases idle

def hungry : Settings where
  getBufferState _ _ := .belowLowWatermark

def registered : LoadControl Unit :=
  { loaders := [((), { bufferSizeContribution := 1000 })], targetBufferSize := 1000 }

def asked : LoadControl Unit where
  loaders := [((), { bufferSizeContribution := 1000, bufferState := .belowLowWatermark
                     nextLoadPositionUs := 100 })]
  targetBufferSize := 1000
  maxLoadStartPositionUs := 100
  bufferState := .belowLowWatermark
  fillingBuffers := true
  lastLoadingNotify := true
  notified := [true]

theorem reachable_registered : Machine.Reachable (watched hungry)
    (registered, [⟨(), 1000, -1⟩], [moment registered]) := by
  have legal : Legal ([] : List (Report Unit)) (.register () 1000) := List.forall_mem_nil _
  exact (Machine.Reachable.start _ rfl).next (.register () 1000) ⟨⟨legal, ⟨false, rfl⟩, rfl⟩, rfl⟩

theorem grants_exactly_only_loader :
    ∃ granted after, step hungry registered (.update () 0 100 false 10) = .ok (granted, after) ∧
      (granted = true ↔ 10 < toSizeT (toInt32 (total [⟨(), 1000, -1⟩])) ∧ (100 : Int) ≠ -1 ∧
        Smallest (record [⟨(), 1000, -1⟩] (.update () 0 100 false 10)) () 100 ∧
        Fills ([moment registered] ++ [moment after])) :=
  grants_exactly reachable_registered ⟨by simp, .inr (by decide)⟩

/-- OnLoadingChanged is called with true and false in turn, and the last call was with true exactly
as long as the buffers have been filled or a load has run ever since they were being filled. -/
theorem notices_alternate {state : LoadControl Loader × List (Report Loader) × List Moment}
    (reachable : Machine.Reachable (watched settings) state) :
    (∀ index told, state.1.notified[index]? = some told → told = decide (index % 2 = 0)) ∧
      (state.1.notified.getLast? = some true ↔ Loads state.2.2) := by
  have recalled := reachable_recalled reachable
  refine ⟨recalled.told.alternates, ?_⟩
  have loads : state.1.lastLoadingNotify = true ↔ Loads state.2.2 := by
    rw [recalled.last]
    exact Latch.state_iff _
  rw [← loads, recalled.told.count, decide_eq_true_iff, List.getLast?_eq_getElem?]
  constructor
  · intro last
    have even := recalled.told.alternates _ _ last
    have inside := (List.getElem?_eq_some_iff.mp last).1
    have parity := of_decide_eq_true even.symm
    omega
  · intro odd
    have inside : state.1.notified.length - 1 < state.1.notified.length := by omega
    obtain ⟨told, here⟩ : ∃ told, state.1.notified[state.1.notified.length - 1]? = some told :=
      ⟨_, List.getElem?_eq_getElem inside⟩
    have value := recalled.told.alternates _ _ here
    rw [here, value, decide_eq_true (by omega)]

theorem notices_alternate_only_loader :
    (∀ index told, asked.notified[index]? = some told → told = decide (index % 2 = 0)) ∧
      (asked.notified.getLast? = some true ↔ Loads [moment registered, moment asked]) := by
  have reachable : Machine.Reachable (watched hungry)
      (asked, [⟨(), 1000, 100⟩], [moment registered, moment asked]) :=
    reachable_registered.next (.update () 0 100 false 10)
      ⟨⟨⟨by simp, .inr (by decide)⟩, ⟨true, rfl⟩, rfl⟩, rfl⟩
  exact notices_alternate reachable

end LoadControl

end NDash

import Mathlib.Algebra.Ring.Int.Defs
import Mathlib.Data.List.Nodup
import NDash.LoadControl
import NDash.Shared.Machine

set_option autoImplicit false

namespace NDash

namespace LoadControl

variable {Loader : Type} [DecidableEq Loader] (settings : Settings)

inductive Event (Loader : Type)
  | register (loader : Loader) (bufferSizeContribution : Int)
  | unregister (loader : Loader)
  | update (loader : Loader) (playbackPositionUs nextLoadPositionUs : Int) (loading : Bool)
      (allocated : Nat)
deriving DecidableEq, Repr

def step (control : LoadControl Loader) : Event Loader → Except Fault (Bool × LoadControl Loader)
  | .register loader contribution => .ok (false, control.register loader contribution)
  | .unregister loader => (control.unregister loader).map fun next => (false, next)
  | .update loader playback next loading allocated =>
    control.update settings loader playback next loading allocated

structure Report (Loader : Type) where
  loader : Loader
  contribution : Int
  position : Int
deriving DecidableEq, Repr

def record (reports : List (Report Loader)) : Event Loader → List (Report Loader)
  | .register loader contribution => reports ++ [⟨loader, contribution, -1⟩]
  | .unregister loader => reports.filter fun report => report.loader ≠ loader
  | .update loader _ next _ _ =>
    reports.map fun report => if report.loader = loader then { report with position := next }
      else report

def Legal (reports : List (Report Loader)) : Event Loader → Prop
  | .register loader _ => ∀ report ∈ reports, report.loader ≠ loader
  | .unregister loader => ∃ report ∈ reports, report.loader = loader
  | .update loader _ next _ _ => (∃ report ∈ reports, report.loader = loader) ∧ (next = -1 ∨ 0 ≤ next)

def total (reports : List (Report Loader)) : Int := (reports.map Report.contribution).sum

def machine : Machine.System (LoadControl Loader × List (Report Loader)) (Event Loader) where
  Start state := state = ({}, [])
  Step state event next :=
    Legal state.2 event ∧ (∃ granted, step settings state.1 event = .ok (granted, next.1)) ∧
      next.2 = record state.2 event

variable {settings}

omit [DecidableEq Loader] in
theorem fills_idempotent (loaders : List (Loader × LoaderState)) (bufferState : WatermarkLevel)
    (filling : Bool) :
    fills loaders bufferState (fills loaders bufferState filling) =
      fills loaders bufferState filling := by
  unfold fills
  cases highestState loaders bufferState <;> cases filling <;> simp

theorem max_aboveHighWatermark (level : WatermarkLevel) :
    level.max .aboveHighWatermark = level := by
  cases level <;> rfl

def Fresh (entry : Loader × LoaderState) : Prop :=
  entry.2 = { bufferSizeContribution := entry.2.bufferSizeContribution }

omit [DecidableEq Loader] in
theorem highestState_fresh (loaders : List (Loader × LoaderState)) (bufferState : WatermarkLevel)
    {entry : Loader × LoaderState} (fresh : Fresh entry) :
    highestState (loaders ++ [entry]) bufferState = highestState loaders bufferState := by
  rw [highestState, List.foldl_append, List.foldl_cons, List.foldl_nil, fresh]
  exact max_aboveHighWatermark _

omit [DecidableEq Loader] in
theorem fills_fresh (loaders : List (Loader × LoaderState)) (bufferState : WatermarkLevel)
    (filling : Bool) {entry : Loader × LoaderState} (fresh : Fresh entry) :
    fills (loaders ++ [entry]) bufferState filling = fills loaders bufferState filling := by
  have idle : entry.2.loading = false ∧ entry.2.nextLoadPositionUs = -1 := by
    rw [fresh]
    exact ⟨rfl, rfl⟩
  unfold fills
  rw [highestState_fresh loaders bufferState fresh]
  cases loaders with
  | nil => simp [loading, haveNextLoadPosition, idle]
  | cons first loaders => simp [loading, haveNextLoadPosition, idle]

omit [DecidableEq Loader] in
theorem maxLoadStart_fresh (loaders : List (Loader × LoaderState)) (filling : Bool)
    {entry : Loader × LoaderState} (fresh : Fresh entry) :
    maxLoadStart (loaders ++ [entry]) filling = maxLoadStart loaders filling := by
  have none : entry.2.nextLoadPositionUs = -1 := by
    rw [fresh]
  unfold maxLoadStart
  rw [List.foldl_append, List.foldl_cons, List.foldl_nil]
  simp [lower, none]

omit [DecidableEq Loader] in
theorem foldl_lower (loaders : List (Loader × LoaderState)) (best : Int) :
    (best ≠ -1 → loaders.foldl lower best ≠ -1 ∧ loaders.foldl lower best ≤ best) ∧
      ∀ entry ∈ loaders, entry.2.nextLoadPositionUs ≠ -1 →
        loaders.foldl lower best ≤ entry.2.nextLoadPositionUs := by
  induction loaders generalizing best with
  | nil => exact ⟨fun known => ⟨known, Int.le_refl _⟩, nofun⟩
  | cons first loaders ih =>
    obtain ⟨kept, least⟩ := ih (lower best first)
    have lowered : (best ≠ -1 → lower best first ≠ -1 ∧ lower best first ≤ best) ∧
        (first.2.nextLoadPositionUs ≠ -1 →
          lower best first ≠ -1 ∧ lower best first ≤ first.2.nextLoadPositionUs) := by
      simp only [lower]
      split <;> omega
    refine ⟨fun known => ?_, fun entry member known => ?_⟩
    · have below := lowered.1 known
      have last := kept below.1
      exact ⟨last.1, Int.le_trans last.2 below.2⟩
    · cases member with
      | head =>
        have below := lowered.2 known
        exact Int.le_trans (kept below.1).2 below.2
      | tail _ later => exact least entry later known

structure Cached (control : LoadControl Loader) : Prop where
  filling : fills control.loaders control.bufferState control.fillingBuffers =
    control.fillingBuffers
  start : control.maxLoadStartPositionUs = maxLoadStart control.loaders control.fillingBuffers ∨
    control.maxLoadStartPositionUs = 0 ∧ control.bufferState = .aboveHighWatermark ∧
      ∀ entry ∈ control.loaders, Fresh entry

omit [DecidableEq Loader] in
theorem notify_eq (control : LoadControl Loader) :
    ∃ lastLoadingNotify notified,
      notify control = { control with lastLoadingNotify, notified } := by
  unfold notify
  split
  · exact ⟨true, _, rfl⟩
  · split
    · exact ⟨false, _, rfl⟩
    · exact ⟨control.lastLoadingNotify, control.notified, rfl⟩

omit [DecidableEq Loader] in
theorem updateControlState_eq (control : LoadControl Loader) :
    (updateControlState control).loaders = control.loaders ∧
      (updateControlState control).targetBufferSize = control.targetBufferSize ∧
      (updateControlState control).bufferState = control.bufferState ∧
      (updateControlState control).fillingBuffers =
        fills control.loaders control.bufferState control.fillingBuffers ∧
      (updateControlState control).maxLoadStartPositionUs =
        maxLoadStart control.loaders
          (fills control.loaders control.bufferState control.fillingBuffers) := by
  obtain ⟨last, notified, kept⟩ := notify_eq
    { control with
      fillingBuffers := fills control.loaders control.bufferState control.fillingBuffers }
  simp only [updateControlState, kept, and_self]

omit [DecidableEq Loader] in
theorem updateControlState_cached (control : LoadControl Loader) :
    Cached (updateControlState control) := by
  obtain ⟨loaders, -, bufferState, filling, start⟩ := updateControlState_eq control
  refine ⟨?_, .inl ?_⟩
  · rw [loaders, bufferState, filling]
    exact fills_idempotent _ _ _
  · rw [loaders, filling, start]

def Refreshed (before after : LoadControl Loader) : Prop :=
  after.fillingBuffers = fills after.loaders after.bufferState before.fillingBuffers ∧
    after.maxLoadStartPositionUs = maxLoadStart after.loaders after.fillingBuffers

def Untouched (before after : LoadControl Loader) : Prop :=
  after.fillingBuffers = fills after.loaders after.bufferState before.fillingBuffers ∧
    after.maxLoadStartPositionUs = 0 ∧ after.fillingBuffers = false ∧
    after.bufferState = .aboveHighWatermark ∧ ∀ entry ∈ after.loaders, Fresh entry

omit [DecidableEq Loader] in
theorem updateControlState_refreshed (control : LoadControl Loader) :
    Refreshed control (updateControlState control) := by
  obtain ⟨loaders, -, bufferState, filling, start⟩ := updateControlState_eq control
  refine ⟨?_, ?_⟩
  · rw [loaders, bufferState, filling]
  · rw [loaders, filling, start]

omit [DecidableEq Loader] in
theorem fills_untouched {loaders : List (Loader × LoaderState)}
    (untouched : ∀ entry ∈ loaders, Fresh entry) (bufferState : WatermarkLevel) (filling : Bool) :
    fills loaders bufferState filling = false := by
  have idle : loading loaders = false ∧ haveNextLoadPosition loaders = false := by
    simp only [loading, haveNextLoadPosition, List.any_eq_false]
    refine ⟨fun entry member => ?_, fun entry member => ?_⟩
    · rw [untouched entry member]
      simp
    · rw [untouched entry member]
      simp
  rw [fills, idle.1, idle.2]
  simp

omit [DecidableEq Loader] in
theorem Cached.refreshed {control : LoadControl Loader} (cached : Cached control) :
    Refreshed control control ∨ Untouched control control := by
  obtain start | ⟨zero, level, untouched⟩ := cached.start
  · exact .inl ⟨cached.filling.symm, start⟩
  · refine .inr ⟨cached.filling.symm, zero, ?_, level, untouched⟩
    rw [← cached.filling]
    exact fills_untouched untouched _ _

def LoaderState.report (entry : Loader × LoaderState) : Report Loader where
  loader := entry.1
  contribution := entry.2.bufferSizeContribution
  position := entry.2.nextLoadPositionUs

structure Sound (state : LoadControl Loader × List (Report Loader)) : Prop where
  reports : state.1.loaders.map LoaderState.report = state.2
  keys : (state.1.loaders.map Prod.fst).Nodup
  target : state.1.targetBufferSize = toInt32 (total state.2)
  cached : Cached state.1

omit [DecidableEq Loader] in
theorem Cached.register {control : LoadControl Loader} (cached : Cached control)
    (entry : Loader × LoaderState) (fresh : Fresh entry) (target : Int) :
    Cached
      { control with loaders := control.loaders ++ [entry], targetBufferSize := target } := by
  refine ⟨?_, ?_⟩
  · exact (fills_fresh control.loaders control.bufferState _ fresh).trans cached.filling
  · obtain start | ⟨zero, level, untouched⟩ := cached.start
    · exact .inl (start.trans (maxLoadStart_fresh control.loaders _ fresh).symm)
    · refine .inr ⟨zero, level, ?_⟩
      intro other member
      obtain before | new := List.mem_append.mp member
      · exact untouched other before
      · rw [List.mem_singleton.mp new]
        exact fresh

theorem filter_absent {entries : List (Loader × LoaderState)} {loader : Loader}
    (absent : ∀ entry ∈ entries, entry.1 ≠ loader) :
    entries.filter (fun entry => entry.1 ≠ loader) = entries :=
  List.filter_eq_self.mpr fun entry member => decide_eq_true (absent entry member)

theorem lookup_found {entries : List (Loader × LoaderState)} {loader : Loader}
    (found : ∃ entry ∈ entries, entry.1 = loader) :
    ∃ state, entries.lookup loader = some state ∧ (loader, state) ∈ entries := by
  induction entries with
  | nil =>
    obtain ⟨_, member, _⟩ := found
    cases member
  | cons first entries ih =>
    obtain ⟨own, first⟩ := first
    by_cases same : loader = own
    · subst same
      exact ⟨first, List.lookup_cons_self, by simp⟩
    · obtain ⟨entry, member, key⟩ := found
      have later : entry ∈ entries := by
        cases member with
        | head => exact absurd key.symm same
        | tail _ later => exact later
      obtain ⟨state, at_, inside⟩ := ih ⟨entry, later, key⟩
      exact ⟨state, by rw [List.lookup_cons, beq_false_of_ne same]; exact at_, by simp [inside]⟩

omit [DecidableEq Loader] in
theorem entry_of_key {entries : List (Loader × LoaderState)} {entry : Loader × LoaderState}
    {loader : Loader} {state : LoaderState} (keys : (entries.map Prod.fst).Nodup)
    (inside : (loader, state) ∈ entries) (member : entry ∈ entries) (same : entry.1 = loader) :
    entry = (loader, state) :=
  List.inj_on_of_nodup_map keys member inside same

def store (entries : List (Loader × LoaderState)) (loader : Loader) (reported : LoaderState) :
    List (Loader × LoaderState) :=
  entries.map fun entry => if entry.1 = loader then (loader, reported) else entry

theorem store_same {entries : List (Loader × LoaderState)} {loader : Loader} {state : LoaderState}
    (keys : (entries.map Prod.fst).Nodup) (inside : (loader, state) ∈ entries) :
    store entries loader state = entries := by
  have unchanged : store entries loader state = entries.map id := by
    apply List.map_congr_left
    intro entry member
    by_cases same : entry.1 = loader
    · rw [if_pos same]
      exact (entry_of_key keys inside member same).symm
    · rw [if_neg same]
      rfl
  rw [unchanged, List.map_id]

theorem store_keys (entries : List (Loader × LoaderState)) (loader : Loader)
    (reported : LoaderState) :
    (store entries loader reported).map Prod.fst = entries.map Prod.fst := by
  rw [store, List.map_map]
  apply List.map_congr_left
  intro entry _
  by_cases same : entry.1 = loader
  · simp [same]
  · simp [same]

theorem store_report {entries : List (Loader × LoaderState)} {loader : Loader}
    {state reported : LoaderState} (keys : (entries.map Prod.fst).Nodup)
    (inside : (loader, state) ∈ entries)
    (kept : reported.bufferSizeContribution = state.bufferSizeContribution) :
    (store entries loader reported).map LoaderState.report =
      (entries.map LoaderState.report).map fun report =>
        if report.loader = loader then { report with position := reported.nextLoadPositionUs }
        else report := by
  rw [store, List.map_map, List.map_map]
  apply List.map_congr_left
  intro entry member
  by_cases same : entry.1 = loader
  · have entry_eq := entry_of_key keys inside member same
    simp [entry_eq, LoaderState.report, kept]
  · simp [same, LoaderState.report]

theorem total_unregister {entries : List (Loader × LoaderState)} {loader : Loader}
    {state : LoaderState} (keys : (entries.map Prod.fst).Nodup)
    (inside : (loader, state) ∈ entries) :
    total ((entries.filter fun entry => entry.1 ≠ loader).map LoaderState.report) =
      total (entries.map LoaderState.report) - state.bufferSizeContribution := by
  induction entries with
  | nil => cases inside
  | cons first entries ih =>
    rw [List.map_cons, List.nodup_cons] at keys
    by_cases same : first.1 = loader
    · have first_eq : first = (loader, state) := by
        cases inside with
        | head => rfl
        | tail _ later =>
          exact absurd (List.mem_map.mpr ⟨(loader, state), later, same.symm⟩) keys.1
      have absent : ∀ entry ∈ entries, entry.1 ≠ loader := by
        intro entry member key
        exact keys.1 (List.mem_map.mpr ⟨entry, member, key.trans same.symm⟩)
      rw [List.filter_cons_of_neg (by simp [same]), filter_absent absent, first_eq]
      simp only [total, List.map_cons, List.sum_cons, LoaderState.report]
      omega
    · have later : (loader, state) ∈ entries := by
        cases inside with
        | head => exact absurd rfl same
        | tail _ later => exact later
      have rest := ih keys.2 later
      rw [List.filter_cons_of_pos (by simp [same])]
      simp only [total, List.map_cons, List.sum_cons] at rest ⊢
      omega

variable (settings) in
theorem update_eq {control : LoadControl Loader} {loader : Loader} {state : LoaderState}
    (keys : (control.loaders.map Prod.fst).Nodup)
    (found : control.loaders.lookup loader = some state)
    (inside : (loader, state) ∈ control.loaders)
    (playback next : Int) (loading : Bool) (allocated : Nat) :
    let reported : LoaderState :=
      { state with
        bufferState := getLoaderBufferState settings playback next
        nextLoadPositionUs := next
        loading }
    let stored : LoadControl Loader :=
      { control with
        loaders := store control.loaders loader reported
        bufferState := settings.getBufferState (toInt32 allocated) control.targetBufferSize }
    ∃ after, (after = updateControlState stored ∨ after = stored ∧ stored = control) ∧
      control.update settings loader playback next loading allocated =
        .ok (decide (allocated < toSizeT after.targetBufferSize ∧ next ≠ -1 ∧
          next ≤ after.maxLoadStartPositionUs), after) := by
  intro reported stored
  simp only [update, found]
  by_cases changed : state.bufferState ≠ getLoaderBufferState settings playback next ∨
      state.nextLoadPositionUs ≠ next ∨ state.loading ≠ loading
  · refine ⟨updateControlState stored, .inl rfl, ?_⟩
    simp only [changed, decide_true, if_true, Bool.true_or]
    rfl
  · have same : reported = state := by
      simp only [ne_eq, not_or, Decidable.not_not] at changed
      obtain ⟨level, position, flag⟩ := changed
      subst position flag
      simp only [reported, ← level]
    have loaders : store control.loaders loader reported = control.loaders := by
      rw [same]
      exact store_same keys inside
    simp only [changed, decide_false, Bool.false_eq_true, if_false, Bool.false_or,
      decide_eq_true_eq]
    simp only [stored, loaders]
    by_cases level : control.bufferState ≠
        settings.getBufferState (toInt32 allocated) control.targetBufferSize
    · rw [if_pos level]
      exact ⟨_, .inl rfl, rfl⟩
    · rw [if_neg level, ← Decidable.not_not.mp level]
      exact ⟨_, .inr ⟨rfl, rfl⟩, rfl⟩

theorem Sound.register {state : LoadControl Loader × List (Report Loader)} (sound : Sound state)
    {loader : Loader} (contribution : Int)
    (legal : ∀ report ∈ state.2, report.loader ≠ loader) :
    Sound (state.1.register loader contribution, record state.2 (.register loader contribution)) := by
  have absent : ∀ entry ∈ state.1.loaders, entry.1 ≠ loader := by
    intro entry member
    apply legal (LoaderState.report entry)
    rw [← sound.reports]
    exact List.mem_map_of_mem member
  have registered : state.1.register loader contribution =
      { state.1 with
        loaders := state.1.loaders ++ [(loader, { bufferSizeContribution := contribution })]
        targetBufferSize := toInt32 (state.1.targetBufferSize + contribution) } := by
    rw [LoadControl.register, filter_absent absent]
  rw [registered]
  have fresh : Fresh (loader, { bufferSizeContribution := contribution }) := rfl
  refine ⟨?_, ?_, ?_, sound.cached.register _ fresh _⟩
  · simp only [List.map_append, sound.reports, record]
    rfl
  · rw [List.map_append, List.nodup_append]
    refine ⟨sound.keys, List.nodup_singleton _, ?_⟩
    intro key member other single same
    obtain ⟨entry, inside, rfl⟩ := List.mem_map.mp member
    exact absent entry inside (same.trans (List.mem_singleton.mp single))
  · simp only [sound.target, record, total, List.map_append, List.sum_append, List.map_cons,
      List.map_nil, List.sum_cons, List.sum_nil, Int.add_zero]
    exact toInt32_add _ _

theorem Sound.lookup {state : LoadControl Loader × List (Report Loader)} (sound : Sound state)
    {loader : Loader} (registered : ∃ report ∈ state.2, report.loader = loader) :
    ∃ found, state.1.loaders.lookup loader = some found ∧ (loader, found) ∈ state.1.loaders := by
  apply lookup_found
  obtain ⟨report, member, key⟩ := registered
  rw [← sound.reports] at member
  obtain ⟨entry, inside, rfl⟩ := List.mem_map.mp member
  exact ⟨entry, inside, key⟩

omit [DecidableEq Loader] in
theorem Sound.of_updated {control : LoadControl Loader} {reports : List (Report Loader)}
    (same : control.loaders.map LoaderState.report = reports)
    (keys : (control.loaders.map Prod.fst).Nodup)
    (target : control.targetBufferSize = toInt32 (total reports)) :
    Sound (updateControlState control, reports) := by
  obtain ⟨loaders, size, -⟩ := updateControlState_eq control
  refine ⟨?_, ?_, ?_, updateControlState_cached control⟩
  · rw [loaders]
    exact same
  · rw [loaders]
    exact keys
  · rw [size]
    exact target

theorem Sound.unregister {state : LoadControl Loader × List (Report Loader)} (sound : Sound state)
    {loader : Loader} (registered : ∃ report ∈ state.2, report.loader = loader) :
    ∃ remaining : LoadControl Loader, remaining.fillingBuffers = state.1.fillingBuffers ∧
      state.1.unregister loader = .ok (updateControlState remaining) ∧
      Sound (updateControlState remaining, record state.2 (.unregister loader)) := by
  obtain ⟨found, lookup, inside⟩ := sound.lookup registered
  have reports : (state.1.loaders.filter fun entry => entry.1 ≠ loader).map LoaderState.report =
      record state.2 (.unregister loader) := by
    rw [record, ← sound.reports, List.filter_map]
    rfl
  let remaining : LoadControl Loader :=
    { state.1 with
      loaders := state.1.loaders.filter (fun entry => entry.1 ≠ loader)
      targetBufferSize := toInt32 (state.1.targetBufferSize - found.bufferSizeContribution) }
  refine ⟨remaining, rfl, by rw [LoadControl.unregister, lookup], ?_⟩
  refine .of_updated reports (sound.keys.sublist (List.filter_sublist.map _)) ?_
  show toInt32 (state.1.targetBufferSize - found.bufferSizeContribution) = _
  rw [← reports, total_unregister sound.keys inside, sound.target, ← sound.reports]
  exact toInt32_add _ _

theorem total_update (reports : List (Report Loader)) (loader : Loader) (playback next : Int)
    (loading : Bool) (allocated : Nat) :
    total (record reports (.update loader playback next loading allocated)) = total reports := by
  rw [total, total, record, List.map_map]
  apply congrArg List.sum
  apply List.map_congr_left
  intro report _
  by_cases same : report.loader = loader
  · simp [same]
  · simp [same]

variable (settings) in
theorem Sound.update {state : LoadControl Loader × List (Report Loader)} (sound : Sound state)
    {loader : Loader} (registered : ∃ report ∈ state.2, report.loader = loader)
    (playback next : Int) (loading : Bool) (allocated : Nat) :
    ∃ after, state.1.update settings loader playback next loading allocated =
        .ok (decide (allocated < toSizeT after.targetBufferSize ∧ next ≠ -1 ∧
          next ≤ after.maxLoadStartPositionUs), after) ∧
      Sound (after, record state.2 (.update loader playback next loading allocated)) ∧
      (∃ stored, stored.nextLoadPositionUs = next ∧ (loader, stored) ∈ after.loaders) ∧
      (Refreshed state.1 after ∨ Untouched state.1 after) := by
  obtain ⟨found, lookup, inside⟩ := sound.lookup registered
  let reported : LoaderState :=
    { found with
      bufferState := getLoaderBufferState settings playback next
      nextLoadPositionUs := next
      loading }
  let stored : LoadControl Loader :=
    { state.1 with
      loaders := store state.1.loaders loader reported
      bufferState := settings.getBufferState (toInt32 allocated) state.1.targetBufferSize }
  have reports : stored.loaders.map LoaderState.report =
      record state.2 (.update loader playback next loading allocated) := by
    rw [record, ← sound.reports]
    exact store_report sound.keys inside rfl
  have keys : (stored.loaders.map Prod.fst).Nodup := by
    rw [store_keys]
    exact sound.keys
  have member : (loader, reported) ∈ stored.loaders :=
    List.mem_map.mpr ⟨(loader, found), inside, if_pos rfl⟩
  have target : stored.targetBufferSize =
      toInt32 (total (record state.2 (.update loader playback next loading allocated))) := by
    rw [total_update]
    exact sound.target
  obtain ⟨after, rfl | ⟨rfl, same⟩, ran⟩ :=
    update_eq settings sound.keys lookup inside playback next loading allocated
  · refine ⟨_, ran, .of_updated reports keys target, ⟨reported, rfl, ?_⟩,
      .inl (updateControlState_refreshed stored)⟩
    rw [(updateControlState_eq _).1]
    exact member
  · have same : stored = state.1 := same
    have cached : Cached stored := by
      rw [same]
      exact sound.cached
    refine ⟨_, ran, ⟨reports, keys, target, cached⟩, ⟨reported, rfl, member⟩, ?_⟩
    show Refreshed state.1 stored ∨ Untouched state.1 stored
    rw [same]
    exact sound.cached.refreshed

def Smallest (reports : List (Report Loader)) (loader : Loader) (position : Int) : Prop :=
  (∃ report ∈ reports, report.loader = loader ∧ report.position = position) ∧
    ∀ report ∈ reports, report.position ≠ -1 → position ≤ report.position

omit [DecidableEq Loader] in
theorem Sound.granted {state : LoadControl Loader × List (Report Loader)} (sound : Sound state)
    {loader : Loader} {stored : LoaderState} (member : (loader, stored) ∈ state.1.loaders)
    (position : 0 ≤ stored.nextLoadPositionUs)
    (below : stored.nextLoadPositionUs ≤ state.1.maxLoadStartPositionUs) :
    state.1.fillingBuffers = true ∧ Smallest state.2 loader stored.nextLoadPositionUs := by
  obtain start | ⟨-, -, untouched⟩ := sound.cached.start
  · rw [start, maxLoadStart] at below
    cases filling : state.1.fillingBuffers with
    | false =>
      simp only [filling, Bool.false_eq_true, if_false] at below
      omega
    | true =>
      simp only [filling, if_true] at below
      refine ⟨rfl, ?_, ?_⟩
      · refine ⟨LoaderState.report (loader, stored), ?_, rfl, rfl⟩
        rw [← sound.reports]
        exact List.mem_map_of_mem member
      · intro report inside known
        rw [← sound.reports] at inside
        obtain ⟨entry, among, rfl⟩ := List.mem_map.mp inside
        exact Int.le_trans below ((foldl_lower state.1.loaders (-1)).2 entry among known)
  · -- a loader that has reported a position is not as it was registered
    have fresh : stored.nextLoadPositionUs = -1 :=
      congrArg LoaderState.nextLoadPositionUs (untouched _ member)
    omega

theorem sound_preserved :
    Machine.Preserves (machine settings)
      fun state : LoadControl Loader × List (Report Loader) => Sound state := by
  rintro state event next sound ⟨legal, ⟨granted, ran⟩, recorded⟩
  obtain ⟨after, reports⟩ := next
  subst recorded
  cases event with
  | register loader contribution =>
    cases ran
    exact sound.register contribution legal
  | unregister loader =>
    obtain ⟨remaining, -, ok, kept⟩ := sound.unregister legal
    rw [step, ok] at ran
    cases ran
    exact kept
  | update loader playback next loading allocated =>
    obtain ⟨updated, ok, kept, -⟩ := sound.update settings legal.1 playback next loading allocated
    rw [step, ok] at ran
    cases ran
    exact kept

theorem reachable_sound {state : LoadControl Loader × List (Report Loader)}
    (reachable : Machine.Reachable (machine settings) state) : Sound state := by
  apply reachable.invariant (fun state => Sound state) _ sound_preserved
  rintro _ rfl
  exact ⟨rfl, List.nodup_nil, rfl, rfl, .inr ⟨rfl, rfl, nofun⟩⟩

omit [DecidableEq Loader] in
theorem below_total {reports : List (Report Loader)} {allocated : Nat}
    (below : allocated < toSizeT (toInt32 (total reports))) (lower : 0 ≤ total reports)
    (upper : total reports < 2147483648) : (allocated : Int) < total reports := by
  rw [toInt32_of_range (by omega) upper, toSizeT] at below
  omega

/-- In every state the calls can lead to: a load is granted only while the buffers are being filled,
to the loader that is furthest behind, with less allocated than the contributions allow; and
unregister and update leave the cached values as they are computed from what is stored, save that
the position stays the constructor's as long as no call has detected a change. -/
theorem grants_furthest_behind {state : LoadControl Loader × List (Report Loader)}
    (reachable : Machine.Reachable (machine settings) state) {event : Event Loader}
    (legal : Legal state.2 event) :
    ∃ granted after, step settings state.1 event = .ok (granted, after) ∧
      (granted = true → ∃ loader playback next loading allocated,
        event = .update loader playback next loading allocated ∧
          after.fillingBuffers = true ∧
          allocated < toSizeT (toInt32 (total (record state.2 event))) ∧
          (0 ≤ total (record state.2 event) → total (record state.2 event) < 2147483648 →
            (allocated : Int) < total (record state.2 event)) ∧
          Smallest (record state.2 event) loader next) ∧
      ((∃ loader contribution, event = .register loader contribution) ∨
        Refreshed state.1 after ∨ Untouched state.1 after) := by
  have sound := reachable_sound reachable
  cases event with
  | register loader contribution =>
    exact ⟨false, _, rfl, nofun, .inl ⟨loader, contribution, rfl⟩⟩
  | unregister loader =>
    obtain ⟨remaining, same, ok, -⟩ := sound.unregister legal
    refine ⟨false, updateControlState remaining, by rw [step, ok]; rfl, nofun, .inr (.inl ?_)⟩
    rw [Refreshed, ← same]
    exact updateControlState_refreshed remaining
  | update loader playback next loading allocated =>
    obtain ⟨after, ok, kept, ⟨stored, rfl, member⟩, fresh⟩ :=
      sound.update settings legal.1 playback next loading allocated
    refine ⟨_, after, ok, fun granted => ?_, .inr fresh⟩
    obtain ⟨room, known, below⟩ := of_decide_eq_true granted
    have position : 0 ≤ stored.nextLoadPositionUs := legal.2.resolve_left known
    obtain ⟨filling, smallest⟩ := kept.granted member position below
    rw [kept.target] at room
    exact ⟨loader, playback, _, loading, allocated, rfl, filling, room, below_total room, smallest⟩

-- A loader that has registered and reported position 100, and one that reports 50.
theorem grants_furthest_behind_second_loader :
    let settings : Settings := { getBufferState := fun _ _ => .belowLowWatermark }
    let first : LoadControl Bool :=
      (({} : LoadControl Bool).register true 1000).register false 500
    ∃ second after, first.update settings true 0 100 true 10 = .ok (true, second) ∧
      second.update settings false 0 50 false 20 = .ok (true, after) ∧
      after.fillingBuffers = true ∧ Smallest [⟨true, 1000, 100⟩, ⟨false, 500, 50⟩] false 50 := by
  intro settings first
  have one : Machine.Reachable (machine settings)
      (({} : LoadControl Bool).register true 1000, [⟨true, 1000, -1⟩]) :=
    (Machine.Reachable.start _ rfl).next (.register true 1000) ⟨nofun, ⟨false, rfl⟩, rfl⟩
  have registered : Machine.Reachable (machine settings)
      (first, [⟨true, 1000, -1⟩, ⟨false, 500, -1⟩]) :=
    one.next (.register false 500) ⟨by simp [Legal], ⟨false, rfl⟩, rfl⟩
  obtain ⟨answer, ran, granted⟩ := map_ok
    (show (first.update settings true 0 100 true 10).map Prod.fst = .ok true from rfl)
  have reported : Machine.Reachable (machine settings)
      (answer.2, [⟨true, 1000, 100⟩, ⟨false, 500, -1⟩]) :=
    registered.next (.update true 0 100 true 10) ⟨by simp [Legal], ⟨answer.1, ran⟩, rfl⟩
  obtain ⟨again, after, ok, grants, -⟩ := grants_furthest_behind reported
    (show Legal _ (.update false 0 50 false 20) by simp [Legal])
  have computed : ((first.update settings true 0 100 true 10).bind fun answer =>
      (answer.2.update settings false 0 50 false 20).map Prod.fst) = .ok true := rfl
  rw [ran] at computed
  obtain ⟨last, same, taken⟩ := map_ok computed
  cases ok.symm.trans same
  obtain ⟨_, _, _, _, _, event, filling, -, -, smallest⟩ := grants taken
  cases event
  refine ⟨answer.2, after, by rw [ran, ← granted], ?_, filling, smallest⟩
  rw [same, show again = true from taken]

/-- The position is still the constructor's 0, not -1, behind a first report of nothing to load;
and a negative contribution, as a size_t, admits any allocation. -/
theorem constructor_position_and_negative_total :
    (∃ (state : LoadControl Unit × List (Report Unit)) (after : LoadControl Unit),
      Machine.Reachable (machine { getBufferState := fun _ _ => .aboveHighWatermark }) state ∧
        Legal state.2 (.update () 0 (-1) false 100) ∧
        step { getBufferState := fun _ _ => .aboveHighWatermark } state.1
          (.update () 0 (-1) false 100) = .ok (false, after) ∧
        ¬ Refreshed state.1 after) ∧
      ∃ (state : LoadControl Unit × List (Report Unit)) (after : LoadControl Unit),
        Machine.Reachable (machine { getBufferState := fun _ _ => .belowLowWatermark }) state ∧
          Legal state.2 (.update () 0 0 true 5) ∧
          step { getBufferState := fun _ _ => .belowLowWatermark } state.1
            (.update () 0 0 true 5) = .ok (true, after) ∧
          ¬ ((5 : Nat) : Int) < total (record state.2 (.update () 0 0 true 5)) := by
  refine ⟨⟨(({} : LoadControl Unit).register () 1000, [⟨(), 1000, -1⟩]),
      ({} : LoadControl Unit).register () 1000, ?_, by simp [Legal], rfl, ?_⟩,
    ⟨(({} : LoadControl Unit).register () (-1), [⟨(), -1, -1⟩]), _, ?_, by simp [Legal], rfl, ?_⟩⟩
  · exact (Machine.Reachable.start _ rfl).next (.register () 1000) ⟨nofun, ⟨false, rfl⟩, rfl⟩
  · exact fun refreshed => absurd refreshed.2 (by decide)
  · exact (Machine.Reachable.start _ rfl).next (.register () (-1)) ⟨nofun, ⟨false, rfl⟩, rfl⟩
  · decide

end LoadControl

end NDash

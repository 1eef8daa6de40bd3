import NDash.Chunk.ChunkSampleSourceNoticesRuns
import NDash.Upstream.LoaderThread

set_option autoImplicit false

namespace NDash.Chunk

open Extractor Outcome Machine
open Upstream (LoaderThread)

structure ThreadAnswers where
  threadStarts : Bool := true
  posts : Bool := true
deriving DecidableEq, Repr

-- The call a source has made on its loader, told from what it loaded before and after.
def serve (answers : ThreadAnswers) (before after : Option Loading) (loader : LoaderThread) :
    Except Fault LoaderThread :=
  match before, after with
  | none, some loading =>
    .ok (loader.startLoading loading.chunk.id 0 answers.threadStarts answers.posts).2
  | some running, some loading =>
    if loading.canceled && !running.canceled then loader.cancelLoading else .ok loader
  | _, none => .ok loader

structure LoadingSource where
  source : ChunkSampleSource
  loader : LoaderThread

inductive LoadingOp
  | call (op : SourceOp) (answers : ThreadAnswers)
  | runLoad
  | loadReturns (result : Bool)
  | doneLoad (env : Environment) (timestamp : Int) (answers : ThreadAnswers)

inductive LoadingFault
  | source (fault : SourceFault)
  | loader (fault : Fault)

def LoaderOutcome.ofThread (timestamp : Int) : Upstream.LoaderOutcome → LoaderOutcome
  | .loadComplete => .complete
  | .loadCanceled => .canceled
  | .loadError => .error timestamp

def SourceOp.CalledIn (insideLoad : Bool) : SourceOp → Prop
  | .loadComplete _ _ => False
  | .writeSampleData _ _ | .writeSampleMetadata _ | .giveFormat _ => insideLoad = true
  | _ => True

instance (insideLoad : Bool) : ∀ op : SourceOp, Decidable (op.CalledIn insideLoad)
  | .loadComplete _ _ => inferInstanceAs (Decidable False)
  | .writeSampleData _ _ | .writeSampleMetadata _ | .giveFormat _ =>
    inferInstanceAs (Decidable (insideLoad = true))
  | .register | .prepare _ | .enable _ _ | .disable | .disableAndClear | .continueBuffering _ _
  | .readDiscontinuity | .readData _ _ _ | .seekToUs _ _ | .getBufferedPositionUs =>
    inferInstanceAs (Decidable True)

namespace LoadingSource

def Enabled (state : LoadingSource) : LoadingOp → Prop
  | .call op _ => state.source.Legal op ∧ op.CalledIn state.loader.insideLoad
  | .runLoad => 0 < state.loader.postedRuns ∧ state.loader.insideLoad = false
  | .loadReturns _ => state.loader.insideLoad = true
  | .doneLoad _ _ _ => 0 < state.loader.postedDones

instance (state : LoadingSource) : ∀ op, Decidable (state.Enabled op)
  | .call op _ =>
    inferInstanceAs (Decidable (state.source.Legal op ∧ op.CalledIn state.loader.insideLoad))
  | .runLoad =>
    inferInstanceAs (Decidable (0 < state.loader.postedRuns ∧ state.loader.insideLoad = false))
  | .loadReturns _ => inferInstanceAs (Decidable (state.loader.insideLoad = true))
  | .doneLoad _ _ _ => inferInstanceAs (Decidable (0 < state.loader.postedDones))

def apply (fresh : Fresh) (state : LoadingSource) : LoadingOp → Except LoadingFault LoadingSource
  | .call op answers => do
    let source ← (state.source.apply fresh op).mapError .source
    let loader ← (serve answers state.source.loader source.loader state.loader).mapError .loader
    .ok { source, loader }
  | .runLoad => do
    let loader ← state.loader.runLoad.mapError .loader
    .ok { state with loader }
  | .loadReturns result => do
    let loader ← (state.loader.loadReturns result).mapError .loader
    .ok { state with loader }
  -- DoneLoad has reset the loader when it runs the callback.
  | .doneLoad env timestamp answers => do
    let ((_, _, outcome), loader) ← state.loader.doneLoad.mapError .loader
    let source ← (state.source.loadComplete env (.ofThread timestamp outcome)).mapError .source
    let loader ← (serve answers none source.loader loader).mapError .loader
    .ok { source, loader }

end LoadingSource

def loadingSystem (allocator : Upstream.Allocator) (fresh : Fresh) :
    System LoadingSource LoadingOp where
  Start state :=
    state = { source := .initial allocator fresh, loader := { canceled := fun _ => false } }
  Step state op next := state.Enabled op ∧ state.apply fresh op = .ok next

def LoadingOp.ThreadStarts : LoadingOp → Prop
  | .call _ answers | .doneLoad _ _ answers => answers.threadStarts = true
  | .runLoad | .loadReturns _ => True

def LoadingOp.isBackground : LoadingOp → Bool
  | .runLoad | .loadReturns _ | .doneLoad _ _ _ => true
  | .call _ _ => false

def LoadingOp.isDoneLoad : LoadingOp → Bool
  | .doneLoad _ _ _ => true
  | _ => false

structure Drives (view : LoadView) (loader : LoaderThread) : Prop where
  idle : view.loader = none → loader.Idle ∧ loader.loadableOutcome = .loadError ∧
    ∀ chunk, view.held = some chunk → loader.canceled chunk.id = false
  busy : ∀ loading, view.loader = some loading →
    loader.Busy ⟨loading.chunk.id, 0, loading.canceled⟩ ∧
      loader.canceled loading.chunk.id = loading.canceled ∧
      (loader.loadableOutcome = .loadCanceled → loading.canceled = true) ∧
      view.held = some loading.chunk
  fresh : ∀ id, view.made ≤ id → loader.canceled id = false

namespace Drives

variable {view next : LoadView} {loader : LoaderThread} {answers : ThreadAnswers}

-- The loader is idle and its thread starts, so it does not refuse.
theorem accepts (idle : loader.Idle) (starts : answers.threadStarts = true) (loadable : Nat) :
    let after := (loader.startLoading loadable 0 answers.threadStarts answers.posts).2
    after.Busy ⟨loadable, 0, false⟩ ∧ after.canceled = loader.canceled ∧
      after.loadableOutcome = loader.loadableOutcome := by
  have cases := Upstream.LoaderWorld.startLoading_idle idle loadable 0 answers.threadStarts
    answers.posts
  have accepted : (loader.startLoading loadable 0 answers.threadStarts answers.posts).1 = true := by
    simp only [LoaderThread.startLoading, starts, Bool.or_true, idle.loading]
    cases answers.posts <;> rfl
  refine ⟨?_, ?_⟩
  · rcases cases with ⟨-, busy⟩ | ⟨refused, -⟩
    · exact busy
    · simp [accepted] at refused
  · simp only [LoaderThread.startLoading, starts, Bool.or_true, idle.loading]
    cases answers.posts <;> exact ⟨rfl, rfl⟩

/-- The source's own actions reach the loader as one start at most, which it accepts. -/
theorem own (drives : Drives view loader) (moved : view.Moved next)
    (starts : answers.threadStarts = true) :
    ∃ after, serve answers view.loader next.loader loader = .ok after ∧ Drives next after := by
  have uncanceled : ∀ id, next.made ≤ id → loader.canceled id = false :=
    fun id made => drives.fresh id (Nat.le_trans moved.made made)
  rcases Option.eq_none_or_eq_some view.loader with idle | ⟨running, loads⟩
  · obtain ⟨rests, outcome, held⟩ := drives.idle idle
    have clean : ∀ chunk, next.held = some chunk → loader.canceled chunk.id = false := by
      intro chunk same
      rcases moved.held chunk same with before | new
      · exact held chunk before
      · exact drives.fresh chunk.id new
    rcases Option.eq_none_or_eq_some next.loader with still | ⟨loading, started⟩
    · refine ⟨loader, by rw [idle, still]; rfl, fun _ => ⟨rests, outcome, clean⟩, ?_, uncanceled⟩
      simp [still]
    · obtain ⟨fresh, holds⟩ := moved.starts idle loading started
      obtain ⟨busy, flags, reset⟩ := accepts rests starts loading.chunk.id
      refine ⟨_, by rw [idle, started]; rfl, by simp [started], ?_, ?_⟩
      · intro _ same
        cases started.symm.trans same
        rw [fresh, flags, reset, outcome]
        exact ⟨busy, clean loading.chunk holds, by simp, holds⟩
      · rw [flags]
        exact uncanceled
  · have same := moved.waits (by simp [loads])
    rw [same]
    refine ⟨loader, ?_, drives⟩
    rw [loads, serve, Bool.and_not_self]
    rfl

theorem stop (drives : Drives view loader) {loading : Loading}
    (running : view.loader = some loading)
    (numbered : ∀ chunk, view.held = some chunk → chunk.id < view.made) :
    ∃ after, serve answers view.loader (some { loading with canceled := true }) loader = .ok after ∧
      Drives { view with loader := some { loading with canceled := true } } after := by
  obtain ⟨busy, flag, outcome, held⟩ := drives.busy loading running
  cases canceled : loading.canceled with
  | true =>
    have same : { view with loader := some { loading with canceled := true } } = view := by
      rw [← canceled, ← running]
    rw [same]
    refine ⟨loader, ?_, drives⟩
    rw [running, serve, canceled]
    rfl
  | false =>
    refine ⟨loader.cancelLoad loading.chunk.id, ?_, by simp, ?_, ?_⟩
    · rw [running, serve, canceled]
      simp [LoaderThread.cancelLoading, busy.loading, busy.loadable]
    · rintro _ ⟨⟩
      refine ⟨⟨busy.loading, busy.started, busy.loadable, busy.callback, busy.task, ?_⟩, ?_, ?_, held⟩
      · simp [LoaderThread.cancelLoad]
      · simp [LoaderThread.cancelLoad]
      · simp
    · intro id made
      have above : view.made ≤ id := made
      have earlier := numbered loading.chunk held
      have other : id ≠ loading.chunk.id := by omega
      simp only [LoaderThread.cancelLoad]
      rw [Function.update_of_ne other]
      exact drives.fresh id above

/-- DoneLoad reports a cancelled load as cancelled, and no other, and leaves the loader idle. -/
theorem done (drives : Drives view loader) {loading : Loading}
    (running : view.loader = some loading) (posted : 0 < loader.postedDones) (timestamp : Int) :
    ∃ outcome after, loader.doneLoad = .ok ((0, loading.chunk.id, outcome), after) ∧
      (LoaderOutcome.ofThread timestamp outcome = .canceled ↔ loading.canceled = true) ∧
      after.Idle ∧ after.loadableOutcome = .loadError ∧ after.canceled = loader.canceled := by
  obtain ⟨busy, flag, earlier, -⟩ := drives.busy loading running
  have task := busy.task
  have outside : loader.insideLoad = false := by
    cases inside : loader.insideLoad with
    | false => rfl
    | true =>
      rw [inside, Bool.toNat_true] at task
      omega
  rw [outside, Bool.toNat_false] at task
  refine ⟨if loader.isLoadCanceled loading.chunk.id then .loadCanceled else loader.loadableOutcome,
    { loader with
      loading := false
      currentLoadable := none
      callback := none
      loadableOutcome := .loadError
      postedDones := loader.postedDones - 1 }, ?_, ?_, ⟨rfl, ?_, outside, ?_⟩, rfl, rfl⟩
  · simp only [LoaderThread.doneLoad, busy.loadable, busy.callback]
  · rw [LoaderThread.isLoadCanceled, flag]
    cases canceled : loading.canceled with
    | true => simp [LoaderOutcome.ofThread]
    | false =>
      cases outcome : loader.loadableOutcome with
      | loadCanceled =>
        rw [canceled] at earlier
        exact absurd (earlier outcome) (by simp)
      | _ => simp [LoaderOutcome.ofThread]
  · simp only
    omega
  · simp only
    omega

theorem ended (drives : Drives view loader) {action : LoadAction} (step : view.Step action next)
    (finishes : action.Finishes) {after : LoaderThread} (rests : after.Idle)
    (reset : after.loadableOutcome = .loadError) (flags : after.canceled = loader.canceled) :
    Drives next after ∧ next.loader = none := by
  have fresh : ∀ id, view.made ≤ id → after.canceled id = false := by
    rw [flags]
    exact drives.fresh
  cases step with
  | complete => exact ⟨⟨fun _ => ⟨rests, reset, by simp⟩, by simp, fresh⟩, rfl⟩
  | cancel => exact ⟨⟨fun _ => ⟨rests, reset, by simp⟩, by simp, fresh⟩, rfl⟩
  | @fail chunk running held =>
    obtain ⟨-, flag, -⟩ := drives.busy _ running
    refine ⟨⟨fun _ => ⟨rests, reset, ?_⟩, by simp, fresh⟩, rfl⟩
    intro other same
    cases held.symm.trans same
    rw [flags]
    exact flag
  | clear | choose | start | stop | resume | giveUp | abandon => exact finishes.elim

theorem loads (drives : Drives view loader) (active : ¬ loader.Idle) :
    ∃ loading, view.loader = some loading := by
  rcases Option.eq_none_or_eq_some view.loader with idle | loads
  · exact absurd (drives.idle idle).1 active
  · exact loads

theorem thread (drives : Drives view loader) {loading : Loading}
    (running : view.loader = some loading) {after : LoaderThread}
    (busy : after.Busy ⟨loading.chunk.id, 0, loading.canceled⟩)
    (flags : after.canceled = loader.canceled)
    (outcome : after.loadableOutcome = .loadCanceled → loading.canceled = true) :
    Drives view after := by
  obtain ⟨-, flag, -, held⟩ := drives.busy loading running
  refine ⟨by simp [running], ?_, ?_⟩
  · intro _ same
    cases running.symm.trans same
    rw [flags]
    exact ⟨busy, flag, outcome, held⟩
  · rw [flags]
    exact drives.fresh

theorem runs (drives : Drives view loader) (posted : 0 < loader.postedRuns)
    (outside : loader.insideLoad = false) {after : LoaderThread} (ran : loader.runLoad = .ok after) :
    Drives view after := by
  obtain ⟨loading, running⟩ := drives.loads fun idle => by simp [idle.runs] at posted
  obtain ⟨busy, flag, earlier, -⟩ := drives.busy loading running
  have task := busy.task
  rw [outside, Bool.toNat_false] at task
  simp only [LoaderThread.runLoad, busy.loadable, LoaderThread.isLoadCanceled, flag] at ran
  split at ran
  next canceled =>
    cases ran
    refine drives.thread running ⟨busy.loading, busy.started, rfl, busy.callback, ?_, busy.canceled⟩
      rfl fun _ => canceled
    simp only [outside, Bool.toNat_false]
    omega
  next =>
    cases ran
    refine drives.thread running ⟨busy.loading, busy.started, rfl, busy.callback, ?_, busy.canceled⟩
      rfl earlier
    simp only [Bool.toNat_true]
    omega

theorem returns (drives : Drives view loader) (inside : loader.insideLoad = true) {result : Bool}
    {after : LoaderThread} (returned : loader.loadReturns result = .ok after) :
    Drives view after := by
  obtain ⟨loading, running⟩ := drives.loads fun idle => by simp [idle.inside] at inside
  obtain ⟨busy, flag, -, -⟩ := drives.busy loading running
  have task := busy.task
  rw [inside, Bool.toNat_true] at task
  simp only [LoaderThread.loadReturns, busy.loadable, LoaderThread.isLoadCanceled, flag] at returned
  cases returned
  refine drives.thread running ⟨busy.loading, busy.started, rfl, busy.callback, ?_, busy.canceled⟩
    rfl ?_
  · simp only [Bool.toNat_false]
    omega
  · simp only
    split
    next canceled => exact fun _ => canceled
    next => split <;> simp

end Drives

theorem Shows.moved {view next : LoadView} {said : List LoadNotice} {interrupted : Nat}
    (shows : Shows view said interrupted next) : view.Moved next := by
  obtain ⟨actions, run, own, -⟩ := shows
  exact LoadView.run_moved run own

theorem Drives.calls {view next : LoadView} {loader : LoaderThread} {answers : ThreadAnswers}
    {said : List LoadNotice} {interrupted : Nat} (drives : Drives view loader)
    (calls : Calls view said interrupted next) (starts : answers.threadStarts = true)
    (numbered : ∀ chunk, view.held = some chunk → chunk.id < view.made) :
    ∃ after, serve answers view.loader next.loader loader = .ok after ∧ Drives next after := by
  cases calls with
  | own shows => exact drives.own shows.moved starts
  | stop running => exact drives.stop running numbered

theorem Drives.calls_rank {view next : LoadView} {loader after : LoaderThread}
    {answers : ThreadAnswers} {said : List LoadNotice} {interrupted : Nat}
    (drives : Drives view loader) (calls : Calls view said interrupted next) {loading : Loading}
    (running : view.loader = some loading)
    (served : serve answers view.loader next.loader loader = .ok after) :
    next.loader.isSome = true ∧ after.rank = loader.rank := by
  cases calls with
  | own shows =>
    rw [shows.moved.waits (by simp [running]), running, serve, Bool.and_not_self] at served
    cases served
    refine ⟨?_, rfl⟩
    rw [shows.moved.waits (by simp [running]), running]
    rfl
  | @stop load _ same =>
    obtain ⟨busy, -⟩ := drives.busy load same
    refine ⟨rfl, ?_⟩
    rw [same, serve] at served
    split at served
    next =>
      simp only [LoaderThread.cancelLoading, busy.loading, if_true, busy.loadable] at served
      cases served
      rfl
    next =>
      cases served
      rfl

theorem Drives.calledBack {view next : LoadView} {loader after : LoaderThread}
    {answers : ThreadAnswers} {said : List LoadNotice} (drives : Drives view loader)
    (called : CalledBack view said next) (starts : answers.threadStarts = true)
    (rests : after.Idle) (reset : after.loadableOutcome = .loadError)
    (flags : after.canceled = loader.canceled) :
    ∃ final, serve answers none next.loader after = .ok final ∧ Drives next final := by
  cases called with
  | done step finishes shows =>
    obtain ⟨middle, unloaded⟩ := drives.ended step finishes rests reset flags
    rw [← unloaded]
    exact middle.own shows.moved starts

theorem mapError_ok {ε δ α : Type} {result : Except ε α} {change : ε → δ} {value : α}
    (mapped : result.mapError change = .ok value) : result = .ok value := by
  cases result with
  | error fault => cases mapped
  | ok returned =>
    cases mapped
    rfl

namespace LoadingSource

structure Coupled (allocator : Upstream.Allocator) (fresh : Fresh) (state : LoadingSource) :
    Prop where
  reachable : Reachable (sourceSystem allocator fresh) state.source
  sound : state.source.schedule.Sound ChunkSampleSource.anyCalls
  drives : Drives state.source.loadView state.loader

variable {allocator : Upstream.Allocator} {fresh : Fresh} {state next : LoadingSource}

theorem Coupled.advance (coupled : state.Coupled allocator fresh) {op : SourceOp}
    {source : ChunkSampleSource} {loader : LoaderThread} (legal : state.source.Legal op)
    (applied : state.source.apply fresh op = .ok source) (drives : Drives source.loadView loader) :
    Coupled allocator fresh { source, loader } := by
  have steps := (ChunkSampleSource.apply_met fresh coupled.sound legal
    ⟨False.elim, False.elim, False.elim⟩).ok applied
  exact ⟨coupled.reachable.next op ⟨legal, applied⟩, Schedule.steps_sound steps coupled.sound,
    drives⟩

theorem Coupled.call (coupled : state.Coupled allocator fresh) {op : SourceOp}
    {answers : ThreadAnswers} (enabled : state.Enabled (.call op answers))
    (starts : answers.threadStarts = true)
    (applied : state.apply fresh (.call op answers) = .ok next) :
    next.Coupled allocator fresh := by
  obtain ⟨legal, calledIn⟩ := enabled
  obtain ⟨source, ran, rest⟩ := bind_ok applied
  obtain ⟨loader, served, same⟩ := bind_ok rest
  cases same
  have ran := mapError_ok ran
  have calls := ChunkSampleSource.apply_calls ran coupled.sound legal (by
    rintro env outcome rfl
    exact calledIn)
  obtain ⟨after, reached, drives⟩ := coupled.drives.calls calls starts coupled.sound.numbered
  cases (mapError_ok served).symm.trans reached
  exact coupled.advance legal ran drives

theorem Coupled.doneLoad (coupled : state.Coupled allocator fresh) {env : Environment}
    {timestamp : Int} {answers : ThreadAnswers} (posted : 0 < state.loader.postedDones)
    (starts : answers.threadStarts = true)
    (applied : state.apply fresh (.doneLoad env timestamp answers) = .ok next) :
    next.Coupled allocator fresh := by
  obtain ⟨loading, running⟩ := coupled.drives.loads fun idle => by simp [idle.dones] at posted
  obtain ⟨outcome, after, done, canceled, rests, reset, flags⟩ :=
    coupled.drives.done running posted timestamp
  obtain ⟨⟨⟨_, _, reported⟩, left⟩, reports, rest⟩ := bind_ok applied
  cases (mapError_ok reports).symm.trans done
  obtain ⟨source, completed, rest⟩ := bind_ok rest
  obtain ⟨loader, served, same⟩ := bind_ok rest
  cases same
  have completed := mapError_ok completed
  have legal : state.source.Legal (.loadComplete env (.ofThread timestamp outcome)) :=
    ⟨loading, running, canceled⟩
  have called := ChunkSampleSource.loadComplete_called completed coupled.sound legal
  obtain ⟨final, reached, drives⟩ := coupled.drives.calledBack called starts rests reset flags
  cases (mapError_ok served).symm.trans reached
  exact coupled.advance legal completed drives

theorem Coupled.step (coupled : state.Coupled allocator fresh) {op : LoadingOp}
    (enabled : state.Enabled op) (starts : op.ThreadStarts)
    (applied : state.apply fresh op = .ok next) : next.Coupled allocator fresh := by
  cases op with
  | call op answers => exact coupled.call enabled starts applied
  | runLoad =>
    obtain ⟨loader, ran, same⟩ := bind_ok applied
    cases same
    exact { coupled with drives := coupled.drives.runs enabled.1 enabled.2 (mapError_ok ran) }
  | loadReturns result =>
    obtain ⟨loader, returned, same⟩ := bind_ok applied
    cases same
    exact { coupled with drives := coupled.drives.returns enabled (mapError_ok returned) }
  | doneLoad env timestamp answers => exact coupled.doneLoad enabled starts applied

-- Each step of the loader's own brings the report of a running load closer, and no call delays it.
theorem Coupled.closer (coupled : state.Coupled allocator fresh) {op : LoadingOp}
    (enabled : state.Enabled op) (unfinished : op.isDoneLoad = false)
    (applied : state.apply fresh op = .ok next) (busy : state.source.isLoading = true) :
    next.source.isLoading = true ∧
      next.loader.rank + op.isBackground.toNat ≤ state.loader.rank := by
  obtain ⟨loading, running⟩ := Option.isSome_iff_exists.mp busy
  obtain ⟨works, flag, -⟩ := coupled.drives.busy loading running
  have task := works.task
  cases op with
  | call op answers =>
    obtain ⟨legal, calledIn⟩ := enabled
    obtain ⟨source, ran, rest⟩ := bind_ok applied
    obtain ⟨loader, served, same⟩ := bind_ok rest
    cases same
    have calls := ChunkSampleSource.apply_calls (mapError_ok ran) coupled.sound legal (by
      rintro env outcome rfl
      exact calledIn)
    obtain ⟨loads, rank⟩ := coupled.drives.calls_rank calls running (mapError_ok served)
    exact ⟨loads, Nat.le_of_eq rank⟩
  | runLoad =>
    obtain ⟨loader, ran, same⟩ := bind_ok applied
    cases same
    have ran := mapError_ok ran
    obtain ⟨posted, outside⟩ := enabled
    rw [outside, Bool.toNat_false] at task
    simp only [LoaderThread.runLoad, works.loadable] at ran
    refine ⟨busy, ?_⟩
    split at ran <;> cases ran <;>
      simp only [LoaderThread.rank, LoadingOp.isBackground, outside, Bool.toNat_true,
        Bool.toNat_false] <;> omega
  | loadReturns result =>
    obtain ⟨loader, returned, same⟩ := bind_ok applied
    cases same
    have returned := mapError_ok returned
    have inside : state.loader.insideLoad = true := enabled
    rw [inside, Bool.toNat_true] at task
    simp only [LoaderThread.loadReturns, works.loadable] at returned
    cases returned
    refine ⟨busy, ?_⟩
    simp only [LoaderThread.rank, LoadingOp.isBackground, inside, Bool.toNat_true,
      Bool.toNat_false]
    omega
  | doneLoad env timestamp answers => cases unfinished

theorem coupled (reachable : Reachable ((loadingSystem allocator fresh).restrict
    fun _ op _ => op.ThreadStarts) state) : state.Coupled allocator fresh := by
  refine reachable.invariant (Coupled allocator fresh) ?_ ?_
  · rintro _ rfl
    refine ⟨Reachable.start _ rfl, ChunkSampleSource.initial_sound _ allocator fresh, ?_, ?_, ?_⟩
    · exact fun _ => ⟨⟨rfl, rfl, rfl, rfl⟩, rfl, fun _ _ => rfl⟩
    · simp [ChunkSampleSource.loadView, Schedule.loadView, ChunkSampleSource.schedule,
        ChunkSampleSource.initial]
    · exact fun _ _ => rfl
  · rintro state op next coupled ⟨⟨enabled, applied⟩, starts⟩
    exact coupled.step enabled starts applied

theorem Coupled.waits {ops : List LoadingOp} {state final : LoadingSource}
    (coupled : state.Coupled allocator fresh) (run : Run ((loadingSystem allocator fresh).restrict
      fun _ op _ => op.ThreadStarts) state ops final)
    (unfinished : ∀ op ∈ ops, op.isDoneLoad = false) (busy : state.source.isLoading = true) :
    final.Coupled allocator fresh ∧ final.source.isLoading = true ∧
      final.loader.rank + ops.countP LoadingOp.isBackground ≤ state.loader.rank := by
  induction run with
  | nil => exact ⟨coupled, busy, Nat.le_refl _⟩
  | cons valid _ ih =>
    next op ops _ =>
    obtain ⟨⟨enabled, applied⟩, starts⟩ := valid
    obtain ⟨loads, closer⟩ :=
      coupled.closer enabled (unfinished op List.mem_cons_self) applied busy
    obtain ⟨after, stays, bound⟩ := ih (coupled.step enabled starts applied)
      (fun other listed => unfinished other (List.mem_cons_of_mem op listed)) loads
    refine ⟨after, stays, ?_⟩
    rw [List.countP_cons]
    cases background : op.isBackground with
    | true =>
      simp only [background, Bool.toNat_true] at closer
      simp only [if_true]
      omega
    | false =>
      simp only [background, Bool.toNat_false] at closer
      simp only [Bool.false_eq_true, if_false]
      omega

theorem Coupled.rank_bounds (coupled : state.Coupled allocator fresh)
    (busy : state.source.isLoading = true) : 1 ≤ state.loader.rank ∧ state.loader.rank ≤ 3 := by
  obtain ⟨loading, running⟩ := Option.isSome_iff_exists.mp busy
  have task := (coupled.drives.busy loading running).1.task
  simp only [LoaderThread.rank]
  omega

end LoadingSource

structure LoadsThrough (allocator : Upstream.Allocator) (fresh : Fresh) (state : LoadingSource) :
    Prop where
  source : Reachable (sourceSystem allocator fresh) state.source
  loading : state.loader.isLoading = state.source.isLoading
  current : ∀ loading, state.source.loader = some loading →
    state.loader.currentLoadable = some loading.chunk.id ∧
      state.loader.isLoadCanceled loading.chunk.id = loading.canceled
  reports : 0 < state.loader.postedDones → ∀ env timestamp, ∃ loadable outcome after,
    state.loader.doneLoad = .ok ((0, loadable, outcome), after) ∧
      state.source.Legal (.loadComplete env (.ofThread timestamp outcome))
  proceeds : state.source.isLoading = true → ∃ op : LoadingOp, op.isBackground = true ∧
    state.Enabled op
  answered : state.source.isLoading = true → ∀ ops final,
    Run ((loadingSystem allocator fresh).restrict fun _ op _ => op.ThreadStarts) state ops final →
    3 ≤ ops.countP LoadingOp.isBackground → ∃ op ∈ ops, op.isDoneLoad = true

/-- A source and its loader thread are a run of the source's own system, whatever the order of
their steps, and every load the source has started is called back. -/
theorem source_loads_through_thread (allocator : Upstream.Allocator) (fresh : Fresh)
    (state : LoadingSource)
    (reachable : Reachable ((loadingSystem allocator fresh).restrict fun _ op _ => op.ThreadStarts)
      state) : LoadsThrough allocator fresh state := by
  have coupled := LoadingSource.coupled reachable
  have idle (stopped : state.source.loader = none) := (coupled.drives.idle stopped).1
  refine ⟨coupled.reachable, ?_, ?_, ?_, ?_, ?_⟩
  · rcases Option.eq_none_or_eq_some state.source.loader with stopped | ⟨loading, running⟩
    · simp [ChunkSampleSource.isLoading, LoaderThread.isLoading, stopped, (idle stopped).loading]
    · obtain ⟨busy, -⟩ := coupled.drives.busy loading running
      simp [ChunkSampleSource.isLoading, LoaderThread.isLoading, running, busy.loading]
  · intro loading running
    obtain ⟨busy, flag, -⟩ := coupled.drives.busy loading running
    exact ⟨busy.loadable, flag⟩
  · intro posted env timestamp
    obtain ⟨loading, running⟩ := coupled.drives.loads fun idle => by simp [idle.dones] at posted
    obtain ⟨outcome, after, done, canceled, -⟩ := coupled.drives.done running posted timestamp
    exact ⟨loading.chunk.id, outcome, after, done, loading, running, canceled⟩
  · intro loads
    obtain ⟨loading, running⟩ := Option.isSome_iff_exists.mp loads
    have task := (coupled.drives.busy loading running).1.task
    cases inside : state.loader.insideLoad with
    | true => exact ⟨.loadReturns true, rfl, inside⟩
    | false =>
      rw [inside, Bool.toNat_false] at task
      by_cases posted : 0 < state.loader.postedRuns
      · exact ⟨.runLoad, rfl, posted, inside⟩
      · refine ⟨.doneLoad (answering .keep 0) 0 {}, rfl, ?_⟩
        simp only [LoadingSource.Enabled]
        omega
  · intro loads ops final run steps
    by_contra unanswered
    have unfinished : ∀ op ∈ ops, op.isDoneLoad = false := by
      intro op listed
      cases finishes : op.isDoneLoad with
      | false => rfl
      | true => exact absurd ⟨op, listed, finishes⟩ unanswered
    obtain ⟨after, stays, bound⟩ := coupled.waits run unfinished loads
    have start := coupled.rank_bounds loads
    have left := after.rank_bounds stays
    omega

def LoadingSource.advance (fresh : Fresh) (state : LoadingSource) (op : LoadingOp) :
    Option LoadingSource :=
  if state.Enabled op then (state.apply fresh op).toOption else none

theorem LoadingSource.advance_step (allocator : Upstream.Allocator) {fresh : Fresh}
    {state next : LoadingSource} {op : LoadingOp} (advances : state.advance fresh op = some next) :
    (loadingSystem allocator fresh).Step state op next := by
  unfold advance at advances
  obtain ⟨enabled, applied⟩ := Option.ite_none_right_eq_some.mp advances
  exact ⟨enabled, Outcome.ok_of_toOption applied⟩

def interruptedOps : List LoadingOp :=
  (enableOps mediaSpec 0).map (LoadingOp.call · {}) ++
    [.runLoad, .call (.seekToUs (answering .keep 0) 8000000) {}, .loadReturns true,
      .doneLoad (answering (.replace mediaSpec) 0) 0 {}, .runLoad]

theorem interruptedRun_result :
    (execute (LoadingSource.advance .zero)
      { source := .initial (.initial 4 fun _ _ => 0) .zero, loader := { canceled := fun _ => false } }
      interruptedOps).map (fun state =>
        (state.source.isLoading, state.loader.insideLoad, state.loader.canceled 0,
          state.loader.currentLoadable)) =
      some (true, true, true, some 1) := by
  decide +kernel

theorem source_loads_through_thread_interrupted :
    ∃ state, state.source.isLoading = true ∧ state.loader.insideLoad = true ∧
      state.loader.canceled 0 = true ∧ state.loader.currentLoadable = some 1 ∧
      LoadsThrough (.initial 4 fun _ _ => 0) .zero state := by
  obtain ⟨state, executed, result⟩ := Option.map_eq_some_iff.mp interruptedRun_result
  simp only [Prod.mk.injEq] at result
  have run : Run (loadingSystem (.initial 4 fun _ _ => 0) .zero) _ interruptedOps state :=
    .of_execute (fun _ _ _ _ advances => LoadingSource.advance_step _ advances) executed
  have starts : ∀ op ∈ interruptedOps, ∀ _ _ : LoadingSource, op.ThreadStarts := by
    simp [interruptedOps, enableOps, LoadingOp.ThreadStarts]
  have loads := source_loads_through_thread _ _ state
    ((Reachable.start _ rfl).run (run.restrict starts))
  exact ⟨state, result.1, result.2.1, result.2.2.1, result.2.2.2, loads⟩

end NDash.Chunk

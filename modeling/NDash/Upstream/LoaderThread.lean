import NDash.Util
import NDash.Shared.Machine

set_option autoImplicit false

namespace NDash.Upstream

open Machine

inductive LoaderOutcome
  | loadComplete
  | loadCanceled
  | loadError
deriving DecidableEq, Repr

abbrev LoadableId := Nat
abbrev LoadDoneCallback := Nat

-- The members, the tasks on the two message loops, and the cancelled flags of the loadables.
structure LoaderThread where
  loading : Bool := false
  started : Bool := false
  currentLoadable : Option LoadableId := none
  callback : Option LoadDoneCallback := none
  loadableOutcome : LoaderOutcome := .loadError
  postedRuns : Nat := 0
  insideLoad : Bool := false
  postedDones : Nat := 0
  canceled : LoadableId → Bool

namespace LoaderThread

def isLoadCanceled (loader : LoaderThread) (loadable : LoadableId) : Bool := loader.canceled loadable

def cancelLoad (loader : LoaderThread) (loadable : LoadableId) : LoaderThread :=
  { loader with canceled := Function.update loader.canceled loadable true }

-- `threadStarts` and `posts` are the answers of Thread::Start and PostTaskAndReply.
def startLoading (loader : LoaderThread) (loadable : LoadableId) (callback : LoadDoneCallback)
    (threadStarts posts : Bool) : Bool × LoaderThread :=
  let loader := { loader with started := loader.started || threadStarts }
  if !loader.started then (false, loader)
  else if loader.loading then (false, loader)
  else
    let loader := { loader with
      loading := true
      currentLoadable := some loadable
      callback := some callback }
    if posts then (true, { loader with postedRuns := loader.postedRuns + 1 })
    else (true, { loader with postedDones := loader.postedDones + 1 })

def isLoading (loader : LoaderThread) : Bool := loader.loading

def cancelLoading (loader : LoaderThread) : Except Fault LoaderThread :=
  if loader.loading then
    match loader.currentLoadable with
    | none => .error .nullPointer
    | some loadable => .ok (loader.cancelLoad loadable)
  else .ok loader

-- RunLoad up to the call of Load; a task that ends lets the loop post its reply.
def runLoad (loader : LoaderThread) : Except Fault LoaderThread :=
  match loader.currentLoadable with
  | none => .error .nullPointer
  | some loadable =>
    let loader := { loader with postedRuns := loader.postedRuns - 1 }
    if loader.isLoadCanceled loadable then
      .ok { loader with
        loadableOutcome := .loadCanceled
        postedDones := loader.postedDones + 1 }
    else .ok { loader with insideLoad := true }

def loadReturns (loader : LoaderThread) (result : Bool) : Except Fault LoaderThread :=
  match loader.currentLoadable with
  | none => .error .nullPointer
  | some loadable =>
    .ok { loader with
      insideLoad := false
      loadableOutcome :=
        if loader.isLoadCanceled loadable then .loadCanceled
        else if result then .loadComplete
        else .loadError
      postedDones := loader.postedDones + 1 }

def doneLoad (loader : LoaderThread) :
    Except Fault ((LoadDoneCallback × LoadableId × LoaderOutcome) × LoaderThread) :=
  match loader.currentLoadable, loader.callback with
  | some loadable, some callback =>
    let outcome :=
      if loader.isLoadCanceled loadable then .loadCanceled else loader.loadableOutcome
    .ok ((callback, loadable, outcome),
      { loader with
        loading := false
        currentLoadable := none
        callback := none
        loadableOutcome := .loadError
        postedDones := loader.postedDones - 1 })
  | _, _ => .error .nullPointer

end LoaderThread

inductive LoaderOp
  | startLoading (loadable : LoadableId) (callback : LoadDoneCallback) (threadStarts posts : Bool)
  | isLoading
  | cancelLoading
  | cancelElsewhere (loadable : LoadableId)
  | runLoad
  | loadReturns (result : Bool)
  | doneLoad
deriving DecidableEq, Repr

def LoaderOp.isBackground : LoaderOp → Bool
  | .runLoad | .loadReturns _ | .doneLoad => true
  | _ => false

inductive LoaderEvent
  | accepted (loadable : LoadableId) (callback : LoadDoneCallback)
  | refused
  | answered (loading : Bool)
  | cancelRequested
  | reported (loadable : LoadableId) (callback : LoadDoneCallback) (outcome : LoaderOutcome)
deriving DecidableEq, Repr

structure LoaderWorld where
  loader : LoaderThread
  log : List LoaderEvent := []

namespace LoaderWorld

def Enabled (world : LoaderWorld) : LoaderOp → Prop
  | .runLoad => 0 < world.loader.postedRuns ∧ world.loader.insideLoad = false
  | .loadReturns _ => world.loader.insideLoad = true
  | .doneLoad => 0 < world.loader.postedDones
  | _ => True

def apply (world : LoaderWorld) : LoaderOp → Except Fault LoaderWorld
  | .startLoading loadable callback threadStarts posts =>
    match world.loader.startLoading loadable callback threadStarts posts with
    | (true, loader) => .ok { loader, log := world.log ++ [.accepted loadable callback] }
    | (false, loader) => .ok { loader, log := world.log ++ [.refused] }
  | .isLoading => .ok { world with log := world.log ++ [.answered world.loader.isLoading] }
  | .cancelLoading => do
    let loader ← world.loader.cancelLoading
    .ok { loader, log := world.log ++ [.cancelRequested] }
  | .cancelElsewhere loadable => .ok { world with loader := world.loader.cancelLoad loadable }
  | .runLoad => do
    let loader ← world.loader.runLoad
    .ok { world with loader }
  | .loadReturns result => do
    let loader ← world.loader.loadReturns result
    .ok { world with loader }
  | .doneLoad => do
    let ((callback, loadable, outcome), loader) ← world.loader.doneLoad
    .ok { loader, log := world.log ++ [.reported loadable callback outcome] }

end LoaderWorld

def loaderSystem : System LoaderWorld LoaderOp where
  Start world := ∃ canceled, world = { loader := { canceled } }
  Step world op next := world.Enabled op ∧ world.apply op = .ok next

structure Outstanding where
  loadable : LoadableId
  callback : LoadDoneCallback
  cancelRequested : Bool
deriving DecidableEq, Repr

/-- The protocol of the log: one report for each accepted load, cancelled if that was asked for. -/
def follow : Option Outstanding → List LoaderEvent → Option (Option Outstanding)
  | state, [] => some state
  | none, .accepted loadable callback :: log => follow (some ⟨loadable, callback, false⟩) log
  | none, .refused :: log => follow none log
  | none, .answered loading :: log => if loading then none else follow none log
  | none, .cancelRequested :: log => follow none log
  | none, .reported _ _ _ :: _ => none
  | some _, .accepted _ _ :: _ => none
  | some load, .refused :: log => follow (some load) log
  | some load, .answered loading :: log => if loading then follow (some load) log else none
  | some load, .cancelRequested :: log => follow (some { load with cancelRequested := true }) log
  | some load, .reported loadable callback outcome :: log =>
    if loadable = load.loadable ∧ callback = load.callback ∧
      (load.cancelRequested = true → outcome = .loadCanceled) then follow none log
    else none

theorem follow_append (state : Option Outstanding) (first second : List LoaderEvent) :
    follow state (first ++ second) = (follow state first).bind fun middle => follow middle second := by
  induction first generalizing state with
  | nil => cases state <;> rfl
  | cons event first ih =>
    cases state with
    | none =>
      cases event with
      | answered loading => cases loading <;> simp [follow, ih]
      | _ => simp [follow, ih]
    | some load =>
      cases event with
      | answered loading => cases loading <;> simp [follow, ih]
      | reported loadable callback outcome =>
        simp only [List.cons_append, follow]
        split
        next => exact ih none
        next => rfl
      | _ => simp [follow, ih]

namespace LoaderThread

structure Idle (loader : LoaderThread) : Prop where
  loading : loader.loading = false
  runs : loader.postedRuns = 0
  inside : loader.insideLoad = false
  dones : loader.postedDones = 0

structure Busy (loader : LoaderThread) (load : Outstanding) : Prop where
  loading : loader.loading = true
  started : loader.started = true
  loadable : loader.currentLoadable = some load.loadable
  callback : loader.callback = some load.callback
  task : loader.postedRuns + loader.insideLoad.toNat + loader.postedDones = 1
  canceled : load.cancelRequested = true → loader.canceled load.loadable = true

def Serves (loader : LoaderThread) : Option Outstanding → Prop
  | none => loader.Idle
  | some load => loader.Busy load

def rank (loader : LoaderThread) : Nat := 3 * loader.postedRuns + 2 * loader.insideLoad.toNat +
  loader.postedDones

end LoaderThread

namespace LoaderWorld

def Follows (world : LoaderWorld) (load : Option Outstanding) : Prop :=
  follow none world.log = some load ∧ world.loader.Serves load

variable {world next : LoaderWorld}

theorem Follows.extend {load after : Option Outstanding} {event : LoaderEvent} {loader : LoaderThread}
    (follows : world.Follows load) (event_follows : follow load [event] = some after)
    (serves : loader.Serves after) : Follows { loader, log := world.log ++ [event] } after := by
  refine ⟨?_, serves⟩
  rw [follow_append, follows.1, Option.bind_some, event_follows]

theorem startLoading_idle {loader : LoaderThread} (idle : loader.Idle) (loadable : LoadableId)
    (callback : LoadDoneCallback) (threadStarts posts : Bool) :
    ((loader.startLoading loadable callback threadStarts posts).1 = true ∧
      (loader.startLoading loadable callback threadStarts posts).2.Busy ⟨loadable, callback, false⟩) ∨
    ((loader.startLoading loadable callback threadStarts posts).1 = false ∧
      (loader.startLoading loadable callback threadStarts posts).2.Idle) := by
  obtain ⟨loading, runs, inside, dones⟩ := idle
  cases available : loader.started || threadStarts with
  | false =>
    refine .inr ⟨?_, ?_⟩
    · simp [LoaderThread.startLoading, available]
    · exact ⟨by simp [LoaderThread.startLoading, available, loading],
        by simp [LoaderThread.startLoading, available, runs],
        by simp [LoaderThread.startLoading, available, inside],
        by simp [LoaderThread.startLoading, available, dones]⟩
  | true =>
    refine .inl ⟨?_, ?_⟩
    · cases posts <;> simp [LoaderThread.startLoading, available, loading]
    · cases posts <;> simp only [LoaderThread.startLoading, available, loading] <;>
        exact ⟨rfl, rfl, rfl, rfl, by simp [runs, inside, dones], nofun⟩

theorem startLoading_busy {loader : LoaderThread} {load : Outstanding} (busy : loader.Busy load)
    (loadable : LoadableId) (callback : LoadDoneCallback) (threadStarts posts : Bool) :
    loader.startLoading loadable callback threadStarts posts = (false, loader) := by
  obtain ⟨loading, started, -⟩ := busy
  have same : { loader with loading := true, started := true } = loader := by
    cases loader
    simp only at loading started
    rw [loading, started]
  simp only [LoaderThread.startLoading, started, Bool.true_or, loading, same, Bool.not_true,
    Bool.false_eq_true, if_true, if_false]

theorem apply_idle (follows : world.Follows none) {op : LoaderOp} (enabled : world.Enabled op) :
    ∃ next load, world.apply op = .ok next ∧ next.Follows load := by
  have idle : world.loader.Idle := follows.2
  have ⟨loading, runs, inside, dones⟩ := idle
  cases op with
  | startLoading loadable callback threadStarts posts =>
    cases started : world.loader.startLoading loadable callback threadStarts posts with
    | mk accepted loader =>
      have cases := startLoading_idle idle loadable callback threadStarts posts
      simp only [started] at cases
      rcases cases with ⟨rfl, busy⟩ | ⟨rfl, idleNext⟩
      · refine ⟨{ loader, log := world.log ++ [.accepted loadable callback] },
          some ⟨loadable, callback, false⟩, ?_, follows.extend rfl busy⟩
        simp only [apply, started]
      · refine ⟨{ loader, log := world.log ++ [.refused] }, none, ?_, follows.extend rfl idleNext⟩
        simp only [apply, started]
  | isLoading =>
    refine ⟨_, none, rfl, follows.extend ?_ idle⟩
    simp [follow, LoaderThread.isLoading, loading]
  | cancelLoading =>
    refine ⟨{ world with log := world.log ++ [.cancelRequested] }, none, ?_, follows.extend rfl idle⟩
    simp [apply, LoaderThread.cancelLoading, loading, bind, Except.bind]
  | cancelElsewhere loadable => exact ⟨_, none, rfl, follows.1, ⟨loading, runs, inside, dones⟩⟩
  | runLoad =>
    simp only [Enabled, runs] at enabled
    omega
  | loadReturns result => simp [Enabled, inside] at enabled
  | doneLoad =>
    simp only [Enabled, dones] at enabled
    omega

-- Every step but DoneLoad keeps the load outstanding, and each background step brings it closer.
theorem apply_busy {load : Outstanding} (follows : world.Follows (some load)) {op : LoaderOp}
    (enabled : world.Enabled op) (unfinished : op ≠ .doneLoad) :
    ∃ next after, world.apply op = .ok next ∧ next.Follows (some after) ∧
      next.loader.rank + op.isBackground.toNat ≤ world.loader.rank := by
  have busy : world.loader.Busy load := follows.2
  have ⟨loading, started, loadable, callback, task, canceled⟩ := busy
  cases op with
  | startLoading loadable callback threadStarts posts =>
    refine ⟨{ world with log := world.log ++ [.refused] }, load, ?_, follows.extend rfl busy, ?_⟩
    · simp [apply, startLoading_busy busy]
    · exact Nat.le_refl _
  | isLoading =>
    refine ⟨_, load, rfl, follows.extend ?_ busy, Nat.le_refl _⟩
    simp [follow, LoaderThread.isLoading, loading]
  | cancelLoading =>
    refine ⟨{ loader := world.loader.cancelLoad load.loadable
              log := world.log ++ [.cancelRequested] }, { load with cancelRequested := true }, ?_,
      follows.extend rfl ⟨loading, started, loadable, callback, task, ?_⟩, Nat.le_refl _⟩
    · simp [apply, LoaderThread.cancelLoading, loading, loadable, bind, Except.bind]
    · intro _
      simp [LoaderThread.cancelLoad]
  | cancelElsewhere other =>
    refine ⟨_, load, rfl, ⟨follows.1, loading, started, loadable, callback, task, ?_⟩, Nat.le_refl _⟩
    intro requested
    by_cases same : load.loadable = other <;>
      simp [LoaderThread.cancelLoad, same, canceled requested]
  | runLoad =>
    obtain ⟨posted, outside⟩ := enabled
    have one : world.loader.postedRuns = 1 ∧ world.loader.postedDones = 0 := by
      rw [outside, Bool.toNat_false] at task
      omega
    cases stopped : world.loader.canceled load.loadable with
    | true =>
      refine ⟨{ world with loader := { world.loader with
        postedRuns := world.loader.postedRuns - 1
        loadableOutcome := .loadCanceled
        postedDones := world.loader.postedDones + 1 } }, load, ?_,
        ⟨follows.1, loading, started, loadable, callback, ?_, canceled⟩, ?_⟩
      · simp [apply, LoaderThread.runLoad, loadable, LoaderThread.isLoadCanceled, stopped, bind,
          Except.bind]
      · simp [one, outside]
      · simp [LoaderThread.rank, LoaderOp.isBackground, one, outside]
    | false =>
      refine ⟨{ world with loader := { world.loader with
        postedRuns := world.loader.postedRuns - 1
        insideLoad := true } }, load, ?_,
        ⟨follows.1, loading, started, loadable, callback, ?_, canceled⟩, ?_⟩
      · simp [apply, LoaderThread.runLoad, loadable, LoaderThread.isLoadCanceled, stopped, bind,
          Except.bind]
      · simp [one]
      · simp [LoaderThread.rank, LoaderOp.isBackground, one, outside]
  | loadReturns result =>
    have inside : world.loader.insideLoad = true := enabled
    rw [inside, Bool.toNat_true] at task
    refine ⟨{ world with loader := { world.loader with
      insideLoad := false
      loadableOutcome :=
        if world.loader.isLoadCanceled load.loadable then .loadCanceled
        else if result then .loadComplete
        else .loadError
      postedDones := world.loader.postedDones + 1 } }, load, ?_,
      ⟨follows.1, loading, started, loadable, callback, ?_, canceled⟩, ?_⟩
    · simp only [apply, LoaderThread.loadReturns, loadable, bind, Except.bind]
    · simp only [Bool.toNat_false]
      omega
    · simp only [LoaderThread.rank, LoaderOp.isBackground, inside, Bool.toNat_false, Bool.toNat_true]
      omega
  | doneLoad => exact absurd rfl unfinished

theorem doneLoad_reports {load : Outstanding} (follows : world.Follows (some load))
    (enabled : world.Enabled .doneLoad) :
    ∃ next, world.apply .doneLoad = .ok next ∧ next.Follows none := by
  have busy : world.loader.Busy load := follows.2
  obtain ⟨loading, started, loadable, callback, task, canceled⟩ := busy
  have posted : 0 < world.loader.postedDones := enabled
  have outside : world.loader.insideLoad = false := by
    cases inside : world.loader.insideLoad with
    | false => rfl
    | true =>
      rw [inside, Bool.toNat_true] at task
      omega
  rw [outside, Bool.toNat_false] at task
  refine ⟨{ loader := { world.loader with
              loading := false
              currentLoadable := none
              callback := none
              loadableOutcome := .loadError
              postedDones := world.loader.postedDones - 1 }
            log := world.log ++ [.reported load.loadable load.callback
              (if world.loader.canceled load.loadable then .loadCanceled
                else world.loader.loadableOutcome)] }, ?_,
    follows.extend ?_ ⟨rfl, ?_, outside, ?_⟩⟩
  · simp only [apply, LoaderThread.doneLoad, loadable, callback, LoaderThread.isLoadCanceled, bind,
      Except.bind]
    rfl
  · have honoured : load.cancelRequested = true →
        (if world.loader.canceled load.loadable = true then LoaderOutcome.loadCanceled
          else world.loader.loadableOutcome) = .loadCanceled := by
      intro requested
      rw [if_pos (canceled requested)]
    simp only [follow, true_and]
    rw [if_pos honoured]
  · simp only
    omega
  · simp only
    omega

theorem apply_follows {load : Option Outstanding} (follows : world.Follows load) {op : LoaderOp}
    (enabled : world.Enabled op) : ∃ next after, world.apply op = .ok next ∧ next.Follows after := by
  cases load with
  | none => exact apply_idle follows enabled
  | some load =>
    by_cases finished : op = .doneLoad
    · subst finished
      obtain ⟨next, applied, after⟩ := doneLoad_reports follows enabled
      exact ⟨next, none, applied, after⟩
    · obtain ⟨next, after, applied, followsNext, -⟩ := apply_busy follows enabled finished
      exact ⟨next, some after, applied, followsNext⟩

theorem background_enabled {load : Outstanding} (follows : world.Follows (some load)) :
    ∃ op next, op.isBackground = true ∧ loaderSystem.Step world op next := by
  have busy : world.loader.Busy load := follows.2
  have task := busy.task
  have ready (op : LoaderOp) (background : op.isBackground = true) (enabled : world.Enabled op) :
      ∃ op next, op.isBackground = true ∧ loaderSystem.Step world op next := by
    obtain ⟨next, after, applied, -⟩ := apply_follows follows enabled
    exact ⟨op, next, background, enabled, applied⟩
  cases inside : world.loader.insideLoad with
  | true => exact ready (.loadReturns true) rfl inside
  | false =>
    rw [inside, Bool.toNat_false] at task
    by_cases posted : 0 < world.loader.postedRuns
    · exact ready .runLoad rfl ⟨posted, inside⟩
    · exact ready .doneLoad rfl (show 0 < world.loader.postedDones by omega)

theorem run_without_done {load : Outstanding} {ops : List LoaderOp} {final : LoaderWorld}
    (run : Run loaderSystem world ops final) (follows : world.Follows (some load))
    (unfinished : .doneLoad ∉ ops) :
    ops.countP LoaderOp.isBackground + final.loader.rank ≤ world.loader.rank ∧
      ∃ after, final.Follows (some after) := by
  induction run generalizing load with
  | nil => exact ⟨by simp, load, follows⟩
  | cons step rest ih =>
    obtain ⟨enabled, applied⟩ := step
    obtain ⟨next, after, again, followsNext, closer⟩ :=
      apply_busy follows enabled (fun same => unfinished (by simp [same]))
    rw [applied] at again
    cases again
    obtain ⟨count, last⟩ := ih followsNext (fun member => unfinished (by simp [member]))
    refine ⟨?_, last⟩
    rw [List.countP_cons]
    split
    next background =>
      rw [background, Bool.toNat_true] at closer
      omega
    next => omega

end LoaderWorld

theorem loaderSystem_follows {world : LoaderWorld} (reachable : Reachable loaderSystem world) :
    ∃ load, world.Follows load := by
  refine Reachable.invariant (fun world => ∃ load, world.Follows load) ?_ ?_ reachable
  · rintro _ ⟨canceled, rfl⟩
    exact ⟨none, rfl, ⟨rfl, rfl, rfl, rfl⟩⟩
  · rintro world op next ⟨load, follows⟩ ⟨enabled, applied⟩
    obtain ⟨reached, after, again, followsNext⟩ := LoaderWorld.apply_follows follows enabled
    rw [applied] at again
    cases again
    exact ⟨after, followsNext⟩

structure LoaderWorld.Honest (world : LoaderWorld) : Prop where
  protocol : ∃ load, follow none world.log = some load ∧ load.isSome = world.loader.isLoading
  defined : ∀ op, world.Enabled op → ∃ next, loaderSystem.Step world op next
  refuses : world.loader.isLoading = true → ∀ loadable callback threadStarts posts,
    world.loader.startLoading loadable callback threadStarts posts = (false, world.loader)
  proceeds : world.loader.isLoading = true →
    ∃ op next, op.isBackground = true ∧ loaderSystem.Step world op next
  reports : world.loader.isLoading = true → ∀ ops final, Run loaderSystem world ops final →
    3 ≤ ops.countP LoaderOp.isBackground → .doneLoad ∈ ops

theorem loaderThread_reports_once (world : LoaderWorld) (reachable : Reachable loaderSystem world) :
    world.Honest := by
  obtain ⟨load, follows⟩ := loaderSystem_follows reachable
  have outstanding : world.loader.isLoading = true → ∃ load, world.Follows (some load) := by
    intro loading
    cases load with
    | none =>
      have idle : world.loader.Idle := follows.2
      have stopped : world.loader.loading = true := loading
      simp [idle.loading] at stopped
    | some load => exact ⟨load, follows⟩
  refine ⟨⟨load, follows.1, ?_⟩, ?_, ?_, ?_, ?_⟩
  · cases load with
    | none =>
      have idle : world.loader.Idle := follows.2
      exact idle.loading.symm
    | some load =>
      have busy : world.loader.Busy load := follows.2
      exact busy.loading.symm
  · intro op enabled
    obtain ⟨next, after, applied, -⟩ := LoaderWorld.apply_follows follows enabled
    exact ⟨next, enabled, applied⟩
  · intro loading loadable callback threadStarts posts
    obtain ⟨load, followsLoad⟩ := outstanding loading
    exact LoaderWorld.startLoading_busy followsLoad.2 loadable callback threadStarts posts
  · intro loading
    obtain ⟨load, followsLoad⟩ := outstanding loading
    exact LoaderWorld.background_enabled followsLoad
  · intro loading ops final run steps
    obtain ⟨load, followsLoad⟩ := outstanding loading
    by_contra unfinished
    obtain ⟨count, after, followsFinal⟩ := LoaderWorld.run_without_done run followsLoad unfinished
    have started : world.loader.Busy load := followsLoad.2
    have ended : final.loader.Busy after := followsFinal.2
    have first := started.task
    have last := ended.task
    simp only [LoaderThread.rank] at count
    omega

-- The cancel comes between the successful return of Load and DoneLoad.
theorem loaderThread_reports_late_cancel :
    ∃ world : LoaderWorld,
      world.log = [.accepted 7 1, .refused, .cancelRequested, .reported 7 1 .loadCanceled] ∧
      world.Honest := by
  have first := Reachable.start loaderSystem ⟨fun _ => false, rfl⟩
  have second := first.next (.startLoading 7 1 true true) ⟨trivial, rfl⟩
  have third := second.next .runLoad ⟨⟨Nat.zero_lt_one, rfl⟩, rfl⟩
  have fourth := third.next (.startLoading 8 2 true true) ⟨trivial, rfl⟩
  have fifth := fourth.next (.loadReturns true) ⟨rfl, rfl⟩
  have sixth := fifth.next .cancelLoading ⟨trivial, rfl⟩
  have seventh := sixth.next .doneLoad ⟨Nat.zero_lt_one, rfl⟩
  exact ⟨_, rfl, loaderThread_reports_once _ seventh⟩

end NDash.Upstream

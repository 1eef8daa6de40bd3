import NDash.Shared.Machine
import NDash.Chunk.Schedule

set_option autoImplicit false

namespace NDash.Chunk

open Machine

-- A call of the event listener; what else it passes on is read off the chunk.
inductive LoadNotice
  | started (chunk : Chunk)
  | completed (chunk : Chunk)
  | canceled (chunk : Chunk)
  | error (reason : ChunkLoadErrorReason)
deriving DecidableEq, Repr

structure LoadView where
  loader : Option Loading := none
  backedOff : Bool := false
  held : Option Chunk := none
  made : Nat := 0
deriving DecidableEq, Repr

def Schedule.loadView (schedule : Schedule) : LoadView :=
  { loader := schedule.loader
    backedOff := schedule.backedOff
    held := schedule.loadable
    made := schedule.observed.chunksMade }

inductive LoadAction
  | choose (chunk : Option Chunk)
  | start (chunk : Chunk)
  | stop
  | complete (chunk : Chunk)
  | cancel (chunk : Chunk)
  | fail
  | resume
  | giveUp (chunk : Chunk)
  | abandon
deriving DecidableEq, Repr

namespace LoadAction

-- A backed off load that is resumed or dropped with its queue is not spoken of.
def notices : LoadAction → List LoadNotice
  | .choose _ | .stop | .resume | .abandon => []
  | .start chunk => [.started chunk]
  | .complete chunk => [.completed chunk]
  | .cancel chunk | .giveUp chunk => [.canceled chunk]
  | .fail => [.error .genericError]

-- What a source does by itself with no load running.
def Own : LoadAction → Prop
  | .choose _ | .start _ | .resume | .giveUp _ | .abandon => True
  | .stop | .complete _ | .cancel _ | .fail => False

end LoadAction

namespace LoadView

def Idle (view : LoadView) : Prop := view.loader = none ∧ view.backedOff = false

inductive Step : LoadView → LoadAction → LoadView → Prop
  | clear {view : LoadView} : view.Idle → Step view (.choose none) { view with held := none }
  | choose {view : LoadView} {chunk : Chunk} :
      view.Idle → chunk.id = view.made →
      Step view (.choose (some chunk)) { view with held := some chunk, made := view.made + 1 }
  | start {view : LoadView} {chunk : Chunk} :
      view.Idle → view.held = some chunk →
      Step view (.start chunk) { view with loader := some { chunk } }
  | stop {view : LoadView} {loading : Loading} :
      view.loader = some loading →
      Step view .stop { view with loader := some { loading with canceled := true } }
  | complete {view : LoadView} {chunk : Chunk} :
      view.loader = some { chunk } → view.backedOff = false → view.held = some chunk →
      Step view (.complete chunk) { view with loader := none, held := none }
  | cancel {view : LoadView} {chunk : Chunk} :
      view.loader = some { chunk, canceled := true } → view.backedOff = false →
      view.held = some chunk → Step view (.cancel chunk) { view with loader := none, held := none }
  | fail {view : LoadView} {chunk : Chunk} :
      view.loader = some { chunk } → view.held = some chunk →
      Step view .fail { view with loader := none, backedOff := true }
  | resume {view : LoadView} {chunk : Chunk} :
      view.loader = none → view.backedOff = true → view.held = some chunk →
      Step view .resume { view with loader := some { chunk }, backedOff := false }
  | giveUp {view : LoadView} {chunk : Chunk} :
      view.loader = none → view.backedOff = true → view.held = some chunk →
      Step view (.giveUp chunk) { view with backedOff := false, held := none }
  | abandon {view : LoadView} :
      view.loader = none → view.backedOff = true →
      Step view .abandon { view with backedOff := false, held := none }

end LoadView

def loadProtocol : System LoadView LoadAction where
  Start view := view = {}
  Step := LoadView.Step

structure LoadView.Moved (view next : LoadView) : Prop where
  waits : view.loader.isSome = true → next = view
  starts : view.loader = none → ∀ loading, next.loader = some loading →
    loading.canceled = false ∧ next.held = some loading.chunk
  made : view.made ≤ next.made
  held : ∀ chunk, next.held = some chunk → view.held = some chunk ∨ view.made ≤ chunk.id

theorem LoadView.step_moved {view next : LoadView} {action : LoadAction}
    (step : view.Step action next) (own : action.Own) : view.loader = none ∧ view.Moved next := by
  cases step with
  | clear idle =>
    exact ⟨idle.1, by simp [idle.1], by simp [idle.1], Nat.le_refl _, by simp⟩
  | choose idle new =>
    refine ⟨idle.1, by simp [idle.1], by simp [idle.1], Nat.le_succ _, ?_⟩
    rintro _ ⟨⟩
    exact .inr (Nat.le_of_eq new.symm)
  | start idle held =>
    refine ⟨idle.1, by simp [idle.1], ?_, Nat.le_refl _, fun _ same => .inl same⟩
    rintro - _ ⟨⟩
    exact ⟨rfl, held⟩
  | resume unloaded _ held =>
    refine ⟨unloaded, by simp [unloaded], ?_, Nat.le_refl _, fun _ same => .inl same⟩
    rintro - _ ⟨⟩
    exact ⟨rfl, held⟩
  | giveUp unloaded =>
    exact ⟨unloaded, by simp [unloaded], by simp [unloaded], Nat.le_refl _, by simp⟩
  | abandon unloaded =>
    exact ⟨unloaded, by simp [unloaded], by simp [unloaded], Nat.le_refl _, by simp⟩
  | stop | complete | cancel | fail => exact own.elim

theorem LoadView.run_moved {view next : LoadView} {actions : List LoadAction}
    (run : Run loadProtocol view actions next) (own : ∀ action ∈ actions, action.Own) :
    view.Moved next := by
  induction run with
  | nil view =>
    exact ⟨fun _ => rfl, fun unloaded _ running => by simp [unloaded] at running, Nat.le_refl _,
      fun _ held => .inl held⟩
  | @cons view middle final action actions step _ ih =>
    have later := ih fun action member => own action (List.mem_cons_of_mem _ member)
    obtain ⟨unloaded, moved⟩ := step_moved step (own _ List.mem_cons_self)
    refine ⟨by simp [unloaded], ?_, Nat.le_trans moved.made later.made, ?_⟩
    · intro _ loading running
      rcases Option.eq_none_or_eq_some middle.loader with idle | ⟨first, loads⟩
      · exact later.starts idle loading running
      · have same := later.waits (by simp [loads])
        rw [same] at running ⊢
        exact moved.starts unloaded loading running
    · intro chunk held
      rcases later.held chunk held with before | new
      · exact moved.held chunk before
      · exact .inr (Nat.le_trans moved.made new)

inductive LoadEnding
  | running
  | completed
  | canceled
  | abandoned
deriving DecidableEq, Repr

structure LoadReport where
  chunk : Chunk
  errors : Nat := 0
  ending : LoadEnding := .running
deriving DecidableEq, Repr

namespace LoadReport

def lastWords (report : LoadReport) : List LoadNotice :=
  match report.ending with
  | .completed => [.completed report.chunk]
  | .canceled => [.canceled report.chunk]
  | .running | .abandoned => []

def notices (report : LoadReport) : List LoadNotice :=
  .started report.chunk ::
    (List.replicate report.errors (.error .genericError) ++ report.lastWords)

def revise (change : LoadReport → LoadReport) (reports : List LoadReport) : List LoadReport :=
  match reports.getLast? with
  | none => reports
  | some last => reports.dropLast ++ [change last]

@[simp]
theorem revise_append (change : LoadReport → LoadReport) (earlier : List LoadReport)
    (last : LoadReport) : revise change (earlier ++ [last]) = earlier ++ [change last] := by
  simp [revise]

-- The reports of a course of loads; what is not spoken of is in them too.
def extend (reports : List LoadReport) : LoadAction → List LoadReport
  | .choose _ | .stop | .resume => reports
  | .start chunk => reports ++ [{ chunk }]
  | .complete _ => revise (fun report => { report with ending := .completed }) reports
  | .cancel _ | .giveUp _ => revise (fun report => { report with ending := .canceled }) reports
  | .fail => revise (fun report => { report with errors := report.errors + 1 }) reports
  | .abandon => revise (fun report => { report with ending := .abandoned }) reports

-- No load runs: every one that was started has ended, and the chunk held is younger than theirs.
structure Settled (made : Nat) (held : Option Chunk) (reports : List LoadReport) : Prop where
  ordered : reports.Pairwise fun earlier later => earlier.chunk.id < later.chunk.id
  ended : ∀ report ∈ reports, report.ending ≠ .running
  failed : ∀ report ∈ reports, report.ending = .abandoned → 0 < report.errors
  known : ∀ report ∈ reports, report.chunk.id < made
  unheld : ∀ chunk, held = some chunk →
    chunk.id < made ∧ ∀ report ∈ reports, report.chunk.id < chunk.id

namespace Settled

variable {made : Nat} {held : Option Chunk} {reports : List LoadReport}

theorem choose_none (settled : Settled made held reports) : Settled made none reports :=
  { settled with unheld := by simp }

theorem choose_new (settled : Settled made held reports) {chunk : Chunk} (new : chunk.id = made) :
    Settled (made + 1) (some chunk) reports :=
  { settled with
    known := fun report member => Nat.lt_succ_of_lt (settled.known report member)
    unheld := by
      rintro _ ⟨⟩
      rw [new]
      exact ⟨Nat.lt_succ_self made, settled.known⟩ }

theorem append_ended {report : LoadReport} (settled : Settled made (some report.chunk) reports)
    (ended : report.ending ≠ .running) (failed : report.ending = .abandoned → 0 < report.errors) :
    Settled made none (reports ++ [report]) := by
  obtain ⟨madeBefore, younger⟩ := settled.unheld report.chunk rfl
  refine ⟨?_, ?_, ?_, ?_, by simp⟩
  · refine List.pairwise_append.mpr ⟨settled.ordered, List.pairwise_singleton _ _, ?_⟩
    intro earlier member last same
    cases List.mem_singleton.mp same
    exact younger earlier member
  · intro candidate member
    rcases List.mem_append.mp member with earlier | same
    · exact settled.ended candidate earlier
    · cases List.mem_singleton.mp same
      exact ended
  · intro candidate member
    rcases List.mem_append.mp member with earlier | same
    · exact settled.failed candidate earlier
    · cases List.mem_singleton.mp same
      exact failed
  · intro candidate member
    rcases List.mem_append.mp member with earlier | same
    · exact settled.known candidate earlier
    · cases List.mem_singleton.mp same
      exact madeBefore

end Settled

-- The last report is of the load that runs or is backed off, if there is one.
inductive Reported : LoadView → List LoadReport → Prop
  | idle {view : LoadView} {reports : List LoadReport} :
      view.Idle → Settled view.made view.held reports → Reported view reports
  | busy {view : LoadView} {earlier : List LoadReport} {chunk : Chunk} {errors : Nat} :
      (view.loader.isSome = true ∨ view.backedOff = true) → view.held = some chunk →
      (view.backedOff = true → 0 < errors) → Settled view.made (some chunk) earlier →
      Reported view (earlier ++ [LoadReport.mk chunk errors .running])

def spoken (reports : List LoadReport) : List LoadNotice := reports.flatMap LoadReport.notices

@[simp]
theorem spoken_append (earlier later : List LoadReport) :
    spoken (earlier ++ later) = spoken earlier ++ spoken later := by
  simp [spoken]

@[simp]
theorem spoken_one (report : LoadReport) : spoken [report] = report.notices := by
  simp [spoken]

def abandonedLoads (reports : List LoadReport) : Nat :=
  reports.countP fun report => report.ending = .abandoned

@[simp]
theorem abandonedLoads_append (earlier later : List LoadReport) :
    abandonedLoads (earlier ++ later) = abandonedLoads earlier + abandonedLoads later := by
  simp [abandonedLoads]

@[simp]
theorem abandonedLoads_one (report : LoadReport) :
    abandonedLoads [report] = if report.ending = .abandoned then 1 else 0 := by
  simp [abandonedLoads, List.countP_cons]

namespace Reported

variable {view next : LoadView} {reports : List LoadReport} {action : LoadAction}

theorem settled (reported : Reported view reports) (idle : view.Idle) :
    Settled view.made view.held reports := by
  cases reported with
  | idle _ settled => exact settled
  | busy busy => simp [idle.1, idle.2] at busy

theorem current (reported : Reported view reports)
    (busy : view.loader.isSome = true ∨ view.backedOff = true) :
    ∃ earlier chunk errors, reports = earlier ++ [LoadReport.mk chunk errors .running] ∧ view.held = some chunk ∧
      (view.backedOff = true → 0 < errors) ∧ Settled view.made (some chunk) earlier := by
  cases reported with
  | idle idle => simp [idle.1, idle.2] at busy
  | busy _ held failed settled => exact ⟨_, _, _, rfl, held, failed, settled⟩

/-- A step keeps the reports in order, and speaks of what it adds to them. -/
theorem step (reported : Reported view reports) (step : view.Step action next) :
    Reported next (extend reports action) ∧
      spoken (extend reports action) = spoken reports ++ action.notices ∧
      abandonedLoads (extend reports action) =
        abandonedLoads reports + if action = .abandon then 1 else 0 := by
  cases step with
  | clear idle =>
    exact ⟨.idle idle (reported.settled idle).choose_none, by simp [extend,
      LoadAction.notices], by simp [extend]⟩
  | choose idle new =>
    exact ⟨.idle idle ((reported.settled idle).choose_new new), by simp [extend,
      LoadAction.notices], by simp [extend]⟩
  | start idle held =>
    have settled := reported.settled idle
    rw [held] at settled
    refine ⟨.busy (.inl rfl) held ?_ settled, ?_, by simp [extend]⟩
    · simp [idle.2]
    · simp [extend, LoadAction.notices, LoadReport.notices, LoadReport.lastWords]
  | stop running =>
    obtain ⟨earlier, chunk, errors, rfl, held, failed, settled⟩ :=
      reported.current (.inl (by simp [running]))
    exact ⟨.busy (.inl rfl) held failed settled, by simp [extend, LoadAction.notices],
      by simp [extend]⟩
  | complete running steady held =>
    obtain ⟨earlier, chunk, errors, rfl, same, -, settled⟩ :=
      reported.current (.inl (by simp [running]))
    cases held.symm.trans same
    refine ⟨?_, ?_, ?_⟩
    · simp only [extend, revise_append]
      exact .idle ⟨rfl, steady⟩ (settled.append_ended (by simp) (by simp))
    · simp [extend, LoadAction.notices, LoadReport.notices, LoadReport.lastWords]
    · simp [extend]
  | cancel running steady held =>
    obtain ⟨earlier, chunk, errors, rfl, same, -, settled⟩ :=
      reported.current (.inl (by simp [running]))
    cases held.symm.trans same
    refine ⟨?_, ?_, ?_⟩
    · simp only [extend, revise_append]
      exact .idle ⟨rfl, steady⟩ (settled.append_ended (by simp) (by simp))
    · simp [extend, LoadAction.notices, LoadReport.notices, LoadReport.lastWords]
    · simp [extend]
  | fail running =>
    obtain ⟨earlier, chunk, errors, rfl, held, -, settled⟩ :=
      reported.current (.inl (by simp [running]))
    refine ⟨?_, ?_, ?_⟩
    · simp only [extend, revise_append]
      exact .busy (.inr rfl) held (fun _ => Nat.succ_pos errors) settled
    · simp [extend, LoadAction.notices, LoadReport.notices, LoadReport.lastWords,
        List.replicate_succ']
    · simp [extend]
  | resume _ backedOff =>
    obtain ⟨earlier, chunk, errors, rfl, held, failed, settled⟩ := reported.current (.inr backedOff)
    exact ⟨.busy (.inl rfl) held (by simp) settled, by simp [extend,
      LoadAction.notices], by simp [extend]⟩
  | giveUp unloaded backedOff held =>
    obtain ⟨earlier, chunk, errors, rfl, same, -, settled⟩ := reported.current (.inr backedOff)
    cases held.symm.trans same
    refine ⟨?_, ?_, ?_⟩
    · simp only [extend, revise_append]
      exact .idle ⟨unloaded, rfl⟩ (settled.append_ended (by simp) (by simp))
    · simp [extend, LoadAction.notices, LoadReport.notices, LoadReport.lastWords]
    · simp [extend]
  | abandon unloaded backedOff =>
    obtain ⟨earlier, chunk, errors, rfl, -, failed, settled⟩ := reported.current (.inr backedOff)
    refine ⟨?_, ?_, ?_⟩
    · simp only [extend, revise_append]
      exact .idle ⟨unloaded, rfl⟩ (settled.append_ended (by simp) fun _ => failed backedOff)
    · simp [extend, LoadAction.notices, LoadReport.notices, LoadReport.lastWords]
    · simp [extend]

/-- What holds of a step holds of a course of loads. -/
theorem run {actions : List LoadAction} (reported : Reported view reports)
    (run : Run loadProtocol view actions next) :
    ∃ after, Reported next after ∧
      spoken after = spoken reports ++ actions.flatMap LoadAction.notices ∧
      abandonedLoads after = abandonedLoads reports + actions.count .abandon := by
  induction run generalizing reports with
  | nil => exact ⟨reports, reported, by simp, by simp⟩
  | @cons view middle final action actions step _ ih =>
    obtain ⟨middle, said, abandoned⟩ := reported.step step
    obtain ⟨after, final, saidAfter, abandonedAfter⟩ := ih middle
    refine ⟨after, final, ?_, ?_⟩
    · rw [saidAfter, said, List.flatMap_cons, List.append_assoc]
    · rw [abandonedAfter, abandoned, List.count_cons]
      by_cases same : action = .abandon
      · simp [same]
        omega
      · simp [same]

end Reported

end LoadReport

end NDash.Chunk

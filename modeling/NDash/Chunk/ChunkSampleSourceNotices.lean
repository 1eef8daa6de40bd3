import NDash.Chunk.LoadProtocol
import NDash.Chunk.ChunkSampleSourceRuns

set_option autoImplicit false

namespace NDash.Chunk

open Extractor Outcome Machine

def afterwards {α : Type} (result : Except SourceFault α) (notices : α → List LoadNotice) :
    List LoadNotice :=
  match result with
  | .ok value => notices value
  | .error _ => []

theorem afterwards_ok {α : Type} {result : Except SourceFault α} {value : α}
    (returned : result = .ok value) (notices : α → List LoadNotice) :
    afterwards result notices = notices value := by
  rw [returned, afterwards]

namespace ChunkSampleSource

/-! The notices of each call, along the branches of the call itself. -/

def maybeStartLoadingNotices (source : ChunkSampleSource) : List LoadNotice :=
  match source.currentLoadableHolder.chunk with
  | none => []
  | some current =>
    if current.isMediaChunk then
      match source.currentLoadableHolder.takeChunk.1 with
      | none => []
      | some taken => [.started taken]
    else [.started current]

def resumeOtherChunkNotices (env : Environment) (source : ChunkSampleSource)
    (backedOffChunk : Chunk) : List LoadNotice :=
  let source := source.doChunkOperation env none
  afterwards (source.discardUpstreamMediaChunks source.currentLoadableHolder.queueSize)
    fun (_, source) =>
      if source.holdsChunk backedOffChunk then []
      else
        .canceled backedOffChunk ::
          (source.dereference none backedOffChunk).maybeStartLoadingNotices

def resumeMediaChunkNotices (env : Environment) (source : ChunkSampleSource)
    (backedOffChunk : Chunk) : List LoadNotice :=
  match source.mediaChunks.head?, source.mediaChunks.getLast? with
  | some front, some removedChunk =>
    if backedOffChunk.id = front.chunk.id then []
    else
      let source := source.doChunkOperationWithout env removedChunk
      if source.holdsChunk backedOffChunk then []
      else
        let source := source.dereference none backedOffChunk
        .canceled backedOffChunk ::
          afterwards (source.discardUpstreamMediaChunks source.currentLoadableHolder.queueSize)
            fun (_, source) => source.clearCurrentLoadableException.maybeStartLoadingNotices
  | _, _ => []

def resumeFromBackOffNotices (env : Environment) (source : ChunkSampleSource) : List LoadNotice :=
  let source := { source with currentLoadableErrorReason := .noError }
  match source.currentLoadableHolder.chunk with
  | none => []
  | some backedOffChunk =>
    let source := source.dereference none backedOffChunk
    if backedOffChunk.isMediaChunk then source.resumeMediaChunkNotices env backedOffChunk
    else source.resumeOtherChunkNotices env backedOffChunk

def updateLoadControlNotices (env : Environment) (source : ChunkSampleSource) : List LoadNotice :=
  if source.currentLoadableErrorReason ≠ .noError then
    if env.now - source.currentLoadableErrorTimestamp ≥
        getRetryDelayMillis source.currentLoadableErrorCount then
      source.resumeFromBackOffNotices env
    else []
  else if source.isLoading then []
  else
    afterwards (source.evaluateOperation env) fun (nextLoadPositionUs, source) =>
      if env.update source.downstreamPositionUs nextLoadPositionUs false then
        source.maybeStartLoadingNotices
      else []

def restartFromNotices (env : Environment) (positionUs : Int) (source : ChunkSampleSource) :
    List LoadNotice :=
  if source.isLoading then []
  else
    afterwards (source.awaiting positionUs).resetQueues fun source =>
      source.updateLoadControlNotices env

def enableNotices (env : Environment) (positionUs : Int) (source : ChunkSampleSource) :
    List LoadNotice :=
  ({ source with
    state := .enabled
    downstreamPositionUs := positionUs
    downstreamMediaFormat := none
    lastSeekPositionUs := positionUs
    pendingDiscontinuity := false }.noteSeek positionUs).restartFromNotices env positionUs

def seekToUsNotices (env : Environment) (positionUs : Int) (source : ChunkSampleSource) :
    List LoadNotice :=
  let currentPositionUs :=
    if source.isPendingReset then source.pendingResetPositionUs else source.downstreamPositionUs
  let source := { source with
    downstreamPositionUs := positionUs
    lastSeekPositionUs := positionUs }
  if currentPositionUs = positionUs then []
  else
    afterwards (source.seekInsideBuffer positionUs) fun (inside, source) =>
      if inside then [] else (source.noteSeek positionUs).restartFromNotices env positionUs

def loadCompleteNotices (env : Environment) (outcome : LoaderOutcome)
    (source : ChunkSampleSource) : List LoadNotice :=
  let source := { source with loader := none }
  match source.currentLoadableHolder.chunk with
  | none => []
  | some current =>
    let source := source.dereference none current
    match outcome with
    | .complete => .completed current :: source.clearCurrentLoadable.updateLoadControlNotices env
    | .error timestamp =>
      .error .genericError :: (source.onLoadError timestamp).updateLoadControlNotices env
    | .canceled =>
      let source := source.clearCurrentLoadable
      .canceled current ::
        if source.state = .enabled then
          source.restartFromNotices env source.pendingResetPositionUs
        else []

def notices (source : ChunkSampleSource) : SourceOp → List LoadNotice
  | .enable env positionUs => source.enableNotices env positionUs
  | .continueBuffering env positionUs =>
    { source with downstreamPositionUs := positionUs }.updateLoadControlNotices env
  | .seekToUs env positionUs => source.seekToUsNotices env positionUs
  | .loadComplete env outcome => source.loadCompleteNotices env outcome
  | _ => []

def loadView (source : ChunkSampleSource) : LoadView := source.schedule.loadView

-- Whether the seek goes out of the buffer.
def seekRestarts (positionUs : Int) (source : ChunkSampleSource) : Bool :=
  let currentPositionUs :=
    if source.isPendingReset then source.pendingResetPositionUs else source.downstreamPositionUs
  let source := { source with
    downstreamPositionUs := positionUs
    lastSeekPositionUs := positionUs }
  if currentPositionUs = positionUs then false
  else
    match source.seekInsideBuffer positionUs with
    | .ok (inside, _) => !inside
    | .error _ => false

-- A seek out of the buffer or a disable drops what is backed off together with the queue.
def interruptions (source : ChunkSampleSource) : SourceOp → Nat
  | .seekToUs _ positionUs =>
    if source.seekRestarts positionUs then
      if source.currentLoadableErrorReason = .noError then 0 else 1
    else 0
  | .disableAndClear => if source.currentLoadableErrorReason = .noError then 0 else 1
  | _ => 0

end ChunkSampleSource

def Shows (start : LoadView) (said : List LoadNotice) (interrupted : Nat) (next : LoadView) :
    Prop :=
  ∃ actions, Run loadProtocol start actions next ∧ (∀ action ∈ actions, action.Own) ∧
    actions.flatMap LoadAction.notices = said ∧ actions.count .abandon ≤ interrupted

namespace Shows

theorem refl (view : LoadView) (interrupted : Nat) : Shows view [] interrupted view :=
  ⟨[], .nil view, List.forall_mem_nil _, rfl, Nat.zero_le _⟩

theorem trans {first middle last : LoadView} {said later : List LoadNotice} {before after : Nat}
    (left : Shows first said before middle) (right : Shows middle later after last) :
    Shows first (said ++ later) (before + after) last := by
  obtain ⟨actions, run, own, spoken, few⟩ := left
  obtain ⟨others, rest, ownLater, spokenLater, fewLater⟩ := right
  refine ⟨actions ++ others, run.append rest, List.forall_mem_append.mpr ⟨own, ownLater⟩, ?_, ?_⟩
  · rw [List.flatMap_append, spoken, spokenLater]
  · rw [List.count_append]
    omega

theorem step {view next : LoadView} {action : LoadAction} (step : view.Step action next)
    (own : action.Own) : Shows view action.notices (if action = .abandon then 1 else 0) next := by
  refine ⟨[action], .cons step (.nil next), by simpa using own, by simp, ?_⟩
  rw [List.count_singleton]
  split <;> simp_all

theorem mono {view next : LoadView} {said : List LoadNotice} {few many : Nat}
    (shows : Shows view said few next) (le : few ≤ many) : Shows view said many next := by
  obtain ⟨actions, run, own, spoken, bound⟩ := shows
  exact ⟨actions, run, own, spoken, Nat.le_trans bound le⟩

end Shows

namespace ChunkSampleSource

abbrev anyCalls : Premises := .ofCalls False False False

variable {env : Environment} {source next : ChunkSampleSource}

theorem applyOperation_kept {operation : ChunkOperation} (choice : operation.choice = .keep) :
    (source.applyOperation operation).loadView = source.loadView := by
  simp only [applyOperation, choice]
  rfl

theorem made_shows {schedule : Schedule} {candidate : Option Chunk} {made : Nat}
    (fits : schedule.Made candidate made) {view : LoadView} (idle : view.Idle)
    (same : view.made = schedule.observed.chunksMade) :
    Shows view [] 0 { view with held := candidate, made } := by
  cases candidate with
  | none =>
    rw [fits.trans same.symm]
    exact .step (.clear idle) trivial
  | some chunk =>
    rw [fits.2.1, ← same]
    exact .step (.choose idle (fits.1.trans same.symm)) trivial

theorem applyOperation_replaces (idle : source.loadView.Idle) {operation : ChunkOperation}
    (choice : operation.choice ≠ .keep) (held : Option Chunk) :
    Shows { source.loadView with held } [] 0 (source.applyOperation operation).loadView := by
  obtain ⟨candidate, made, fits, reached⟩ := source.applyOperation_replaced operation choice
  unfold loadView
  rw [reached]
  have shows : Shows { source.loadView with held } [] 0
      { source.loadView with held := candidate, made } := made_shows fits idle rfl
  exact shows

theorem applyOperation_shows (idle : source.loadView.Idle) (operation : ChunkOperation) :
    Shows source.loadView [] 0 (source.applyOperation operation).loadView := by
  by_cases choice : operation.choice = .keep
  · rw [applyOperation_kept choice]
    exact .refl _ 0
  · exact applyOperation_replaces idle choice source.loadView.held

theorem discardUpstreamMediaChunks_ok {queueLength : Int} {discarded : Bool}
    (discards : source.discardUpstreamMediaChunks queueLength = .ok (discarded, next)) :
    next = source ∨ SameCourse source next ∧ ∃ removed queue,
      source.schedule.Cuts anyCalls (retained queueLength) removed queue ∧
        next.schedule =
          source.schedule.discardFrom (retained queueLength) removed.firstSampleIndex queue := by
  have ensured : Ensures (Tolerated anyCalls) (source.discardUpstreamMediaChunks queueLength) _ :=
    discardUpstreamMediaChunks_cuts False.elim False.elim
  exact (ensured.ok discards).imp_left fun unchanged => congrArg Prod.snd unchanged.2

theorem discardUpstreamMediaChunks_view {queueLength : Int} {discarded : Bool}
    (discards : source.discardUpstreamMediaChunks queueLength = .ok (discarded, next)) :
    next.loadView = source.loadView := by
  have cuts := discardUpstreamMediaChunks_ok discards
  rcases cuts with unchanged | ⟨-, removed, queue, -, reached⟩
  · rw [unchanged]
  · unfold loadView
    rw [reached]
    rfl

theorem Idle.view {premises : Premises} (idle : source.Idle premises) :
    source.loadView.Idle := by
  simp [LoadView.Idle, loadView, Schedule.loadView, schedule, idle.unloaded, idle.steady]

theorem doChunkOperation_shows (idle : source.Idle anyCalls) {queueLength : Int} {discarded : Bool}
    (discards : (source.doChunkOperation env none).discardUpstreamMediaChunks queueLength =
      .ok (discarded, next)) :
    Shows source.loadView [] 0 next.loadView := by
  rw [discardUpstreamMediaChunks_view discards]
  simp only [doChunkOperation, consult_eq idle.sound]
  exact applyOperation_shows idle.view _

theorem maybeStartLoadingNotices_none (missing : source.currentLoadableHolder.chunk = none) :
    source.maybeStartLoadingNotices = [] := by
  rw [maybeStartLoadingNotices, missing]

theorem maybeStartLoadingNotices_some {current : Chunk}
    (held : source.currentLoadableHolder.chunk = some current)
    (owned : source.currentLoadableHolder.ownedChunk = some current) :
    source.maybeStartLoadingNotices = [.started current] := by
  rw [maybeStartLoadingNotices, held]
  simp [ChunkOperationHolder.takeChunk, owned]

theorem maybeStartLoading_shows (idle : source.Idle anyCalls)
    (started : source.maybeStartLoading = .ok next) :
    Shows source.loadView source.maybeStartLoadingNotices 0 next.loadView := by
  unfold maybeStartLoading at started
  split at started
  next missing =>
    cases started
    rw [maybeStartLoadingNotices_none missing]
    exact .refl _ 0
  next current held =>
    have owned : source.currentLoadableHolder.ownedChunk = some current :=
      (idle.sound.idle_of idle.unloaded idle.unbacked).symm.trans held
    rw [maybeStartLoadingNotices_some held owned]
    simp only [dereference_owned (owns_loadable idle.sound none held),
      ChunkOperationHolder.takeChunk, owned] at started
    split at started
    next media =>
      cases started
      rw [startLoading_eq]
      · exact .step (.start idle.view held) trivial
      · simp [owns]
      · exact idle.unloaded
    next other =>
      cases started
      rw [startLoading_eq (owns_loadable idle.sound none held) idle.unloaded]
      exact .step (.start idle.view held) trivial

theorem BackedOff.idle {chunk : Chunk} (backedOff : source.BackedOff anyCalls chunk)
    (other : chunk.isMediaChunk = false) :
    Idle anyCalls { source with currentLoadableErrorReason := .noError } := by
  have forgive : Schedule.Step .zero anyCalls source.schedule
      { source with currentLoadableErrorReason := .noError }.schedule := by
    rw [schedule_forgiven]
    exact .forgive backedOff.enabled backedOff.backed backedOff.held other
  exact ⟨forgive.sound backedOff.sound, backedOff.enabled, backedOff.unloaded, rfl⟩

theorem BackedOff.backedOff_view {chunk : Chunk} (backedOff : source.BackedOff anyCalls chunk) :
    source.loadView.loader = none ∧ source.loadView.backedOff = true ∧
      source.loadView.held = some chunk :=
  ⟨backedOff.unloaded, backedOff.backed, backedOff.held⟩

theorem BackedOff.resumes {chunk : Chunk} (backedOff : source.BackedOff anyCalls chunk) :
    Shows source.loadView [] 0
      { source.loadView with loader := some { chunk }, backedOff := false } :=
  .step (.resume backedOff.backedOff_view.1 backedOff.backedOff_view.2.1
    backedOff.backedOff_view.2.2) trivial

theorem BackedOff.givesUp {chunk : Chunk} (backedOff : source.BackedOff anyCalls chunk) :
    Shows source.loadView [.canceled chunk] 0
      { source.loadView with backedOff := false, held := none } :=
  .step (.giveUp backedOff.backedOff_view.1 backedOff.backedOff_view.2.1
    backedOff.backedOff_view.2.2) trivial

theorem resumeOtherChunk_shows {chunk : Chunk} (backedOff : source.BackedOff anyCalls chunk)
    (other : chunk.isMediaChunk = false)
    (resumed : { source with currentLoadableErrorReason := .noError }.resumeOtherChunk env chunk =
      .ok next) :
    Shows source.loadView
      ({ source with currentLoadableErrorReason := .noError }.resumeOtherChunkNotices env chunk) 0
      next.loadView := by
  have idle := backedOff.idle other
  have resumes := backedOff.resumes
  have givesUp := backedOff.givesUp
  have view : { source with currentLoadableErrorReason := .noError }.loadView =
      { source.loadView with backedOff := false } := rfl
  have held : { source with currentLoadableErrorReason := .noError }.currentLoadableHolder.chunk =
      some chunk := backedOff.held
  generalize { source with currentLoadableErrorReason := .noError } = forgiven at *
  obtain ⟨⟨discarded, answered⟩, discards, rest⟩ := bind_ok resumed
  obtain ⟨-, after, holder⟩ :=
    (doChunkOperation_discards .zero idle False.elim False.elim).ok discards
  have kept := forgiven.holdsChunk_applyOperation held (idle.sound.numbered chunk held)
    (forgiven.operation env)
  have same : answered.holdsChunk chunk =
      (forgiven.applyOperation (forgiven.operation env)).holdsChunk chunk := by
    unfold holdsChunk
    rw [holder]
  have answer : answered.loadView =
      (forgiven.applyOperation (forgiven.operation env)).loadView := by
    rw [discardUpstreamMediaChunks_view discards, doChunkOperation, consult_eq idle.sound]
  unfold resumeOtherChunkNotices
  rw [afterwards_ok discards]
  simp only at rest ⊢
  split at rest
  next holds =>
    cases rest
    have choice := kept.mp (same.symm.trans holds)
    have stays := holdsChunk_kept held (forgiven.operation env) choice
    rw [← holder] at stays
    rw [if_pos holds, startLoading_eq (owns_loadable after.sound none stays) after.unloaded]
    have final : { answered with loader := some { chunk } }.loadView =
        { source.loadView with loader := some { chunk }, backedOff := false } := by
      rw [applyOperation_kept choice, view] at answer
      exact congrArg (fun view : LoadView => { view with loader := some { chunk } }) answer
    rw [final]
    exact resumes
  next gone =>
    have choice : (forgiven.operation env).choice ≠ .keep := by
      intro keep
      exact gone (same.trans (kept.mpr keep))
    have touched : Relation.ReflTransGen (Schedule.Step .zero anyCalls) answered.schedule
        (answered.dereference none chunk).schedule := dereference_reaches id answered none chunk
    have starts := maybeStartLoading_shows (after.moved touched rfl rfl rfl) rest
    have chooses := applyOperation_replaces idle.view choice none
    rw [← answer, view] at chooses
    rw [if_neg gone]
    have shows := (givesUp.trans chooses).trans starts
    exact shows

theorem Idle.discarded (idle : source.Idle anyCalls) {queueLength : Int} {discarded : Bool}
    (discards : source.discardUpstreamMediaChunks queueLength = .ok (discarded, next)) :
    next.Idle anyCalls := by
  have cuts := discardUpstreamMediaChunks_ok discards
  rcases cuts with unchanged | ⟨course, removed, queue, cut, reached⟩
  · rw [unchanged]
    exact idle
  · have step : Schedule.Step .zero anyCalls source.schedule next.schedule := by
      rw [reached]
      exact .discard idle.enabled idle.unloaded idle.unbacked cut
    exact idle.moved (.single step) course.state course.loader course.errorReason

theorem clearCurrentLoadableException_schedule
    (steady : source.currentLoadableErrorReason = .noError) :
    source.clearCurrentLoadableException.schedule = source.schedule := by
  simp only [clearCurrentLoadableException, schedule, steady]
  rfl

theorem BackedOff.settled {chunk : Chunk} (backedOff : source.BackedOff anyCalls chunk)
    (media : chunk.isMediaChunk = true) : source.pending = none := by
  cases wanted : source.pending with
  | none => rfl
  | some position =>
    have emptied := backedOff.sound.emptied backedOff.enabled position wanted
      (by simp [schedule, backedOff.unloaded])
    have last := backedOff.last media
    rw [show source.mediaChunks = [] from emptied.1] at last
    cases last

theorem resumeMediaChunk_shows {chunk : Chunk} (backedOff : source.BackedOff anyCalls chunk)
    (media : chunk.isMediaChunk = true)
    (resumed : { source with currentLoadableErrorReason := .noError }.resumeMediaChunk env chunk =
      .ok next) :
    Shows source.loadView
      ({ source with currentLoadableErrorReason := .noError }.resumeMediaChunkNotices env chunk) 0
      next.loadView := by
  obtain ⟨removed, last, same⟩ := Option.map_eq_some_iff.mp (backedOff.last media)
  subst same
  have nonempty : source.mediaChunks ≠ [] := by
    intro empty
    simp [empty] at last
  obtain ⟨front, others, chunks⟩ := List.exists_cons_of_ne_nil nonempty
  have head : source.mediaChunks.head? = some front := by simp [chunks]
  have removable : Removable { source with currentLoadableErrorReason := .noError } removed :=
    ⟨backedOff.held, backedOff.sound.numbered _ backedOff.held, last⟩
  obtain ⟨loader, errorReason, queue, -⟩ := doChunkOperationWithout_same env removable
  have answers := doChunkOperationWithout_answers env removable (backedOff.settled media)
  have member : removed ∈ ({ source with currentLoadableErrorReason := .noError
      }.doChunkOperationWithout env removed).mediaChunks := by
    rw [queue]
    exact List.mem_of_getLast? last
  simp only [resumeMediaChunk, last, head] at resumed
  simp only [resumeMediaChunkNotices, last, head]
  split at resumed
  next first =>
    cases resumed
    rw [if_pos first, startLoading_eq]
    · exact backedOff.resumes
    · exact owns_loadable backedOff.sound none backedOff.held
    · exact backedOff.unloaded
  next other =>
    rw [if_neg other]
    generalize { source with currentLoadableErrorReason := .noError }.doChunkOperationWithout env
      removed = answered at *
    split at resumed
    next holds =>
      cases resumed
      rw [if_pos holds, startLoading_eq (owns_queued member none)
        (loader.trans backedOff.unloaded)]
      rw [if_pos holds] at answers
      have final : { answered with loader := some { chunk := removed.chunk } }.loadView =
          { source.loadView with
            loader := some { chunk := removed.chunk }
            backedOff := false } :=
        congrArg (fun schedule : Schedule => { schedule.loadView with
          loader := some { chunk := removed.chunk } }) answers
      rw [final]
      exact backedOff.resumes
    next gone =>
      rw [if_neg gone] at answers
      obtain ⟨candidate, made, fits, reached⟩ := answers
      rw [dereference_owned (owns_queued member none)] at resumed
      rw [if_neg gone, dereference_owned (owns_queued member none)]
      obtain ⟨⟨discarded, shorter⟩, discards, rest⟩ := bind_ok resumed
      rw [afterwards_ok discards]
      have step : Schedule.Step .zero anyCalls source.schedule answered.schedule := by
        rw [reached]
        exact .abandonMedia id backedOff.enabled backedOff.unloaded backedOff.backed fits
      have idle : answered.Idle anyCalls :=
        ⟨step.sound backedOff.sound, (congrArg Schedule.phase reached).trans backedOff.enabled,
          loader.trans backedOff.unloaded, errorReason⟩
      have after := idle.discarded discards
      have forgiven := clearCurrentLoadableException_schedule after.steady
      have calm : shorter.clearCurrentLoadableException.Idle anyCalls :=
        ⟨forgiven ▸ after.sound, after.enabled, after.unloaded, rfl⟩
      have starts := maybeStartLoading_shows calm rest
      have chooses : Shows { source.loadView with backedOff := false, held := none } [] 0
          shorter.clearCurrentLoadableException.loadView := by
        have view : shorter.clearCurrentLoadableException.loadView =
            { source.loadView with backedOff := false, held := candidate, made } := by
          rw [loadView, forgiven, ← loadView, discardUpstreamMediaChunks_view discards, loadView,
            reached]
          rfl
        rw [view]
        exact made_shows fits ⟨backedOff.backedOff_view.1, rfl⟩ rfl
      have shows := (backedOff.givesUp.trans chooses).trans starts
      exact shows

theorem resumeFromBackOff_shows {chunk : Chunk} (backedOff : source.BackedOff anyCalls chunk)
    (resumed : source.resumeFromBackOff env = .ok next) :
    Shows source.loadView (source.resumeFromBackOffNotices env) 0 next.loadView := by
  have owned : { source with currentLoadableErrorReason := .noError }.owns none chunk = true :=
    owns_loadable backedOff.sound none backedOff.held
  simp only [resumeFromBackOff, backedOff.held, dereference_owned owned] at resumed
  simp only [resumeFromBackOffNotices, backedOff.held, dereference_owned owned]
  split at resumed
  next media =>
    rw [if_pos media]
    exact resumeMediaChunk_shows backedOff media resumed
  next other =>
    rw [if_neg other]
    exact resumeOtherChunk_shows backedOff (by simpa using other) resumed

theorem evaluateOperation_shows (idle : source.Idle anyCalls) {position : Int}
    (evaluated : source.evaluateOperation env = .ok (position, next)) :
    Shows source.loadView [] 0 next.loadView ∧ next.Idle anyCalls := by
  have after := (evaluateOperation_reaches .zero idle False.elim False.elim).ok evaluated
  refine ⟨?_, after.2⟩
  obtain ⟨nextLoadPositionUs, -, rest⟩ := bind_ok evaluated
  split at rest
  next =>
    obtain ⟨⟨discarded, answered⟩, discards, rest⟩ := bind_ok rest
    have timed : Idle anyCalls { source with lastPerformedBufferOperation := env.now } :=
      ⟨idle.sound, idle.enabled, idle.unloaded, idle.steady⟩
    have shows := doChunkOperation_shows timed discards
    simp only at rest
    split at rest
    next =>
      cases rest
      exact shows
    next =>
      split at rest
      next =>
        obtain ⟨later, -, same⟩ := bind_ok rest
        cases same
        exact shows
      next =>
        cases rest
        exact shows
  next =>
    cases rest
    exact .refl _ 0

theorem updateLoadControl_shows (updated : source.updateLoadControl env = .ok next)
    (sound : source.schedule.Sound anyCalls) (enabled : source.state = .enabled) :
    Shows source.loadView (source.updateLoadControlNotices env) 0 next.loadView := by
  unfold updateLoadControl at updated
  unfold updateLoadControlNotices
  split at updated
  next failed =>
    obtain ⟨chunk, held, -⟩ := sound.busy (.inr (by simp [schedule, failed]))
    obtain ⟨position, -, rest⟩ := bind_ok updated
    simp only at rest
    rw [if_pos failed]
    split at rest
    next elapsed =>
      rw [if_pos elapsed]
      exact resumeFromBackOff_shows ⟨sound, enabled, failed, held⟩ rest
    next waits =>
      cases rest
      rw [if_neg waits]
      exact .refl _ 0
  next calm =>
    rw [if_neg calm]
    split at updated
    next loading =>
      obtain ⟨position, -, same⟩ := bind_ok updated
      cases same
      rw [if_pos loading]
      exact .refl _ 0
    next unloaded =>
      rw [if_neg unloaded]
      have idle : source.Idle anyCalls :=
        ⟨sound, enabled, by simpa [isLoading] using unloaded, by simpa using calm⟩
      obtain ⟨⟨position, answered⟩, evaluated, rest⟩ := bind_ok updated
      rw [afterwards_ok evaluated]
      obtain ⟨shows, after⟩ := evaluateOperation_shows idle evaluated
      simp only at rest ⊢
      split at rest
      next granted =>
        rw [if_pos granted]
        have starts := shows.trans (maybeStartLoading_shows after rest)
        exact starts
      next refused =>
        cases rest
        rw [if_neg refused]
        exact shows

end ChunkSampleSource

end NDash.Chunk

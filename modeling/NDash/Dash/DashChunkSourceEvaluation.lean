import NDash.Dash.DashChunkSourceManifest

set_option autoImplicit false

namespace NDash.Dash.DashChunkSource

open Mpd Extractor

theorem scan_mem {holders : List PeriodHolder} {position : Int} {holder : PeriodHolder}
    (found : findPeriodHolder.scan position holders = .ok (some holder)) : holder ∈ holders := by
  induction holders with
  | nil => cases found
  | cons first later ih =>
    rw [findPeriodHolder.scan] at found
    split at found
    · cases found
    · split at found
      · cases found
        exact List.mem_cons_self
      · exact List.mem_cons_of_mem _ (ih found)

theorem findPeriodHolder_mem {holders : List PeriodHolder} {position : Int} {holder : PeriodHolder}
    (found : findPeriodHolder holders position = .ok (some holder)) : holder ∈ holders := by
  unfold findPeriodHolder at found
  split at found
  · cases found
  · split at found
    · cases found
      exact List.mem_cons_self
    · exact scan_mem found

theorem moveToNextPeriod_mem {behind : List PeriodHolder} {holder : PeriodHolder}
    (moved : moveToNextPeriod behind = .ok holder) : holder ∈ behind := by
  induction behind with
  | nil => cases moved
  | cons first later ih =>
    rw [moveToNextPeriod] at moved
    split at moved
    · exact List.mem_cons_of_mem _ (ih moved)
    · cases moved
      exact List.mem_cons_self

theorem moveToPrevPeriod_mem {before : List PeriodHolder} {holder : PeriodHolder}
    (moved : moveToPrevPeriod before = some holder) : holder ∈ before := by
  induction before with
  | nil => cases moved
  | cons first later ih =>
    rw [moveToPrevPeriod] at moved
    split at moved
    · exact List.mem_cons_of_mem _ (ih moved)
    · cases moved
      exact List.mem_cons_self

theorem moveOn_mem {source : DashChunkSource} {rate : PlaybackRate} {previous : MediaChunk}
    {holder : PeriodHolder} {startingNewPeriod : Bool}
    (chosen : source.moveOn rate previous = .ok (.from holder startingNewPeriod)) :
    holder ∈ source.periodHolders := by
  unfold moveOn at chosen
  split at chosen
  · obtain ⟨next, moved, chosen⟩ := bind_ok chosen
    cases chosen
    exact (List.dropWhile_sublist _).mem (List.mem_of_mem_tail (moveToNextPeriod_mem moved))
  · dsimp only at chosen
    split at chosen
    · cases chosen
    · rename_i earlier moved
      cases chosen
      exact (List.takeWhile_sublist _).mem (List.mem_reverse.mp (moveToPrevPeriod_mem moved))

theorem periodAfter_mem {source : DashChunkSource} {rate : PlaybackRate} {previous : MediaChunk}
    {holder : PeriodHolder} {startingNewPeriod : Bool}
    (chosen : source.periodAfter rate previous = .ok (.from holder startingNewPeriod)) :
    holder ∈ source.periodHolders := by
  unfold periodAfter at chosen
  split at chosen
  · split at chosen
    · cases chosen
    · rename_i first isFirst
      cases chosen
      exact List.mem_of_head? isFirst
  · rename_i found isFound
    have held := List.mem_of_find?_eq_some isFound
    split at chosen
    · cases chosen
      exact held
    · split at chosen
      · cases chosen
      · obtain ⟨outside, _, chosen⟩ := bind_ok chosen
        split at chosen
        · exact moveOn_mem chosen
        · cases chosen
          exact held

structure KeepsPeriods (source after : DashChunkSource) : Prop where
  holders : after.periodHolders = source.periodHolders
  next : after.nextPeriodHolderIndex = source.nextPeriodHolderIndex
  evaluation : after.evaluation = source.evaluation
  last : after.lastChunkWasInitialization = source.lastChunkWasInitialization

theorem KeepsPeriods.refl (source : DashChunkSource) : KeepsPeriods source source :=
  ⟨rfl, rfl, rfl, rfl⟩

theorem liveStart_source (source : DashChunkSource) (bounds : Int × Int) (position : Int) :
    ∃ startAtLiveEdge fatalError,
      (source.liveStart bounds position).1 = { source with startAtLiveEdge, fatalError } := by
  unfold liveStart
  split
  · dsimp only
    split
    · exact ⟨_, _, rfl⟩
    · exact ⟨_, _, rfl⟩
  · exact ⟨_, _, rfl⟩

theorem choosePeriod_cases {source after : DashChunkSource} {rate : PlaybackRate}
    {bounds : Int × Int} {queue : List MediaChunk} {position found : Int} {choice : PeriodChoice}
    (chosen : source.choosePeriod rate bounds queue position = .ok (choice, found, after)) :
    (∃ startAtLiveEdge fatalError, after = { source with startAtLiveEdge, fatalError }) ∧
      ∀ holder startingNewPeriod, choice = .from holder startingNewPeriod →
        holder ∈ source.periodHolders := by
  unfold choosePeriod at chosen
  split at chosen
  · have started := liveStart_source source bounds position
    generalize source.liveStart bounds position = start at chosen started
    obtain ⟨between, from_⟩ := start
    dsimp only at chosen started
    obtain ⟨startAtLiveEdge, fatalError, rfl⟩ := started
    obtain ⟨holder, isHolder, chosen⟩ := bind_ok chosen
    split at chosen
    · cases chosen
      exact ⟨⟨_, _, rfl⟩, nofun⟩
    · cases chosen
      refine ⟨⟨_, _, rfl⟩, ?_⟩
      intro holder startingNewPeriod same
      cases same
      exact findPeriodHolder_mem isHolder
  · unfold choosePeriodAfter at chosen
    dsimp only at chosen
    split at chosen
    · cases chosen
      exact ⟨⟨_, _, rfl⟩, nofun⟩
    · split at chosen
      · cases chosen
        exact ⟨⟨_, _, rfl⟩, nofun⟩
      · obtain ⟨fell, _, chosen⟩ := bind_ok chosen
        split at chosen
        · cases chosen
          exact ⟨⟨_, _, rfl⟩, nofun⟩
        · obtain ⟨choice, isChoice, chosen⟩ := bind_ok chosen
          cases chosen
          refine ⟨⟨_, _, rfl⟩, ?_⟩
          intro holder startingNewPeriod same
          cases same
          exact periodAfter_mem isChoice

theorem choosePeriod_keeps {source after : DashChunkSource} {rate : PlaybackRate}
    {bounds : Int × Int} {queue : List MediaChunk} {position found : Int} {choice : PeriodChoice}
    (chosen : source.choosePeriod rate bounds queue position = .ok (choice, found, after)) :
    KeepsPeriods source after := by
  obtain ⟨⟨_, _, rfl⟩, -⟩ := choosePeriod_cases chosen
  exact ⟨rfl, rfl, rfl, rfl⟩

structure ChunkRequest where
  resolve : String → String → String := fun base reference => base ++ reference
  rate : PlaybackRate := {}
  evaluator : Evaluator
  now : Int := 0
  queue : List MediaChunk := []
  position : Int := 0
  out : ChunkOperationHolder := {}

def request (source : DashChunkSource) (request : ChunkRequest) :
    Except Fault (ChunkOperationHolder × DashChunkSource) :=
  source.getChunkOperation request.resolve request.rate request.evaluator request.now request.queue
    request.position request.out

def chosen (source : DashChunkSource) (request : ChunkRequest) :
    Option (PeriodHolder × FormatEvaluation) :=
  if source.fatalError then none
  else
    match source.availableRange with
    | none => none
    | some availableRange =>
      match source.choosePeriod request.rate (availableRange.getCurrentBounds request.now)
          request.queue request.position with
      | .ok (.from holder _, position, after) =>
        some (holder, after.evaluate request.evaluator request.queue position holder)
      | _ => none

def MakesChunk (request : ChunkRequest) (evaluation : FormatEvaluation) : Prop :=
  ∃ selected, evaluation.format = some selected ∧
    ¬ (evaluation.queueSize = request.queue.length ∧
      request.out.chunk.any (fun chunk => chunk.format.same selected) = true)

instance (request : ChunkRequest) (evaluation : FormatEvaluation) :
    Decidable (MakesChunk request evaluation) :=
  match selection : evaluation.format with
  | none => isFalse (by simp [MakesChunk, selection])
  | some selected =>
    decidable_of_iff
      (¬ (evaluation.queueSize = request.queue.length ∧
        request.out.chunk.any (fun chunk => chunk.format.same selected) = true))
      (by simp [MakesChunk, selection])

theorem nextChunk_selected {resolve : String → String → String} {rate : PlaybackRate} {queue : List MediaChunk} {position : Int}
    {holder : PeriodHolder} {startingNewPeriod : Bool} {selected : Format} {chunk : Chunk}
    (made : nextChunk resolve rate queue position holder startingNewPeriod selected = .ok chunk) :
    (holder.getRepresentationHolder selected.id).isSome := by
  unfold nextChunk at made
  split at made
  · cases made
  · rename_i found
    rw [found]
    rfl

inductive Requested (source : DashChunkSource) (request : ChunkRequest) : DashChunkSource → Prop
  | idle (after : DashChunkSource) (none : source.chosen request = none)
      (keeps : KeepsPeriods source after) : Requested source request after
  | evaluated (after between : DashChunkSource) (holder : PeriodHolder)
      (evaluation : FormatEvaluation) (chooses : source.chosen request = some (holder, evaluation))
      (keeps : KeepsPeriods source between) (same : after = { between with evaluation })
      (stands : ¬ MakesChunk request evaluation) : Requested source request after
  | made (after between : DashChunkSource) (holder : PeriodHolder) (evaluation : FormatEvaluation)
      (chooses : source.chosen request = some (holder, evaluation))
      (keeps : KeepsPeriods source between) (chunk : Chunk) (selected : Format)
      (same : after = { between with
        evaluation, lastChunkWasInitialization := Chunk.isInitialization chunk })
      (makes : MakesChunk request evaluation) (selection : evaluation.format = some selected)
      (held : (holder.getRepresentationHolder selected.id).isSome) : Requested source request after

theorem request_cases {source after : DashChunkSource} {request : ChunkRequest}
    {out : ChunkOperationHolder} (call : source.request request = .ok (out, after)) :
    Requested source request after := by
  unfold DashChunkSource.request getChunkOperation at call
  split at call
  · rename_i fatal
    cases call
    exact .idle _ (by simp [chosen, fatal]) (.refl source)
  · rename_i notFatal
    split at call
    · cases call
    · rename_i range isRange
      obtain ⟨⟨choice, position, between⟩, isChoice, call⟩ := bind_ok call
      have keeps := choosePeriod_keeps isChoice
      cases choice with
      | stop endOfStream =>
        cases call
        exact .idle _ (by simp only [chosen, isRange, if_neg notFatal, isChoice]) keeps
      | «from» holder startingNewPeriod =>
        have chooses : source.chosen request =
            some (holder, between.evaluate request.evaluator request.queue position holder) := by
          simp only [chosen, isRange, if_neg notFatal, isChoice]
        generalize evaluated : between.evaluate request.evaluator request.queue position holder =
          evaluation at chooses
        simp only [loadFrom, evaluated] at call
        split at call
        · rename_i nothing
          cases call
          refine .evaluated _ between holder evaluation chooses keeps rfl ?_
          rintro ⟨selected, selection, -⟩
          simp [nothing] at selection
        · rename_i selected selection
          split at call
          · rename_i stands
            cases call
            refine .evaluated _ between holder evaluation chooses keeps rfl ?_
            rintro ⟨other, otherSelection, changed⟩
            rw [selection] at otherSelection
            cases otherSelection
            simp only [Bool.and_eq_true, decide_eq_true_eq] at stands
            exact changed stands
          · rename_i changed
            obtain ⟨chunk, isChunk, call⟩ := bind_ok call
            cases call
            refine .made _ between holder evaluation chooses keeps chunk selected rfl
              ⟨selected, selection, ?_⟩ selection (nextChunk_selected isChunk)
            simpa only [Bool.and_eq_true, decide_eq_true_eq] using changed

def SelectsFrom (evaluator : Evaluator) : Prop :=
  ∀ queue position formats evaluation selected,
    (evaluator queue position formats evaluation).format = some selected → selected ∈ formats

structure Session where
  source : DashChunkSource
  lastPeriod : Option Int := none

inductive Operation
  | request (request : ChunkRequest)
  | loadCompleted (chunk : InitializationChunk) (data : InitializationData)
  | manifest (manifest : MediaPresentationDescription)

namespace Session

def periodBehind (session : Session) (request : ChunkRequest) : Option Int :=
  match session.source.chosen request with
  | none => session.lastPeriod
  | some (holder, evaluation) =>
    if MakesChunk request evaluation then some holder.localIndex else session.lastPeriod

def perform (session : Session) : Operation → Except Fault Session
  | .request request => do
    let (_, source) ← session.source.request request
    return { source, lastPeriod := session.periodBehind request }
  | .loadCompleted chunk data => do
    let source ← session.source.onChunkLoadCompleted chunk data
    return { session with source }
  | .manifest manifest => do
    let (_, source) ← session.source.processManifest manifest
    return { session with source }

def OfRequest (property : Session → ChunkRequest → Prop) (session : Session) : Operation → Prop
  | .request request => property session request
  | .loadCompleted _ _ => True
  | .manifest _ => True

def EachRequest (property : Session → ChunkRequest → Prop) (session : Session) :
    List Operation → Prop
  | [] => True
  | operation :: later =>
    OfRequest property session operation ∧
      match session.perform operation with
      | .error _ => True
      | .ok after => EachRequest property after later

def SelectsHeld (session : Session) (request : ChunkRequest) : Prop :=
  ∀ holder evaluation selected, session.source.chosen request = some (holder, evaluation) →
    evaluation.format = some selected → (holder.getRepresentationHolder selected.id).isSome

/-- Behind an initialization chunk, the chosen period is the one that chunk was made for, or has a
representation with its id. -/
def StaysWith (session : Session) (request : ChunkRequest) : Prop :=
  session.source.lastChunkWasInitialization = true →
    ∀ holder evaluation, session.source.chosen request = some (holder, evaluation) →
      session.lastPeriod = some holder.localIndex ∨
        ∀ cached, session.source.evaluation.format = some cached →
          (holder.getRepresentationHolder cached.id).isSome

instance (session : Session) (request : ChunkRequest) : Decidable (session.StaysWith request) :=
  match choice : session.source.chosen request with
  | none => isTrue (by simp [StaysWith, choice])
  | some (holder, _) =>
    decidable_of_iff
      (session.source.lastChunkWasInitialization = true →
        session.lastPeriod = some holder.localIndex ∨
          session.source.evaluation.format.all
            (fun cached => (holder.getRepresentationHolder cached.id).isSome) = true)
      (by simp [StaysWith, choice, Option.all_eq_true])

instance (property : Session → ChunkRequest → Prop)
    [decidable : ∀ session request, Decidable (property session request)] (session : Session) :
    (operation : Operation) → Decidable (session.OfRequest property operation)
  | .request request => decidable session request
  | .loadCompleted _ _ => isTrue trivial
  | .manifest _ => isTrue trivial

instance decidableEachRequest (property : Session → ChunkRequest → Prop)
    [∀ session request, Decidable (property session request)] (session : Session) :
    (operations : List Operation) → Decidable (session.EachRequest property operations)
  | [] => isTrue trivial
  | operation :: later =>
    match performed : session.perform operation with
    | .error _ =>
      decidable_of_iff (session.OfRequest property operation) (by simp [EachRequest, performed])
    | .ok after =>
      have := decidableEachRequest property after later
      decidable_of_iff (session.OfRequest property operation ∧ after.EachRequest property later)
        (by simp [EachRequest, performed])

structure Sound (session : Session) : Prop where
  numbered : session.source.Numbered
  keyed : ∀ holder ∈ session.source.periodHolders, holder.Keyed
  cached : session.source.lastChunkWasInitialization = true →
    ∃ cached period, session.source.evaluation.format = some cached ∧
      session.lastPeriod = some period ∧ period < session.source.nextPeriodHolderIndex ∧
      ∀ holder ∈ session.source.periodHolders, holder.localIndex = period →
        (holder.getRepresentationHolder cached.id).isSome

end Session

theorem Numbered.lt_next {source : DashChunkSource} (numbered : source.Numbered)
    {holder : PeriodHolder} (held : holder ∈ source.periodHolders) :
    holder.localIndex < source.nextPeriodHolderIndex := by
  have member : holder.localIndex ∈ source.periodHolders.map PeriodHolder.localIndex :=
    List.mem_map_of_mem held
  rw [numbered] at member
  obtain ⟨offset, isOffset, same⟩ := List.mem_map.mp member
  rw [List.mem_range] at isOffset
  omega

theorem nodup_indicesFrom (next : Int) (count : Nat) : (indicesFrom next count).Nodup := by
  refine List.Pairwise.map _ ?_ (List.nodup_range (n := count))
  intro first second differ
  omega

theorem Numbered.unique {source : DashChunkSource} (numbered : source.Numbered)
    {first second : PeriodHolder} (firstHeld : first ∈ source.periodHolders)
    (secondHeld : second ∈ source.periodHolders) (same : first.localIndex = second.localIndex) :
    first = second := by
  have nodup : (source.periodHolders.map PeriodHolder.localIndex).Nodup := by
    rw [numbered]
    exact nodup_indicesFrom _ _
  exact List.inj_on_of_nodup_map nodup firstHeld secondHeld same

theorem chosen_mem {source : DashChunkSource} {request : ChunkRequest} {holder : PeriodHolder}
    {evaluation : FormatEvaluation}
    (chooses : source.chosen request = some (holder, evaluation)) :
    holder ∈ source.periodHolders := by
  unfold chosen at chooses
  split at chooses
  · cases chooses
  · split at chooses
    · cases chooses
    · split at chooses
      · rename_i choice
        obtain ⟨-, held⟩ := choosePeriod_cases choice
        cases chooses
        exact held _ _ rfl
      · cases chooses

theorem chosen_evaluation {source : DashChunkSource} {request : ChunkRequest}
    {holder : PeriodHolder} {evaluation : FormatEvaluation}
    (chooses : source.chosen request = some (holder, evaluation)) :
    (∃ cached, source.lastChunkWasInitialization = true ∧
      source.evaluation.format = some cached ∧ evaluation.format = some cached) ∨
    ((source.evaluation.format = none ∨ source.lastChunkWasInitialization = false) ∧
      ∃ position before,
        evaluation = request.evaluator request.queue position holder.formats before) := by
  unfold chosen at chooses
  split at chooses
  · cases chooses
  · split at chooses
    · cases chooses
    · split at chooses
      · rename_i position after choice
        have keeps := choosePeriod_keeps choice
        cases chooses
        rw [← keeps.evaluation, ← keeps.last]
        cases last : after.lastChunkWasInitialization with
        | false =>
          exact .inr ⟨.inr rfl, position, { after.evaluation with queueSize := request.queue.length },
            by simp [evaluate, last]⟩
        | true =>
          cases format : after.evaluation.format with
          | none =>
            exact .inr ⟨.inl rfl, position, { after.evaluation with queueSize := request.queue.length },
              by simp [evaluate, format]⟩
          | some cached => exact .inl ⟨cached, rfl, rfl, by simp [evaluate, last, format]⟩
      · cases chooses

theorem getRepresentationHolder_isSome_of_outline {holder other : PeriodHolder} {id : String}
    (same : holder.outline = other.outline) :
    (holder.getRepresentationHolder id).isSome ↔ (other.getRepresentationHolder id).isSome := by
  have ids : holder.representationHolders.map Prod.fst = other.representationHolders.map Prod.fst :=
    congrArg (fun outline => outline.2.2) same
  rw [PeriodHolder.getRepresentationHolder, PeriodHolder.getRepresentationHolder,
    PeriodHolder.lookup_isSome, PeriodHolder.lookup_isSome, ids]

inductive Initialized (data : InitializationData) (holder : PeriodHolder) : PeriodHolder → Prop
  | same : Initialized data holder holder
  | given (id : String) (representationHolder : RepresentationHolder)
      (held : holder.getRepresentationHolder id = some representationHolder) :
      Initialized data holder { holder with
        representationHolders := PeriodHolder.store holder.representationHolders id
          (giveInitialization representationHolder data) }

theorem onChunkLoadCompleted_initialized {source after : DashChunkSource}
    {chunk : InitializationChunk} {data : InitializationData} (numbered : source.Numbered)
    (completed : source.onChunkLoadCompleted chunk data = .ok after) :
    ∃ change : PeriodHolder → PeriodHolder,
      after = { source with periodHolders := source.periodHolders.map change } ∧
      ∀ holder ∈ source.periodHolders, Initialized data holder (change holder) := by
  unfold onChunkLoadCompleted at completed
  split at completed
  · cases completed
    exact ⟨id, by rw [List.map_id], fun holder _ => .same⟩
  · rename_i found isFound
    have held := List.mem_of_find?_eq_some isFound
    have index := List.find?_some isFound
    simp only [decide_eq_true_eq] at index
    split at completed
    · cases completed
    · rename_i representationHolder isHeld
      cases completed
      refine ⟨_, rfl, ?_⟩
      intro other member
      by_cases same : other.localIndex = chunk.parentId
      · obtain rfl := numbered.unique held member (index.trans same.symm)
        rw [if_pos same]
        exact .given _ _ isHeld
      · rw [if_neg same]
        exact .same

theorem Initialized.outline {data : InitializationData} {holder after : PeriodHolder}
    (initialized : Initialized data holder after) : after.outline = holder.outline := by
  cases initialized with
  | same => rfl
  | given => simp [PeriodHolder.outline]

theorem Initialized.keyed {data : InitializationData} {holder after : PeriodHolder}
    (initialized : Initialized data holder after) (keyed : holder.Keyed) : after.Keyed := by
  cases initialized with
  | same => exact keyed
  | given id representationHolder held =>
    have itself := PeriodHolder.getRepresentationHolder_id keyed held
    refine PeriodHolder.store_keyed ?_ keyed
    rw [giveInitialization_eq]
    exact itself

namespace Session

theorem Sound.of_new {source : DashChunkSource} (new : source.periodHolders = [])
    (nothingMade : source.lastChunkWasInitialization = false) : Sound { source } :=
  ⟨.of_nil new, by simp [new], by simp [nothingMade]⟩

/-- What keeps the evaluation and holds no other period under an index that is given out. -/
theorem Sound.keep {session : Session} {after : DashChunkSource} (sound : session.Sound)
    (numbered : after.Numbered) (keyed : ∀ holder ∈ after.periodHolders, holder.Keyed)
    (evaluation : after.evaluation = session.source.evaluation)
    (last : after.lastChunkWasInitialization = session.source.lastChunkWasInitialization)
    (next : session.source.nextPeriodHolderIndex ≤ after.nextPeriodHolderIndex)
    (old : ∀ holder ∈ after.periodHolders,
      holder.localIndex < session.source.nextPeriodHolderIndex →
      ∃ before ∈ session.source.periodHolders, holder.outline = before.outline) :
    Sound { session with source := after } := by
  refine ⟨numbered, keyed, ?_⟩
  intro isLast
  rw [last] at isLast
  obtain ⟨cached, period, format, isPeriod, given, held⟩ := sound.cached isLast
  refine ⟨cached, period, by rw [evaluation, format], isPeriod, by dsimp only; omega, ?_⟩
  intro holder member same
  obtain ⟨before, beforeMember, outline⟩ := old holder member (by omega)
  have index : holder.localIndex = before.localIndex := congrArg (fun outline => outline.1) outline
  rw [getRepresentationHolder_isSome_of_outline outline]
  exact held before beforeMember (by omega)

theorem Sound.manifest {session : Session} {after : DashChunkSource}
    {manifest : MediaPresentationDescription} {adopted : Bool} (sound : session.Sound)
    (call : session.source.processManifest manifest = .ok (adopted, after)) :
    Sound { session with source := after } := by
  have invariant : HolderInvariant PeriodHolder.Keyed :=
    ⟨PeriodHolder.create_keyed, PeriodHolder.updatePeriod_keyed⟩
  obtain ⟨evaluation, last⟩ := processManifest_evaluation call
  have survivor : ∀ holder : PeriodHolder,
      holder.outline ∈ (session.source.survivors manifest).map PeriodHolder.outline →
      ∃ before ∈ session.source.periodHolders, holder.outline = before.outline := by
    intro holder member
    obtain ⟨before, kept, same⟩ := List.mem_map.mp member
    exact ⟨before, (survivors_suffix _ manifest).mem kept, same.symm⟩
  obtain ⟨-, processed⟩ := processManifest_cases call
  refine sound.keep (sound.numbered.processManifest call)
    (invariant.processManifest sound.keyed call) evaluation last ?_ ?_
  · cases processed with
    | discarded _ held holders next => omega
    | adopted _ updated added fits holders old starts indices next => omega
  · intro holder member given
    cases processed with
    | discarded _ held holders next =>
      apply survivor holder
      rw [← holders]
      exact List.mem_map_of_mem member
    | adopted _ updated added fits holders old starts indices next =>
      rw [holders] at member
      rcases List.mem_append.mp member with isOld | isNew
      · apply survivor holder
        rw [← old]
        exact List.mem_map_of_mem isOld
      · have index : holder.localIndex ∈ added.map PeriodHolder.localIndex :=
          List.mem_map_of_mem isNew
        rw [indices] at index
        obtain ⟨offset, -, same⟩ := List.mem_map.mp index
        omega

theorem onChunkLoadCompleted_holders {source after : DashChunkSource} {chunk : InitializationChunk}
    {data : InitializationData} (numbered : source.Numbered)
    (completed : source.onChunkLoadCompleted chunk data = .ok after) :
    after.periodHolders.map PeriodHolder.outline = source.periodHolders.map PeriodHolder.outline ∧
      ((∀ holder ∈ source.periodHolders, holder.Keyed) →
        ∀ holder ∈ after.periodHolders, holder.Keyed) ∧
      after.nextPeriodHolderIndex = source.nextPeriodHolderIndex ∧
      after.evaluation = source.evaluation ∧
      after.lastChunkWasInitialization = source.lastChunkWasInitialization := by
  obtain ⟨change, rfl, initialized⟩ := onChunkLoadCompleted_initialized numbered completed
  refine ⟨?_, ?_, rfl, rfl, rfl⟩
  · rw [List.map_map]
    apply List.map_congr_left
    intro holder member
    exact (initialized holder member).outline
  · intro keyed holder member
    obtain ⟨other, otherMember, rfl⟩ := List.mem_map.mp member
    exact (initialized other otherMember).keyed (keyed other otherMember)

theorem Sound.loadCompleted {session : Session} {after : DashChunkSource}
    {chunk : InitializationChunk} {data : InitializationData} (sound : session.Sound)
    (completed : session.source.onChunkLoadCompleted chunk data = .ok after) :
    Sound { session with source := after } := by
  obtain ⟨outlines, keyed, next, evaluation, last⟩ :=
    onChunkLoadCompleted_holders sound.numbered completed
  have length := congrArg List.length outlines
  simp only [List.length_map] at length
  refine sound.keep ?_ (keyed sound.keyed) evaluation last (Int.le_of_eq next.symm) ?_
  · rw [Numbered, map_localIndex outlines, next, length]
    exact sound.numbered
  · intro holder member _
    have outline : holder.outline ∈ session.source.periodHolders.map PeriodHolder.outline := by
      rw [← outlines]
      exact List.mem_map_of_mem member
    obtain ⟨before, beforeMember, same⟩ := List.mem_map.mp outline
    exact ⟨before, beforeMember, same.symm⟩

theorem Sound.request {session : Session} {after : DashChunkSource} {request : ChunkRequest}
    {out : ChunkOperationHolder} (sound : session.Sound)
    (call : session.source.request request = .ok (out, after)) :
    Sound { source := after, lastPeriod := session.periodBehind request } := by
  cases request_cases call with
  | idle none keeps =>
    have period : session.periodBehind request = session.lastPeriod := by
      simp only [periodBehind, none]
    rw [period]
    refine ⟨?_, ?_, ?_⟩
    · rw [Numbered, keeps.holders, keeps.next]
      exact sound.numbered
    · rw [keeps.holders]
      exact sound.keyed
    · rw [keeps.holders, keeps.last, keeps.evaluation, keeps.next]
      exact sound.cached
  | evaluated between holder evaluation chooses keeps same stands =>
    have period : session.periodBehind request = session.lastPeriod := by
      simp only [periodBehind, chooses, if_neg stands]
    rw [period, same]
    refine ⟨?_, ?_, ?_⟩
    · rw [Numbered, keeps.holders, keeps.next]
      exact sound.numbered
    · rw [keeps.holders]
      exact sound.keyed
    · rw [keeps.holders, keeps.last, keeps.next]
      intro last
      obtain ⟨cached, itsPeriod, format, held⟩ := sound.cached last
      rcases chosen_evaluation chooses with ⟨_, _, itsFormat, kept⟩ | ⟨asked, _⟩
      · rw [← itsFormat, format] at kept
        exact ⟨cached, itsPeriod, kept, held⟩
      · rcases asked with asked | asked
        · simp [format] at asked
        · simp [last] at asked
  | made between holder evaluation chooses keeps chunk selected same makes selection held =>
    have period : session.periodBehind request = some holder.localIndex := by
      simp only [periodBehind, chooses, if_pos makes]
    have member := chosen_mem chooses
    rw [period, same]
    refine ⟨?_, ?_, ?_⟩
    · rw [Numbered, keeps.holders, keeps.next]
      exact sound.numbered
    · rw [keeps.holders]
      exact sound.keyed
    · rw [keeps.holders, keeps.next]
      intro _
      refine ⟨selected, holder.localIndex, selection, rfl, sound.numbered.lt_next member, ?_⟩
      intro other otherMember sameIndex
      rw [sound.numbered.unique otherMember member sameIndex]
      exact held

theorem Sound.perform {session after : Session} {operation : Operation} (sound : session.Sound)
    (performed : session.perform operation = .ok after) : after.Sound := by
  cases operation with
  | request request =>
    obtain ⟨⟨out, source⟩, call, performed⟩ := bind_ok performed
    cases performed
    exact sound.request call
  | loadCompleted chunk data =>
    obtain ⟨source, call, performed⟩ := bind_ok performed
    cases performed
    exact sound.loadCompleted call
  | manifest manifest =>
    obtain ⟨⟨adopted, source⟩, call, performed⟩ := bind_ok performed
    cases performed
    exact sound.manifest call

theorem Sound.selectsHeld_iff {session : Session} {request : ChunkRequest} (sound : session.Sound)
    (selects : SelectsFrom request.evaluator) :
    session.SelectsHeld request ↔ session.StaysWith request := by
  constructor
  · intro held last holder evaluation chooses
    refine .inr ?_
    intro cached format
    rcases chosen_evaluation chooses with ⟨_, _, itsFormat, kept⟩ | ⟨asked, _⟩
    · rw [← itsFormat, format] at kept
      exact held holder evaluation cached chooses kept
    · rcases asked with asked | asked
      · simp [format] at asked
      · simp [last] at asked
  · intro stays holder evaluation selected chooses selection
    have member := chosen_mem chooses
    rcases chosen_evaluation chooses with ⟨cached, last, format, kept⟩ | ⟨_, position, before, asked⟩
    · rw [kept] at selection
      cases selection
      rcases stays last holder evaluation chooses with same | held
      · obtain ⟨cached', period, format', isPeriod, _, held⟩ := sound.cached last
        rw [format] at format'
        cases format'
        rw [isPeriod] at same
        cases same
        exact held holder member rfl
      · exact held _ format
    · rw [asked] at selection
      have listed := selects _ _ _ _ _ selection
      exact PeriodHolder.getRepresentationHolder_of_mem_formats (sound.keyed holder member) listed

theorem Sound.eachRequest_iff {session : Session} {operations : List Operation}
    (sound : session.Sound)
    (selects : ∀ request, .request request ∈ operations → SelectsFrom request.evaluator) :
    session.EachRequest SelectsHeld operations ↔ session.EachRequest StaysWith operations := by
  induction operations generalizing session with
  | nil => exact Iff.rfl
  | cons operation later ih =>
    have laterSelects : ∀ request, .request request ∈ later → SelectsFrom request.evaluator :=
      fun request member => selects request (List.mem_cons_of_mem _ member)
    have here : session.OfRequest SelectsHeld operation ↔ session.OfRequest StaysWith operation := by
      cases operation with
      | request request => exact sound.selectsHeld_iff (selects request List.mem_cons_self)
      | loadCompleted chunk data => exact Iff.rfl
      | manifest manifest => exact Iff.rfl
    unfold EachRequest
    cases performed : session.perform operation with
    | error fault => exact and_congr here Iff.rfl
    | ok after => exact and_congr here (ih (sound.perform performed) laterSelects)

end Session

/-- A source that is enabled and used selects a representation of the period in every call exactly
when no call leaves the period of a pending initialization chunk for one without its format. -/
theorem selects_held_representation_iff (source : DashChunkSource) (operations : List Operation)
    (new : source.periodHolders = []) (nothingMade : source.lastChunkWasInitialization = false)
    (selects : ∀ request, .request request ∈ operations → SelectsFrom request.evaluator) :
    Session.EachRequest Session.SelectsHeld { source } operations ↔
      Session.EachRequest Session.StaysWith { source } operations := by
  exact (Session.Sound.of_new new nothingMade).eachRequest_iff selects

def initializedPeriod (startMs : Nat) (id : String) : Period where
  startMs
  adaptationSets := [{
    representations := [{
      format := { id }
      index := some (singleSegmentIndex (.create id "" 100 (-1)))
      initializationUri := some (.create id "" 0 100) }] }]

def twoPeriods : MediaPresentationDescription where
  periods := [initializedPeriod 0 "main", initializedPeriod 10000 "advert"]
  duration := 20000

def firstFormat : Evaluator := fun _ _ formats evaluation =>
  { evaluation with format := formats.head? }

theorem firstFormat_selects : SelectsFrom firstFormat := by
  intro queue position formats evaluation selected selection
  exact List.mem_of_head? selection

def newSource (manifest : MediaPresentationDescription) : DashChunkSource where
  currentManifest := manifest
  trackCriteria := { matchesMimeType := fun _ => true }

theorem selects_held_representation_iff_loaded :
    Session.EachRequest Session.SelectsHeld { source := newSource twoPeriods }
      [.manifest twoPeriods, .request { evaluator := firstFormat },
        .loadCompleted { parentId := 0, format := { id := "main" }, uri := .create "main" "" 0 100,
                         forInitialization := true, forIndex := false } {},
        .request { evaluator := firstFormat }] := by
  refine (selects_held_representation_iff _ _ rfl rfl ?_).mpr (by decide)
  intro request member
  simp only [List.mem_cons, reduceCtorEq, Operation.request.injEq, List.not_mem_nil, or_false,
    false_or] at member
  rcases member with rfl | rfl
  · exact firstFormat_selects
  · exact firstFormat_selects

/-- The initialization chunk of the first period is pending when a seek lands in the second. -/
theorem seek_behind_initialization_faults :
    let source := newSource twoPeriods
    let operations : List Operation := [.manifest twoPeriods, .request { evaluator := firstFormat },
      .request { evaluator := firstFormat, position := 15000000 }]
    SelectsFrom firstFormat ∧ ¬ Session.EachRequest Session.SelectsHeld { source } operations ∧
      operations.foldlM Session.perform { source } = .error .nullPointer := by
  intro source operations
  refine ⟨firstFormat_selects, ?_, rfl⟩
  have selects : ∀ request, .request request ∈ operations → SelectsFrom request.evaluator := by
    intro request member
    simp only [operations, List.mem_cons, reduceCtorEq, Operation.request.injEq, List.not_mem_nil,
      or_false, false_or] at member
    rcases member with rfl | rfl
    · exact firstFormat_selects
    · exact firstFormat_selects
  rw [(Session.Sound.of_new rfl rfl).eachRequest_iff selects]
  decide

end NDash.Dash.DashChunkSource

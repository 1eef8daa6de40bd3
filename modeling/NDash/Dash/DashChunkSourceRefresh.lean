import NDash.Dash.DashChunkSourceAdoption
import NDash.Dash.DashChunkSourceEvaluation
import NDash.Dash.PeriodHolderRefresh
import NDash.Shared.Machine

set_option autoImplicit false

namespace NDash.Dash

open Mpd

namespace PeriodHolder

/-- Where a period can be refreshed with the same manifest: the manifest has a set for the track, with
one representation for an id and indices that are steady, and has indices only for representations
that it had indices for. `held` is the holder of the period before the manifest was adopted. -/
def Settles (manifest : MediaPresentationDescription) (criteria : TrackCriteria) (index : Nat)
    (held : Option PeriodHolder) : Prop :=
  ∃ period set, manifest.periods[index]? = some period ∧
    selectAdaptationSet period criteria = some set ∧
    (set.representations.map fun representation => representation.format.id).Nodup ∧
    match held with
    | none =>
      ∀ representation ∈ set.representations, ∀ segmentIndex,
        representation.index = some segmentIndex →
          segmentIndex.Steady (periodDuration manifest index)
    | some holder => holder.Indexed set ∧ holder.SteadyAll set (periodDuration manifest index)

/-- Neither the first nor the last period is updated with this one: it has nothing for the track, or
its holder has no representations. -/
def Bare (manifest : MediaPresentationDescription) (criteria : TrackCriteria) (index : Nat)
    (held : Option PeriodHolder) : Prop :=
  match held with
  | none => ∀ period, manifest.periods[index]? = some period →
      selectAdaptationSet period criteria = none
  | some holder => holder.representationHolders = []

def Alive (manifest : MediaPresentationDescription) (holder : PeriodHolder) : Prop :=
  ∀ entry ∈ holder.representationHolders, ∃ period ∈ manifest.periods,
    ∃ set ∈ period.adaptationSets, entry.2.representation ∈ set.representations

def Ends (manifest : MediaPresentationDescription) (criteria : TrackCriteria) (index : Nat) : Prop :=
  ∀ period set representation segmentIndex, manifest.periods[index]? = some period →
    selectAdaptationSet period criteria = some set →
    set.representations[0]? = some representation → representation.index = some segmentIndex →
    segmentIndex.getLastSegmentNum (periodDuration manifest index) ≠ kIndexUnbounded

def Settled (manifest : MediaPresentationDescription) (criteria : TrackCriteria) (index : Nat)
    (holder : PeriodHolder) : Prop :=
  ∃ period set, manifest.periods[index]? = some period ∧
    selectAdaptationSet period criteria = some set ∧
    holder.Carries set (periodDuration manifest index) ∧
    holder.SteadyAll set (periodDuration manifest index)

section

variable {manifest : MediaPresentationDescription} {criteria : TrackCriteria} {index : Nat}

theorem Settled.updatePeriod {holder : PeriodHolder} (regular : holder.Regular)
    (settled : holder.Settled manifest criteria index) (owner : Nat) :
    holder.updatePeriod (manifest.ownedBy owner) index criteria =
      .ok (true, holder.repointed owner) := by
  obtain ⟨period, set, listed, selected, carries, steady⟩ := settled
  exact updatePeriod_repoints listed selected regular.ordered carries steady owner

theorem Settled.repointed {holder : PeriodHolder} (settled : holder.Settled manifest criteria index)
    (owner : Nat) : (holder.repointed owner).Settled manifest criteria index := by
  obtain ⟨period, set, listed, selected, carries, steady⟩ := settled
  exact ⟨period, set, listed, selected, carries.repointed owner, steady.repointed owner⟩

theorem Points.alive {period : Period} {set : AdaptationSet} {holder : PeriodHolder}
    (points : holder.Points set) (listed : manifest.periods[index]? = some period)
    (selected : selectAdaptationSet period criteria = some set) : holder.Alive manifest :=
  fun entry member => ⟨period, List.mem_of_getElem? listed, set, selectAdaptationSet_mem selected,
    points entry member⟩

theorem Settled.alive {holder : PeriodHolder} (regular : holder.Regular)
    (settled : holder.Settled manifest criteria index) (owner : Nat) :
    (holder.repointed owner).Alive (manifest.ownedBy owner) := by
  obtain ⟨period, set, listed, selected, carries, -⟩ := settled
  have isPeriod : (manifest.ownedBy owner).periods[index]? = some (period.ownedBy owner) := by
    simp [MediaPresentationDescription.ownedBy, listed]
  have isSet : selectAdaptationSet (period.ownedBy owner) criteria = some (set.ownedBy owner) := by
    rw [selectAdaptationSet_ownedBy, selected, Option.map_some]
  exact (carries.points_repointed regular.ordered owner).alive isPeriod isSet

theorem Settles.create {localIndex : Int} {holder : PeriodHolder}
    (settles : Settles manifest criteria index none)
    (created : PeriodHolder.create localIndex manifest index criteria = .ok holder) :
    holder.Settled manifest criteria index ∧ holder.Alive manifest := by
  obtain ⟨period, set, listed, selected, distinct, steady⟩ := settles
  refine ⟨⟨period, set, listed, selected, create_carries listed selected distinct created,
    fun representation member _ => steady representation member⟩, ?_⟩
  exact (create_points listed selected created).alive listed selected

theorem Settles.update {holder after : PeriodHolder} (regular : holder.Regular)
    (settles : Settles manifest criteria index (some holder))
    (update : holder.updatePeriod manifest index criteria = .ok (true, after)) :
    after.Settled manifest criteria index ∧ after.Alive manifest := by
  obtain ⟨period, set, listed, selected, distinct, indexed, steady⟩ := settles
  have carries := updatePeriod_carries distinct listed selected regular indexed update
  refine ⟨⟨period, set, listed, selected, carries, ?_⟩, ?_⟩
  · intro representation member held
    rw [DashChunkSource.getRepresentationHolder_isSome_of_outline
      (updatePeriod_outline update)] at held
    exact steady representation member held
  · have nowRegular := updatePeriod_regular regular update
    exact (updatePeriod_points listed selected nowRegular carries update).alive listed selected

theorem Settled.bounded {holder : PeriodHolder} (regular : holder.Regular)
    (settled : holder.Settled manifest criteria index) (ends : Ends manifest criteria index) :
    holder.indexIsUnbounded = false := by
  obtain ⟨period, set, listed, selected, carries, -⟩ := settled
  obtain ⟨first, rest, representation, indices, isFirst, properties⟩ := carries.properties
  obtain rfl := regular.first_eq indices
  rw [← properties]
  cases isIndex : representation.index with
  | none => rfl
  | some segmentIndex =>
    have known := ends period set representation segmentIndex listed selected isFirst isIndex
    simp [updateRepresentationIndependentProperties, known]

end

end PeriodHolder

namespace DashChunkSource

/-- Where the manifest can be adopted and then be served again. The holders that are left point into
the manifest that was adopted before, and those that no later update reaches point nowhere. -/
structure Settles (source : DashChunkSource) (manifest : MediaPresentationDescription) : Prop where
  first : PeriodHolder.Settles manifest source.trackCriteria 0 (source.survivors manifest)[0]?
  last : PeriodHolder.Settles manifest source.trackCriteria (manifest.periods.length - 1)
    (source.survivors manifest)[manifest.periods.length - 1]?
  between : ∀ index, 0 < index → index + 1 < manifest.periods.length →
    PeriodHolder.Bare manifest source.trackCriteria index (source.survivors manifest)[index]?
  alive : ∀ holder ∈ source.survivors manifest, holder.Alive source.currentManifest
  ends : manifest.dynamic = true ∨
    PeriodHolder.Ends manifest source.trackCriteria (manifest.periods.length - 1)

structure Settled (manifest : MediaPresentationDescription) (source : DashChunkSource) : Prop where
  current : source.currentManifest.dynamic = manifest.dynamic
  alive : ∀ holder ∈ source.periodHolders, holder.Alive source.currentManifest
  listed : manifest.periods ≠ []
  count : source.periodHolders.length = manifest.periods.length
  regular : ∀ holder ∈ source.periodHolders, holder.Regular
  first : ∀ holder, source.periodHolders[0]? = some holder →
    holder.Settled manifest source.trackCriteria 0
  start : ∀ period, manifest.periods[0]? = some period → source.DropsNothing period
  between : ∀ index, 0 < index → index + 1 < manifest.periods.length → ∀ holder,
    source.periodHolders[index]? = some holder → holder.representationHolders = []
  last : ∀ holder, source.periodHolders[manifest.periods.length - 1]? = some holder →
    holder.Settled manifest source.trackCriteria (manifest.periods.length - 1) ∧
      (holder.indexIsUnbounded = true →
        manifest.dynamic = true ∧ holder.indexIsExplicit = false)

/-- The end of the last period is needed where it is explicit or the manifest is static. -/
theorem getAvailableRange_isOk_iff {source : DashChunkSource} {last : PeriodHolder}
    (isLast : source.periodHolders.getLast? = some last) :
    (∃ range, source.getAvailableRange = .ok range) ↔
      (last.indexIsUnbounded = true →
        source.currentManifest.dynamic = true ∧ last.indexIsExplicit = false) := by
  obtain ⟨first, isFirst⟩ : ∃ first, source.periodHolders.head? = some first := by
    cases holders : source.periodHolders with
    | nil => simp [holders] at isLast
    | cons first later => exact ⟨first, rfl⟩
  simp only [getAvailableRange, isFirst, isLast, PeriodHolder.getAvailableEndTime]
  cases source.currentManifest.dynamic with
  | false => cases last.indexIsUnbounded with
    | false => simp
    | true => simp
  | true =>
    cases last.indexIsExplicit with
    | false => simp
    | true => cases last.indexIsUnbounded with
      | false => simp
      | true => simp

theorem regular_invariant : HolderInvariant PeriodHolder.Regular :=
  ⟨PeriodHolder.create_regular, PeriodHolder.updatePeriod_regular⟩

theorem adopted_start {source after : DashChunkSource} {manifest : MediaPresentationDescription}
    {period : Period} (isFirst : manifest.periods[0]? = some period)
    (call : source.processManifest manifest = .ok (true, after)) : after.DropsNothing period := by
  intro holder isHead
  rw [Option.mem_def, List.head?_eq_getElem?] at isHead
  rcases adopted_ends call (.inl rfl) isHead with ⟨old, held, update⟩ | ⟨-, localIndex, created⟩
  · have same : holder.startTime = old.startTime :=
      congrArg (fun outline => outline.2.1) (PeriodHolder.updatePeriod_outline update)
    obtain ⟨rest, listed⟩ : ∃ rest, manifest.periods = period :: rest := by
      cases periods : manifest.periods with
      | nil => simp [periods] at isFirst
      | cons first rest =>
        simp only [periods, List.getElem?_cons_zero, Option.some.injEq] at isFirst
        exact ⟨rest, by rw [isFirst]⟩
    rw [survivors_cons listed, ← List.head?_eq_getElem?] at held
    have late := List.head?_dropWhile_not (fun holder => decide (startMs holder < period.startMs))
      source.periodHolders
    rw [held] at late
    have notBefore : ¬ startMs old < period.startMs := of_decide_eq_false late
    rw [startMs, same]
    exact Int.not_lt.mp notBefore
  · obtain ⟨created, isCreated, -, start⟩ := PeriodHolder.create_startTime created
    rw [isFirst] at isCreated
    cases isCreated
    rw [startMs, start, Int.mul_tdiv_cancel _ (by decide)]

theorem settled_of_settles {source after : DashChunkSource}
    {manifest : MediaPresentationDescription} {index : Nat} {holder : PeriodHolder}
    (settles : PeriodHolder.Settles manifest source.trackCriteria index
      (source.survivors manifest)[index]?)
    (regular : ∀ holder ∈ source.periodHolders, holder.Regular)
    (call : source.processManifest manifest = .ok (true, after))
    (atEnd : index = 0 ∨ index + 1 = manifest.periods.length)
    (found : after.periodHolders[index]? = some holder) :
    holder.Settled manifest source.trackCriteria index ∧ holder.Alive manifest := by
  rcases adopted_ends call atEnd found with ⟨old, held, update⟩ | ⟨isNew, localIndex, created⟩
  · rw [held] at settles
    have isHeld := (survivors_suffix source manifest).mem (List.mem_of_getElem? held)
    exact settles.update (regular old isHeld) update
  · rw [isNew] at settles
    exact settles.create created

theorem adopted_bare {source after : DashChunkSource} {manifest : MediaPresentationDescription}
    {index : Nat} {holder : PeriodHolder}
    (bare : PeriodHolder.Bare manifest source.trackCriteria index (source.survivors manifest)[index]?)
    (call : source.processManifest manifest = .ok (true, after))
    (found : after.periodHolders[index]? = some holder) : holder.representationHolders = [] := by
  obtain ⟨updated, added, next, range, update, length, fits, add, -, rfl⟩ :=
    processManifest_adopted call
  dsimp only at found
  by_cases held : index < updated.length
  · -- An update keeps the ids of a holder.
    rw [List.getElem?_append_left held] at found
    have outlines := congrArg (·[index]?) (updatePeriods_outline update)
    simp only [List.getElem?_map, found, Option.map_some] at outlines
    obtain ⟨old, isOld, same⟩ := Option.map_eq_some_iff.mp outlines.symm
    rw [isOld] at bare
    have ids : old.representationHolders.map Prod.fst = holder.representationHolders.map Prod.fst :=
      congrArg (fun outline => outline.2.2) same
    rw [show old.representationHolders = [] from bare] at ids
    exact List.map_eq_nil_iff.mp ids.symm
  · rw [List.getElem?_append_right (by omega)] at found
    obtain ⟨localIndex, created⟩ := addPeriods_create add found
    rw [Nat.add_sub_of_le (by omega)] at created
    rw [List.getElem?_eq_none (by omega)] at bare
    obtain ⟨period, listed, ⟨-, rfl⟩ | ⟨set, first, rest, selected, -, -⟩⟩ :=
      PeriodHolder.create_cases created
    · rw [PeriodHolder.updateRepresentationIndependentProperties_holders]
    · rw [bare period listed] at selected
      cases selected

theorem Settles.processManifest {source after : DashChunkSource}
    {manifest : MediaPresentationDescription} (settles : source.Settles manifest)
    (regular : ∀ holder ∈ source.periodHolders, holder.Regular)
    (call : source.processManifest manifest = .ok (true, after)) : after.Settled manifest := by
  have count := adopted_length call
  have listed := (processManifest_cases call).1
  have positive := List.length_pos_iff.mpr listed
  have nowRegular := regular_invariant.processManifest regular call
  have isLast : manifest.periods.length - 1 + 1 = manifest.periods.length :=
    Nat.sub_add_cancel positive
  have between (index : Nat) (behind : 0 < index) (before : index + 1 < manifest.periods.length)
      (holder : PeriodHolder) (found : after.periodHolders[index]? = some holder) :
      holder.representationHolders = [] :=
    adopted_bare (settles.between index behind before) call found
  have adopted := processManifest_adopted call
  obtain ⟨updated, added, next, range, -, -, -, -, isRange, same⟩ := adopted
  have criteria : after.trackCriteria = source.trackCriteria := by rw [same]
  have current : after.currentManifest = manifest := by rw [same]
  refine ⟨by rw [current], ?_, listed, count, nowRegular, ?_, ?_, between, ?_⟩
  · intro holder member
    rw [current]
    obtain ⟨index, found⟩ := List.getElem?_of_mem member
    have within := (List.getElem?_eq_some_iff.mp found).1
    by_cases isFirst : index = 0
    · subst isFirst
      exact (settled_of_settles settles.first regular call (.inl rfl) found).2
    · by_cases atEnd : index + 1 = manifest.periods.length
      · obtain rfl : index = manifest.periods.length - 1 := by omega
        exact (settled_of_settles settles.last regular call (.inr isLast) found).2
      · have none := between index (by omega) (by omega) holder found
        intro entry isEntry
        rw [none] at isEntry
        cases isEntry
  · intro holder found
    rw [criteria]
    exact (settled_of_settles settles.first regular call (.inl rfl) found).1
  · intro period isFirst
    exact adopted_start isFirst call
  · intro holder found
    rw [criteria]
    have settled := (settled_of_settles settles.last regular call (.inr isLast) found).1
    refine ⟨settled, ?_⟩
    intro unbounded
    have isLastHolder : (updated ++ added).getLast? = some holder := by
      rw [List.getLast?_eq_getElem?, ← found, ← count]
      rw [same]
    obtain ⟨-, implicit⟩ := (getAvailableRange_isOk_iff isLastHolder).mp ⟨range, isRange⟩ unbounded
    rcases settles.ends with dynamic | ends
    · exact ⟨dynamic, implicit⟩
    · have bounded := settled.bounded (nowRegular holder (List.mem_of_getElem? found)) ends
      rw [bounded] at unbounded
      cases unbounded

def repointed (owner : Nat) (source : DashChunkSource) : DashChunkSource :=
  { source with periodHolders := source.periodHolders.map (·.repointed owner) }

theorem repointed_getElem? {source : DashChunkSource} {owner index : Nat} {holder : PeriodHolder}
    (found : (source.repointed owner).periodHolders[index]? = some holder) :
    ∃ old, source.periodHolders[index]? = some old ∧ old.repointed owner = holder := by
  rwa [DashChunkSource.repointed, List.getElem?_map, Option.map_eq_some_iff] at found

section

variable {source : DashChunkSource} {manifest : MediaPresentationDescription}
  (settled : source.Settled manifest) (owner : Nat)

include settled

-- The updates of the first and the last holder are those of all holders: the others are bare.
theorem Settled.updatePeriods :
    DashChunkSource.updatePeriods source.trackCriteria (manifest.ownedBy owner)
        source.periodHolders = .ok (true, (source.repointed owner).periodHolders) := by
  have positive := List.length_pos_iff.mpr settled.listed
  obtain ⟨head, later, holders⟩ := List.exists_cons_of_ne_nil
    (List.length_pos_iff.mp (settled.count ▸ positive))
  have length : later.length = manifest.periods.length - 1 := by
    have count := settled.count
    rw [holders, List.length_cons] at count
    omega
  have headHeld : head ∈ source.periodHolders := by simp [holders]
  have headSame := (settled.first head (by simp [holders])).updatePeriod
    (settled.regular head headHeld) owner
  have middle : later.dropLast.map (·.repointed owner) = later.dropLast := by
    rw [List.map_congr_left (g := id), List.map_id]
    intro holder member
    obtain ⟨index, found⟩ := List.getElem?_of_mem member
    have within := (List.getElem?_eq_some_iff.mp found).1
    rw [List.length_dropLast] at within
    rw [List.getElem?_dropLast, if_pos within] at found
    have isHolder : source.periodHolders[index + 1]? = some holder := by
      rw [holders, List.getElem?_cons_succ, found]
    have none := settled.between (index + 1) (by omega) (by omega) holder isHolder
    simp only [PeriodHolder.repointed, none, List.map_nil, id]
    rw [← none]
  rw [DashChunkSource.repointed, holders, DashChunkSource.updatePeriods, headSame]
  simp only [bind, Except.bind, Bool.not_true, Bool.false_eq_true, if_false]
  cases isLast : later.getLast? with
  | none =>
    rw [List.getLast?_eq_none_iff.mp isLast]
    rfl
  | some last =>
    have found : source.periodHolders[later.length]? = some last := by
      rw [List.getLast?_eq_getElem?] at isLast
      have positive : 0 < later.length := by
        have within := (List.getElem?_eq_some_iff.mp isLast).1
        omega
      rw [holders, List.getElem?_cons, if_neg (by omega), isLast]
    have lastSame := (settled.last last (length ▸ found)).1.updatePeriod
      (settled.regular last (List.mem_of_getElem? found)) owner
    rw [← length] at lastSame
    have parts := List.dropLast_append_getLast? last isLast
    have all : later.map (·.repointed owner) = later.dropLast ++ [last.repointed owner] := by
      rw [← middle, ← List.map_singleton, ← List.map_append, parts]
    simp only [lastSame, pure, Except.pure, List.cons_append, List.map_cons, all]

theorem Settled.repointed_alive : ∀ holder ∈ (source.repointed owner).periodHolders,
    holder.Alive (manifest.ownedBy owner) := by
  intro holder member
  obtain ⟨old, held, rfl⟩ := List.mem_map.mp member
  obtain ⟨index, found⟩ := List.getElem?_of_mem held
  have within := (List.getElem?_eq_some_iff.mp found).1
  have count := settled.count
  have regular := settled.regular old held
  by_cases isFirst : index = 0
  · subst isFirst
    exact (settled.first old found).alive regular owner
  · by_cases atEnd : index + 1 = manifest.periods.length
    · obtain rfl : index = manifest.periods.length - 1 := by omega
      exact (settled.last old found).1.alive regular owner
    · have none := settled.between index (by omega) (by omega) old found
      intro entry isEntry
      simp only [PeriodHolder.repointed, none, List.map_nil] at isEntry
      cases isEntry

theorem Settled.repointed (range : Option TimeRange) :
    { source.repointed owner with
      currentManifest := manifest.ownedBy owner, availableRange := range }.Settled manifest where
  current := rfl
  alive := settled.repointed_alive owner
  listed := settled.listed
  count := (List.length_map _).trans settled.count
  regular holder member := by
    obtain ⟨old, held, rfl⟩ := List.mem_map.mp member
    exact (settled.regular old held).repointed owner
  first holder found := by
    obtain ⟨old, held, rfl⟩ := repointed_getElem? found
    exact (settled.first old held).repointed owner
  start period isPeriod holder isHead := by
    rw [Option.mem_def, List.head?_eq_getElem?] at isHead
    obtain ⟨old, held, rfl⟩ := repointed_getElem? isHead
    exact settled.start period isPeriod old (by rw [Option.mem_def, List.head?_eq_getElem?, held])
  between index behind before holder found := by
    obtain ⟨old, held, rfl⟩ := repointed_getElem? found
    simp only [PeriodHolder.repointed, settled.between index behind before old held, List.map_nil]
  last holder found := by
    obtain ⟨old, held, rfl⟩ := repointed_getElem? found
    exact ⟨(settled.last old held).1.repointed owner, (settled.last old held).2⟩

theorem Settled.processManifest :
    ∃ range, source.processManifest (manifest.ownedBy owner) =
      .ok (true, { source.repointed owner with
        currentManifest := manifest.ownedBy owner, availableRange := some range }) := by
  obtain ⟨period, rest, listed⟩ := List.exists_cons_of_ne_nil settled.listed
  have isPeriod : manifest.periods[0]? = some period := by simp [listed]
  have isPeriod' : (manifest.ownedBy owner).periods[0]? = some (period.ownedBy owner) := by
    simp [MediaPresentationDescription.ownedBy, isPeriod]
  have kept := (removeOldPeriods_eq_iff source (period.ownedBy owner)).mpr
    (settled.start period isPeriod)
  have positive := List.length_pos_iff.mpr settled.listed
  have count : (manifest.ownedBy owner).periods.length = source.periodHolders.length := by
    rw [settled.count, MediaPresentationDescription.ownedBy, List.length_map]
  have count' : (source.repointed owner).periodHolders.length = source.periodHolders.length :=
    List.length_map _
  obtain ⟨last, isLast⟩ : ∃ last, source.periodHolders.getLast? = some last := by
    have some : source.periodHolders ≠ [] := List.length_pos_iff.mp (settled.count ▸ positive)
    exact ⟨_, List.getLast?_eq_some_getLast some⟩
  have isLastHolder : source.periodHolders[manifest.periods.length - 1]? = some last := by
    rw [← settled.count, ← List.getLast?_eq_getElem?, isLast]
  have known := (settled.last last isLastHolder).2
  rw [← settled.current] at known
  have isLast' : (source.repointed owner).periodHolders.getLast? = some (last.repointed owner) := by
    rw [DashChunkSource.repointed, List.getLast?_map, isLast, Option.map_some]
  obtain ⟨range, isRange⟩ := (getAvailableRange_isOk_iff isLast').mpr known
  refine ⟨range, ?_⟩
  unfold DashChunkSource.processManifest MediaPresentationDescription.getPeriod
  rw [isPeriod']
  simp only [bind, Except.bind, kept, count, gt_iff_lt, Nat.lt_irrefl, if_false,
    settled.updatePeriods owner, Bool.not_true, Bool.false_eq_true, count', Nat.sub_self, addPeriods,
    List.append_nil]
  rw [show { source with periodHolders := (source.repointed owner).periodHolders } =
    source.repointed owner from rfl, isRange]
  rfl

end

theorem request_source {source after : DashChunkSource} {request : ChunkRequest}
    {out : ChunkOperationHolder} (call : source.request request = .ok (out, after)) :
    ∃ startAtLiveEdge fatalError evaluation lastChunkWasInitialization,
      after = { source with
        startAtLiveEdge, fatalError, evaluation, lastChunkWasInitialization } := by
  unfold DashChunkSource.request getChunkOperation at call
  split at call
  · cases call
    exact ⟨_, _, _, _, rfl⟩
  · split at call
    · cases call
    · obtain ⟨⟨choice, position, between⟩, isChoice, call⟩ := bind_ok call
      obtain ⟨⟨startAtLiveEdge, fatalError, rfl⟩, -⟩ := choosePeriod_cases isChoice
      cases choice with
      | stop endOfStream =>
        cases call
        exact ⟨_, _, _, _, rfl⟩
      | «from» holder startingNewPeriod =>
        simp only [loadFrom] at call
        split at call
        · cases call
          exact ⟨_, _, _, _, rfl⟩
        · split at call
          · cases call
            exact ⟨_, _, _, _, rfl⟩
          · obtain ⟨chunk, _, call⟩ := bind_ok call
            cases call
            exact ⟨_, _, _, _, rfl⟩

theorem Settled.request {source after : DashChunkSource} {manifest : MediaPresentationDescription}
    {request : ChunkRequest} {out : ChunkOperationHolder} (settled : source.Settled manifest)
    (call : source.request request = .ok (out, after)) : after.Settled manifest := by
  obtain ⟨_, _, _, _, rfl⟩ := request_source call
  exact ⟨settled.current, settled.alive, settled.listed, settled.count, settled.regular,
    settled.first, settled.start, settled.between, settled.last⟩

theorem giveInitialization_carries {representation : Representation} {duration : Int}
    {representationHolder : RepresentationHolder}
    (carries : representationHolder.Carries representation duration) (data : InitializationData) :
    (giveInitialization representationHolder data).Carries representation duration := by
  rw [giveInitialization_eq]
  refine ⟨carries.itself, carries.length, ?_, carries.ranged⟩
  intro isIndex
  obtain ⟨index, same⟩ := Option.ne_none_iff_exists'.mp isIndex
  simp only [carries.used isIndex, same, Option.some_or]

section

variable {data : InitializationData} {holder after : PeriodHolder}
  (initialized : Initialized data holder after)

include initialized

theorem Initialized.regular (regular : holder.Regular) : after.Regular := by
  cases initialized with
  | same => exact regular
  | given id representationHolder held =>
    apply regular.store
    rw [giveInitialization_eq]
    exact regular.ranged id representationHolder held

theorem Initialized.startTime : after.startTime = holder.startTime := by
  cases initialized with
  | same => rfl
  | given => rfl

theorem Initialized.bounds :
    after.indexIsUnbounded = holder.indexIsUnbounded ∧
      after.indexIsExplicit = holder.indexIsExplicit := by
  cases initialized with
  | same => exact ⟨rfl, rfl⟩
  | given => exact ⟨rfl, rfl⟩

theorem Initialized.settled {manifest : MediaPresentationDescription} {criteria : TrackCriteria}
    {index : Nat} (settled : holder.Settled manifest criteria index) :
    after.Settled manifest criteria index := by
  cases initialized with
  | same => exact settled
  | given id representationHolder held =>
    obtain ⟨period, set, listed, selected, carries, steady⟩ := settled
    refine ⟨period, set, listed, selected, ⟨?_, ?_, ?_⟩, ?_⟩
    · intro other member
      obtain ⟨representation, old, isListed, found, itself⟩ := carries.all other member
      by_cases same : representation.format.id = id
      · subst same
        obtain rfl := Option.some.inj (found.symm.trans held)
        refine ⟨representation, _, isListed, ?_, giveInitialization_carries itself data⟩
        rw [PeriodHolder.getRepresentationHolder] at found ⊢
        rw [PeriodHolder.lookup_store, if_pos rfl, found, Option.map_some]
      · refine ⟨representation, old, isListed, ?_, itself⟩
        rw [PeriodHolder.getRepresentationHolder] at found ⊢
        rw [PeriodHolder.lookup_store, if_neg same, found]
    · intro entry member
      obtain ⟨before, isBefore, sameId⟩ := List.mem_map.mp
        (PeriodHolder.map_fst_store _ id _ ▸ List.mem_map_of_mem member)
      exact sameId ▸ carries.covers before isBefore
    · obtain ⟨first, rest, representation, indices, isFirst, properties⟩ := carries.properties
      refine ⟨first, rest, representation, indices, isFirst, ?_⟩
      rw [PeriodHolder.updateRepresentationIndependentProperties_with, properties]
    · intro representation member isHeld
      apply steady representation member
      rw [PeriodHolder.getRepresentationHolder, PeriodHolder.lookup_isSome] at isHeld ⊢
      simpa using isHeld

theorem Initialized.ids :
    after.representationHolders.map Prod.fst = holder.representationHolders.map Prod.fst := by
  cases initialized with
  | same => rfl
  | given => exact PeriodHolder.map_fst_store _ _ _

theorem Initialized.alive {manifest : MediaPresentationDescription} (alive : holder.Alive manifest) :
    after.Alive manifest := by
  cases initialized with
  | same => exact alive
  | given id representationHolder held =>
    intro entry member
    obtain ⟨before, isBefore, rfl⟩ := List.mem_map.mp member
    split
    · have isHeld := alive _ (PeriodHolder.mem_of_getRepresentationHolder held)
      rwa [giveInitialization_eq]
    · exact alive before isBefore

end

theorem Settled.loadCompleted {source after : DashChunkSource}
    {manifest : MediaPresentationDescription} {chunk : InitializationChunk}
    {data : InitializationData} (settled : source.Settled manifest) (numbered : source.Numbered)
    (completed : source.onChunkLoadCompleted chunk data = .ok after) : after.Settled manifest := by
  obtain ⟨change, rfl, initialized⟩ := onChunkLoadCompleted_initialized numbered completed
  have changed : ∀ (index : Nat) holder, (source.periodHolders.map change)[index]? = some holder →
      ∃ old, source.periodHolders[index]? = some old ∧ Initialized data old holder := by
    intro index holder found
    rw [List.getElem?_map] at found
    obtain ⟨old, isOld, rfl⟩ := Option.map_eq_some_iff.mp found
    exact ⟨old, isOld, initialized old (List.mem_of_getElem? isOld)⟩
  refine ⟨settled.current, ?_, settled.listed, by simpa using settled.count, ?_, ?_, ?_, ?_, ?_⟩
  · intro holder member
    obtain ⟨old, isOld, rfl⟩ := List.mem_map.mp member
    exact (initialized old isOld).alive (settled.alive old isOld)
  · intro holder member
    obtain ⟨old, isOld, rfl⟩ := List.mem_map.mp member
    exact (initialized old isOld).regular (settled.regular old isOld)
  · intro holder found
    obtain ⟨old, isOld, its⟩ := changed _ _ found
    exact its.settled (settled.first old isOld)
  · intro period isPeriod holder isHead
    rw [Option.mem_def, List.head?_eq_getElem?] at isHead
    obtain ⟨old, isOld, its⟩ := changed _ _ isHead
    rw [startMs, its.startTime]
    exact settled.start period isPeriod old (by rw [Option.mem_def, List.head?_eq_getElem?, isOld])
  · intro index behind before holder found
    obtain ⟨old, isOld, its⟩ := changed _ _ found
    have ids := its.ids
    rw [settled.between index behind before old isOld] at ids
    exact List.map_eq_nil_iff.mp ids
  · intro holder found
    obtain ⟨old, isOld, its⟩ := changed _ _ found
    obtain ⟨itsSettled, known⟩ := settled.last old isOld
    obtain ⟨unbounded, explicit⟩ := its.bounds
    refine ⟨its.settled itsSettled, ?_⟩
    rw [unbounded, explicit]
    exact known

def playing : Machine.System Session Operation where
  Start session := session.source.periodHolders = []
  Step session operation next := session.perform operation = .ok next

def Operation.Repeats (manifest : MediaPresentationDescription) : Operation → Prop
  | .request _ => True
  | .loadCompleted _ _ => True
  | .manifest other => ∃ owner, other = manifest.ownedBy owner

structure Ordinary (source : DashChunkSource) : Prop where
  numbered : source.Numbered
  regular : ∀ holder ∈ source.periodHolders, holder.Regular

theorem Ordinary.perform {session next : Session} {operation : Operation}
    (ordinary : session.source.Ordinary) (performed : session.perform operation = .ok next) :
    next.source.Ordinary := by
  cases operation with
  | request request =>
    obtain ⟨⟨out, after⟩, call, performed⟩ := bind_ok performed
    cases performed
    obtain ⟨_, _, _, _, rfl⟩ := request_source call
    exact ⟨ordinary.numbered, ordinary.regular⟩
  | loadCompleted chunk data =>
    obtain ⟨after, completed, performed⟩ := bind_ok performed
    cases performed
    obtain ⟨outlines, -, same, -⟩ := Session.onChunkLoadCompleted_holders ordinary.numbered completed
    have numbered : after.Numbered := by
      have length := congrArg List.length outlines
      simp only [List.length_map] at length
      rw [Numbered, map_localIndex outlines, same, length]
      exact ordinary.numbered
    obtain ⟨change, rfl, initialized⟩ :=
      onChunkLoadCompleted_initialized ordinary.numbered completed
    refine ⟨numbered, ?_⟩
    intro holder member
    obtain ⟨old, isOld, rfl⟩ := List.mem_map.mp member
    exact (initialized old isOld).regular (ordinary.regular old isOld)
  | manifest manifest =>
    obtain ⟨⟨adopted, after⟩, call, performed⟩ := bind_ok performed
    cases performed
    exact ⟨ordinary.numbered.processManifest call,
      regular_invariant.processManifest ordinary.regular call⟩

theorem Settled.perform {manifest : MediaPresentationDescription} {session next : Session}
    {operation : Operation} (ordinary : session.source.Ordinary)
    (settled : session.source.Settled manifest) (repeats : operation.Repeats manifest)
    (performed : session.perform operation = .ok next) : next.source.Settled manifest := by
  cases operation with
  | request request =>
    obtain ⟨⟨out, after⟩, call, performed⟩ := bind_ok performed
    cases performed
    exact settled.request call
  | loadCompleted chunk data =>
    obtain ⟨after, completed, performed⟩ := bind_ok performed
    cases performed
    exact settled.loadCompleted ordinary.numbered completed
  | manifest other =>
    obtain ⟨owner, rfl⟩ := repeats
    obtain ⟨⟨adopted, after⟩, call, performed⟩ := bind_ok performed
    obtain ⟨range, same⟩ := settled.processManifest owner
    rw [same] at call
    cases call
    cases performed
    exact settled.repointed owner (some range)

/-- A manifest of the same content is adopted, and all that changes is the range, and what points into
the manifest: no pointer into an older one is left. -/
theorem refresh_changes_nothing {before now : Session} {adopted : DashChunkSource}
    {manifest : MediaPresentationDescription} {operations : List Operation}
    (reached : Machine.Reachable playing before) (settles : before.source.Settles manifest)
    (adoption : before.source.processManifest manifest = .ok (true, adopted))
    (later : Machine.Run (playing.restrict fun _ operation _ => operation.Repeats manifest)
      { before with source := adopted } operations now) (owner : Nat) :
    (∀ holder ∈ now.source.periodHolders, holder.Alive now.source.currentManifest) ∧
      (∀ holder ∈ (now.source.repointed owner).periodHolders,
        holder.Alive (manifest.ownedBy owner)) ∧
      ∃ range, now.source.processManifest (manifest.ownedBy owner) =
        .ok (true, { now.source.repointed owner with
          currentManifest := manifest.ownedBy owner, availableRange := some range }) := by
  have ordinary : before.source.Ordinary := by
    refine reached.invariant (fun session => session.source.Ordinary) ?_ ?_
    · intro session new
      exact ⟨.of_nil new, by simp [show session.source.periodHolders = [] from new]⟩
    · intro session operation next kept performed
      exact kept.perform performed
  have adoptedOrdinary : adopted.Ordinary :=
    ⟨ordinary.numbered.processManifest adoption,
      regular_invariant.processManifest ordinary.regular adoption⟩
  have preserved : Machine.Preserves
      (playing.restrict fun _ operation _ => operation.Repeats manifest)
      fun session => session.source.Ordinary ∧ session.source.Settled manifest := by
    rintro session operation next ⟨kept, itsSettled⟩ ⟨performed, repeats⟩
    exact ⟨kept.perform performed, itsSettled.perform kept repeats performed⟩
  have settled := later.preserves preserved
    ⟨adoptedOrdinary, settles.processManifest ordinary.regular adoption⟩
  exact ⟨settled.2.alive, settled.2.repointed_alive owner, settled.2.processManifest owner⟩

-- Behind the first chunk of the first period.
theorem refresh_changes_nothing_twoPeriods :
    ∃ adopted now range,
      (newSource twoPeriods).processManifest twoPeriods = .ok (true, adopted) ∧
      Session.perform { source := adopted } (.request { evaluator := firstFormat }) = .ok now ∧
      now.source.processManifest (twoPeriods.ownedBy 1) =
        .ok (true, { now.source.repointed 1 with
          currentManifest := twoPeriods.ownedBy 1, availableRange := some range }) := by
  obtain ⟨adopted, adoption⟩ : ∃ adopted,
    (newSource twoPeriods).processManifest twoPeriods = .ok (true, adopted) := ⟨_, rfl⟩
  obtain ⟨now, performed⟩ : ∃ now,
      Session.perform { source := adopted } (.request { evaluator := firstFormat }) = .ok now := by
    cases adoption
    exact ⟨_, rfl⟩
  have reached : Machine.Reachable playing { source := newSource twoPeriods } := .start _ rfl
  have steady (period : Nat) (isPeriod : period < 2) (id : String) :
      (singleSegmentIndex (.create id "" 100 (-1))).Steady
        (PeriodHolder.periodDuration twoPeriods period) := by
    apply singleSegmentIndex_steady
    revert period
    decide
  have settles : (newSource twoPeriods).Settles twoPeriods := by
    have two : twoPeriods.periods.length = 2 := rfl
    refine ⟨⟨_, _, rfl, rfl, by decide, ?_⟩, ⟨_, _, rfl, rfl, by decide, ?_⟩,
      fun _ _ _ => by omega, nofun, .inr ?_⟩
    · intro representation member index isIndex
      rw [List.mem_singleton.mp member] at isIndex
      cases isIndex
      exact steady 0 (by decide) "main"
    · intro representation member index isIndex
      rw [List.mem_singleton.mp member] at isIndex
      cases isIndex
      exact steady 1 (by decide) "advert"
    · intro period set representation index isPeriod isSet isFirst isIndex
      cases isPeriod
      cases isSet
      cases isFirst
      cases isIndex
      decide
  obtain ⟨-, -, range, same⟩ := refresh_changes_nothing reached settles adoption
    (.cons ⟨performed, trivial⟩ (.nil _)) 1
  exact ⟨adopted, now, range, adoption, performed, same⟩

-- The second period has nothing for the track; it is created, but not updated.
def gapManifest : MediaPresentationDescription where
  periods := [initializedPeriod 0 "main", { startMs := 10000, adaptationSets := [] }]
  duration := 20000

-- The end of the only period, and so of its segment, is not known.
def endlessManifest : MediaPresentationDescription where
  periods := [initializedPeriod 0 "main"]

-- No update reaches the holder of the second period.
def longManifest : MediaPresentationDescription where
  periods := [initializedPeriod 0 "main", initializedPeriod 10000 "advert",
    initializedPeriod 20000 "main"]
  duration := 30000

def firstNums (source : DashChunkSource) : List (List (Except Fault Int)) :=
  source.periodHolders.map fun holder =>
    holder.representationHolders.map fun entry => entry.2.getFirstAvailableSegmentNum

def owners (source : DashChunkSource) : List (List Nat) :=
  source.periodHolders.map fun holder =>
    holder.representationHolders.map fun entry => entry.2.representation.owner

/-- The same manifest again is fatal where the last period has nothing for the track, shifts the
numbers where a single segment has no duration, and leaves the periods in the middle with what they
point to in the manifest that is dropped. -/
theorem refresh_fails :
    (∃ adopted after,
      (newSource gapManifest).processManifest gapManifest = .ok (true, adopted) ∧
      adopted.fatalError = false ∧ adopted.processManifest gapManifest = .ok (false, after) ∧
      after.fatalError = true) ∧
    (∃ adopted after,
      (newSource endlessManifest).processManifest endlessManifest = .ok (true, adopted) ∧
      adopted.processManifest endlessManifest = .ok (true, after) ∧
      adopted.firstNums = [[.ok 0]] ∧ after.firstNums = [[.ok 1]]) ∧
    ∃ adopted after,
      (newSource longManifest).processManifest longManifest = .ok (true, adopted) ∧
      adopted.processManifest (longManifest.ownedBy 1) = .ok (true, after) ∧
      adopted.owners = [[0], [0], [0]] ∧ after.owners = [[1], [0], [1]] := by
  refine ⟨⟨_, _, rfl, rfl, rfl, rfl⟩, ⟨_, _, rfl, rfl, rfl, rfl⟩, _, _, rfl, rfl, rfl, rfl⟩

end DashChunkSource

end NDash.Dash

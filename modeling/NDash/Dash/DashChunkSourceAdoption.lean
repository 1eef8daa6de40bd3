import NDash.Dash.DashChunkSourceManifest

set_option autoImplicit false

namespace NDash.Dash

open Mpd

theorem minElement_mem {α : Type} (less : α → α → Bool) (first : α) (rest : List α) :
    minElement less first rest ∈ first :: rest := by
  unfold minElement
  apply List.foldlRecOn (motive := fun smallest => smallest ∈ first :: rest)
  · exact List.mem_cons_self
  · intro smallest known element member
    split
    · exact List.mem_cons_of_mem _ member
    · exact known

theorem selectAdaptationSet_mem {period : Period} {criteria : TrackCriteria} {set : AdaptationSet}
    (selected : selectAdaptationSet period criteria = some set) : set ∈ period.adaptationSets := by
  unfold selectAdaptationSet at selected
  dsimp only at selected
  split at selected
  · cases selected
  · rename_i first rest filtered
    cases selected
    have member := minElement_mem (AdaptationSetComparator.less criteria) first rest
    rw [← filtered] at member
    exact (List.mem_filter.mp member).1

namespace PeriodHolder

def Holds (representations : List Representation) (holder : PeriodHolder) : Prop :=
  ∃ entry ∈ holder.representationHolders, entry.2.representation ∈ representations

theorem store_holds_own {holder : PeriodHolder} {representations : List Representation} {id : String}
    {representationHolder old : RepresentationHolder}
    (found : holder.representationHolders.lookup id = some old)
    (listed : representationHolder.representation ∈ representations) :
    { holder with
      representationHolders :=
        store holder.representationHolders id representationHolder }.Holds representations := by
  have held : (id, old) ∈ holder.representationHolders := mem_of_getRepresentationHolder found
  refine ⟨_, List.mem_map_of_mem held, ?_⟩
  simpa using listed

theorem updateRepresentations_holds {set : AdaptationSet} {duration : Int} {indices : List Nat}
    {holder after : PeriodHolder} {updated : Bool}
    (reached : indices ≠ [] ∨ holder.Holds set.representations)
    (update : updateRepresentations set duration indices holder = .ok (updated, after)) :
    after.Holds set.representations := by
  induction indices generalizing holder with
  | nil =>
    cases update
    exact reached.resolve_left (by simp)
  | cons index indices ih =>
    obtain ⟨representation, old, representationHolder, done, isListed, found, one, rest⟩ :=
      updateRepresentations_cons update
    have listed := List.mem_of_getElem? isListed
    have itself := RepresentationHolder.updateRepresentation_representation one
    have holds := store_holds_own found (itself ▸ listed)
    obtain ⟨-, onward⟩ | ⟨-, rfl⟩ := rest
    · exact ih (.inr holds) onward
    · exact holds

theorem updatePeriod_holds {holder after : PeriodHolder} {manifest : MediaPresentationDescription}
    {index : Nat} {criteria : TrackCriteria} {updated : Bool}
    (update : holder.updatePeriod manifest index criteria = .ok (updated, after)) :
    ∃ period, manifest.periods[index]? = some period ∧
      ((selectAdaptationSet period criteria = none ∧ updated = false ∧ after = holder) ∨
        ∃ set, selectAdaptationSet period criteria = some set ∧ after.Holds set.representations) := by
  obtain ⟨period, listed, ⟨nothing, failed, kept⟩ | ⟨set, between, selected, representations,
    result⟩⟩ := updatePeriod_cases update
  · exact ⟨period, listed, .inl ⟨nothing, failed, kept⟩⟩
  · refine ⟨period, listed, .inr ⟨set, selected, ?_⟩⟩
    by_cases none : holder.representationIndices = []
    · -- Nothing is updated, and there is no first representation to take the index of.
      rw [none] at representations
      cases representations
      obtain ⟨failed, -⟩ | ⟨-, first, rest, representation, indices, -, -⟩ := result
      · cases failed
      · rw [none] at indices
        cases indices
    · have holds := updateRepresentations_holds (.inl none) representations
      obtain ⟨-, rfl⟩ | ⟨-, first, rest, representation, -, -, rfl⟩ := result
      · exact holds
      · unfold Holds
        rw [updateRepresentationIndependentProperties_holders]
        exact holds

end PeriodHolder

namespace DashChunkSource

/-! A manifest that is adopted -/

theorem processManifest_adopted {source after : DashChunkSource}
    {manifest : MediaPresentationDescription}
    (call : source.processManifest manifest = .ok (true, after)) :
    ∃ updated added next range,
      updatePeriods source.trackCriteria manifest (source.survivors manifest) =
        .ok (true, updated) ∧
      updated.length = (source.survivors manifest).length ∧
      updated.length ≤ manifest.periods.length ∧
      addPeriods source.trackCriteria manifest (manifest.periods.length - updated.length)
        updated.length source.nextPeriodHolderIndex = .ok (added, next) ∧
      { source with
        periodHolders := updated ++ added
        nextPeriodHolderIndex := next }.getAvailableRange = .ok range ∧
      after = { source with
        periodHolders := updated ++ added
        nextPeriodHolderIndex := next
        availableRange := some range
        currentManifest := manifest } := by
  obtain ⟨-, outcome⟩ := processManifest_outcome call
  cases outcome with
  | adopted updated added next range fits update length add isRange =>
    exact ⟨updated, added, next, range, update, length, length.le.trans fits, add, isRange, rfl⟩

theorem adopted_length {source after : DashChunkSource} {manifest : MediaPresentationDescription}
    (call : source.processManifest manifest = .ok (true, after)) :
    after.periodHolders.length = manifest.periods.length := by
  obtain ⟨updated, added, next, range, -, -, fits, add, -, rfl⟩ := processManifest_adopted call
  have length := congrArg List.length (addPeriods_spec add).2.1
  simp only [List.length_map, indicesFrom, List.length_range] at length
  rw [List.length_append, length]
  omega

theorem updatePeriods_ends {criteria : TrackCriteria} {manifest : MediaPresentationDescription}
    {holders after : List PeriodHolder}
    (update : updatePeriods criteria manifest holders = .ok (true, after)) {index : Nat}
    (atEnd : index = 0 ∨ index + 1 = holders.length) {holder : PeriodHolder}
    (found : after[index]? = some holder) :
    ∃ old, holders[index]? = some old ∧
      old.updatePeriod manifest index criteria = .ok (true, holder) := by
  obtain ⟨-, -, rfl⟩ | ⟨first, later, newFirst, done, rfl, firstUpdate, rest⟩ :=
    updatePeriods_cases update
  · simp at found
  · obtain ⟨-, failed, -⟩ | ⟨rfl, rfl, -, rfl⟩ | ⟨rfl, last, newLast, isLast, lastUpdate, rfl⟩ := rest
    · cases failed
    · obtain rfl : index = 0 := by simpa using atEnd
      cases found
      exact ⟨first, rfl, firstUpdate⟩
    · have some : later ≠ [] := by
        rintro rfl
        simp at isLast
      have positive := List.length_pos_iff.mpr some
      by_cases isFirst : index = 0
      · subst isFirst
        cases found
        exact ⟨first, rfl, firstUpdate⟩
      · obtain rfl : index = later.length := by simpa [isFirst] using atEnd
        have isNew : newLast = holder := by
          rw [List.getElem?_append_right (by simp; omega)] at found
          simpa [Nat.sub_add_cancel positive] using found
        refine ⟨last, ?_, isNew ▸ lastUpdate⟩
        rw [List.getLast?_eq_getElem?] at isLast
        rw [List.getElem?_cons, if_neg (by omega), isLast]

theorem addPeriods_create {criteria : TrackCriteria} {manifest : MediaPresentationDescription}
    {count index : Nat} {next after : Int} {added : List PeriodHolder}
    (add : addPeriods criteria manifest count index next = .ok (added, after)) {offset : Nat}
    {holder : PeriodHolder} (found : added[offset]? = some holder) :
    ∃ localIndex, PeriodHolder.create localIndex manifest (index + offset) criteria = .ok holder := by
  induction count generalizing index next added offset with
  | zero =>
    cases add
    simp at found
  | succ count ih =>
    obtain ⟨first, created, add⟩ := bind_ok add
    obtain ⟨⟨later, _⟩, rest, add⟩ := bind_ok add
    cases add
    cases offset with
    | zero =>
      cases found
      exact ⟨next, created⟩
    | succ offset =>
      obtain ⟨localIndex, isLater⟩ := ih rest found
      rw [Nat.add_right_comm] at isLater
      exact ⟨localIndex, isLater⟩

theorem adopted_ends {source after : DashChunkSource} {manifest : MediaPresentationDescription}
    (call : source.processManifest manifest = .ok (true, after)) {index : Nat}
    (atEnd : index = 0 ∨ index + 1 = manifest.periods.length) {holder : PeriodHolder}
    (found : after.periodHolders[index]? = some holder) :
    (∃ old, (source.survivors manifest)[index]? = some old ∧
      old.updatePeriod manifest index source.trackCriteria = .ok (true, holder)) ∨
    ((source.survivors manifest)[index]? = none ∧ ∃ localIndex,
      PeriodHolder.create localIndex manifest index source.trackCriteria = .ok holder) := by
  obtain ⟨updated, added, next, range, update, length, fits, add, -, rfl⟩ :=
    processManifest_adopted call
  by_cases held : index < updated.length
  · left
    dsimp only at found
    rw [List.getElem?_append_left held] at found
    exact updatePeriods_ends update (by omega) found
  · right
    refine ⟨List.getElem?_eq_none (by omega), ?_⟩
    dsimp only at found
    rw [List.getElem?_append_right (by omega)] at found
    obtain ⟨localIndex, created⟩ := addPeriods_create add found
    rw [Nat.add_sub_of_le (by omega)] at created
    exact ⟨localIndex, created⟩

/-! A manifest that is not adopted -/

def Fresh (source : DashChunkSource) (manifest : MediaPresentationDescription) : Prop :=
  ∀ period ∈ manifest.periods, ∀ set ∈ period.adaptationSets, ∀ holder ∈ source.periodHolders,
    ¬ holder.Holds set.representations

structure Untouched (before after : DashChunkSource) : Prop where
  periodHolders : after.periodHolders = before.periodHolders
  nextPeriodHolderIndex : after.nextPeriodHolderIndex = before.nextPeriodHolderIndex
  availableRange : after.availableRange = before.availableRange
  currentManifest : after.currentManifest = before.currentManifest

def DropsNothing (source : DashChunkSource) (first : Period) : Prop :=
  ∀ holder ∈ source.periodHolders.head?, (first.startMs : Int) ≤ startMs holder

instance (source : DashChunkSource) (first : Period) : Decidable (source.DropsNothing first) :=
  inferInstanceAs
    (Decidable (∀ holder ∈ source.periodHolders.head?, (first.startMs : Int) ≤ startMs holder))

theorem removeOldPeriods_eq_iff (source : DashChunkSource) (first : Period) :
    removeOldPeriods source.periodHolders first = source.periodHolders ↔
      source.DropsNothing first := by
  unfold removeOldPeriods DropsNothing
  cases source.periodHolders with
  | nil => simp
  | cons holder later =>
    simp only [List.head?_cons, Option.mem_def, Option.some.injEq, forall_eq']
    constructor
    · intro same
      by_contra early
      rw [List.dropWhile_cons_of_pos (by simpa using early)] at same
      have shorter : (later.dropWhile fun holder => decide (startMs holder < first.startMs)).length ≤
          later.length := (List.dropWhile_sublist _).length_le
      rw [same, List.length_cons] at shorter
      omega
    · intro late
      exact List.dropWhile_cons_of_neg (by simpa using late)

-- The first held period decides whether a failed update has changed anything.
theorem updatePeriods_failed {criteria : TrackCriteria} {manifest : MediaPresentationDescription}
    {holders after : List PeriodHolder} {first : Period}
    (listed : manifest.periods[0]? = some first)
    (update : updatePeriods criteria manifest holders = .ok (false, after)) :
    (selectAdaptationSet first criteria = none ∧ after = holders) ∨
      ∃ set head later, selectAdaptationSet first criteria = some set ∧ after = head :: later ∧
        head.Holds set.representations := by
  obtain ⟨-, failed, -⟩ | ⟨holder, later, head, done, rfl, firstUpdate, rest⟩ :=
    updatePeriods_cases update
  · cases failed
  · obtain ⟨period, isPeriod, touched⟩ := PeriodHolder.updatePeriod_holds firstUpdate
    obtain rfl := Option.some.inj (listed.symm.trans isPeriod)
    rcases touched with ⟨nothing, rfl, rfl⟩ | ⟨set, selected, holds⟩
    · obtain ⟨-, -, rfl⟩ | ⟨isDone, -⟩ | ⟨isDone, -⟩ := rest
      · exact .inl ⟨nothing, rfl⟩
      · cases isDone
      · cases isDone
    · refine .inr ⟨set, head, ?_⟩
      obtain ⟨-, -, rfl⟩ | ⟨-, -, failed, -⟩ | ⟨-, last, newLast, -, -, rfl⟩ := rest
      · exact ⟨later, selected, rfl, holds⟩
      · cases failed
      · exact ⟨_, selected, rfl, holds⟩

def RejectedFirst (source : DashChunkSource) (manifest : MediaPresentationDescription)
    (first : Period) : Prop :=
  manifest.periods.length < source.periodHolders.length ∨
    selectAdaptationSet first source.trackCriteria = none

theorem rejected_untouched_iff {source after : DashChunkSource}
    {manifest : MediaPresentationDescription} {first : Period} {rest : List Period}
    (listed : manifest.periods = first :: rest)
    (call : source.processManifest manifest = .ok (false, after)) :
    (source.DropsNothing first ∧ source.RejectedFirst manifest first → Untouched source after) ∧
      (source.Fresh manifest → Untouched source after →
        source.DropsNothing first ∧ source.RejectedFirst manifest first) := by
  obtain ⟨-, outcome⟩ := processManifest_outcome call
  have survivors : source.survivors manifest = removeOldPeriods source.periodHolders first := by
    simp only [DashChunkSource.survivors, listed]
  rw [survivors] at outcome
  have isFirst : manifest.periods[0]? = some first := by simp [listed]
  have suffix : removeOldPeriods source.periodHolders first <:+ source.periodHolders :=
    List.dropWhile_suffix _
  have shorter := suffix.length_le
  cases outcome with
  | tooMany more =>
    constructor
    · rintro ⟨nothing, -⟩
      exact ⟨(removeOldPeriods_eq_iff source first).mpr nothing, rfl, rfl, rfl⟩
    · intro _ untouched
      exact ⟨(removeOldPeriods_eq_iff source first).mp untouched.periodHolders, .inl (by omega)⟩
  | failed holders fits update =>
    have length := congrArg List.length (updatePeriods_outline update)
    simp only [List.length_map] at length
    have failure := updatePeriods_failed isFirst update
    constructor
    · rintro ⟨nothing, early⟩
      have kept := (removeOldPeriods_eq_iff source first).mpr nothing
      rw [kept] at fits failure
      rcases failure with ⟨-, same⟩ | ⟨set, head, later, selected, -⟩
      · exact ⟨same, rfl, rfl, rfl⟩
      · rcases early with tooFew | none
        · exact absurd tooFew (Nat.not_lt.mpr fits)
        · rw [selected] at none
          cases none
    · intro fresh untouched
      have same : holders = source.periodHolders := untouched.periodHolders
      have nothing : removeOldPeriods source.periodHolders first = source.periodHolders :=
        suffix.eq_of_length (length.symm.trans (congrArg List.length same))
      refine ⟨(removeOldPeriods_eq_iff source first).mp nothing, .inr ?_⟩
      rcases failure with ⟨none, -⟩ | ⟨set, head, later, selected, shape, holds⟩
      · exact none
      · -- The head holds a representation of the manifest now, and no holder did before.
        have held : head ∈ source.periodHolders := by
          rw [← same, shape]
          exact List.mem_cons_self
        exact absurd holds (fresh first (List.mem_of_getElem? isFirst) set
          (selectAdaptationSet_mem selected) head held)

def recodedManifest (starts : List Nat) : MediaPresentationDescription where
  periods := starts.map fun startMs =>
    { startMs
      adaptationSets := [{
        representations := [{
          format := { id := "video", bitrate := 1000 }
          index := some (numberedSegments.index fun timestamp _ _ => timestamp) }] }] }
  dynamic := true

def adoptedSource (starts : List Nat) : DashChunkSource :=
  match (liveSource starts).processManifest (liveManifest starts) with
  | .ok (_, source) => source
  | .error _ => liveSource starts

-- Both manifests have too few periods, but with the second one the first period goes.
theorem rejected_untouched_iff_recoded :
    (∃ after, (adoptedSource [0, 10000, 20000]).processManifest (recodedManifest [0]) =
        .ok (false, after) ∧ Untouched (adoptedSource [0, 10000, 20000]) after) ∧
      ∃ after, (adoptedSource [0, 10000, 20000]).processManifest (recodedManifest [10000]) =
        .ok (false, after) ∧ ¬ Untouched (adoptedSource [0, 10000, 20000]) after := by
  constructor
  · obtain ⟨after, call⟩ : ∃ after, (adoptedSource [0, 10000, 20000]).processManifest
      (recodedManifest [0]) = .ok (false, after) := ⟨_, rfl⟩
    exact ⟨after, call, (rejected_untouched_iff rfl call).1 ⟨by decide, .inl (by decide)⟩⟩
  · obtain ⟨after, call⟩ : ∃ after, (adoptedSource [0, 10000, 20000]).processManifest
      (recodedManifest [10000]) = .ok (false, after) := ⟨_, rfl⟩
    have formats : ∀ period ∈ (recodedManifest [10000]).periods, ∀ set ∈ period.adaptationSets,
        ∀ holder ∈ (adoptedSource [0, 10000, 20000]).periodHolders,
          ∀ entry ∈ holder.representationHolders, ∀ representation ∈ set.representations,
            entry.2.representation.format ≠ representation.format := by decide
    have fresh : (adoptedSource [0, 10000, 20000]).Fresh (recodedManifest [10000]) := by
      rintro period isPeriod set isSet holder isHolder ⟨entry, isEntry, held⟩
      exact formats period isPeriod set isSet holder isHolder entry isEntry _ held rfl
    refine ⟨after, call, ?_⟩
    intro untouched
    exact absurd ((rejected_untouched_iff rfl call).2 fresh untouched).1 (by decide)

/-- The two periods that are left are more than the manifest has, but the first one is gone. -/
theorem rejected_manifest_drops_period :
    ∃ after, (adoptedSource [0, 10000, 20000]).processManifest (liveManifest [10000]) =
        .ok (false, after) ∧
      (adoptedSource [0, 10000, 20000]).periodHolders.map PeriodHolder.localIndex = [0, 1, 2] ∧
      after.periodHolders.map PeriodHolder.localIndex = [1, 2] ∧
      ¬ Untouched (adoptedSource [0, 10000, 20000]) after := by
  refine ⟨_, rfl, by decide, by decide, ?_⟩
  intro untouched
  exact absurd (congrArg (List.map PeriodHolder.localIndex) untouched.periodHolders) (by decide)

end DashChunkSource

end NDash.Dash

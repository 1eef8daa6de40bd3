import NDash.Dash.DashChunkSourceRefresh

set_option autoImplicit false

namespace NDash.Dash

open Mpd

namespace PeriodHolder

def explicitIn (period : Period) (criteria : TrackCriteria) : Bool :=
  match selectAdaptationSet period criteria with
  | none => true
  | some set =>
    match set.representations[0]? with
    | none => true
    | some first => (first.index.map DashSegmentIndex.isExplicit).getD true

theorem updateRepresentationIndependentProperties_explicit (holder : PeriodHolder) (duration : Int)
    (index : Option DashSegmentIndex) :
    (holder.updateRepresentationIndependentProperties duration index).indexIsExplicit =
      (index.map DashSegmentIndex.isExplicit).getD true := by
  obtain ⟨_, _, _, same⟩ := updateRepresentationIndependentProperties_window holder duration index
  rw [same]

section

variable {manifest : MediaPresentationDescription} {index : Nat} {criteria : TrackCriteria}
  {period : Period} (listed : manifest.periods[index]? = some period)

include listed

theorem create_explicit {localIndex : Int} {holder : PeriodHolder}
    (created : create localIndex manifest index criteria = .ok holder) :
    holder.indexIsExplicit = explicitIn period criteria := by
  obtain ⟨_, isPeriod, ⟨none, rfl⟩ | ⟨set, first, rest, selected, representations, rfl⟩⟩ :=
    create_cases created
  · cases listed.symm.trans isPeriod
    simp only [explicitIn, none]
    rfl
  · cases listed.symm.trans isPeriod
    simp only [explicitIn, selected, representations, List.getElem?_cons_zero]
    exact updateRepresentationIndependentProperties_explicit _ _ _

theorem updatePeriod_explicit {holder after : PeriodHolder} (regular : holder.Regular)
    (update : holder.updatePeriod manifest index criteria = .ok (true, after)) :
    after.indexIsExplicit = explicitIn period criteria := by
  obtain ⟨_, isPeriod, ⟨-, failed, -⟩ | ⟨set, between, selected, representations, result⟩⟩ :=
    updatePeriod_cases update
  · cases failed
  · cases listed.symm.trans isPeriod
    have same := updateRepresentations_indices representations
    obtain ⟨failed, -⟩ | ⟨-, first, rest, representation, indices, isFirst, rfl⟩ := result
    · cases failed
    · obtain rfl : first = 0 := regular.first_eq (same ▸ indices)
      simp only [explicitIn, selected, isFirst]
      exact updateRepresentationIndependentProperties_explicit _ _ _

end

end PeriodHolder

namespace DashChunkSource

-- In milliseconds; a buffer without a depth has no limit.
def bufferDepth (manifest : MediaPresentationDescription) : Int :=
  if manifest.timeShiftBufferDepth = -1 then 0 else manifest.timeShiftBufferDepth

def SameWindow (old new : MediaPresentationDescription) : Prop :=
  old.dynamic = new.dynamic ∧ (new.dynamic = true →
    old.availabilityStartTime = new.availabilityStartTime ∧ bufferDepth old = bufferDepth new)

instance (old new : MediaPresentationDescription) : Decidable (SameWindow old new) :=
  inferInstanceAs (Decidable (_ ∧ _))

/-- The published range is the one of the current manifest and the periods that are held. -/
def RangeIsCurrent (source : DashChunkSource) : Prop :=
  ∃ range, source.getAvailableRange = .ok range ∧ source.availableRange = some range

/-- Where the range that is computed with the manifest before is the one of the new manifest. -/
def RangeCarriesOver (source : DashChunkSource) (manifest : MediaPresentationDescription) : Prop :=
  (∀ period ∈ manifest.periods.getLast?, PeriodHolder.explicitIn period source.trackCriteria = true) ∨
    SameWindow source.currentManifest manifest

theorem getAvailableRange_eq_iff {source : DashChunkSource} {last : PeriodHolder} {range : TimeRange}
    (isRange : source.getAvailableRange = .ok range)
    (isLast : source.periodHolders.getLast? = some last) (manifest : MediaPresentationDescription) :
    { source with currentManifest := manifest }.getAvailableRange = .ok range ↔
      last.indexIsExplicit = true ∨ SameWindow source.currentManifest manifest := by
  obtain ⟨first, isFirst⟩ : ∃ first, source.periodHolders.head? = some first := by
    cases holders : source.periodHolders with
    | nil => simp [holders] at isLast
    | cons first later => exact ⟨first, rfl⟩
  simp only [getAvailableRange, isFirst, isLast] at isRange ⊢
  cases explicit : last.indexIsExplicit with
  | true =>
    simp only [explicit, Bool.or_true, if_true] at isRange ⊢
    simp [isRange]
  | false =>
    simp only [explicit, Bool.or_false, Bool.not_eq_true', Bool.false_eq_true, false_or] at isRange ⊢
    unfold SameWindow
    cases wasDynamic : source.currentManifest.dynamic with
    | false =>
      simp only [wasDynamic, if_true] at isRange
      cases isDynamic : manifest.dynamic with
      | false => simp [isRange]
      | true =>
        -- A static range was published.
        cases isEnd : last.getAvailableEndTime with
        | none => simp [isEnd] at isRange
        | some endTime =>
          simp only [isEnd, Except.ok.injEq] at isRange
          simp [← isRange]
    | true =>
      simp only [wasDynamic, Bool.true_eq_false, if_false, Except.ok.injEq] at isRange
      cases isDynamic : manifest.dynamic with
      | false =>
        cases last.getAvailableEndTime with
        | none => simp
        | some endTime => simp [← isRange]
      | true =>
        simp only [Bool.true_eq_false, if_false, Except.ok.injEq, ← isRange, TimeRange.dynamic.injEq,
          true_and, forall_const, bufferDepth]
        constructor
        · rintro ⟨zero, depth⟩
          refine ⟨by omega, ?_⟩
          split_ifs at depth ⊢ <;> omega
        · rintro ⟨zero, depth⟩
          refine ⟨by omega, ?_⟩
          split_ifs at depth ⊢ <;> omega

theorem adopted_range_iff {source after : DashChunkSource} {manifest : MediaPresentationDescription}
    (regular : ∀ holder ∈ source.periodHolders, holder.Regular)
    (call : source.processManifest manifest = .ok (true, after)) :
    after.RangeIsCurrent ↔ source.RangeCarriesOver manifest := by
  have count := adopted_length call
  have positive := List.length_pos_iff.mpr (processManifest_cases call).1
  have isEnd : manifest.periods.length - 1 + 1 = manifest.periods.length :=
    Nat.sub_add_cancel positive
  obtain ⟨period, isPeriod⟩ : ∃ period, manifest.periods.getLast? = some period :=
    ⟨_, List.getLast?_eq_some_getLast (processManifest_cases call).1⟩
  have listed := isPeriod
  rw [List.getLast?_eq_getElem?] at listed
  obtain ⟨last, isLast⟩ : ∃ last, after.periodHolders[manifest.periods.length - 1]? = some last :=
    ⟨_, List.getElem?_eq_getElem (by omega)⟩
  have explicit : last.indexIsExplicit = PeriodHolder.explicitIn period source.trackCriteria := by
    rcases adopted_ends call (.inr isEnd) isLast with ⟨old, held, update⟩ | ⟨-, localIndex, created⟩
    · have isHeld := (survivors_suffix source manifest).mem (List.mem_of_getElem? held)
      exact PeriodHolder.updatePeriod_explicit listed (regular old isHeld) update
    · exact PeriodHolder.create_explicit listed created
  obtain ⟨updated, added, next, range, -, -, -, -, isRange, rfl⟩ := processManifest_adopted call
  rw [← count, ← List.getLast?_eq_getElem?] at isLast
  have same := getAvailableRange_eq_iff isRange isLast manifest
  rw [explicit] at same
  calc
    _ ↔ { source with
          periodHolders := updated ++ added
          nextPeriodHolderIndex := next
          currentManifest := manifest }.getAvailableRange = .ok range := by
      simp [RangeIsCurrent, getAvailableRange]
    _ ↔ _ := same
    _ ↔ _ := by simp [RangeCarriesOver, isPeriod]

def EachAdoption
    (property : DashChunkSource → MediaPresentationDescription → DashChunkSource → Prop)
    (source : DashChunkSource) : List MediaPresentationDescription → Prop
  | [] => True
  | manifest :: later =>
    match source.processManifest manifest with
    | .error _ => True
    | .ok (adopted, after) =>
      (adopted = true → property source manifest after) ∧ EachAdoption property after later

theorem eachAdoption_congr
    {first second : DashChunkSource → MediaPresentationDescription → DashChunkSource → Prop}
    (agree : ∀ {source after : DashChunkSource} {manifest : MediaPresentationDescription},
      (∀ holder ∈ source.periodHolders, holder.Regular) →
      source.processManifest manifest = .ok (true, after) →
      (first source manifest after ↔ second source manifest after))
    {source : DashChunkSource} (regular : ∀ holder ∈ source.periodHolders, holder.Regular)
    (manifests : List MediaPresentationDescription) :
    source.EachAdoption first manifests ↔ source.EachAdoption second manifests := by
  induction manifests generalizing source with
  | nil => exact Iff.rfl
  | cons manifest later ih =>
    unfold EachAdoption
    cases call : source.processManifest manifest with
    | error fault => exact Iff.rfl
    | ok result =>
      obtain ⟨adopted, after⟩ := result
      have step : (adopted = true → first source manifest after) ↔
          (adopted = true → second source manifest after) := by
        cases adopted with
        | false => simp
        | true => simpa using agree regular call
      exact and_congr step (ih (regular_invariant.processManifest regular call))

/-- The range that is published with a manifest is computed with the one before it. -/
theorem range_is_current_iff (source : DashChunkSource)
    (manifests : List MediaPresentationDescription) (new : source.periodHolders = []) :
    source.EachAdoption (fun _ _ after => after.RangeIsCurrent) manifests ↔
      source.EachAdoption (fun before manifest _ => before.RangeCarriesOver manifest) manifests :=
  eachAdoption_congr adopted_range_iff (by simp [new]) manifests

theorem range_is_current_iff_sliding :
    (liveSource [0, 10000]).EachAdoption (fun _ _ after => after.RangeIsCurrent)
      [liveManifest [0, 10000], liveManifest [10000, 20000]] := by
  refine (range_is_current_iff (liveSource [0, 10000]) _ rfl).mpr ?_
  exact ⟨fun _ => .inr (by decide), fun _ => .inr (by decide), trivial⟩

def endedManifest : MediaPresentationDescription :=
  { liveManifest [0] with
    dynamic := false
    duration := 20000 }

theorem ended_range_is_dynamic :
    (∃ live after,
      (liveSource [0]).processManifest (liveManifest [0]) = .ok (true, live) ∧
      live.processManifest endedManifest = .ok (true, after) ∧
      after.availableRange = some (.dynamic 0 20000000 0 0) ∧
      after.getAvailableRange = .ok (.static 0 20000000)) ∧
    ¬ (liveSource [0]).EachAdoption (fun _ _ after => after.RangeIsCurrent)
      [liveManifest [0], endedManifest] := by
  refine ⟨⟨_, _, rfl, rfl, rfl, rfl⟩, ?_⟩
  rintro ⟨-, current, -⟩
  obtain ⟨range, computed, published⟩ := current rfl
  cases computed
  cases published

end DashChunkSource

end NDash.Dash

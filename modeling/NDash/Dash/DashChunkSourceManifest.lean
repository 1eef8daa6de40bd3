import Mathlib.Data.List.Nodup
import NDash.Dash.DashChunkSource
import NDash.Mpd.MultiSegmentBase

set_option autoImplicit false

namespace NDash.Dash.DashChunkSource

open Mpd

theorem updatePeriods_cases {criteria : TrackCriteria} {manifest : MediaPresentationDescription}
    {holders after : List PeriodHolder} {updated : Bool}
    (update : updatePeriods criteria manifest holders = .ok (updated, after)) :
    (holders = [] ∧ updated = true ∧ after = []) ∨
      ∃ first later newFirst done, holders = first :: later ∧
        first.updatePeriod manifest 0 criteria = .ok (done, newFirst) ∧
        ((done = false ∧ updated = false ∧ after = newFirst :: later) ∨
          (done = true ∧ later = [] ∧ updated = true ∧ after = [newFirst]) ∨
          done = true ∧ ∃ last newLast, later.getLast? = some last ∧
            last.updatePeriod manifest later.length criteria = .ok (updated, newLast) ∧
            after = newFirst :: later.dropLast ++ [newLast]) := by
  unfold updatePeriods at update
  split at update
  · cases update
    exact .inl ⟨rfl, rfl, rfl⟩
  · rename_i first later
    obtain ⟨⟨done, newFirst⟩, firstUpdate, update⟩ := bind_ok update
    refine .inr ⟨first, later, newFirst, done, rfl, firstUpdate, ?_⟩
    cases done with
    | false =>
      cases update
      exact .inl ⟨rfl, rfl, rfl⟩
    | true =>
      simp only [Bool.not_true, Bool.false_eq_true, if_false] at update
      split at update
      · rename_i none
        cases update
        exact .inr (.inl ⟨rfl, List.getLast?_eq_none_iff.mp none, rfl, rfl⟩)
      · rename_i last isLast
        obtain ⟨⟨done, newLast⟩, lastUpdate, update⟩ := bind_ok update
        cases update
        exact .inr (.inr ⟨rfl, last, newLast, isLast, lastUpdate, rfl⟩)

theorem updatePeriods_outline {criteria : TrackCriteria} {manifest : MediaPresentationDescription}
    {holders after : List PeriodHolder} {updated : Bool}
    (update : updatePeriods criteria manifest holders = .ok (updated, after)) :
    after.map PeriodHolder.outline = holders.map PeriodHolder.outline := by
  obtain ⟨rfl, -, rfl⟩ | ⟨first, later, newFirst, done, rfl, firstUpdate, rest⟩ :=
    updatePeriods_cases update
  · rfl
  · have keptFirst := PeriodHolder.updatePeriod_outline firstUpdate
    obtain ⟨-, -, rfl⟩ | ⟨-, rfl, -, rfl⟩ | ⟨-, last, newLast, isLast, lastUpdate, rfl⟩ := rest
    · simp [keptFirst]
    · simp [keptFirst]
    · have keptLast := PeriodHolder.updatePeriod_outline lastUpdate
      rw [← List.dropLast_append_getLast? last isLast]
      simp [keptFirst, keptLast]

structure HolderInvariant (invariant : PeriodHolder → Prop) : Prop where
  create : ∀ {localIndex : Int} {manifest : MediaPresentationDescription} {index : Nat}
    {criteria : TrackCriteria} {holder : PeriodHolder},
    PeriodHolder.create localIndex manifest index criteria = .ok holder → invariant holder
  update : ∀ {holder after : PeriodHolder} {manifest : MediaPresentationDescription} {index : Nat}
    {criteria : TrackCriteria} {updated : Bool}, invariant holder →
    holder.updatePeriod manifest index criteria = .ok (updated, after) → invariant after

theorem HolderInvariant.updatePeriods {invariant : PeriodHolder → Prop}
    (kept : HolderInvariant invariant) {criteria : TrackCriteria}
    {manifest : MediaPresentationDescription} {holders after : List PeriodHolder} {updated : Bool}
    (held : ∀ holder ∈ holders, invariant holder)
    (update : updatePeriods criteria manifest holders = .ok (updated, after)) :
    ∀ holder ∈ after, invariant holder := by
  obtain ⟨-, -, rfl⟩ | ⟨first, later, newFirst, done, rfl, firstUpdate, rest⟩ :=
    updatePeriods_cases update
  · simp
  · have newFirstHeld := kept.update (held first List.mem_cons_self) firstUpdate
    have laterHeld : ∀ holder ∈ later, invariant holder :=
      fun holder member => held holder (List.mem_cons_of_mem _ member)
    obtain ⟨-, -, rfl⟩ | ⟨-, -, -, rfl⟩ | ⟨-, last, newLast, isLast, lastUpdate, rfl⟩ := rest
    · exact List.forall_mem_cons.mpr ⟨newFirstHeld, laterHeld⟩
    · exact List.forall_mem_cons.mpr ⟨newFirstHeld, by simp⟩
    · have newLastHeld := kept.update (laterHeld last (List.mem_of_getLast? isLast)) lastUpdate
      intro holder member
      rcases List.mem_append.mp member with member | member
      · rcases List.mem_cons.mp member with rfl | member
        · exact newFirstHeld
        · exact laterHeld holder ((List.dropLast_sublist _).mem member)
      · rw [List.mem_singleton.mp member]
        exact newLastHeld

theorem HolderInvariant.addPeriods {invariant : PeriodHolder → Prop}
    (kept : HolderInvariant invariant) {criteria : TrackCriteria}
    {manifest : MediaPresentationDescription} {count index : Nat} {next after : Int}
    {added : List PeriodHolder}
    (add : addPeriods criteria manifest count index next = .ok (added, after)) :
    ∀ holder ∈ added, invariant holder := by
  induction count generalizing index next added with
  | zero =>
    cases add
    simp
  | succ count ih =>
    obtain ⟨holder, created, add⟩ := bind_ok add
    obtain ⟨⟨later, _⟩, rest, add⟩ := bind_ok add
    cases add
    exact List.forall_mem_cons.mpr ⟨kept.create created, ih rest⟩

def indicesFrom (next : Int) (count : Nat) : List Int :=
  (List.range count).map fun offset : Nat => next + offset

theorem indicesFrom_succ (next : Int) (count : Nat) :
    indicesFrom next (count + 1) = next :: indicesFrom (next + 1) count := by
  simp only [indicesFrom, List.range_succ_eq_map, List.map_cons, List.map_map]
  congr 1
  · simp
  · apply List.map_congr_left
    intro offset member
    simp
    omega

theorem indicesFrom_append (next : Int) (first second : Nat) :
    indicesFrom next (first + second) = indicesFrom next first ++ indicesFrom (next + first) second := by
  simp only [indicesFrom, List.range_add, List.map_append, List.map_map]
  congr 1
  apply List.map_congr_left
  intro offset member
  simp
  omega

def startTimesUs (manifest : MediaPresentationDescription) : List Int :=
  manifest.periods.map fun period => (period.startMs : Int) * 1000

theorem addPeriods_spec {criteria : TrackCriteria} {manifest : MediaPresentationDescription}
    {count index : Nat} {next after : Int} {added : List PeriodHolder}
    (add : addPeriods criteria manifest count index next = .ok (added, after)) :
    added.map PeriodHolder.startTime = ((startTimesUs manifest).drop index).take count ∧
      added.map PeriodHolder.localIndex = indicesFrom next count ∧ after = next + count := by
  induction count generalizing index next added with
  | zero =>
    cases add
    simp [indicesFrom]
  | succ count ih =>
    obtain ⟨holder, created, add⟩ := bind_ok add
    obtain ⟨⟨later, _⟩, rest, add⟩ := bind_ok add
    cases add
    obtain ⟨period, listed, itsIndex, itsStart⟩ := PeriodHolder.create_startTime created
    obtain ⟨starts, indices, last⟩ := ih rest
    obtain ⟨within, isPeriod⟩ := List.getElem?_eq_some_iff.mp listed
    refine ⟨?_, ?_, ?_⟩
    · have here : index < (startTimesUs manifest).length := by simpa [startTimesUs] using within
      rw [List.drop_eq_getElem_cons here, List.take_succ_cons, List.map_cons, itsStart, starts]
      simp [startTimesUs, isPeriod]
    · rw [indicesFrom_succ, List.map_cons, itsIndex, indices]
    · simp only [last]
      omega

inductive Processed (source : DashChunkSource) (manifest : MediaPresentationDescription)
    (kept : List PeriodHolder) : Bool → DashChunkSource → Prop
  | discarded (after : DashChunkSource) (held : kept ≠ [])
      (holders : after.periodHolders.map PeriodHolder.outline = kept.map PeriodHolder.outline)
      (next : after.nextPeriodHolderIndex = source.nextPeriodHolderIndex) :
      Processed source manifest kept false after
  | adopted (after : DashChunkSource) (updated added : List PeriodHolder)
      (fits : kept.length ≤ manifest.periods.length)
      (holders : after.periodHolders = updated ++ added)
      (old : updated.map PeriodHolder.outline = kept.map PeriodHolder.outline)
      (starts : added.map PeriodHolder.startTime = (startTimesUs manifest).drop kept.length)
      (indices : added.map PeriodHolder.localIndex =
        indicesFrom source.nextPeriodHolderIndex (manifest.periods.length - kept.length))
      (next : after.nextPeriodHolderIndex =
        source.nextPeriodHolderIndex + (manifest.periods.length - kept.length : Nat)) :
      Processed source manifest kept true after

def survivors (source : DashChunkSource) (manifest : MediaPresentationDescription) :
    List PeriodHolder :=
  match manifest.periods with
  | [] => source.periodHolders
  | first :: _ => removeOldPeriods source.periodHolders first

theorem survivors_suffix (source : DashChunkSource) (manifest : MediaPresentationDescription) :
    source.survivors manifest <:+ source.periodHolders := by
  unfold survivors
  split
  · exact List.suffix_refl _
  · exact List.dropWhile_suffix _

inductive Outcome (source : DashChunkSource) (manifest : MediaPresentationDescription)
    (kept : List PeriodHolder) : Bool → DashChunkSource → Prop
  | tooMany (more : manifest.periods.length < kept.length) :
      Outcome source manifest kept false { source with periodHolders := kept }
  | failed (holders : List PeriodHolder) (fits : kept.length ≤ manifest.periods.length)
      (update : updatePeriods source.trackCriteria manifest kept = .ok (false, holders)) :
      Outcome source manifest kept false
        { source with
          periodHolders := holders
          fatalError := true }
  | adopted (updated added : List PeriodHolder) (next : Int) (range : TimeRange)
      (fits : kept.length ≤ manifest.periods.length)
      (update : updatePeriods source.trackCriteria manifest kept = .ok (true, updated))
      (length : updated.length = kept.length)
      (add : addPeriods source.trackCriteria manifest (manifest.periods.length - updated.length)
        updated.length source.nextPeriodHolderIndex = .ok (added, next))
      (isRange : { source with
        periodHolders := updated ++ added
        nextPeriodHolderIndex := next }.getAvailableRange = .ok range) :
      Outcome source manifest kept true
        { source with
          periodHolders := updated ++ added
          nextPeriodHolderIndex := next
          availableRange := some range
          currentManifest := manifest }

theorem processManifest_outcome {source after : DashChunkSource}
    {manifest : MediaPresentationDescription} {adopted : Bool}
    (call : source.processManifest manifest = .ok (adopted, after)) :
    manifest.periods ≠ [] ∧ Outcome source manifest (source.survivors manifest) adopted after := by
  obtain ⟨first, found, call⟩ := bind_ok call
  rw [MediaPresentationDescription.getPeriod_ok] at found
  cases periods : manifest.periods with
  | nil => simp [periods] at found
  | cons period rest =>
    simp only [periods, List.getElem?_cons_zero, Option.some.injEq] at found
    have kept : source.survivors manifest = removeOldPeriods source.periodHolders first := by
      simp only [survivors, periods, found]
    refine ⟨List.cons_ne_nil _ _, ?_⟩
    rw [kept]
    dsimp only at call
    split at call
    · rename_i more
      cases call
      exact .tooMany more
    · rename_i fits
      obtain ⟨⟨updated, holders⟩, update, call⟩ := bind_ok call
      have length := congrArg List.length (updatePeriods_outline update)
      simp only [List.length_map] at length
      cases updated with
      | false =>
        cases call
        exact .failed holders (Nat.not_lt.mp fits) update
      | true =>
        simp only [Bool.not_true, Bool.false_eq_true, if_false] at call
        obtain ⟨⟨added, next⟩, add, call⟩ := bind_ok call
        obtain ⟨range, isRange, call⟩ := bind_ok call
        cases call
        exact .adopted holders added next range (Nat.not_lt.mp fits) update length add isRange

theorem processManifest_cases {source after : DashChunkSource}
    {manifest : MediaPresentationDescription} {adopted : Bool}
    (call : source.processManifest manifest = .ok (adopted, after)) :
    manifest.periods ≠ [] ∧ Processed source manifest (source.survivors manifest) adopted after := by
  obtain ⟨listed, outcome⟩ := processManifest_outcome call
  refine ⟨listed, ?_⟩
  generalize source.survivors manifest = kept at outcome
  cases outcome with
  | tooMany more =>
    apply Processed.discarded
    · intro none
      simp [none] at more
    · rfl
    · rfl
  | failed holders fits update =>
    apply Processed.discarded
    · intro none
      rw [none] at update
      cases update
    · exact updatePeriods_outline update
    · rfl
  | adopted updated added next range fits update length add isRange =>
    obtain ⟨starts, indices, last⟩ := addPeriods_spec add
    rw [length] at starts indices last
    have all : (startTimesUs manifest).length - kept.length =
        manifest.periods.length - kept.length := by
      simp [startTimesUs]
    refine .adopted _ updated added fits rfl (updatePeriods_outline update) ?_ indices last
    rw [starts, ← all, ← List.length_drop, List.take_length]

theorem HolderInvariant.processManifest {invariant : PeriodHolder → Prop}
    (kept : HolderInvariant invariant) {source after : DashChunkSource}
    {manifest : MediaPresentationDescription} {adopted : Bool}
    (held : ∀ holder ∈ source.periodHolders, invariant holder)
    (call : source.processManifest manifest = .ok (adopted, after)) :
    ∀ holder ∈ after.periodHolders, invariant holder := by
  obtain ⟨-, outcome⟩ := processManifest_outcome call
  have survivorsHeld : ∀ holder ∈ source.survivors manifest, invariant holder :=
    fun holder member => held holder ((survivors_suffix source manifest).mem member)
  cases outcome with
  | tooMany more => exact survivorsHeld
  | failed holders fits update => exact kept.updatePeriods survivorsHeld update
  | adopted updated added next range fits update length add isRange =>
    exact List.forall_mem_append.mpr
      ⟨kept.updatePeriods survivorsHeld update, kept.addPeriods add⟩

theorem processManifest_evaluation {source after : DashChunkSource}
    {manifest : MediaPresentationDescription} {adopted : Bool}
    (call : source.processManifest manifest = .ok (adopted, after)) :
    after.evaluation = source.evaluation ∧
      after.lastChunkWasInitialization = source.lastChunkWasInitialization := by
  obtain ⟨-, outcome⟩ := processManifest_outcome call
  cases outcome with
  | tooMany more => exact ⟨rfl, rfl⟩
  | failed holders fits update => exact ⟨rfl, rfl⟩
  | adopted updated added next range fits update length add isRange => exact ⟨rfl, rfl⟩

structure Aligned (manifest : MediaPresentationDescription) (holders : List PeriodHolder) :
    Prop where
  starts : holders.map PeriodHolder.startTime = startTimesUs manifest
  indices : ∃ first, holders.map PeriodHolder.localIndex = indicesFrom first holders.length

def KeepsIndices (before after : List PeriodHolder) : Prop :=
  ∀ old ∈ before, ∀ new ∈ after, old.startTime = new.startTime → old.localIndex = new.localIndex

/-- The manifest lists, from its first period on, the periods that are held and not before it. -/
def Continues (source : DashChunkSource) (manifest : MediaPresentationDescription) : Prop :=
  (source.survivors manifest).map PeriodHolder.startTime <+: startTimesUs manifest

instance (source : DashChunkSource) (manifest : MediaPresentationDescription) :
    Decidable (source.Continues manifest) :=
  inferInstanceAs (Decidable (_ <+: _))

theorem map_startTime {holders others : List PeriodHolder}
    (same : holders.map PeriodHolder.outline = others.map PeriodHolder.outline) :
    holders.map PeriodHolder.startTime = others.map PeriodHolder.startTime := by
  have starts := congrArg (List.map fun outline => outline.2.1) same
  rw [List.map_map, List.map_map] at starts
  exact starts

theorem map_localIndex {holders others : List PeriodHolder}
    (same : holders.map PeriodHolder.outline = others.map PeriodHolder.outline) :
    holders.map PeriodHolder.localIndex = others.map PeriodHolder.localIndex := by
  have indices := congrArg (List.map fun outline => outline.1) same
  rw [List.map_map, List.map_map] at indices
  exact indices

/-- A call that adopts a manifest lines the holders up exactly when the manifest continues what is
held. -/
theorem adopted_starts_iff {source after : DashChunkSource} {manifest : MediaPresentationDescription}
    (call : source.processManifest manifest = .ok (true, after)) :
    after.periodHolders.map PeriodHolder.startTime = startTimesUs manifest ↔
      source.Continues manifest := by
  obtain ⟨_, processed⟩ := processManifest_cases call
  cases processed with
  | adopted _ updated added fits holders old starts indices next =>
    rw [holders, List.map_append, map_startTime old, starts]
    constructor
    · intro aligned
      exact ⟨_, aligned⟩
    · intro ⟨rest, continued⟩
      have length : (source.survivors manifest).length =
          ((source.survivors manifest).map PeriodHolder.startTime).length := by simp
      rw [← continued, length, List.drop_left]

/-- The held periods have the last of the local indices that were given out. -/
def Numbered (source : DashChunkSource) : Prop :=
  source.periodHolders.map PeriodHolder.localIndex =
    indicesFrom (source.nextPeriodHolderIndex - source.periodHolders.length)
      source.periodHolders.length

structure Tracks (last : List PeriodHolder) (source : DashChunkSource) : Prop where
  increasing : (last.map PeriodHolder.startTime).Pairwise (· < ·)
  suffix : source.periodHolders.map PeriodHolder.outline <:+ last.map PeriodHolder.outline
  held : last ≠ [] → source.periodHolders ≠ []
  numbered : source.Numbered

theorem Numbered.of_nil {source : DashChunkSource} (new : source.periodHolders = []) :
    source.Numbered := by
  simp [Numbered, new, indicesFrom]

theorem indices_of_suffix {holders kept : List PeriodHolder} {next : Int}
    (indices : holders.map PeriodHolder.localIndex = indicesFrom (next - holders.length) holders.length)
    (suffix : kept <:+ holders) :
    kept.map PeriodHolder.localIndex = indicesFrom (next - kept.length) kept.length := by
  obtain ⟨gone, rfl⟩ := suffix
  rw [List.map_append, List.length_append, indicesFrom_append] at indices
  have behind := List.append_inj_right indices (by simp [indicesFrom])
  rw [behind]
  congr 1
  push_cast
  omega

theorem Numbered.processManifest {source after : DashChunkSource}
    {manifest : MediaPresentationDescription} {adopted : Bool} (numbered : source.Numbered)
    (call : source.processManifest manifest = .ok (adopted, after)) : after.Numbered := by
  have kept := indices_of_suffix numbered (survivors_suffix source manifest)
  obtain ⟨_, processed⟩ := processManifest_cases call
  cases processed with
  | discarded _ held holders next =>
    have length := congrArg List.length holders
    simp only [List.length_map] at length
    rw [Numbered, map_localIndex holders, next, length]
    exact kept
  | adopted _ updated added fits holders old starts indices next =>
    have oldLength := congrArg List.length old
    have newLength := congrArg List.length indices
    simp only [List.length_map, indicesFrom, List.length_range] at oldLength newLength
    rw [Numbered, holders, List.length_append, oldLength, newLength, indicesFrom_append,
      List.map_append, indices, map_localIndex old, kept, next]
    congr 2
    · push_cast
      omega
    · push_cast
      omega

theorem Tracks.discard {last : List PeriodHolder} {source after : DashChunkSource}
    {manifest : MediaPresentationDescription} (tracks : Tracks last source)
    (call : source.processManifest manifest = .ok (false, after)) : Tracks last after := by
  obtain ⟨_, processed⟩ := processManifest_cases call
  cases processed with
  | discarded _ held holders next =>
    have suffix := survivors_suffix source manifest
    have length := congrArg List.length holders
    simp only [List.length_map] at length
    refine ⟨tracks.increasing, ?_, ?_, tracks.numbered.processManifest call⟩
    · rw [holders]
      exact (suffix.map _).trans tracks.suffix
    · intro _ none
      rw [none] at length
      exact held (List.eq_nil_of_length_eq_zero length.symm)

theorem increasing_startTimesUs {manifest : MediaPresentationDescription}
    (increasing : manifest.startTimes.Pairwise (· < ·)) :
    (startTimesUs manifest).Pairwise (· < ·) := by
  rw [MediaPresentationDescription.startTimes, List.pairwise_map] at increasing
  rw [startTimesUs, List.pairwise_map]
  refine increasing.imp ?_
  intro first second less
  omega

theorem lt_of_startMs_lt {holder : PeriodHolder} {startMs : Nat}
    (earlier : DashChunkSource.startMs holder < startMs) : holder.startTime < startMs * 1000 := by
  by_contra later
  have nonneg : 0 ≤ holder.startTime := by omega
  rw [DashChunkSource.startMs, Int.tdiv_eq_ediv_of_nonneg nonneg] at earlier
  omega

theorem survivors_cons {source : DashChunkSource} {manifest : MediaPresentationDescription}
    {first : Period} {rest : List Period} (listed : manifest.periods = first :: rest) :
    source.survivors manifest =
      source.periodHolders.dropWhile fun holder => startMs holder < first.startMs := by
  simp only [survivors, listed, removeOldPeriods]

theorem head_startTime_le {source : DashChunkSource} {manifest : MediaPresentationDescription}
    {first : Period} {rest : List Period} (listed : manifest.periods = first :: rest)
    (continues : source.Continues manifest) {head : PeriodHolder} {later : List PeriodHolder}
    (holders : source.periodHolders = head :: later) :
    head.startTime ≤ first.startMs * 1000 := by
  by_cases earlier : startMs head < first.startMs
  · exact Int.le_of_lt (lt_of_startMs_lt earlier)
  · obtain ⟨more, continued⟩ := continues
    rw [survivors_cons listed, holders, List.dropWhile_cons_of_neg (by simpa using earlier)] at continued
    simp only [startTimesUs, listed, List.map_cons, List.cons_append, List.cons.injEq] at continued
    omega

theorem first_le_startTimesUs {manifest : MediaPresentationDescription} {first : Period}
    {rest : List Period} (listed : manifest.periods = first :: rest)
    (increasing : manifest.startTimes.Pairwise (· < ·)) {start : Int}
    (member : start ∈ startTimesUs manifest) : first.startMs * 1000 ≤ start := by
  have increasingUs := increasing_startTimesUs increasing
  simp only [startTimesUs, listed, List.map_cons, List.pairwise_cons] at increasingUs member
  rcases List.mem_cons.mp member with isFirst | later
  · exact Int.le_of_eq isFirst.symm
  · exact Int.le_of_lt (increasingUs.1 start later)

theorem eq_of_startTime {holders : List PeriodHolder} {first second : PeriodHolder}
    (increasing : (holders.map PeriodHolder.startTime).Pairwise (· < ·)) (firstHeld : first ∈ holders)
    (secondHeld : second ∈ holders) (same : first.startTime = second.startTime) :
    first = second := by
  have nodup : (holders.map PeriodHolder.startTime).Nodup := increasing.imp Int.ne_of_lt
  exact List.inj_on_of_nodup_map nodup firstHeld secondHeld same

/-- What is no longer held when a manifest that continues the held periods comes is before it. -/
theorem Tracks.before_first {last : List PeriodHolder} {source : DashChunkSource}
    {manifest : MediaPresentationDescription} {first : Period} {rest : List Period}
    (tracks : Tracks last source) (listed : manifest.periods = first :: rest)
    (continues : source.Continues manifest) {old : PeriodHolder} (member : old ∈ last)
    (dropped : old.outline ∉ (source.survivors manifest).map PeriodHolder.outline) :
    old.startTime < first.startMs * 1000 := by
  obtain ⟨gone, isSuffix⟩ := tracks.suffix
  have place : old.outline ∈ gone ++ source.periodHolders.map PeriodHolder.outline := by
    rw [isSuffix]
    exact List.mem_map_of_mem member
  rw [List.mem_append] at place
  rcases place with place | place
  · -- Dropped by an earlier call: what that call left begins later than this, and not behind `first`.
    cases holders : source.periodHolders with
    | nil => exact absurd holders (tracks.held (List.ne_nil_of_mem member))
    | cons head later =>
      have increasing : ((last.map PeriodHolder.outline).map fun outline => outline.2.1).Pairwise (· < ·) := by
        rw [List.map_map]
        exact tracks.increasing
      rw [← isSuffix, List.map_append, List.pairwise_append] at increasing
      have less := increasing.2.2 old.startTime (List.mem_map.mpr ⟨old.outline, place, rfl⟩)
        head.startTime (by simp [holders, PeriodHolder.outline])
      exact Int.lt_of_lt_of_le less (head_startTime_le listed continues holders)
  · have split := List.takeWhile_append_dropWhile
      (p := fun holder => decide (startMs holder < first.startMs)) (l := source.periodHolders)
    rw [← split, List.map_append, ← survivors_cons listed, List.mem_append] at place
    rcases place with place | place
    · obtain ⟨holder, held, same⟩ := List.mem_map.mp place
      have start : holder.startTime = old.startTime := congrArg (fun outline => outline.2.1) same
      have earlier := List.all_eq_true.mp List.all_takeWhile holder held
      rw [← start]
      exact lt_of_startMs_lt (of_decide_eq_true earlier)
    · exact absurd place dropped

theorem Tracks.adopt {last : List PeriodHolder} {source after : DashChunkSource}
    {manifest : MediaPresentationDescription} (tracks : Tracks last source)
    (increasing : manifest.startTimes.Pairwise (· < ·))
    (call : source.processManifest manifest = .ok (true, after))
    (continues : source.Continues manifest) :
    Tracks after.periodHolders after ∧ Aligned manifest after.periodHolders ∧
      KeepsIndices last after.periodHolders := by
  have starts := (adopted_starts_iff call).mpr continues
  have increasingUs := increasing_startTimesUs increasing
  obtain ⟨someListed, processed⟩ := processManifest_cases call
  obtain ⟨first, rest, listed⟩ := List.exists_cons_of_ne_nil someListed
  cases processed with
  | adopted _ updated added fits holders old newStarts indices next =>
    have numbered := tracks.numbered.processManifest call
    refine ⟨⟨?_, List.suffix_refl _, fun held => held, numbered⟩, ⟨starts, _, numbered⟩, ?_⟩
    · rw [starts]
      exact increasingUs
    · intro before beforeMember new newMember same
      by_cases kept : before.outline ∈ (source.survivors manifest).map PeriodHolder.outline
      · rw [← old] at kept
        obtain ⟨holder, member, itself⟩ := List.mem_map.mp kept
        have start : holder.startTime = before.startTime :=
          congrArg (fun outline => outline.2.1) itself
        have index : holder.localIndex = before.localIndex :=
          congrArg (fun outline => outline.1) itself
        have held : holder ∈ after.periodHolders := by
          rw [holders]
          exact List.mem_append_left _ member
        rw [← starts] at increasingUs
        have isNew := eq_of_startTime increasingUs held newMember (start.trans same)
        rw [← index, isNew]
      · have earlier := tracks.before_first listed continues beforeMember kept
        have isStart : new.startTime ∈ startTimesUs manifest := by
          rw [← starts]
          exact List.mem_map_of_mem newMember
        have notBefore := first_le_startTimesUs listed increasing isStart
        omega

def adoptions (source : DashChunkSource) :
    List MediaPresentationDescription → List (MediaPresentationDescription × List PeriodHolder)
  | [] => []
  | manifest :: later =>
    match source.processManifest manifest with
    | .error _ => []
    | .ok (true, after) => (manifest, after.periodHolders) :: adoptions after later
    | .ok (false, after) => adoptions after later

def AdoptsContinuing (source : DashChunkSource) : List MediaPresentationDescription → Prop
  | [] => True
  | manifest :: later =>
    match source.processManifest manifest with
    | .error _ => True
    | .ok (true, after) => source.Continues manifest ∧ AdoptsContinuing after later
    | .ok (false, after) => AdoptsContinuing after later

instance decidableAdoptsContinuing (source : DashChunkSource) :
    (manifests : List MediaPresentationDescription) → Decidable (source.AdoptsContinuing manifests)
  | [] => isTrue trivial
  | manifest :: later =>
    match call : source.processManifest manifest with
    | .error _ => isTrue (by simp [AdoptsContinuing, call])
    | .ok (true, after) =>
      have := decidableAdoptsContinuing after later
      decidable_of_iff (source.Continues manifest ∧ after.AdoptsContinuing later)
        (by simp [AdoptsContinuing, call])
    | .ok (false, after) =>
      have := decidableAdoptsContinuing after later
      decidable_of_iff (after.AdoptsContinuing later) (by simp [AdoptsContinuing, call])

theorem Tracks.adoptions {last : List PeriodHolder} {source : DashChunkSource}
    {manifests : List MediaPresentationDescription} (tracks : Tracks last source)
    (increasing : ∀ manifest ∈ manifests, manifest.startTimes.Pairwise (· < ·))
    (continues : source.AdoptsContinuing manifests) :
    (∀ adoption ∈ source.adoptions manifests, Aligned adoption.1 adoption.2) ∧
      List.IsChain KeepsIndices (last :: (source.adoptions manifests).map Prod.snd) := by
  induction manifests generalizing last source with
  | nil => simp [DashChunkSource.adoptions]
  | cons manifest later ih =>
    have laterIncreasing : ∀ manifest ∈ later, manifest.startTimes.Pairwise (· < ·) :=
      fun other member => increasing other (List.mem_cons_of_mem _ member)
    unfold DashChunkSource.adoptions
    unfold AdoptsContinuing at continues
    split at continues
    · simp
    · rename_i after call
      obtain ⟨now, aligned, keeps⟩ :=
        tracks.adopt (increasing manifest List.mem_cons_self) call continues.1
      obtain ⟨restAligned, restKeeps⟩ := ih now laterIncreasing continues.2
      constructor
      · intro adoption member
        rcases List.mem_cons.mp member with rfl | member
        · exact aligned
        · exact restAligned adoption member
      · exact .cons_cons keeps restKeeps
    · rename_i after call
      exact ih (tracks.discard call) laterIncreasing continues

theorem periods_keep_holders (source : DashChunkSource)
    (manifests : List MediaPresentationDescription) (new : source.periodHolders = [])
    (increasing : ∀ manifest ∈ manifests, manifest.startTimes.Pairwise (· < ·))
    (continues : source.AdoptsContinuing manifests) :
    (∀ adoption ∈ source.adoptions manifests, Aligned adoption.1 adoption.2) ∧
      List.IsChain KeepsIndices ((source.adoptions manifests).map Prod.snd) := by
  have tracks : Tracks [] source := ⟨by simp, by simp [new], by simp, .of_nil new⟩
  obtain ⟨aligned, keeps⟩ := tracks.adoptions increasing continues
  exact ⟨aligned, keeps.of_cons⟩

def numberedSegments : MultiSegmentBase where
  duration := 2
  media := .template fun _ _ => "segment.mp4"

def livePeriod (startMs : Nat) : Period where
  startMs
  adaptationSets := [{
    representations := [{
      format := { id := "video" }
      index := some (numberedSegments.index fun timestamp _ _ => timestamp) }] }]

def liveManifest (starts : List Nat) : MediaPresentationDescription where
  periods := starts.map livePeriod
  dynamic := true

def liveSource (starts : List Nat) : DashChunkSource where
  currentManifest := liveManifest starts
  trackCriteria := { matchesMimeType := fun _ => true }

-- The first period leaves the manifest and a third one enters it.
theorem periods_keep_holders_sliding :
    let manifests := [liveManifest [0, 10000], liveManifest [10000, 20000]]
    (∀ adoption ∈ (liveSource [0, 10000]).adoptions manifests, Aligned adoption.1 adoption.2) ∧
      ((liveSource [0, 10000]).adoptions manifests).map
        (fun adoption => adoption.2.map PeriodHolder.localIndex) = [[0, 1], [1, 2]] := by
  intro manifests
  refine ⟨(periods_keep_holders _ manifests rfl (by decide) (by decide)).1, ?_⟩
  decide

/-- A manifest that is served again has as many periods as are held; it is adopted, and each period
has the holder of the one behind it. -/
theorem stale_manifest_misaligned :
    let manifests := [liveManifest [10000, 20000], liveManifest [0, 10000]]
    (∀ manifest ∈ manifests, manifest.startTimes.Pairwise (· < ·)) ∧
      ((liveSource [10000, 20000]).adoptions manifests).map
        (fun adoption => (adoption.1.startTimes, adoption.2.map PeriodHolder.startTime)) =
          [([10000, 20000], [10000000, 20000000]), ([0, 10000], [10000000, 20000000])] ∧
      ¬ ∀ adoption ∈ (liveSource [10000, 20000]).adoptions manifests,
        Aligned adoption.1 adoption.2 := by
  intro manifests
  have adopted : ((liveSource [10000, 20000]).adoptions manifests).map
      (fun adoption => (adoption.1.startTimes, adoption.2.map PeriodHolder.startTime)) =
        [([10000, 20000], [10000000, 20000000]), ([0, 10000], [10000000, 20000000])] := by decide
  refine ⟨by decide, adopted, ?_⟩
  intro aligned
  have agree : ∀ pair ∈ ((liveSource [10000, 20000]).adoptions manifests).map
      (fun adoption => (adoption.1.startTimes, adoption.2.map PeriodHolder.startTime)),
      pair.2 = pair.1.map fun startMs : Nat => (startMs : Int) * 1000 := by
    intro pair member
    obtain ⟨adoption, adoptionMember, rfl⟩ := List.mem_map.mp member
    rw [MediaPresentationDescription.startTimes, List.map_map]
    exact (aligned adoption adoptionMember).starts
  rw [adopted] at agree
  exact absurd agree (by decide)

end NDash.Dash.DashChunkSource

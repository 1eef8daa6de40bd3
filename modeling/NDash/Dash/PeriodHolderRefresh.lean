import Mathlib.Data.List.Perm.Subperm
import Mathlib.Data.String.Basic
import NDash.Dash.PeriodHolder

set_option autoImplicit false

namespace NDash.Mpd

/-- Where an explicit index follows itself, its numbers do not shift: its start is looked up as its
first segment, or it ends where it starts and has no segments. -/
def DashSegmentIndex.Steady (index : DashSegmentIndex) (periodDurationUs : Int) : Prop :=
  index.isExplicit = true →
    let first := index.getFirstSegmentNum
    let last := index.getLastSegmentNum periodDurationUs
    let startTime := index.getTimeUs first
    let endTime := index.getTimeUs last + index.getDurationUs last periodDurationUs
    (startTime < endTime ∧ ∃ overlap, index.getSegmentNum startTime periodDurationUs = .ok overlap ∧
        toInt32 (overlap - first) = 0) ∨
      (endTime = startTime ∧ toInt32 (last - first + 1) = 0)

theorem singleSegmentIndex_steady (uri : RangedUri) {periodDurationUs : Int}
    (positive : 0 < periodDurationUs) : (singleSegmentIndex uri).Steady periodDurationUs := by
  intro _
  left
  simpa [singleSegmentIndex, toInt32] using positive

end NDash.Mpd

namespace NDash.Dash

open Mpd

theorem toInt32_add_of_zero {shift change : Int} (ranged : toInt32 shift = shift)
    (zero : toInt32 change = 0) : toInt32 (shift + change) = shift := by
  unfold toInt32 at *
  omega

theorem toInt32_idempotent (value : Int) : toInt32 (toInt32 value) = toInt32 value := by
  simpa using toInt32_add value 0

namespace RepresentationHolder

def repointed (owner : Nat) (holder : RepresentationHolder) : RepresentationHolder :=
  { holder with representation := holder.representation.ownedBy owner }

structure Carries (representation : Representation) (duration : Int) (holder : RepresentationHolder) :
    Prop where
  itself : ∃ owner, holder.representation = representation.ownedBy owner
  length : holder.periodDuration = duration
  used : representation.index ≠ none → holder.segmentIndex = representation.index
  ranged : toInt32 holder.segmentNumShift = holder.segmentNumShift

theorem Carries.index {representation : Representation} {duration : Int}
    {holder : RepresentationHolder} (carries : holder.Carries representation duration) :
    holder.representation.index = representation.index := by
  obtain ⟨owner, itself⟩ := carries.itself
  rw [itself]
  rfl

theorem Carries.repointed {representation : Representation} {duration : Int}
    {holder : RepresentationHolder} (carries : holder.Carries representation duration) (owner : Nat) :
    (holder.repointed owner).Carries representation duration := by
  obtain ⟨before, itself⟩ := carries.itself
  refine ⟨⟨owner, ?_⟩, carries.length, carries.used, carries.ranged⟩
  simp only [RepresentationHolder.repointed, itself, Representation.ownedBy]

theorem create_carries (startTime duration : Int) (representation : Representation) :
    (create startTime duration representation).Carries representation duration where
  itself := ⟨representation.owner, rfl⟩
  length := rfl
  used := fun _ => rfl
  ranged := rfl

/-- What an update leaves: all but the index is of the new representation, and so is the index where
the old one had one. -/
theorem updateRepresentation_spec {holder after : RepresentationHolder} {duration : Int}
    {representation : Representation} {updated : Bool}
    (update : holder.updateRepresentation duration representation = .ok (updated, after)) :
    after.representation = representation ∧ after.periodDuration = duration ∧
      after.segmentIndex =
        (if holder.representation.index = none then holder.segmentIndex else representation.index) ∧
      (toInt32 holder.segmentNumShift = holder.segmentNumShift →
        toInt32 after.segmentNumShift = after.segmentNumShift) := by
  unfold updateRepresentation at update
  dsimp only at update
  split at update
  · rename_i none
    cases update
    exact ⟨rfl, rfl, by simp [none], id⟩
  · rename_i oldIndex isIndex
    have changed : holder.representation.index ≠ none := by simp [isIndex]
    rw [if_neg changed]
    split at update
    · cases update
      exact ⟨rfl, rfl, rfl, id⟩
    · split at update
      · cases update
      · rename_i newIndex isNew
        split at update
        · cases update
          exact ⟨rfl, rfl, isNew.symm ▸ rfl, fun _ => toInt32_idempotent _⟩
        · split at update
          · cases update
            exact ⟨rfl, rfl, isNew.symm ▸ rfl, id⟩
          · obtain ⟨overlap, _, update⟩ := bind_ok update
            cases update
            exact ⟨rfl, rfl, isNew.symm ▸ rfl, fun _ => toInt32_idempotent _⟩

theorem updateRepresentation_carries {holder after : RepresentationHolder} {duration : Int}
    {representation : Representation} {updated : Bool}
    (ranged : toInt32 holder.segmentNumShift = holder.segmentNumShift)
    (indexed : holder.representation.index = none → representation.index = none)
    (update : holder.updateRepresentation duration representation = .ok (updated, after)) :
    after.Carries representation duration := by
  obtain ⟨itself, length, index, shift⟩ := updateRepresentation_spec update
  refine ⟨⟨representation.owner, itself⟩, length, ?_, shift ranged⟩
  intro isIndex
  rw [index, if_neg (fun none => isIndex (indexed none))]

theorem Carries.updateRepresentation {holder : RepresentationHolder} {duration : Int}
    {representation : Representation} (carries : holder.Carries representation duration)
    (steady : ∀ index, representation.index = some index → index.Steady duration) (owner : Nat) :
    holder.updateRepresentation duration (representation.ownedBy owner) =
      .ok (true, holder.repointed owner) := by
  obtain ⟨startTime, periodDuration, held, segmentIndex, mediaFormat, shift⟩ := holder
  obtain ⟨⟨before, rfl⟩, rfl, used, ranged⟩ := carries
  dsimp only at used ranged steady
  have old : (representation.ownedBy before).index = representation.index := rfl
  have new : (representation.ownedBy owner).index = representation.index := rfl
  simp only [RepresentationHolder.updateRepresentation, old, new]
  cases isIndex : representation.index with
  | none => rfl
  | some index =>
    obtain rfl : segmentIndex = some index := by rw [used (by simp [isIndex]), isIndex]
    cases explicit : index.isExplicit with
    | false => simp only [explicit, Bool.not_false, if_true]; rfl
    | true =>
      simp only [explicit, Bool.not_true, Bool.false_eq_true, if_false]
      rcases steady index isIndex explicit with ⟨before, overlap, found, zero⟩ | ⟨same, zero⟩
      · rw [if_neg (by omega), if_neg (by omega), found]
        simp only [bind, Except.bind, pure, Except.pure, toInt32_add_of_zero ranged zero]
        rfl
      · rw [if_pos same, toInt32_add_of_zero ranged zero]
        rfl

end RepresentationHolder

namespace PeriodHolder

def Ordered (holders : List (String × RepresentationHolder)) : Prop :=
  holders.Pairwise fun first second => first.1 < second.1

theorem insert_ordered {id : String} {holder : RepresentationHolder}
    {holders : List (String × RepresentationHolder)} (ordered : Ordered holders) :
    Ordered (insert id holder holders) := by
  induction holders with
  | nil => exact List.pairwise_singleton _ _
  | cons entry rest ih =>
    obtain ⟨before, behind⟩ := List.pairwise_cons.mp ordered
    rw [insert]
    split
    · exact ordered
    · rename_i differs
      split
      · rename_i earlier
        refine List.pairwise_cons.mpr ⟨?_, ordered⟩
        intro other member
        rcases List.mem_cons.mp member with rfl | member
        · exact earlier
        · exact lt_trans earlier (before other member)
      · rename_i notEarlier
        refine List.pairwise_cons.mpr ⟨?_, ih behind⟩
        intro other member
        rcases mem_insert member with rfl | member
        · exact lt_of_le_of_ne (not_lt.mp notEarlier) differs
        · exact before other member

theorem holdersOf_ordered (startTime duration : Int) (representations : List Representation) :
    Ordered (holdersOf startTime duration representations) := by
  unfold holdersOf
  apply List.foldlRecOn (motive := Ordered)
  · exact List.Pairwise.nil
  · intro holders ordered representation _
    exact insert_ordered ordered

theorem length_insert_le (id : String) (holder : RepresentationHolder)
    (holders : List (String × RepresentationHolder)) :
    (insert id holder holders).length ≤ holders.length + 1 := by
  induction holders with
  | nil => rfl
  | cons entry rest ih =>
    rw [insert]
    split
    · exact Nat.le_succ _
    · split
      · exact le_rfl
      · simpa using ih

theorem holdersOf_length (startTime duration : Int) (representations : List Representation) :
    (holdersOf startTime duration representations).length ≤ representations.length := by
  suffices grows : ∀ holders : List (String × RepresentationHolder),
      (representations.foldl (fun holders representation =>
        insert representation.format.id (.create startTime duration representation) holders)
        holders).length ≤ holders.length + representations.length by
    simpa [holdersOf] using grows []
  intro holders
  induction representations generalizing holders with
  | nil => exact le_rfl
  | cons first rest ih =>
    have one := length_insert_le first.format.id (.create startTime duration first) holders
    have later := ih (insert first.format.id (.create startTime duration first) holders)
    rw [List.foldl_cons, List.length_cons]
    omega

theorem ordered_of_ids {holders others : List (String × RepresentationHolder)}
    (same : others.map Prod.fst = holders.map Prod.fst) (ordered : Ordered holders) :
    Ordered others := by
  have ids : (holders.map Prod.fst).Pairwise (· < ·) := List.pairwise_map.mpr ordered
  rw [← same] at ids
  exact List.pairwise_map.mp ids

theorem store_same {holders : List (String × RepresentationHolder)} {id : String}
    {holder : RepresentationHolder} (ordered : Ordered holders)
    (found : holders.lookup id = some holder) : store holders id holder = holders := by
  induction holders with
  | nil => rfl
  | cons entry rest ih =>
    obtain ⟨before, behind⟩ := List.pairwise_cons.mp ordered
    obtain ⟨name, value⟩ := entry
    rw [store] at ih ⊢
    rw [List.map_cons]
    by_cases isId : name = id
    · subst name
      obtain rfl : value = holder := by simpa using found
      have others : ∀ entry ∈ rest, (if entry.1 = id then (id, value) else entry) = entry := by
        intro entry member
        exact if_neg (ne_of_gt (before entry member))
      rw [List.map_congr_left others, List.map_id']
      simp
    · have differs : (id == name) = false := by simpa using Ne.symm isId
      rw [List.lookup_cons, differs] at found
      rw [ih behind found]
      simp [isId]

def CarriesAll (set : AdaptationSet) (duration : Int) (indices : List Nat) (holder : PeriodHolder) :
    Prop :=
  ∀ index ∈ indices, ∃ representation representationHolder,
    set.representations[index]? = some representation ∧
    holder.getRepresentationHolder representation.format.id = some representationHolder ∧
    representationHolder.Carries representation duration

def SteadyAll (set : AdaptationSet) (duration : Int) (holder : PeriodHolder) : Prop :=
  ∀ representation ∈ set.representations,
    (holder.getRepresentationHolder representation.format.id).isSome →
      ∀ index, representation.index = some index → index.Steady duration

def idAt (set : AdaptationSet) (index : Nat) : Option String :=
  set.representations[index]?.map fun representation => representation.format.id

def repoint (owner : Nat) (updated : List String) (entry : String × RepresentationHolder) :
    String × RepresentationHolder :=
  if entry.1 ∈ updated then (entry.1, entry.2.repointed owner) else entry

theorem repoint_id (owner : Nat) (updated : List String) (entry : String × RepresentationHolder) :
    (repoint owner updated entry).1 = entry.1 := by
  unfold repoint
  split <;> rfl

theorem repoint_cons (owner : Nat) (id : String) (updated : List String)
    (entry : String × RepresentationHolder) :
    repoint owner updated (repoint owner [id] entry) = repoint owner (id :: updated) entry := by
  by_cases first : entry.1 = id <;> by_cases later : entry.1 ∈ updated <;>
    simp_all [repoint, RepresentationHolder.repointed, Representation.ownedBy]

theorem repoint_ids (owner : Nat) (updated : List String)
    (holders : List (String × RepresentationHolder)) :
    (holders.map (repoint owner updated)).map Prod.fst = holders.map Prod.fst := by
  simp [List.map_map, Function.comp_def, repoint_id]

theorem lookup_repoint (owner : Nat) (updated : List String)
    (holders : List (String × RepresentationHolder)) (id : String) :
    (holders.map (repoint owner updated)).lookup id =
      (holders.lookup id).map fun representationHolder =>
        if id ∈ updated then representationHolder.repointed owner else representationHolder := by
  induction holders with
  | nil => rfl
  | cons entry rest ih =>
    obtain ⟨name, value⟩ := entry
    rw [List.map_cons, List.lookup_cons]
    have shape : repoint owner updated (name, value) = (name,
        if name ∈ updated then value.repointed owner else value) := by
      unfold repoint
      split <;> rfl
    rw [shape, List.lookup_cons]
    cases same : id == name with
    | false => exact ih
    | true =>
      obtain rfl : id = name := by simpa using same
      rfl

theorem store_repointed {holders : List (String × RepresentationHolder)} {id : String}
    {holder : RepresentationHolder} (ordered : Ordered holders)
    (found : holders.lookup id = some holder) (owner : Nat) :
    store holders id (holder.repointed owner) = holders.map (repoint owner [id]) := by
  -- No other entry has the id.
  have alone : ∀ entry ∈ holders, (if entry.1 = id then (id, holder) else entry) = entry := by
    have same : holders.map _ = holders := store_same ordered found
    simpa using List.map_inj_left.mp (same.trans (List.map_id' holders).symm)
  rw [store]
  refine List.map_congr_left fun entry member => ?_
  have itself := alone entry member
  unfold repoint
  simp only [List.mem_singleton]
  split
  · rename_i same
    rw [if_pos same] at itself
    rw [← itself]
  · rfl

theorem CarriesAll.repoint {set : AdaptationSet} {duration : Int} {indices : List Nat}
    {holder : PeriodHolder} (carries : holder.CarriesAll set duration indices) (owner : Nat)
    (updated : List String) :
    { holder with
      representationHolders := holder.representationHolders.map
        (PeriodHolder.repoint owner updated) }.CarriesAll set duration indices := by
  intro index member
  obtain ⟨representation, representationHolder, listed, found, one⟩ := carries index member
  rw [getRepresentationHolder] at found
  refine ⟨representation, if representation.format.id ∈ updated then
    representationHolder.repointed owner else representationHolder, listed, ?_, ?_⟩
  · rw [getRepresentationHolder, lookup_repoint, found, Option.map_some]
  · split
    · exact one.repointed owner
    · exact one

theorem updateRepresentations_repoints {set : AdaptationSet} {duration : Int} {indices : List Nat}
    {holder : PeriodHolder} (ordered : Ordered holder.representationHolders)
    (carries : holder.CarriesAll set duration indices) (steady : holder.SteadyAll set duration)
    (owner : Nat) :
    updateRepresentations (set.ownedBy owner) duration indices holder =
      .ok (true, { holder with
        representationHolders :=
          holder.representationHolders.map (repoint owner (indices.filterMap (idAt set))) }) := by
  induction indices generalizing holder with
  | nil =>
    have same : repoint owner [] = id := by
      funext entry
      simp [repoint]
    rw [List.filterMap_nil, same, List.map_id]
    rfl
  | cons index indices ih =>
    obtain ⟨representation, representationHolder, listed, found, one⟩ :=
      carries index List.mem_cons_self
    have itsSteady := steady representation (List.mem_of_getElem? listed) (by rw [found]; rfl)
    have listed' : (set.ownedBy owner).representations[index]? = some (representation.ownedBy owner) := by
      simp [AdaptationSet.ownedBy, listed]
    have its : idAt set index = some representation.format.id := by simp [idAt, listed]
    rw [getRepresentationHolder] at found
    rw [updateRepresentations, listed']
    have name : (representation.ownedBy owner).format.id = representation.format.id := rfl
    simp only [name, found, one.updateRepresentation itsSteady owner, bind, Except.bind, if_true,
      store_repointed ordered found owner]
    have later : CarriesAll set duration indices holder := fun other member =>
      carries other (List.mem_cons_of_mem _ member)
    rw [ih (ordered_of_ids (repoint_ids _ _ _) ordered) (later.repoint owner _) ?_]
    · simp only [List.map_map, Function.comp_def, repoint_cons, List.filterMap_cons_some its]
    · intro other member held
      apply steady other member
      rw [getRepresentationHolder, lookup_repoint, Option.isSome_map] at held
      exact held

theorem updateRepresentations_frame {set : AdaptationSet} {duration : Int} {indices : List Nat}
    {holder after : PeriodHolder} {updated : Bool} {id : String}
    (update : updateRepresentations set duration indices holder = .ok (updated, after))
    (other : ∀ index ∈ indices, ∀ representation, set.representations[index]? = some representation →
      representation.format.id ≠ id) :
    after.getRepresentationHolder id = holder.getRepresentationHolder id := by
  refine updateRepresentations_preserves
    (fun between => between.getRepresentationHolder id = holder.getRepresentationHolder id) ?_ rfl
    update
  intro index member between representation old new done listed _ _ kept
  have differs := other index member representation listed
  rw [getRepresentationHolder, lookup_store, if_neg differs.symm]
  exact kept

def Ranged (holder : PeriodHolder) : Prop :=
  ∀ id representationHolder, holder.getRepresentationHolder id = some representationHolder →
    toInt32 representationHolder.segmentNumShift = representationHolder.segmentNumShift

def Indexed (set : AdaptationSet) (holder : PeriodHolder) : Prop :=
  ∀ representation ∈ set.representations, ∀ representationHolder,
    holder.getRepresentationHolder representation.format.id = some representationHolder →
      representationHolder.representation.index = none → representation.index = none

theorem Indexed.store {set : AdaptationSet} {holder : PeriodHolder} {representation : Representation}
    {representationHolder : RepresentationHolder} (indexed : holder.Indexed set)
    (itself : representationHolder.representation.index = representation.index)
    (alone : ∀ other ∈ set.representations, other.format.id = representation.format.id →
      other = representation) :
    { holder with
      representationHolders := PeriodHolder.store holder.representationHolders
        representation.format.id representationHolder }.Indexed set := by
  intro other listed its found none
  rw [getRepresentationHolder, lookup_store] at found
  split at found
  · rename_i same
    obtain ⟨old, _, rfl⟩ := Option.map_eq_some_iff.mp found
    rwa [alone other listed same, ← itself]
  · exact indexed other listed its found none

theorem Ranged.store {holder : PeriodHolder} {id : String}
    {representationHolder : RepresentationHolder} (ranged : holder.Ranged)
    (itself : toInt32 representationHolder.segmentNumShift = representationHolder.segmentNumShift) :
    { holder with
      representationHolders :=
        PeriodHolder.store holder.representationHolders id representationHolder }.Ranged := by
  intro key its found
  rw [getRepresentationHolder, lookup_store] at found
  split at found
  · obtain ⟨old, _, rfl⟩ := Option.map_eq_some_iff.mp found
    exact itself
  · exact ranged key its found

section

variable {set : AdaptationSet}
  (distinct : (set.representations.map fun representation => representation.format.id).Nodup)

include distinct

theorem eq_of_id {first second : Nat} {representation other : Representation}
    (isFirst : set.representations[first]? = some representation)
    (isSecond : set.representations[second]? = some other)
    (same : representation.format.id = other.format.id) : first = second := by
  have within : first < (set.representations.map fun other => other.format.id).length := by
    rw [List.length_map]
    exact (List.getElem?_eq_some_iff.mp isFirst).1
  apply (List.getElem?_inj within distinct).mp
  rw [List.getElem?_map, List.getElem?_map, isFirst, isSecond, Option.map_some, Option.map_some, same]

theorem updateRepresentations_carries {duration : Int} {indices : List Nat}
    {holder after : PeriodHolder} (once : indices.Nodup) (ranged : holder.Ranged)
    (indexed : holder.Indexed set)
    (update : updateRepresentations set duration indices holder = .ok (true, after)) :
    after.CarriesAll set duration indices := by
  induction indices generalizing holder with
  | nil => simp [CarriesAll]
  | cons index indices ih =>
    obtain ⟨notAgain, once⟩ := List.nodup_cons.mp once
    obtain ⟨representation, old, representationHolder, done, listed, found, one, rest⟩ :=
      updateRepresentations_cons update
    have member := List.mem_of_getElem? listed
    have its := RepresentationHolder.updateRepresentation_carries (ranged _ _ found)
      (indexed representation member old found) one
    obtain ⟨rfl, onward⟩ | ⟨failed, -⟩ := rest
    · have alone : ∀ other ∈ set.representations,
          other.format.id = representation.format.id → other = representation := by
        intro other otherMember same
        obtain ⟨second, isSecond⟩ := List.getElem?_of_mem otherMember
        have sameIndex := eq_of_id distinct isSecond listed same
        rw [sameIndex, listed] at isSecond
        exact (Option.some.inj isSecond).symm
      have later := ih once (ranged.store its.ranged) (indexed.store its.index alone) onward
      intro another member
      rcases List.mem_cons.mp member with rfl | member
      · refine ⟨representation, representationHolder, listed, ?_, its⟩
        -- The updates behind this one are of other ids.
        rw [updateRepresentations_frame onward, getRepresentationHolder, lookup_store, if_pos rfl,
          found, Option.map_some]
        intro other otherMember otherRepresentation isOther same
        exact notAgain (eq_of_id distinct listed isOther same.symm ▸ otherMember)
      · exact later another member
    · cases failed

end

structure Carries (set : AdaptationSet) (duration : Int) (holder : PeriodHolder) : Prop where
  all : holder.CarriesAll set duration holder.representationIndices
  covers : ∀ entry ∈ holder.representationHolders,
    entry.1 ∈ holder.representationIndices.filterMap (idAt set)
  properties : ∃ first rest representation, holder.representationIndices = first :: rest ∧
    set.representations[first]? = some representation ∧
    holder.updateRepresentationIndependentProperties duration representation.index = holder

theorem updateRepresentationIndependentProperties_indices (holder : PeriodHolder) (duration : Int)
    (index : Option DashSegmentIndex) :
    (holder.updateRepresentationIndependentProperties duration index).representationIndices =
      holder.representationIndices := by
  obtain ⟨_, _, _, same⟩ := updateRepresentationIndependentProperties_window holder duration index
  rw [same]

theorem updateRepresentationIndependentProperties_idempotent (holder : PeriodHolder) (duration : Int)
    (index : Option DashSegmentIndex) :
    (holder.updateRepresentationIndependentProperties duration
      index).updateRepresentationIndependentProperties duration index =
        holder.updateRepresentationIndependentProperties duration index := by
  cases index with
  | none => rfl
  | some index =>
    by_cases unbounded : index.getLastSegmentNum duration = kIndexUnbounded
    · simp [updateRepresentationIndependentProperties, unbounded]
    · simp [updateRepresentationIndependentProperties, unbounded]

theorem updateRepresentationIndependentProperties_with (holder : PeriodHolder)
    (holders : List (String × RepresentationHolder)) (duration : Int)
    (index : Option DashSegmentIndex) :
    { holder with
      representationHolders := holders }.updateRepresentationIndependentProperties duration index =
        { holder.updateRepresentationIndependentProperties duration index with
          representationHolders := holders } := by
  unfold updateRepresentationIndependentProperties
  cases index with
  | none => rfl
  | some index =>
    dsimp only
    split
    · rfl
    · rfl

theorem updateRepresentations_indices {set : AdaptationSet} {duration : Int} {indices : List Nat}
    {holder after : PeriodHolder} {updated : Bool}
    (update : updateRepresentations set duration indices holder = .ok (updated, after)) :
    after.representationIndices = holder.representationIndices :=
  updateRepresentations_preserves
    (fun between => between.representationIndices = holder.representationIndices)
    (fun _ _ _ _ _ _ _ _ _ _ kept => kept) rfl update

theorem carriesAll_properties {set : AdaptationSet} {duration : Int} {indices : List Nat}
    {holder : PeriodHolder} (carries : holder.CarriesAll set duration indices) (length : Int)
    (index : Option DashSegmentIndex) :
    (holder.updateRepresentationIndependentProperties length index).CarriesAll set duration
      indices := by
  unfold CarriesAll getRepresentationHolder
  rw [updateRepresentationIndependentProperties_holders]
  exact carries

theorem CarriesAll.carries {set : AdaptationSet} {duration : Int} {holder : PeriodHolder} {first : Nat}
    {rest : List Nat} {representation : Representation}
    (all : holder.CarriesAll set duration holder.representationIndices)
    (covers : ∀ entry ∈ holder.representationHolders,
      entry.1 ∈ holder.representationIndices.filterMap (idAt set))
    (indices : holder.representationIndices = first :: rest)
    (listed : set.representations[first]? = some representation) :
    (holder.updateRepresentationIndependentProperties duration representation.index).Carries set
      duration := by
  constructor
  · rw [updateRepresentationIndependentProperties_indices]
    exact carriesAll_properties all _ _
  · rw [updateRepresentationIndependentProperties_indices,
      updateRepresentationIndependentProperties_holders]
    exact covers
  · refine ⟨first, rest, representation, ?_, listed, ?_⟩
    · rw [updateRepresentationIndependentProperties_indices, indices]
    · exact updateRepresentationIndependentProperties_idempotent _ _ _

def repointed (owner : Nat) (holder : PeriodHolder) : PeriodHolder :=
  { holder with
    representationHolders := holder.representationHolders.map fun entry =>
      (entry.1, entry.2.repointed owner) }

theorem Carries.map_repoint {set : AdaptationSet} {duration : Int} {holder : PeriodHolder}
    (carries : holder.Carries set duration) (owner : Nat) :
    holder.representationHolders.map (repoint owner
        (holder.representationIndices.filterMap (idAt set))) =
      (holder.repointed owner).representationHolders := by
  refine List.map_congr_left fun entry member => ?_
  rw [repoint, if_pos (carries.covers entry member)]

theorem repointed_ids (owner : Nat) (holder : PeriodHolder) :
    (holder.repointed owner).representationHolders.map Prod.fst =
      holder.representationHolders.map Prod.fst := by
  simp [repointed, List.map_map, Function.comp_def]

theorem Carries.repointed {set : AdaptationSet} {duration : Int} {holder : PeriodHolder}
    (carries : holder.Carries set duration) (owner : Nat) :
    (holder.repointed owner).Carries set duration := by
  refine ⟨?_, ?_, ?_⟩
  · have all := carries.all.repoint owner (holder.representationIndices.filterMap (idAt set))
    rw [carries.map_repoint owner] at all
    exact all
  · intro entry member
    obtain ⟨before, held, rfl⟩ := List.mem_map.mp member
    exact carries.covers before held
  · obtain ⟨first, rest, representation, indices, isFirst, properties⟩ := carries.properties
    refine ⟨first, rest, representation, indices, isFirst, ?_⟩
    have kept := updateRepresentationIndependentProperties_with holder
      (holder.repointed owner).representationHolders duration representation.index
    rw [properties] at kept
    exact kept

theorem SteadyAll.repointed {set : AdaptationSet} {duration : Int} {holder : PeriodHolder}
    (steady : holder.SteadyAll set duration) (owner : Nat) :
    (holder.repointed owner).SteadyAll set duration := by
  intro representation member held
  apply steady representation member
  rwa [getRepresentationHolder, lookup_isSome, repointed_ids, ← lookup_isSome] at held

def Points (set : AdaptationSet) (holder : PeriodHolder) : Prop :=
  ∀ entry ∈ holder.representationHolders, entry.2.representation ∈ set.representations

theorem lookup_of_mem {holders : List (String × RepresentationHolder)} (ordered : Ordered holders)
    {entry : String × RepresentationHolder} (member : entry ∈ holders) :
    holders.lookup entry.1 = some entry.2 := by
  induction holders with
  | nil => simp at member
  | cons first rest ih =>
    obtain ⟨before, behind⟩ := List.pairwise_cons.mp ordered
    rcases List.mem_cons.mp member with rfl | member
    · rw [List.lookup_cons, beq_self_eq_true]
    · have differs : (entry.1 == first.1) = false := by
        simpa using ne_of_gt (before entry member)
      rw [List.lookup_cons, differs]
      exact ih behind member

theorem Carries.points_repointed {set : AdaptationSet} {duration : Int} {holder : PeriodHolder}
    (ordered : Ordered holder.representationHolders) (carries : holder.Carries set duration)
    (owner : Nat) : (holder.repointed owner).Points (set.ownedBy owner) := by
  intro entry member
  obtain ⟨before, held, rfl⟩ := List.mem_map.mp member
  obtain ⟨index, isIndex, isId⟩ := List.mem_filterMap.mp (carries.covers before held)
  obtain ⟨representation, representationHolder, listed, found, one⟩ := carries.all index isIndex
  rw [idAt, listed, Option.map_some, Option.some.injEq] at isId
  rw [isId, getRepresentationHolder, lookup_of_mem ordered held, Option.some.injEq] at found
  obtain ⟨_, itself⟩ := one.itself
  refine List.mem_map.mpr ⟨representation, List.mem_of_getElem? listed, ?_⟩
  rw [RepresentationHolder.repointed, found, itself]
  rfl

theorem minElement_map {α β : Type} {less : α → α → Bool} {less' : β → β → Bool} {change : α → β}
    (same : ∀ first second, less' (change first) (change second) = less first second) (first : α)
    (rest : List α) :
    minElement less' (change first) (rest.map change) = change (minElement less first rest) := by
  unfold minElement
  induction rest generalizing first with
  | nil => rfl
  | cons next rest ih =>
    simp only [List.map_cons, List.foldl_cons, same]
    split
    · exact ih next
    · exact ih first

theorem filter_map_of_same {α : Type} {matching : α → Bool} {change : α → α}
    (same : ∀ element, matching (change element) = matching element) (elements : List α) :
    (elements.map change).filter matching = (elements.filter matching).map change := by
  rw [List.filter_map]
  congr 2
  exact funext same

theorem selectAdaptationSet_ownedBy (owner : Nat) (period : Period) (criteria : TrackCriteria) :
    selectAdaptationSet (period.ownedBy owner) criteria =
      (selectAdaptationSet period criteria).map (·.ownedBy owner) := by
  have less (first second : AdaptationSet) :
      AdaptationSetComparator.less criteria (first.ownedBy owner) (second.ownedBy owner) =
        AdaptationSetComparator.less criteria first second := by
    obtain ⟨_ | ⟨first, rest⟩, schemes⟩ := first <;>
      obtain ⟨_ | ⟨first', rest'⟩, schemes'⟩ := second <;> rfl
  unfold selectAdaptationSet Period.ownedBy
  dsimp only
  rw [filter_map_of_same]
  · generalize List.filter _ period.adaptationSets = all
    cases all with
    | nil => rfl
    | cons first rest => simp only [List.map_cons, Option.map_some, minElement_map less]
  · rintro ⟨_ | ⟨first, rest⟩, schemes⟩ <;> rfl

theorem periodDuration_ownedBy (owner : Nat) (manifest : MediaPresentationDescription) (index : Nat) :
    periodDuration (manifest.ownedBy owner) index = periodDuration manifest index := by
  have same : (manifest.ownedBy owner).getPeriodDuration index = manifest.getPeriodDuration index := by
    simp only [MediaPresentationDescription.getPeriodDuration,
      MediaPresentationDescription.ownedBy, List.getElem?_map, List.head?_map]
    cases manifest.periods[index]? with
    | none => rfl
    | some period =>
      cases manifest.periods[index + 1]? with
      | none =>
        simp only [Option.map_some, Option.map_none, Option.map_map, Function.comp_def]
        rfl
      | some next => rfl
  rw [periodDuration, periodDuration, same]

section

variable {manifest : MediaPresentationDescription} {index : Nat} {criteria : TrackCriteria}
  {period : Period} {set : AdaptationSet} (listed : manifest.periods[index]? = some period)
  (selected : selectAdaptationSet period criteria = some set)

include listed selected

theorem updatePeriod_repoints {holder : PeriodHolder}
    (ordered : Ordered holder.representationHolders)
    (carries : holder.Carries set (periodDuration manifest index))
    (steady : holder.SteadyAll set (periodDuration manifest index)) (owner : Nat) :
    holder.updatePeriod (manifest.ownedBy owner) index criteria =
      .ok (true, holder.repointed owner) := by
  obtain ⟨first, rest, representation, indices, isFirst, properties⟩ := carries.properties
  have listed' : (manifest.ownedBy owner).periods[index]? = some (period.ownedBy owner) := by
    simp [MediaPresentationDescription.ownedBy, listed]
  have isFirst' : (set.ownedBy owner).representations[first]? =
      some (representation.ownedBy owner) := by
    simp [AdaptationSet.ownedBy, isFirst]
  have sameIndex : (representation.ownedBy owner).index = representation.index := rfl
  unfold updatePeriod MediaPresentationDescription.getPeriod
  rw [listed', periodDuration_ownedBy]
  simp only [bind, Except.bind, selectAdaptationSet_ownedBy, selected, Option.map_some]
  rw [updateRepresentations_repoints ordered carries.all steady owner, carries.map_repoint]
  simp only [Bool.not_true, Bool.false_eq_true, if_false, indices, isFirst', sameIndex]
  have kept := updateRepresentationIndependentProperties_with holder
    (holder.repointed owner).representationHolders (periodDuration manifest index)
    representation.index
  rw [properties, indices] at kept
  rw [kept]
  rfl

end

theorem lookup_insert_self {id : String} {holder : RepresentationHolder}
    {holders : List (String × RepresentationHolder)} (absent : holders.lookup id = none) :
    (insert id holder holders).lookup id = some holder := by
  induction holders with
  | nil => simp [insert]
  | cons entry rest ih =>
    obtain ⟨name, value⟩ := entry
    rw [List.lookup_cons] at absent
    split at absent
    · cases absent
    · rename_i differs
      have notSame : name ≠ id := fun same => by simp [same] at differs
      rw [insert, if_neg notSame]
      split
      · simp
      · rw [List.lookup_cons, differs]
        exact ih absent

theorem lookup_insert_of_ne {id key : String} (holder : RepresentationHolder)
    (holders : List (String × RepresentationHolder)) (other : key ≠ id) :
    (insert id holder holders).lookup key = holders.lookup key := by
  have differs : (key == id) = false := by simpa using other
  induction holders with
  | nil => simp [insert, List.lookup_cons, differs]
  | cons entry rest ih =>
    rw [insert]
    split
    · rfl
    · split
      · rw [List.lookup_cons, differs]
      · rw [List.lookup_cons, List.lookup_cons, ih]

def fill (startTime duration : Int) (holders : List (String × RepresentationHolder))
    (representations : List Representation) : List (String × RepresentationHolder) :=
  representations.foldl (fun holders representation =>
    PeriodHolder.insert representation.format.id (.create startTime duration representation) holders)
    holders

theorem lookup_fill_of_ne {startTime duration : Int} {representations : List Representation}
    (holders : List (String × RepresentationHolder)) {id : String}
    (other : ∀ representation ∈ representations, representation.format.id ≠ id) :
    (fill startTime duration holders representations).lookup id = holders.lookup id := by
  unfold fill
  apply List.foldlRecOn (motive := fun filled : List (String × RepresentationHolder) =>
    filled.lookup id = holders.lookup id)
  · rfl
  · intro filled kept representation member
    rw [lookup_insert_of_ne _ _ (other representation member).symm, kept]

theorem lookup_fill {startTime duration : Int} {representations : List Representation}
    {holders : List (String × RepresentationHolder)}
    (distinct : (representations.map fun representation => representation.format.id).Nodup)
    (absent : ∀ representation ∈ representations,
      holders.lookup representation.format.id = none) :
    ∀ representation ∈ representations,
      (fill startTime duration holders representations).lookup representation.format.id =
        some (.create startTime duration representation) := by
  induction representations generalizing holders with
  | nil => simp
  | cons first rest ih =>
    rw [List.map_cons, List.nodup_cons] at distinct
    obtain ⟨notAgain, distinct⟩ := distinct
    have others : ∀ representation ∈ rest, representation.format.id ≠ first.format.id := by
      intro representation member same
      exact notAgain (same ▸ List.mem_map_of_mem member)
    intro representation member
    rw [fill, List.foldl_cons]
    rcases List.mem_cons.mp member with rfl | member
    · exact (lookup_fill_of_ne _ others).trans (lookup_insert_self (absent _ List.mem_cons_self))
    · refine ih distinct ?_ representation member
      intro another anotherMember
      rw [lookup_insert_of_ne _ _ (others another anotherMember)]
      exact absent another (List.mem_cons_of_mem _ anotherMember)

theorem create_carries {localIndex : Int} {manifest : MediaPresentationDescription} {index : Nat}
    {criteria : TrackCriteria} {period : Period} {set : AdaptationSet} {holder : PeriodHolder}
    (listed : manifest.periods[index]? = some period)
    (selected : selectAdaptationSet period criteria = some set)
    (distinct : (set.representations.map fun representation => representation.format.id).Nodup)
    (created : create localIndex manifest index criteria = .ok holder) :
    holder.Carries set (periodDuration manifest index) := by
  obtain ⟨_, isPeriod, ⟨none, -⟩ | ⟨_, first, rest, isSet, representations, rfl⟩⟩ :=
    create_cases created
  · cases listed.symm.trans isPeriod
    cases none.symm.trans selected
  · cases listed.symm.trans isPeriod
    cases selected.symm.trans isSet
    have isFirst : set.representations[0]? = some first := by simp [representations]
    have indices : List.range set.representations.length =
        0 :: (List.range rest.length).map Nat.succ := by
      rw [representations, List.length_cons, List.range_succ_eq_map]
    refine CarriesAll.carries ?_ ?_ indices isFirst
    swap
    · intro entry member
      obtain ⟨representation, isListed, rfl⟩ := mem_holdersOf member
      obtain ⟨other, found⟩ := List.getElem?_of_mem isListed
      refine List.mem_filterMap.mpr ⟨other, List.mem_range.mpr ?_, by rw [idAt, found]; rfl⟩
      exact (List.getElem?_eq_some_iff.mp found).1
    intro other member
    replace member := List.mem_range.mp member
    refine ⟨set.representations[other], .create ((period.startMs : Int) * 1000) _
      set.representations[other], List.getElem?_eq_getElem member, ?_,
      RepresentationHolder.create_carries _ _ _⟩
    exact lookup_fill distinct (fun _ _ => rfl) _ (List.getElem_mem member)

/-- What every holder keeps: its map is ordered, its shifts are int32_t, and its indices are those of
the set that it was created with, whose ids are its keys. -/
structure Regular (holder : PeriodHolder) : Prop where
  ordered : Ordered holder.representationHolders
  ranged : holder.Ranged
  indices : ∃ count, holder.representationIndices = List.range count ∧
    holder.representationHolders.length ≤ count

theorem Regular.first_eq {holder : PeriodHolder} (regular : holder.Regular) {first : Nat}
    {rest : List Nat} (indices : holder.representationIndices = first :: rest) : first = 0 := by
  obtain ⟨count, range, -⟩ := regular.indices
  rw [range] at indices
  cases count with
  | zero => simp at indices
  | succ count =>
    rw [List.range_succ_eq_map] at indices
    exact (List.cons.inj indices).1.symm

theorem Regular.properties {holder : PeriodHolder} (regular : holder.Regular) (duration : Int)
    (index : Option DashSegmentIndex) :
    (holder.updateRepresentationIndependentProperties duration index).Regular := by
  constructor
  · rw [updateRepresentationIndependentProperties_holders]
    exact regular.ordered
  · unfold Ranged getRepresentationHolder
    rw [updateRepresentationIndependentProperties_holders]
    exact regular.ranged
  · rw [updateRepresentationIndependentProperties_indices,
      updateRepresentationIndependentProperties_holders]
    exact regular.indices

theorem Regular.store {holder : PeriodHolder} {id : String}
    {representationHolder : RepresentationHolder} (regular : holder.Regular)
    (itself : toInt32 representationHolder.segmentNumShift = representationHolder.segmentNumShift) :
    { holder with
      representationHolders :=
        PeriodHolder.store holder.representationHolders id representationHolder }.Regular where
  ordered := ordered_of_ids (map_fst_store _ _ _) regular.ordered
  ranged := regular.ranged.store itself
  indices := by
    obtain ⟨count, range, fits⟩ := regular.indices
    refine ⟨count, range, ?_⟩
    rwa [PeriodHolder.store, List.length_map]

theorem Regular.repointed {holder : PeriodHolder} (regular : holder.Regular) (owner : Nat) :
    (holder.repointed owner).Regular where
  ordered := ordered_of_ids (repointed_ids owner holder) regular.ordered
  ranged id representationHolder found := by
    obtain ⟨entry, member, same⟩ := List.mem_map.mp (mem_of_getRepresentationHolder found)
    cases same
    exact regular.ranged entry.1 entry.2 (lookup_of_mem regular.ordered member)
  indices := by
    obtain ⟨count, range, fits⟩ := regular.indices
    exact ⟨count, range, (List.length_map _).trans_le fits⟩

theorem updatePeriod_regular {holder after : PeriodHolder} {manifest : MediaPresentationDescription}
    {index : Nat} {criteria : TrackCriteria} {updated : Bool} (regular : holder.Regular)
    (update : holder.updatePeriod manifest index criteria = .ok (updated, after)) :
    after.Regular := by
  refine updatePeriod_preserves Regular ?_ (fun _ duration index kept => kept.properties duration index)
    regular update
  intro other representation old new duration done found one kept
  obtain ⟨_, _, _, shift⟩ := RepresentationHolder.updateRepresentation_spec one
  exact kept.store (shift (kept.ranged _ old found))

theorem create_regular {localIndex : Int} {manifest : MediaPresentationDescription} {index : Nat}
    {criteria : TrackCriteria} {holder : PeriodHolder}
    (created : create localIndex manifest index criteria = .ok holder) : holder.Regular := by
  obtain ⟨period, -, ⟨-, rfl⟩ | ⟨set, first, rest, -, -, rfl⟩⟩ := create_cases created
  · apply Regular.properties
    exact ⟨List.Pairwise.nil, by simp [Ranged, getRepresentationHolder], 0, rfl, le_rfl⟩
  · apply Regular.properties
    refine ⟨holdersOf_ordered _ _ _, ?_, set.representations.length, rfl, holdersOf_length _ _ _⟩
    intro id representationHolder found
    obtain ⟨representation, _, same⟩ := mem_holdersOf (mem_of_getRepresentationHolder found)
    cases same
    rfl

theorem filterMap_range_getElem? {α : Type} (elements : List α) (count : Nat) :
    (List.range count).filterMap (elements[·]?) = elements.take count := by
  induction count with
  | zero => rfl
  | succ count ih =>
    rw [List.range_succ, List.filterMap_append, ih, List.take_add_one]
    cases found : elements[count]? with
    | none => simp [found]
    | some element => simp [found]

section

variable {set : AdaptationSet}
  (distinct : (set.representations.map fun representation => representation.format.id).Nodup)

include distinct

-- As many ids as the map has at most, and all of them in it: there is no other key.
theorem CarriesAll.covers {duration : Int} {holder : PeriodHolder} (regular : holder.Regular)
    (all : holder.CarriesAll set duration holder.representationIndices) :
    ∀ entry ∈ holder.representationHolders,
      entry.1 ∈ holder.representationIndices.filterMap (idAt set) := by
  obtain ⟨count, range, fits⟩ := regular.indices
  rw [range] at all ⊢
  have ids : (List.range count).filterMap (idAt set) =
      (set.representations.map fun representation => representation.format.id).take count := by
    rw [← filterMap_range_getElem?]
    refine List.filterMap_congr fun index _ => ?_
    rw [idAt, List.getElem?_map]
  have enough : count ≤ set.representations.length := by
    by_contra short
    obtain ⟨_, _, listed, -⟩ := all set.representations.length (List.mem_range.mpr (by omega))
    simp at listed
  have held : (List.range count).filterMap (idAt set) ⊆
      holder.representationHolders.map Prod.fst := by
    intro id member
    obtain ⟨index, isIndex, isId⟩ := List.mem_filterMap.mp member
    obtain ⟨representation, representationHolder, listed, found, -⟩ := all index isIndex
    rw [idAt, listed, Option.map_some, Option.some.injEq] at isId
    subst isId
    exact List.mem_map_of_mem (mem_of_getRepresentationHolder found)
  have once : ((List.range count).filterMap (idAt set)).Nodup := by
    rw [ids]
    exact distinct.sublist (List.take_sublist _ _)
  have length : ((List.range count).filterMap (idAt set)).length = count := by
    rw [ids, List.length_take, List.length_map, Nat.min_eq_left enough]
  have same := (List.Nodup.subperm once held).perm_of_length_le
    (by rw [List.length_map, length]; exact fits)
  intro entry member
  exact same.mem_iff.mpr (List.mem_map_of_mem member)

theorem updatePeriod_carries {holder after : PeriodHolder} {manifest : MediaPresentationDescription}
    {index : Nat} {criteria : TrackCriteria} {period : Period}
    (listed : manifest.periods[index]? = some period)
    (selected : selectAdaptationSet period criteria = some set)
    (regular : holder.Regular) (indexed : holder.Indexed set)
    (update : holder.updatePeriod manifest index criteria = .ok (true, after)) :
    after.Carries set (periodDuration manifest index) := by
  have nowRegular := updatePeriod_regular regular update
  obtain ⟨_, isPeriod, ⟨none, -, -⟩ | ⟨_, between, isSet, representations, result⟩⟩ :=
    updatePeriod_cases update
  · cases listed.symm.trans isPeriod
    cases none.symm.trans selected
  · cases listed.symm.trans isPeriod
    cases selected.symm.trans isSet
    have once : holder.representationIndices.Nodup := by
      obtain ⟨count, range, -⟩ := regular.indices
      rw [range]
      exact List.nodup_range
    have all := updateRepresentations_carries distinct once regular.ranged indexed representations
    rw [← updateRepresentations_indices representations] at all
    obtain ⟨failed, -⟩ | ⟨-, first, rest, representation, indices, isFirst, rfl⟩ := result
    · cases failed
    · have its := carriesAll_properties all (periodDuration manifest index) representation.index
      rw [← updateRepresentationIndependentProperties_indices between (periodDuration manifest index)
        representation.index] at its
      have covers := its.covers distinct nowRegular
      rw [updateRepresentationIndependentProperties_indices,
        updateRepresentationIndependentProperties_holders] at covers
      exact all.carries covers indices isFirst

end

theorem create_points {localIndex : Int} {manifest : MediaPresentationDescription} {index : Nat}
    {criteria : TrackCriteria} {period : Period} {set : AdaptationSet} {holder : PeriodHolder}
    (listed : manifest.periods[index]? = some period)
    (selected : selectAdaptationSet period criteria = some set)
    (created : create localIndex manifest index criteria = .ok holder) : holder.Points set := by
  obtain ⟨_, isPeriod, ⟨none, -⟩ | ⟨_, first, rest, isSet, -, rfl⟩⟩ := create_cases created
  · cases listed.symm.trans isPeriod
    cases none.symm.trans selected
  · cases listed.symm.trans isPeriod
    cases selected.symm.trans isSet
    unfold Points
    rw [updateRepresentationIndependentProperties_holders]
    intro entry member
    obtain ⟨representation, isListed, rfl⟩ := mem_holdersOf member
    exact isListed

theorem updateRepresentations_points {set : AdaptationSet} {duration : Int} {indices : List Nat}
    {holder after : PeriodHolder} {id : String}
    (reached : id ∈ indices.filterMap (idAt set) ∨
      ∀ representationHolder, holder.getRepresentationHolder id = some representationHolder →
        representationHolder.representation ∈ set.representations)
    (update : updateRepresentations set duration indices holder = .ok (true, after)) :
    ∀ representationHolder, after.getRepresentationHolder id = some representationHolder →
      representationHolder.representation ∈ set.representations := by
  induction indices generalizing holder with
  | nil =>
    cases update
    exact reached.resolve_left (by simp)
  | cons index indices ih =>
    obtain ⟨representation, old, new, done, listed, found, one, rest⟩ :=
      updateRepresentations_cons update
    have itself := RepresentationHolder.updateRepresentation_representation one
    obtain ⟨-, onward⟩ | ⟨failed, -⟩ := rest
    · refine ih ?_ onward
      have its : idAt set index = some representation.format.id := by simp [idAt, listed]
      rw [List.filterMap_cons_some its, List.mem_cons] at reached
      by_cases same : id = representation.format.id
      · right
        intro representationHolder isHeld
        rw [getRepresentationHolder, lookup_store, if_pos same, Option.map_eq_some_iff] at isHeld
        obtain ⟨_, _, rfl⟩ := isHeld
        exact itself ▸ List.mem_of_getElem? listed
      · refine (reached.imp_left fun either => either.resolve_left same).imp_right ?_
        intro points representationHolder isHeld
        rw [getRepresentationHolder, lookup_store, if_neg same] at isHeld
        exact points representationHolder isHeld
    · cases failed

theorem updatePeriod_points {holder after : PeriodHolder} {manifest : MediaPresentationDescription}
    {index : Nat} {criteria : TrackCriteria} {period : Period} {set : AdaptationSet}
    (listed : manifest.periods[index]? = some period)
    (selected : selectAdaptationSet period criteria = some set) (regular : after.Regular)
    (carries : after.Carries set (periodDuration manifest index))
    (update : holder.updatePeriod manifest index criteria = .ok (true, after)) :
    after.Points set := by
  intro entry member
  have covered := carries.covers entry member
  have found : after.getRepresentationHolder entry.1 = some entry.2 :=
    lookup_of_mem regular.ordered member
  obtain ⟨_, isPeriod, ⟨none, -, -⟩ | ⟨_, between, isSet, representations, result⟩⟩ :=
    updatePeriod_cases update
  · cases listed.symm.trans isPeriod
    cases none.symm.trans selected
  · cases listed.symm.trans isPeriod
    cases selected.symm.trans isSet
    obtain ⟨failed, -⟩ | ⟨-, first, rest, representation, -, -, rfl⟩ := result
    · cases failed
    · rw [updateRepresentationIndependentProperties_indices,
        updateRepresentations_indices representations] at covered
      rw [getRepresentationHolder, updateRepresentationIndependentProperties_holders] at found
      exact updateRepresentations_points (.inl covered) representations entry.2 found

end PeriodHolder

end NDash.Dash

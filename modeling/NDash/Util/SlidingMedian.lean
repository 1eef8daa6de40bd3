import Mathlib.Algebra.GroupWithZero.Nat
import Mathlib.Algebra.Ring.Int.Defs
import NDash.Util
import Mathlib.Data.List.Sort
import Mathlib.Data.List.DropRight

set_option autoImplicit false

namespace NDash.Util

/-- An element of the multimap. The queue of iterators knows it by `iterator`. -/
structure Sample where
  iterator : Nat
  value : Int
  weight : Int
deriving DecidableEq, Repr

structure SlidingMedian where
  maxWeight : Int
  samplesByIndex : List Nat := []
  samplesByValue : List Sample := []
  totalWeight : Int := 0
  nextIterator : Nat := 0
deriving DecidableEq, Repr

namespace SlidingMedian

def construct (maxWeight : Int) : Except Fault SlidingMedian :=
  if 0 < maxWeight then .ok { maxWeight } else .error .checkFailed

-- A multimap puts an element behind those with an equal key.
def insert (sample : Sample) : List Sample → List Sample
  | [] => [sample]
  | first :: rest =>
    if first.value ≤ sample.value then first :: insert sample rest else sample :: first :: rest

def lighten (iterator : Nat) (excessWeight : Int) (samples : List Sample) : List Sample :=
  samples.map fun sample =>
    if sample.iterator = iterator then { sample with weight := sample.weight - excessWeight }
    else sample

def dropExcess (maxWeight : Int) : List Nat → List Sample → Int →
    Except Fault (List Nat × List Sample × Int)
  | [], samples, totalWeight =>
    if totalWeight > maxWeight then .error .outOfBounds else .ok ([], samples, totalWeight)
  | oldest :: later, samples, totalWeight =>
    if totalWeight > maxWeight then
      let excessWeight := totalWeight - maxWeight
      match samples.find? fun sample => sample.iterator = oldest with
      | none => .error .outOfBounds
      | some sample =>
        if sample.weight ≤ excessWeight then
          dropExcess maxWeight later (samples.filter fun other => other.iterator ≠ oldest)
            (totalWeight - sample.weight)
        else
          .ok (oldest :: later, lighten oldest excessWeight samples, totalWeight - excessWeight)
    else .ok (oldest :: later, samples, totalWeight)

def addSample (median : SlidingMedian) (weight value : Int) : Except Fault SlidingMedian :=
  if 0 < weight then do
    let (samplesByIndex, samplesByValue, totalWeight) ← dropExcess median.maxWeight
      (median.samplesByIndex ++ [median.nextIterator])
      (insert { iterator := median.nextIterator, value, weight } median.samplesByValue)
      (toInt32 (median.totalWeight + weight))
    return { median with samplesByIndex, samplesByValue, totalWeight,
                         nextIterator := median.nextIterator + 1 }
  else .error .checkFailed

def hasSample (median : SlidingMedian) : Bool := !median.samplesByValue.isEmpty

def accumulate (desiredWeight : Int) : Int → List Sample → Int
  | _, [] => 0
  | accumulatedWeight, sample :: rest =>
    let accumulatedWeight := toInt32 (accumulatedWeight + sample.weight)
    if accumulatedWeight ≥ desiredWeight then sample.value
    else accumulate desiredWeight accumulatedWeight rest

def getAverage (median : SlidingMedian) : Int :=
  accumulate (median.totalWeight.tdiv 2 + median.totalWeight.tmod 2) 0 median.samplesByValue

def addSamples (median : SlidingMedian) (history : List (Int × Int)) : Except Fault SlidingMedian :=
  history.foldlM (fun median sample => median.addSample sample.1 sample.2) median

end SlidingMedian

def Sample.units (sample : Sample) : List Int := List.replicate sample.weight.toNat sample.value

def units (history : List (Int × Int)) : List Int :=
  history.flatMap fun sample => List.replicate sample.1.toNat sample.2

def window (maxWeight : Int) (history : List (Int × Int)) : List Int :=
  (units history).rtake maxWeight.toNat

/-- The value at position `ceil (n / 2)` in order, 0 where there is none. -/
def middle (values : List Int) : Int :=
  ((values.insertionSort (· ≤ ·))[(values.length + 1) / 2 - 1]?).getD 0

structure Stored (samplesByIndex : List Nat) (samplesByValue : List Sample) (totalWeight : Int)
    (arrived : List Sample) : Prop where
  index : samplesByIndex = arrived.map Sample.iterator
  perm : samplesByValue.Perm arrived
  sorted : samplesByValue.Pairwise fun first second => first.value ≤ second.value
  distinct : (arrived.map Sample.iterator).Nodup
  positive : ∀ sample ∈ arrived, 0 < sample.weight
  total : totalWeight = (arrived.map Sample.weight).sum

section

variable {samplesByIndex : List Nat} {samplesByValue arrived : List Sample} {sample : Sample}
  {totalWeight maxWeight : Int}

theorem length_units (positive : ∀ sample ∈ arrived, 0 < sample.weight) :
    ((arrived.flatMap Sample.units).length : Int) = (arrived.map Sample.weight).sum := by
  induction arrived with
  | nil => rfl
  | cons first rest ih =>
    have here := positive first List.mem_cons_self
    have later := ih fun sample member => positive sample (List.mem_cons_of_mem _ member)
    simp only [List.flatMap_cons, List.length_append, List.map_cons, List.sum_cons, Sample.units,
      List.length_replicate]
    omega

theorem insert_perm (sample : Sample) (samples : List Sample) :
    (SlidingMedian.insert sample samples).Perm (samples ++ [sample]) := by
  induction samples with
  | nil => exact .refl _
  | cons first rest ih =>
    rw [SlidingMedian.insert]
    split
    · exact ih.cons first
    · exact (List.perm_append_singleton sample (first :: rest)).symm

theorem insert_sorted {samples : List Sample}
    (sorted : samples.Pairwise fun first second => first.value ≤ second.value) :
    (SlidingMedian.insert sample samples).Pairwise fun first second =>
      first.value ≤ second.value := by
  induction sorted with
  | nil => simp [SlidingMedian.insert]
  | @cons first rest least sorted ih =>
    rw [SlidingMedian.insert]
    split
    · rename_i before
      refine List.Pairwise.cons ?_ ih
      intro other member
      rcases List.mem_append.mp ((insert_perm sample rest).mem_iff.mp member) with old | new
      · exact least other old
      · rw [List.mem_singleton.mp new]
        exact before
    · rename_i behind
      refine List.Pairwise.cons ?_ (.cons least sorted)
      intro other member
      rcases List.mem_cons.mp member with rfl | old
      · omega
      · have := least other old
        omega

theorem Stored.insert (stored : Stored samplesByIndex samplesByValue totalWeight arrived)
    (fresh : sample.iterator ∉ arrived.map Sample.iterator) (positive : 0 < sample.weight) :
    Stored (samplesByIndex ++ [sample.iterator]) (SlidingMedian.insert sample samplesByValue)
      (totalWeight + sample.weight) (arrived ++ [sample]) where
  index := by rw [stored.index, List.map_append, List.map_singleton]
  perm := (insert_perm sample samplesByValue).trans (stored.perm.append_right _)
  sorted := insert_sorted stored.sorted
  distinct := by
    rw [List.map_append, List.map_singleton, List.nodup_append]
    refine ⟨stored.distinct, List.nodup_singleton _, ?_⟩
    intro iterator member other new same
    rw [List.mem_singleton] at new
    exact fresh (new ▸ same ▸ member)
  positive := by
    intro other member
    rcases List.mem_append.mp member with old | new
    · exact stored.positive other old
    · rw [List.mem_singleton.mp new]
      exact positive
  total := by simp [stored.total]

theorem Stored.find (stored : Stored samplesByIndex samplesByValue totalWeight (sample :: arrived)) :
    (samplesByValue.find? fun other => other.iterator = sample.iterator) = some sample := by
  have member := stored.perm.mem_iff.mpr (List.mem_cons_self (a := sample) (l := arrived))
  have found : (samplesByValue.find? fun other => other.iterator = sample.iterator).isSome :=
    List.find?_isSome.mpr ⟨sample, member, by simp⟩
  obtain ⟨other, isOther⟩ := Option.isSome_iff_exists.mp found
  have same : other.iterator = sample.iterator := by simpa using List.find?_some isOther
  have listed := stored.perm.mem_iff.mp (List.mem_of_find?_eq_some isOther)
  rw [isOther, List.inj_on_of_nodup_map stored.distinct listed List.mem_cons_self same]

theorem Stored.others (stored : Stored samplesByIndex samplesByValue totalWeight (sample :: arrived)) :
    (∀ other ∈ arrived, other.iterator ≠ sample.iterator) ∧ (arrived.map Sample.iterator).Nodup := by
  have distinct := stored.distinct
  rw [List.map_cons, List.nodup_cons] at distinct
  refine ⟨?_, distinct.2⟩
  intro other member same
  exact distinct.1 (same ▸ List.mem_map_of_mem member)

theorem Stored.drop (stored : Stored samplesByIndex samplesByValue totalWeight (sample :: arrived)) :
    Stored (arrived.map Sample.iterator)
      (samplesByValue.filter fun other => other.iterator ≠ sample.iterator)
      (totalWeight - sample.weight) arrived where
  index := rfl
  perm := by
    have filtered := stored.perm.filter fun other => other.iterator ≠ sample.iterator
    have kept : arrived.filter (fun other => other.iterator ≠ sample.iterator) = arrived := by
      apply List.filter_eq_self.mpr
      intro other member
      simpa using stored.others.1 other member
    rwa [List.filter_cons_of_neg (by simp), kept] at filtered
  sorted := stored.sorted.filter _
  distinct := stored.others.2
  positive other member := stored.positive other (List.mem_cons_of_mem _ member)
  total := by
    rw [stored.total, List.map_cons, List.sum_cons]
    omega

theorem lighten_self {excess : Int} (others : ∀ other ∈ arrived, other.iterator ≠ sample.iterator) :
    SlidingMedian.lighten sample.iterator excess (sample :: arrived) =
      { sample with weight := sample.weight - excess } :: arrived := by
  rw [SlidingMedian.lighten, List.map_cons, if_pos rfl]
  congr 1
  conv_rhs => rw [← List.map_id arrived]
  apply List.map_congr_left
  intro other member
  exact if_neg (others other member)

theorem lighten_sorted {iterator : Nat} {excess : Int} {samples : List Sample}
    (sorted : samples.Pairwise fun first second => first.value ≤ second.value) :
    (SlidingMedian.lighten iterator excess samples).Pairwise fun first second =>
      first.value ≤ second.value := by
  rw [SlidingMedian.lighten, List.pairwise_map]
  refine sorted.imp ?_
  intro first second ordered
  split <;> split <;> exact ordered

theorem Stored.lighten {excess : Int}
    (stored : Stored samplesByIndex samplesByValue totalWeight (sample :: arrived))
    (less : excess < sample.weight) :
    Stored samplesByIndex (SlidingMedian.lighten sample.iterator excess samplesByValue)
      (totalWeight - excess) ({ sample with weight := sample.weight - excess } :: arrived) where
  index := stored.index
  perm := by
    rw [← lighten_self stored.others.1]
    exact stored.perm.map _
  sorted := lighten_sorted stored.sorted
  distinct := stored.distinct
  positive := by
    intro other member
    rcases List.mem_cons.mp member with rfl | later
    · show 0 < sample.weight - excess
      omega
    · exact stored.positive other (List.mem_cons_of_mem _ later)
  total := by
    rw [stored.total, List.map_cons, List.map_cons, List.sum_cons, List.sum_cons]
    dsimp only
    omega

theorem rtake_of_length_le {values : List Int} {count : Nat} (fits : values.length ≤ count) :
    values.rtake count = values := by
  rw [List.rtake, Nat.sub_eq_zero_of_le fits, List.drop_zero]

theorem rtake_append_of_le {older newer : List Int} {count : Nat} (fills : count ≤ newer.length) :
    (older ++ newer).rtake count = newer.rtake count := by
  rw [List.rtake, List.rtake, List.length_append, List.drop_append,
    List.drop_eq_nil_of_le (by omega), List.nil_append]
  congr 1
  omega

theorem rtake_rtake_append (older newer : List Int) (count : Nat) :
    (older.rtake count ++ newer).rtake count = (older ++ newer).rtake count := by
  by_cases fills : count ≤ older.length
  · conv_rhs => rw [← List.take_append_drop (older.length - count) older, List.append_assoc]
    refine (rtake_append_of_le ?_).symm
    rw [List.length_append, List.rtake, List.length_drop]
    omega
  · rw [rtake_of_length_le (show older.length ≤ count by omega)]

/-- The loop leaves the newest units, no more than the maximum. -/
theorem Stored.dropExcess (stored : Stored samplesByIndex samplesByValue totalWeight arrived)
    (capacity : 0 ≤ maxWeight) :
    ∃ index value total kept,
      SlidingMedian.dropExcess maxWeight samplesByIndex samplesByValue totalWeight =
        .ok (index, value, total) ∧
      Stored index value total kept ∧ total ≤ maxWeight ∧
      (∀ sample ∈ kept, sample.iterator ∈ arrived.map Sample.iterator) ∧
      kept.flatMap Sample.units = (arrived.flatMap Sample.units).rtake maxWeight.toNat := by
  induction arrived generalizing samplesByIndex samplesByValue totalWeight with
  | nil =>
    have total := stored.total
    have index := stored.index
    subst total index
    exact ⟨[], samplesByValue, 0, [], if_neg (by simpa using capacity), stored, capacity, by simp,
      by simp⟩
  | cons oldest later ih =>
    have count := length_units stored.positive
    have total := stored.total
    have restCount := length_units fun sample member =>
      stored.positive sample (List.mem_cons_of_mem oldest member)
    rw [List.map_cons, List.sum_cons] at total count
    have index := stored.index
    subst index
    rw [List.map_cons, SlidingMedian.dropExcess]
    by_cases excess : totalWeight > maxWeight
    · rw [if_pos excess, stored.find]
      dsimp only
      by_cases whole : oldest.weight ≤ totalWeight - maxWeight
      · obtain ⟨index, value, total, kept, dropped, keptStored, fits, old, units⟩ := ih stored.drop
        refine ⟨index, value, total, kept, ?_, keptStored, fits, ?_, ?_⟩
        · rw [if_pos whole, dropped]
        · intro sample member
          exact List.mem_cons_of_mem _ (old sample member)
        · rw [units, List.flatMap_cons, rtake_append_of_le (by omega)]
      · refine ⟨_, _, _, _, if_neg whole, stored.lighten (by omega), by omega, ?_, ?_⟩
        · intro sample member
          rcases List.mem_cons.mp member with rfl | newer
          · exact List.mem_cons_self
          · exact List.mem_cons_of_mem _ (List.mem_map_of_mem newer)
        · have positive := stored.positive oldest List.mem_cons_self
          rw [List.flatMap_cons, List.flatMap_cons, List.rtake, List.drop_append]
          simp only [List.length_append, Sample.units, List.length_replicate, List.drop_replicate]
          have inside : oldest.weight.toNat + (later.flatMap Sample.units).length -
              maxWeight.toNat - oldest.weight.toNat = 0 := by omega
          rw [inside, List.drop_zero]
          congr 2
          omega
    · refine ⟨_, _, _, _, if_neg excess, stored, by omega, fun sample member =>
        List.mem_map_of_mem member, ?_⟩
      rw [rtake_of_length_le (by omega)]

structure SlidingMedian.Follows (median : SlidingMedian) (history : List (Int × Int))
    (arrived : List Sample) : Prop where
  stored : Stored median.samplesByIndex median.samplesByValue median.totalWeight arrived
  fresh : ∀ sample ∈ arrived, sample.iterator < median.nextIterator
  bounded : median.totalWeight ≤ median.maxWeight
  units : arrived.flatMap Sample.units = window median.maxWeight history

theorem SlidingMedian.Follows.addSample {median : SlidingMedian} {history : List (Int × Int)}
    {weight value : Int} (follows : median.Follows history arrived) (capacity : 0 < median.maxWeight)
    (positive : 0 < weight) (range : median.maxWeight + weight < 2147483648) :
    ∃ next kept, median.addSample weight value = .ok next ∧ next.maxWeight = median.maxWeight ∧
      next.Follows (history ++ [(weight, value)]) kept := by
  have bounded := follows.bounded
  have sum : 0 ≤ median.totalWeight := by
    have count := length_units follows.stored.positive
    rw [← follows.stored.total] at count
    omega
  have fresh : median.nextIterator ∉ arrived.map Sample.iterator := by
    intro member
    obtain ⟨sample, held, same⟩ := List.mem_map.mp member
    have := follows.fresh sample held
    omega
  have inserted : Stored (median.samplesByIndex ++ [median.nextIterator])
      (SlidingMedian.insert ⟨median.nextIterator, value, weight⟩ median.samplesByValue)
      (median.totalWeight + weight) (arrived ++ [⟨median.nextIterator, value, weight⟩]) :=
    follows.stored.insert
      (show (Sample.mk median.nextIterator value weight).iterator ∉ arrived.map Sample.iterator from
        fresh) positive
  obtain ⟨index, values, total, kept, dropped, stored, fits, old, units⟩ :=
    inserted.dropExcess (show 0 ≤ median.maxWeight by omega)
  refine ⟨{ median with samplesByIndex := index, samplesByValue := values, totalWeight := total,
                        nextIterator := median.nextIterator + 1 }, kept, ?_, rfl, stored, ?_, fits, ?_⟩
  · rw [SlidingMedian.addSample, if_pos positive, toInt32_of_range (by omega) (by omega)]
    rw [dropped]
    rfl
  · intro sample member
    have among := old sample member
    rw [List.map_append, List.map_singleton] at among
    rcases List.mem_append.mp among with before | new
    · obtain ⟨other, held, same⟩ := List.mem_map.mp before
      have := follows.fresh other held
      show sample.iterator < median.nextIterator + 1
      omega
    · rw [List.mem_singleton.mp new]
      exact Nat.lt_succ_self _
  · show _ = window median.maxWeight _
    rw [units, List.flatMap_append, follows.units, window, window, rtake_rtake_append, Util.units,
      Util.units, List.flatMap_append]
    rfl

/-- The scan finds the value at the position that the desired weight counts to. -/
theorem accumulate_eq {desiredWeight accumulatedWeight : Int} {samples : List Sample}
    (positive : ∀ sample ∈ samples, 0 < sample.weight) (nonneg : 0 ≤ accumulatedWeight)
    (range : accumulatedWeight + (samples.map Sample.weight).sum < 2147483648)
    (before : accumulatedWeight < desiredWeight) :
    SlidingMedian.accumulate desiredWeight accumulatedWeight samples =
      ((samples.flatMap Sample.units)[(desiredWeight - accumulatedWeight).toNat - 1]?).getD 0 := by
  induction samples generalizing accumulatedWeight with
  | nil => rfl
  | cons sample rest ih =>
    have here := positive sample List.mem_cons_self
    have later : ∀ other ∈ rest, 0 < other.weight :=
      fun other member => positive other (List.mem_cons_of_mem _ member)
    have count := length_units later
    rw [List.map_cons, List.sum_cons] at range
    rw [SlidingMedian.accumulate, toInt32_of_range (by omega) (by omega), List.flatMap_cons]
    split
    · rw [List.getElem?_append_left]
      · rw [Sample.units, List.getElem?_replicate_of_lt (by omega)]
        rfl
      · rw [Sample.units, List.length_replicate]
        omega
    · rw [ih later (by omega) (by omega) (by omega), List.getElem?_append_right]
      · rw [Sample.units, List.length_replicate]
        congr 2
        omega
      · rw [Sample.units, List.length_replicate]
        omega

theorem Stored.sorted_units (stored : Stored samplesByIndex samplesByValue totalWeight arrived) :
    samplesByValue.flatMap Sample.units = (arrived.flatMap Sample.units).insertionSort (· ≤ ·) := by
  have sorted : (samplesByValue.flatMap Sample.units).Pairwise (· ≤ ·) := by
    rw [List.pairwise_flatMap]
    refine ⟨fun sample _ => List.pairwise_replicate.mpr (.inr (Int.le_refl _)), ?_⟩
    refine stored.sorted.imp ?_
    intro first second ordered value member other otherMember
    rw [List.eq_of_mem_replicate member, List.eq_of_mem_replicate otherMember]
    exact ordered
  have perm : (samplesByValue.flatMap Sample.units).Perm (arrived.flatMap Sample.units) :=
    stored.perm.flatMap_right _
  exact List.Perm.eq_of_pairwise' sorted (List.pairwise_insertionSort _ _)
    (perm.trans (List.perm_insertionSort _ _).symm)

theorem SlidingMedian.Follows.getAverage {median : SlidingMedian} {history : List (Int × Int)}
    (follows : median.Follows history arrived) (range : median.maxWeight < 2147483648) :
    median.getAverage = middle (window median.maxWeight history) := by
  have bounded := follows.bounded
  have count := length_units follows.stored.positive
  have total := follows.stored.total
  have positive : ∀ sample ∈ median.samplesByValue, 0 < sample.weight := fun sample member =>
    follows.stored.positive sample (follows.stored.perm.mem_iff.mp member)
  have sum : (median.samplesByValue.map Sample.weight).sum = median.totalWeight := by
    rw [total, ← count, ← length_units positive, (follows.stored.perm.flatMap_right _).length_eq]
  rw [SlidingMedian.getAverage, middle, ← follows.units, ← follows.stored.sorted_units]
  by_cases empty : median.totalWeight = 0
  · have none : median.samplesByValue.flatMap Sample.units = [] := by
      have same := length_units positive
      rw [sum] at same
      exact List.eq_nil_of_length_eq_zero (by omega)
    have nothing : median.samplesByValue = [] := by
      cases values : median.samplesByValue with
      | nil => rfl
      | cons sample rest =>
        have here := positive sample (by rw [values]; exact List.mem_cons_self)
        rw [values, List.flatMap_cons, Sample.units] at none
        have := congrArg List.length none
        simp at this
        omega
    rw [nothing]
    rfl
  · have halves : median.totalWeight.tdiv 2 + median.totalWeight.tmod 2 =
        (median.totalWeight + 1) / 2 := by
      rw [Int.tdiv_eq_ediv_of_nonneg (by omega), Int.tmod_eq_emod_of_nonneg (by omega)]
      omega
    rw [halves, accumulate_eq positive (Int.le_refl 0) (by omega) (by omega)]
    congr 2
    omega

theorem SlidingMedian.Follows.addSamples {median : SlidingMedian} {before : List (Int × Int)}
    (follows : median.Follows before arrived) (capacity : 0 < median.maxWeight)
    (history : List (Int × Int))
    (weights : ∀ sample ∈ history, 0 < sample.1 ∧ median.maxWeight + sample.1 < 2147483648) :
    ∃ final kept, median.addSamples history = .ok final ∧ final.maxWeight = median.maxWeight ∧
      final.Follows (before ++ history) kept := by
  induction history generalizing median before arrived with
  | nil =>
    rw [List.append_nil]
    exact ⟨median, arrived, rfl, rfl, follows⟩
  | cons sample later ih =>
    obtain ⟨positive, range⟩ := weights sample List.mem_cons_self
    obtain ⟨next, kept, added, same, nextFollows⟩ := follows.addSample capacity positive range
    obtain ⟨final, rest, addedAll, sameAll, finalFollows⟩ := ih nextFollows (same ▸ capacity)
      fun other member => same ▸ weights other (List.mem_cons_of_mem _ member)
    refine ⟨final, rest, ?_, sameAll.trans same, ?_⟩
    · rw [SlidingMedian.addSamples, List.foldlM_cons, added]
      exact addedAll
    · rwa [List.append_assoc] at finalFollows

end

/-- The estimator is the weighted median of the newest units of weight, at most the maximum. -/
theorem addSamples_window (maxWeight : Int) (capacity : 0 < maxWeight)
    (history : List (Int × Int))
    (weights : ∀ sample ∈ history, 0 < sample.1 ∧ maxWeight + sample.1 < 2147483648) :
    ∃ median, ((SlidingMedian.construct maxWeight).bind fun median => median.addSamples history) =
        .ok median ∧
      (∃ arrived : List Sample, median.samplesByValue.Perm arrived ∧
        median.samplesByIndex = arrived.map Sample.iterator ∧
        (∀ sample ∈ arrived, 0 < sample.weight) ∧
        arrived.flatMap Sample.units = window maxWeight history) ∧
      (window maxWeight history).length = min (units history).length maxWeight.toNat ∧
      median.totalWeight = (window maxWeight history).length ∧
      median.totalWeight ≤ maxWeight ∧
      median.getAverage = middle (window maxWeight history) := by
  have start : (SlidingMedian.mk maxWeight [] [] 0 0).Follows [] [] :=
    ⟨⟨rfl, .refl _, .nil, .nil, by simp, rfl⟩, by simp, Int.le_of_lt capacity, by simp [window, units]⟩
  obtain ⟨median, arrived, added, same, follows⟩ := start.addSamples capacity history weights
  rw [List.nil_append] at follows
  dsimp only at same
  have stored := follows.stored
  have count := length_units stored.positive
  have units := follows.units
  have bounded := follows.bounded
  rw [same] at units bounded
  rw [units, ← stored.total] at count
  refine ⟨median, ?_, ⟨arrived, stored.perm, stored.index, stored.positive, units⟩, ?_, count.symm,
    bounded, ?_⟩
  · rw [SlidingMedian.construct, if_pos capacity]
    exact added
  · rw [window, List.rtake, List.length_drop]
    omega
  · cases history with
    | nil =>
      have empty : median.samplesByValue = [] := by
        cases added
        rfl
      have nothing : window maxWeight [] = [] := List.rtake_nil _
      rw [SlidingMedian.getAverage, empty, nothing]
      rfl
    | cons sample later =>
      have range := weights sample List.mem_cons_self
      rw [follows.getAverage (by omega), same]

-- Two samples of one unit go at once, and the newest is cut to the maximum.
theorem addSamples_window_ties :
    ∃ median, ((SlidingMedian.construct 3).bind fun median =>
        median.addSamples [(1, 5), (1, 7), (2, 5), (2, 7)]) = .ok median ∧
      (∃ arrived : List Sample, median.samplesByValue.Perm arrived ∧
        median.samplesByIndex = arrived.map Sample.iterator ∧
        (∀ sample ∈ arrived, 0 < sample.weight) ∧ arrived.flatMap Sample.units = [5, 7, 7]) ∧
      [5, 7, 7].length = min (units [(1, 5), (1, 7), (2, 5), (2, 7)]).length 3 ∧
      median.totalWeight = 3 ∧ median.totalWeight ≤ 3 ∧ median.getAverage = 7 :=
  addSamples_window 3 (by decide) [(1, 5), (1, 7), (2, 5), (2, 7)] (by decide)

end NDash.Util

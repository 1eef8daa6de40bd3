import Mathlib.Data.Int.ConditionallyCompleteOrder
import Mathlib.Data.Int.SuccPred
import Mathlib.Order.Interval.Set.LinearOrder
import NDash.Mpd.DashSegmentIndex

set_option autoImplicit false

namespace NDash.Mpd.RangedUri

/-- The positions of the bytes, to the end of the resource where the length is -1. -/
def positions (uri : RangedUri) : Set Int :=
  if uri.length = -1 then Set.Ici uri.start else Set.Ico uri.start (uri.start + uri.length)

structure Valid (uri : RangedUri) : Prop where
  start : 0 ≤ uri.start
  length : 0 ≤ uri.length ∨ uri.length = -1

def EndsAt (uri : RangedUri) (position : Int) : Prop :=
  uri.length ≠ -1 ∧ uri.start + uri.length = position

instance (uri : RangedUri) (position : Int) : Decidable (uri.EndsAt position) :=
  inferInstanceAs (Decidable (_ ∧ _))

def SumFits (first second : RangedUri) : Prop :=
  first.length ≠ -1 → second.length ≠ -1 → first.length + second.length < 2147483648

def joined (owner first second : RangedUri) : RangedUri :=
  .create owner.baseUri owner.referenceUri first.start
    (if second.length = -1 then -1 else first.length + second.length)

def request (resolve : String → String → String) (uri : RangedUri) : String × Int × Int :=
  (uri.getUriString resolve, uri.start, uri.length)

theorem SumFits.symm {first second : RangedUri} (fits : SumFits first second) :
    SumFits second first := by
  intro bounded other
  have := fits other bounded
  omega

variable {resolve : String → String → String} {first second : RangedUri}

theorem attemptMerge_eq : first.attemptMerge resolve (some second) =
    if first.getUriString resolve ≠ second.getUriString resolve then none
    else if first.EndsAt second.start then some (joined first first second)
    else if second.EndsAt first.start then some (joined first second first)
    else none := rfl

theorem joined_length (valid : first.Valid) (other : second.Valid) (fits : SumFits first second)
    (meets : first.EndsAt second.start) (owner : RangedUri) :
    (joined owner first second).length =
      if second.length = -1 then -1 else first.length + second.length := by
  have lengths := valid.length
  have others := other.length
  show toInt32 _ = _
  by_cases unbounded : second.length = -1
  · rw [if_pos unbounded]
    decide
  · have sum := fits meets.1 unbounded
    rw [if_neg unbounded, toInt32_of_range (by omega) sum]

theorem joined_valid (valid : first.Valid) (other : second.Valid) (fits : SumFits first second)
    (meets : first.EndsAt second.start) (owner : RangedUri) : (joined owner first second).Valid where
  start := valid.start
  length := by
    have lengths := valid.length
    have others := other.length
    have bounded := meets.1
    rw [joined_length valid other fits meets]
    split <;> omega

theorem joined_positions (valid : first.Valid) (other : second.Valid) (fits : SumFits first second)
    (meets : first.EndsAt second.start) (owner : RangedUri) :
    (joined owner first second).positions = first.positions ∪ second.positions := by
  obtain ⟨bounded, meets'⟩ := meets
  have lengths := valid.length
  have length := joined_length valid other fits ⟨bounded, meets'⟩ owner
  have start : (joined owner first second).start = first.start := rfl
  unfold positions
  rw [length, start, if_neg bounded, meets']
  by_cases unbounded : second.length = -1
  · rw [if_pos unbounded, if_pos unbounded, if_pos rfl, Set.Ico_union_Ici_eq_Ici (by omega)]
  · have others := other.length
    rw [if_neg unbounded, if_neg unbounded, if_neg (by omega), ← Int.add_assoc, meets',
      Set.Ico_union_Ico_eq_Ico (by omega) (by omega)]

theorem joined_request (same : first.getUriString resolve = second.getUriString resolve)
    {earlier later : RangedUri} :
    request resolve (joined first earlier later) = request resolve (joined second earlier later) :=
  congrArg (·, _) same

-- Two ranges each of which ends where the other starts are empty.
theorem joined_comm (valid : first.Valid) (other : second.Valid) (meets : first.EndsAt second.start)
    (back : second.EndsAt first.start) (owner : RangedUri) :
    joined owner first second = joined owner second first := by
  obtain ⟨bounded, forward⟩ := meets
  obtain ⟨bounded', backward⟩ := back
  have lengths := valid.length
  have others := other.length
  have starts : first.start = second.start := by omega
  rw [joined, joined, if_neg bounded, if_neg bounded', starts, Int.add_comm first.length]

theorem attemptMerge_apart (apart : first.getUriString resolve ≠ second.getUriString resolve) :
    first.attemptMerge resolve (some second) = none := by
  rw [attemptMerge_eq, if_pos apart]

theorem attemptMerge_before (same : first.getUriString resolve = second.getUriString resolve)
    (meets : first.EndsAt second.start) :
    first.attemptMerge resolve (some second) = some (joined first first second) := by
  rw [attemptMerge_eq, if_neg (fun apart => apart same), if_pos meets]

theorem attemptMerge_behind (valid : first.Valid) (other : second.Valid)
    (same : first.getUriString resolve = second.getUriString resolve)
    (meets : second.EndsAt first.start) :
    first.attemptMerge resolve (some second) = some (joined first second first) := by
  by_cases both : first.EndsAt second.start
  · rw [attemptMerge_before same both, joined_comm valid other both meets]
  · rw [attemptMerge_eq, if_neg (fun apart => apart same), if_neg both, if_pos meets]

theorem attemptMerge_gap (gap : ¬ first.EndsAt second.start) (gap' : ¬ second.EndsAt first.start) :
    first.attemptMerge resolve (some second) = none := by
  rw [attemptMerge_eq, if_neg gap, if_neg gap', ite_self]

/-- A merge is the union of two ranges that meet, and both sides see the same one. -/
theorem attemptMerge_union (valid : first.Valid) (other : second.Valid)
    (fits : SumFits first second) :
    ((first.attemptMerge resolve (some second)).isSome ↔
      first.getUriString resolve = second.getUriString resolve ∧
        (first.EndsAt second.start ∨ second.EndsAt first.start)) ∧
    (∀ merged, first.attemptMerge resolve (some second) = some merged →
      merged.Valid ∧ merged.getUriString resolve = first.getUriString resolve ∧
        merged.positions = first.positions ∪ second.positions) ∧
    (first.attemptMerge resolve (some second)).map (request resolve) =
      (second.attemptMerge resolve (some first)).map (request resolve) := by
  by_cases same : first.getUriString resolve = second.getUriString resolve
  · by_cases before : first.EndsAt second.start
    · rw [attemptMerge_before same before, attemptMerge_behind other valid same.symm before]
      refine ⟨by simp [same, before], ?_, congrArg some (joined_request same)⟩
      intro merged merges
      cases merges
      exact ⟨joined_valid valid other fits before first, rfl,
        joined_positions valid other fits before first⟩
    · by_cases behind : second.EndsAt first.start
      · rw [attemptMerge_behind valid other same behind, attemptMerge_before same.symm behind]
        refine ⟨by simp [same, behind], ?_, congrArg some (joined_request same)⟩
        intro merged merges
        cases merges
        refine ⟨joined_valid other valid fits.symm behind first, rfl, ?_⟩
        rw [joined_positions other valid fits.symm behind, Set.union_comm]
      · rw [attemptMerge_gap before behind, attemptMerge_gap behind before]
        exact ⟨by simp [before, behind], by simp, rfl⟩
  · rw [attemptMerge_apart same, attemptMerge_apart (Ne.symm same)]
    exact ⟨by simp [same], by simp, rfl⟩

-- Initialization data in bytes 0 to 99, and an index behind it to the end of the file.
theorem attemptMerge_union_open :
    let first : RangedUri := ⟨"", "video", 0, 100⟩
    let second : RangedUri := ⟨"video", "", 100, -1⟩
    (∃ merged, first.attemptMerge (· ++ ·) (some second) = some merged ∧
      merged.positions = first.positions ∪ second.positions) ∧
      (second.attemptMerge (· ++ ·) (some first)).isSome := by
  intro first second
  have valid : first.Valid := ⟨by decide, .inl (by decide)⟩
  have other : second.Valid := ⟨by decide, .inr rfl⟩
  have fits : SumFits first second := fun _ bounded => absurd rfl bounded
  have meets : first.EndsAt second.start := ⟨by decide, by decide⟩
  obtain ⟨isSome, union, agree⟩ := @attemptMerge_union (· ++ ·) first second valid other fits
  obtain ⟨merged, merges⟩ := Option.isSome_iff_exists.mp (isSome.mpr ⟨rfl, .inl meets⟩)
  refine ⟨⟨merged, merges, (union merged merges).2.2⟩, ?_⟩
  rw [merges] at agree
  rw [← Option.isSome_map (f := request (· ++ ·)), ← agree]
  rfl

end NDash.Mpd.RangedUri

import Mathlib.Data.Int.Basic
import Mathlib.Tactic.Common

set_option autoImplicit false

/-!
# Truncated multiples

Where the multiples of a fraction are truncated towards zero, they run ahead of the multiples of the
truncated fraction.
-/

namespace Truncation

def Splits (total parts : Int) : Prop := parts ∣ total ∨ 0 ≤ total ∧ 0 < parts

def lead (total parts count : Int) : Int := (count * total.tmod parts).tdiv parts

variable {total parts : Int}

theorem lead_zero : lead total parts 0 = 0 := by
  rw [lead, Int.zero_mul, Int.zero_tdiv]

theorem lead_neg (count : Int) : lead total parts (-count) = -lead total parts count := by
  rw [lead, lead, Int.neg_mul, Int.neg_tdiv]

theorem lead_of_dvd (divides : parts ∣ total) (count : Int) : lead total parts count = 0 := by
  rw [lead, Int.tmod_eq_zero_of_dvd divides, Int.mul_zero, Int.zero_tdiv]

theorem lead_mono (splits : Splits total parts) {first second : Int} (ordered : first ≤ second) :
    lead total parts first ≤ lead total parts second := by
  rcases splits with divides | ⟨nonneg, positive⟩
  · have one := lead_of_dvd divides first
    have other := lead_of_dvd divides second
    omega
  · have remainder : 0 ≤ total.tmod parts := Int.tmod_nonneg parts nonneg
    exact Int.tdiv_le_tdiv positive (Int.mul_le_mul_of_nonneg_right ordered remainder)

theorem lead_nonneg (splits : Splits total parts) {count : Int} (nonneg : 0 ≤ count) :
    0 ≤ lead total parts count := by
  have := lead_mono splits nonneg
  rwa [lead_zero] at this

theorem natAbs_lead_le (count : Int) : (lead total parts count).natAbs ≤ count.natAbs := by
  rw [lead, Int.natAbs_tdiv, Int.natAbs_mul, Int.natAbs_tmod]
  change count.natAbs * (total.natAbs % parts.natAbs) / parts.natAbs ≤ count.natAbs
  rcases Nat.eq_zero_or_pos parts.natAbs with none | some
  · rw [none, Nat.div_zero]
    exact Nat.zero_le _
  · apply Nat.div_le_of_le_mul
    rw [Nat.mul_comm]
    exact Nat.mul_le_mul_right _ (Nat.le_of_lt (Nat.mod_lt _ some))

private theorem multiple_of_nonneg (nonneg : 0 ≤ total) (positive : 0 < parts) {count : Int}
    (countNonneg : 0 ≤ count) :
    (count * total).tdiv parts = count * total.tdiv parts + lead total parts count := by
  have remainder : 0 ≤ count * total.tmod parts :=
    Int.mul_nonneg countNonneg (Int.tmod_nonneg parts nonneg)
  have whole := Int.mul_tdiv_add_tmod total parts
  calc (count * total).tdiv parts
      = (count * total) / parts := Int.tdiv_eq_ediv_of_nonneg (Int.mul_nonneg countNonneg nonneg)
    _ = (count * total.tmod parts + parts * (count * total.tdiv parts)) / parts := by
        conv_lhs => rw [← whole, Int.mul_add, Int.mul_left_comm, Int.add_comm]
    _ = count * total.tmod parts / parts + count * total.tdiv parts :=
        Int.add_mul_ediv_left _ _ (Int.ne_of_gt positive)
    _ = count * total.tdiv parts + lead total parts count := by
        rw [lead, Int.tdiv_eq_ediv_of_nonneg remainder, Int.add_comm]

theorem multiple_eq (splits : Splits total parts) (count : Int) :
    (count * total).tdiv parts = count * total.tdiv parts + lead total parts count := by
  rcases splits with divides | ⟨nonneg, positive⟩
  · rw [lead_of_dvd divides, Int.mul_tdiv_assoc _ divides, Int.add_zero]
  · rcases Int.le_total 0 count with countNonneg | negative
    · exact multiple_of_nonneg nonneg positive countNonneg
    · have opposite := multiple_of_nonneg nonneg positive (Int.neg_nonneg.mpr negative)
      rw [lead_neg, Int.neg_mul, Int.neg_tdiv, Int.neg_mul] at opposite
      omega

private theorem add_multiple_tdiv {size extra count : Int} (positive : 0 < size)
    (countNonneg : 0 ≤ count) (nonneg : 0 ≤ extra) :
    (count * size + extra).tdiv size = count + extra.tdiv size := by
  have sum : 0 ≤ count * size + extra :=
    Int.add_nonneg (Int.mul_nonneg countNonneg (Int.le_of_lt positive)) nonneg
  rw [Int.tdiv_eq_ediv_of_nonneg sum, Int.tdiv_eq_ediv_of_nonneg nonneg, Int.add_comm,
    Int.add_mul_ediv_right _ _ (Int.ne_of_gt positive), Int.add_comm]

theorem multiple_tdiv (splits : Splits total parts) (positive : 0 < total.tdiv parts)
    (count : Int) :
    ((count * total).tdiv parts).tdiv (total.tdiv parts) =
      count + (lead total parts count).tdiv (total.tdiv parts) := by
  rw [multiple_eq splits]
  rcases Int.le_total 0 count with nonneg | negative
  · exact add_multiple_tdiv positive nonneg (lead_nonneg splits nonneg)
  · have opposite := add_multiple_tdiv positive (Int.neg_nonneg.mpr negative)
      (lead_nonneg splits (Int.neg_nonneg.mpr negative))
    rw [lead_neg, Int.neg_mul, ← Int.neg_add, Int.neg_tdiv, Int.neg_tdiv] at opposite
    omega

end Truncation

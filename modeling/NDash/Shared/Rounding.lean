import Mathlib.Algebra.Order.Ring.Int
import Mathlib.Data.Nat.Log
import Mathlib.Tactic.Ring

set_option autoImplicit false

/-! Integers that are rounded to a number of significant bits: to the nearest such number, and to the
even one of two that are equally near. -/

namespace Rounding

def roundDiv (value unit : Nat) : Nat :=
  let low := value / unit
  let rest := value % unit
  if unit < 2 * rest ∨ 2 * rest = unit ∧ low % 2 = 1 then low + 1 else low

theorem roundDiv_le {value unit bound : Nat} (below : value ≤ bound * unit) :
    roundDiv value unit ≤ bound := by
  have division := Nat.div_add_mod value unit
  have low : value / unit ≤ bound := Nat.div_le_of_le_mul (by rwa [Nat.mul_comm])
  unfold roundDiv
  dsimp only
  split
  · rename_i up
    -- With a quotient of `bound` there is no rest to round up.
    by_contra exceeds
    have reached : value / unit = bound := by omega
    rw [reached] at division up
    have rest : value % unit = 0 := by
      rw [Nat.mul_comm] at division
      omega
    have unitZero : unit = 0 ∧ bound % 2 = 1 := by omega
    rw [unitZero.1, Nat.div_zero] at reached
    omega
  · exact low

theorem le_roundDiv {value unit bound : Nat} (positive : 0 < unit)
    (above : bound * unit ≤ value) : bound ≤ roundDiv value unit := by
  have low : bound ≤ value / unit := (Nat.le_div_iff_mul_le positive).mpr above
  unfold roundDiv
  dsimp only
  split
  · omega
  · exact low

theorem roundDiv_mono {value other unit : Nat} (positive : 0 < unit) (ordered : value ≤ other) :
    roundDiv value unit ≤ roundDiv other unit := by
  have quotients : value / unit ≤ other / unit := Nat.div_le_div_right ordered
  by_cases same : value / unit = other / unit
  · have rests : value % unit ≤ other % unit := by
      have division := Nat.div_add_mod value unit
      have division' := Nat.div_add_mod other unit
      rw [same] at division
      omega
    unfold roundDiv
    dsimp only
    rw [same]
    split <;> split <;> omega
  · calc
      roundDiv value unit ≤ value / unit + 1 := by
        unfold roundDiv
        dsimp only
        split <;> omega
      _ ≤ other / unit := by omega
      _ ≤ roundDiv other unit := le_roundDiv positive (Nat.div_mul_le_self other unit)

def unitAt (bits value : Nat) : Nat := 2 ^ (value.log2 + 1 - bits)

theorem unitAt_pos (bits value : Nat) : 0 < unitAt bits value := Nat.two_pow_pos _

def roundNat (bits value : Nat) : Nat :=
  roundDiv value (unitAt bits value) * unitAt bits value

theorem roundNat_le_pow (bits value : Nat) :
    roundNat bits value ≤ 2 ^ (value.log2 + 1) := by
  have parts : 2 ^ (value.log2 + 1) = 2 ^ min (value.log2 + 1) bits * unitAt bits value := by
    rw [unitAt, ← Nat.pow_add]
    congr 1
    omega
  rw [parts]
  refine Nat.mul_le_mul_right _ (roundDiv_le ?_)
  rw [← parts]
  exact Nat.le_of_lt Nat.lt_log2_self

theorem pow_le_roundNat {bits value : Nat} (positive : 0 < bits) (nonzero : value ≠ 0) :
    2 ^ value.log2 ≤ roundNat bits value := by
  have parts : 2 ^ value.log2 = 2 ^ min value.log2 (bits - 1) * unitAt bits value := by
    rw [unitAt, ← Nat.pow_add]
    congr 1
    omega
  rw [parts]
  refine Nat.mul_le_mul_right _ (le_roundDiv (unitAt_pos bits value) ?_)
  rw [← parts]
  exact Nat.log2_self_le nonzero

theorem roundNat_mono {bits : Nat} (positive : 0 < bits) : Monotone (roundNat bits) := by
  intro value other ordered
  by_cases zero : other = 0
  · rw [show value = other by omega]
  have logs : value.log2 ≤ other.log2 := by
    by_cases none : value = 0
    · simp [none]
    · exact (Nat.le_log2 zero).mpr ((Nat.log2_self_le none).trans ordered)
  by_cases same : value.log2 = other.log2
  · have unit : unitAt bits value = unitAt bits other := by rw [unitAt, unitAt, same]
    rw [roundNat, roundNat, unit]
    exact Nat.mul_le_mul_right _ (roundDiv_mono (unitAt_pos bits other) ordered)
  · -- A power of two lies between the two.
    calc
      roundNat bits value ≤ 2 ^ (value.log2 + 1) := roundNat_le_pow bits value
      _ ≤ 2 ^ other.log2 := Nat.pow_le_pow_right (by decide) (by omega)
      _ ≤ roundNat bits other := pow_le_roundNat positive zero

theorem roundNat_exact {bits value : Nat} (positive : 0 < bits) (small : value < 2 ^ bits) :
    roundNat bits value = value := by
  have unit : unitAt bits value = 1 := by
    by_cases zero : value = 0
    · rw [unitAt, zero, Nat.log2_zero, Nat.sub_eq_zero_of_le positive, Nat.pow_zero]
    · have := (Nat.log2_lt zero).mpr small
      rw [unitAt, show value.log2 + 1 - bits = 0 by omega, Nat.pow_zero]
  rw [roundNat, unit, Nat.mul_one]
  exact le_antisymm (roundDiv_le (by omega)) (le_roundDiv Nat.one_pos (by omega))

def round (bits : Nat) (value : Int) : Int :=
  if 0 ≤ value then roundNat bits value.natAbs else -roundNat bits value.natAbs

theorem round_mono {bits : Nat} (positive : 0 < bits) {value other : Int} (ordered : value ≤ other) :
    round bits value ≤ round bits other := by
  have grows {first second : Nat} (le : first ≤ second) :
      roundNat bits first ≤ roundNat bits second := roundNat_mono positive le
  unfold round
  split
  · rw [if_pos (by omega)]
    exact_mod_cast grows (show value.natAbs ≤ other.natAbs by omega)
  · split
    · omega
    · have := grows (show other.natAbs ≤ value.natAbs by omega)
      omega

theorem round_exact {bits : Nat} (positive : 0 < bits) {value : Int}
    (small : value.natAbs < 2 ^ bits) : round bits value = value := by
  rw [round, roundNat_exact positive small]
  split <;> omega

end Rounding

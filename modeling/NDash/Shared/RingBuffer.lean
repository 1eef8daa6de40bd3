import Mathlib.Data.List.Basic
import Mathlib.Data.Nat.ModEq
import Mathlib.Logic.Function.Basic
import Mathlib.Tactic.Common

set_option autoImplicit false

namespace RingBuffer

variable {α : Type}

def window (cells : Nat → α) (capacity start count : Nat) : List α :=
  (List.range count).map fun k => cells ((start + k) % capacity)

@[simp] theorem length_window (cells : Nat → α) (capacity start count : Nat) :
    (window cells capacity start count).length = count := by
  simp [window]

@[simp] theorem window_zero (cells : Nat → α) (capacity start : Nat) :
    window cells capacity start 0 = [] := rfl

theorem getElem?_window (cells : Nat → α) (capacity start count k : Nat) (inside : k < count) :
    (window cells capacity start count)[k]? = some (cells ((start + k) % capacity)) := by
  simp [window, inside]

theorem window_start_mod (cells : Nat → α) (capacity start count : Nat) :
    window cells capacity (start % capacity) count = window cells capacity start count := by
  simp [window]

theorem window_snoc (cells : Nat → α) (capacity start count : Nat) :
    window cells capacity start (count + 1) =
      window cells capacity start count ++ [cells ((start + count) % capacity)] := by
  simp [window, List.range_succ]

theorem window_cons (cells : Nat → α) (capacity start count : Nat) :
    window cells capacity start (count + 1) =
      cells (start % capacity) :: window cells capacity (start + 1) count := by
  simp [window, List.range_succ_eq_map, Function.comp_def, Nat.add_assoc, Nat.add_comm 1]

theorem drop_window (cells : Nat → α) (capacity start count k : Nat) :
    (window cells capacity start count).drop k = window cells capacity (start + k) (count - k) := by
  apply List.ext_getElem
  · simp
  · intro i _ _
    simp [window, Nat.add_assoc]

theorem take_window (cells : Nat → α) (capacity start count k : Nat) :
    (window cells capacity start count).take k = window cells capacity start (min k count) := by
  simp [window, List.map_take.symm, List.take_range]

theorem next_index {capacity : Nat} (positive : 0 < capacity) (index : Nat) :
    (index + 1) % capacity = if index % capacity + 1 = capacity then 0 else index % capacity + 1 := by
  have bound := Nat.mod_lt index positive
  rw [← Nat.mod_add_mod]
  split
  next wraps => rw [wraps, Nat.mod_self]
  next inside => exact Nat.mod_eq_of_lt (by omega)

theorem previous_index {capacity : Nat} (positive : 0 < capacity) (index : Nat) :
    (if (index + 1) % capacity = 0 then capacity else (index + 1) % capacity) - 1 =
      index % capacity := by
  rw [next_index positive]
  by_cases wraps : index % capacity + 1 = capacity
  · simp only [wraps, if_true]
    omega
  · simp [wraps]

theorem mod_back {capacity : Nat} (start count back : Nat) (fits : back ≤ count)
    (bound : back ≤ capacity) :
    ((start + count) % capacity + capacity - back) % capacity = (start + (count - back)) % capacity := by
  rw [Nat.add_sub_assoc bound, Nat.mod_add_mod,
    show start + count + (capacity - back) = start + (count - back) + capacity by omega,
    Nat.add_mod_right]

theorem mod_ne_of_lt {capacity a b : Nat} (start : Nat) (order : a < b) (bound : b < a + capacity) :
    (start + a) % capacity ≠ (start + b) % capacity := by
  intro same
  have divides : capacity ∣ start + b - (start + a) :=
    (Nat.modEq_iff_dvd' (by omega)).mp same
  have small : start + b - (start + a) < capacity := by omega
  have := Nat.eq_zero_of_dvd_of_lt divides small
  omega

theorem window_update_outside (cells : Nat → α) (capacity start count : Nat) (value : α)
    (room : count < capacity) :
    window (Function.update cells ((start + count) % capacity) value) capacity start count =
      window cells capacity start count := by
  apply List.map_congr_left
  intro k member
  have inside : k < count := List.mem_range.mp member
  exact Function.update_of_ne (mod_ne_of_lt start inside (by omega)) _ _

theorem window_push (cells : Nat → α) (capacity start count : Nat) (value : α)
    (room : count < capacity) :
    window (Function.update cells ((start + count) % capacity) value) capacity start (count + 1) =
      window cells capacity start count ++ [value] := by
  rw [window_snoc, window_update_outside cells capacity start count value room,
    Function.update_self]

def copyCells (dest : Nat → α) (destPos : Nat) (src : Nat → α) (srcPos len : Nat) : Nat → α :=
  fun i => if destPos ≤ i ∧ i < destPos + len then src (srcPos + (i - destPos)) else dest i

-- The two pieces around the wrap point, laid out one after the other from index 0.
def unroll (fresh cells : Nat → α) (capacity start : Nat) : Nat → α :=
  copyCells (copyCells fresh 0 cells start (capacity - start)) (capacity - start) cells 0 start

theorem unroll_apply (fresh cells : Nat → α) {capacity start i : Nat} (bound : start < capacity)
    (inside : i < capacity) :
    unroll fresh cells capacity start i = cells ((start + i) % capacity) := by
  by_cases wrapped : capacity - start ≤ i
  · have index : (start + i) % capacity = i - (capacity - start) := by
      rw [Nat.mod_eq_sub_mod (by omega), Nat.mod_eq_of_lt (by omega)]
      omega
    have upper : i < capacity - start + start := by omega
    simp [unroll, copyCells, wrapped, upper, index]
  · have index : (start + i) % capacity = start + i := Nat.mod_eq_of_lt (by omega)
    have lower : i < capacity - start := by omega
    simp [unroll, copyCells, wrapped, lower, index]

end RingBuffer

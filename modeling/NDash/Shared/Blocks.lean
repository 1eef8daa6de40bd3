import Mathlib.Data.List.Basic
import Mathlib.Tactic.Common

set_option autoImplicit false

namespace Blocks

variable {α : Type}

def Uniform (size : Nat) (blocks : List (List α)) : Prop := ∀ block ∈ blocks, block.length = size

theorem Uniform.tail {size : Nat} {block : List α} {rest : List (List α)}
    (uniform : Uniform size (block :: rest)) : Uniform size rest :=
  fun other member => uniform other (List.mem_cons_of_mem _ member)

theorem length_flatten {size : Nat} {blocks : List (List α)} (uniform : Uniform size blocks) :
    blocks.flatten.length = blocks.length * size := by
  induction blocks with
  | nil => simp
  | cons block rest ih =>
    have first : block.length = size := uniform block (by simp)
    rw [List.flatten_cons, List.length_append, ih uniform.tail, first, List.length_cons,
      Nat.succ_mul, Nat.add_comm]

theorem flatten_drop {size : Nat} {blocks : List (List α)} (uniform : Uniform size blocks)
    (count : Nat) : (blocks.drop count).flatten = blocks.flatten.drop (count * size) := by
  induction blocks generalizing count with
  | nil => simp
  | cons block rest ih =>
    have first : block.length = size := uniform block (by simp)
    cases count with
    | zero => simp
    | succ count =>
      have past : block.length ≤ (count + 1) * size := by
        rw [first, Nat.succ_mul]
        omega
      rw [List.drop_succ_cons, ih uniform.tail, List.flatten_cons, List.drop_append,
        List.drop_of_length_le past, List.nil_append, first, Nat.succ_mul, Nat.add_sub_cancel]

theorem flatten_take {size : Nat} {blocks : List (List α)} (uniform : Uniform size blocks)
    (count : Nat) : (blocks.take count).flatten = blocks.flatten.take (count * size) := by
  induction blocks generalizing count with
  | nil => simp
  | cons block rest ih =>
    have first : block.length = size := uniform block (by simp)
    cases count with
    | zero => simp
    | succ count =>
      have past : block.length ≤ (count + 1) * size := by
        rw [first, Nat.succ_mul]
        omega
      rw [List.take_succ_cons, List.flatten_cons, ih uniform.tail, List.flatten_cons,
        List.take_append, List.take_of_length_le past, first, Nat.succ_mul, Nat.add_sub_cancel]

theorem slice_head (block : List α) (rest : List (List α)) {position length : Nat}
    (inside : position + length ≤ block.length) :
    ((block :: rest).flatten.drop position).take length = (block.drop position).take length := by
  rw [List.flatten_cons, List.drop_append_of_le_length (by omega),
    List.take_append_of_le_length (by simp only [List.length_drop]; omega)]

theorem getElem?_flatten {size : Nat} {blocks : List (List α)} (uniform : Uniform size blocks)
    {index offset : Nat} {block : List α} (present : blocks[index]? = some block)
    (inside : offset < size) : blocks.flatten[index * size + offset]? = block[offset]? := by
  obtain ⟨bound, same⟩ := List.getElem?_eq_some_iff.mp present
  have length : block.length = size := uniform block (same ▸ List.getElem_mem bound)
  rw [← List.getElem?_drop, ← flatten_drop uniform, List.drop_eq_getElem_cons bound, same,
    List.flatten_cons, List.getElem?_append_left (by omega)]

theorem take_flatten_concat {size : Nat} {blocks : List (List α)} (uniform : Uniform size blocks)
    (block : List α) (count : Nat) :
    (blocks ++ [block]).flatten.take (blocks.length * size + count) =
      blocks.flatten ++ block.take count := by
  rw [← length_flatten uniform, List.flatten_append, List.take_length_add_append,
    List.flatten_singleton]

end Blocks

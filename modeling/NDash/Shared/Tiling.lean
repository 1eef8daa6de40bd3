import Mathlib.Algebra.GroupWithZero.Nat
import Mathlib.Tactic.Common
import Mathlib.Logic.ExistsUnique

set_option autoImplicit false

namespace Tiling

inductive Tiles : List (Nat × Nat) → Nat → Prop
  | nil : Tiles [] 0
  | snoc {pieces : List (Nat × Nat)} {total : Nat} (count : Nat) (tiles : Tiles pieces total)
      (positive : 0 < count) : Tiles (pieces ++ [(count, total + count)]) (total + count)

def Holds (pieces : List (Nat × Nat)) (place index : Nat) : Prop :=
  ∃ piece, pieces[place]? = some piece ∧ piece.2 ≤ index + piece.1 ∧ index < piece.2

theorem Holds.append {pieces : List (Nat × Nat)} {place index : Nat}
    (holds : Holds pieces place index) (more : List (Nat × Nat)) :
    Holds (pieces ++ more) place index := by
  obtain ⟨piece, found, inside⟩ := holds
  exact ⟨piece, List.getElem?_append_left (List.getElem?_eq_some_iff.mp found).1 ▸ found, inside⟩

theorem holds_snoc {pieces : List (Nat × Nat)} {piece : Nat × Nat} {place index : Nat} :
    Holds (pieces ++ [piece]) place index ↔ Holds pieces place index ∨
      place = pieces.length ∧ piece.2 ≤ index + piece.1 ∧ index < piece.2 := by
  constructor
  · rintro ⟨found, at_place, inside⟩
    rcases Nat.lt_trichotomy place pieces.length with before | rfl | behind
    · rw [List.getElem?_append_left before] at at_place
      exact .inl ⟨found, at_place, inside⟩
    · rw [List.getElem?_append_right (Nat.le_refl _), Nat.sub_self] at at_place
      cases at_place
      exact .inr ⟨rfl, inside⟩
    · rw [List.getElem?_eq_none] at at_place
      · cases at_place
      · simp only [List.length_append, List.length_singleton]
        omega
  · rintro (holds | ⟨rfl, inside⟩)
    · exact holds.append [piece]
    · exact ⟨piece, by simp, inside⟩

namespace Tiles

variable {pieces : List (Nat × Nat)} {total : Nat}

theorem mem_bounds (tiles : Tiles pieces total) :
    ∀ piece ∈ pieces, 0 < piece.1 ∧ piece.1 ≤ piece.2 ∧ piece.2 ≤ total := by
  induction tiles with
  | nil => simp
  | snoc count tiles positive ih =>
    intro piece inside
    rcases List.mem_append.mp inside with earlier | last
    · have bounds := ih piece earlier
      omega
    · cases List.mem_singleton.mp last
      exact ⟨positive, Nat.le_add_left _ _, Nat.le_refl _⟩

theorem sum (tiles : Tiles pieces total) : (pieces.map Prod.fst).sum = total := by
  induction tiles with
  | nil => rfl
  | snoc count tiles positive ih => simp [ih]

theorem index_lt (tiles : Tiles pieces total) {place index : Nat} (holds : Holds pieces place index) :
    index < total := by
  obtain ⟨piece, found, -, below⟩ := holds
  have bounds := tiles.mem_bounds piece (List.mem_of_getElem? found)
  omega

theorem existsUnique (tiles : Tiles pieces total) {index : Nat} (below : index < total) :
    ∃! place, Holds pieces place index := by
  induction tiles with
  | nil => exact absurd below (Nat.not_lt_zero index)
  | @snoc pieces total count tiles positive ih =>
    by_cases earlier : index < total
    · obtain ⟨place, holds, unique⟩ := ih earlier
      refine ⟨place, holds.append _, fun other holds' => ?_⟩
      rcases holds_snoc.mp holds' with before | ⟨-, above, -⟩
      · exact unique other before
      · simp only at above
        omega
    · refine ⟨pieces.length, holds_snoc.mpr (.inr ⟨rfl, ?_, ?_⟩), fun other holds' => ?_⟩
      · simp only
        omega
      · simp only
        omega
      · rcases holds_snoc.mp holds' with before | ⟨rfl, -⟩
        · exact absurd (tiles.index_lt before) earlier
        · rfl

end Tiles

end Tiling

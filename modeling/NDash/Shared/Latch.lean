import Mathlib.Data.List.Induction

set_option autoImplicit false

namespace Latch

-- A flag that is set by some observations, stays as it is at others and falls at the rest.
variable {α : Type} (sets holds : α → Bool)

def next (on : Bool) (seen : α) : Bool := sets seen || (holds seen && on)

def state (history : List α) : Bool := history.foldl (next sets holds) false

variable {sets holds}

theorem state_append (history : List α) (seen : α) :
    state sets holds (history ++ [seen]) = next sets holds (state sets holds history) seen := by
  simp [state]

/-- The flag is on if it has been set and nothing since has let it fall. -/
theorem state_iff (history : List α) :
    state sets holds history = true ↔
      ∃ earlier trigger later, history = earlier ++ trigger :: later ∧ sets trigger = true ∧
        ∀ seen ∈ later, sets seen = true ∨ holds seen = true := by
  induction history using List.reverseRecOn with
  | nil => simp [state]
  | append_singleton history seen ih =>
    rw [state_append, next, Bool.or_eq_true, Bool.and_eq_true, ih]
    constructor
    · rintro (triggers | ⟨kept, earlier, trigger, later, rfl, triggers, held⟩)
      · exact ⟨history, seen, [], rfl, triggers, List.forall_mem_nil _⟩
      · refine ⟨earlier, trigger, later ++ [seen], by simp, triggers, ?_⟩
        intro other member
        rcases List.mem_append.mp member with before | last
        · exact held other before
        · rw [List.mem_singleton.mp last]
          exact .inr kept
    · rintro ⟨earlier, trigger, later, split, triggers, held⟩
      rcases List.eq_nil_or_concat later with rfl | ⟨before, last, rfl⟩
      · have same := List.append_inj_right' split rfl
        rw [List.cons.inj same |>.1]
        exact .inl triggers
      · rw [List.concat_eq_append] at split held
        have regrouped : history ++ [seen] = (earlier ++ trigger :: before) ++ [last] := by
          simp [split]
        have here := (List.cons.inj (List.append_inj_right' regrouped rfl)).1
        have front := List.append_inj_left' regrouped rfl
        rw [here]
        rcases held last (by simp) with again | kept
        · exact .inl again
        · exact .inr ⟨kept, earlier, trigger, before, front, triggers,
            fun other member => held other (by simp [member])⟩

end Latch

import Mathlib.Order.Bounds.Basic
import Mathlib.Data.List.Basic

set_option autoImplicit false

/-! Choosing from a list, in one pass, the entries whose key is nearest to a target from above: the
least key that reaches the target, and the greatest key where none does. In the order dual of the
keys this is the greatest key up to a limit, and the least key where all exceed it. -/

namespace Nearest

variable {κ : Type*} [LinearOrder κ]

def IsNearest (target : κ) (keys : Set κ) (key : κ) : Prop :=
  IsLeast {other | other ∈ keys ∧ target ≤ other} key ∨
    (∀ other ∈ keys, other < target) ∧ IsGreatest keys key

def Better (target kept next : κ) : Prop :=
  kept < target ∧ kept < next ∨ target ≤ next ∧ next < kept

instance (target kept next : κ) : Decidable (Better target kept next) :=
  inferInstanceAs (Decidable (_ ∨ _))

theorem Better.ne {target kept next : κ} (better : Better target kept next) : kept ≠ next := by
  rcases better with low | low
  · exact low.2.ne
  · exact low.2.ne'

namespace IsNearest

variable {target key next other : κ} {keys : Set κ}

theorem mem (nearest : IsNearest target keys key) : key ∈ keys := by
  rcases nearest with reached | short
  · exact reached.1.1
  · exact short.2.1

theorem singleton (target key : κ) : IsNearest target {key} key := by
  by_cases reached : target ≤ key
  · exact .inl ⟨⟨rfl, reached⟩, fun _ other => other.1.ge⟩
  · refine .inr ⟨?_, rfl, fun _ other => other.le⟩
    rintro _ rfl
    exact lt_of_not_ge reached

theorem unique (first : IsNearest target keys key) (second : IsNearest target keys other) :
    key = other := by
  rcases first with reached | short <;> rcases second with reached' | short'
  · exact reached.unique reached'
  · exact absurd reached.1.2 (not_le.mpr (short'.1 _ reached.1.1))
  · exact absurd reached'.1.2 (not_le.mpr (short.1 _ reached'.1.1))
  · exact short.2.unique short'.2

theorem replace (nearest : IsNearest target keys key) (better : Better target key next) :
    IsNearest target (insert next keys) next := by
  rcases nearest with reached | short
  · -- What is kept reaches the target, so only a smaller key that reaches it too is better.
    have smaller : target ≤ next ∧ next < key :=
      better.resolve_left fun low => absurd reached.1.2 (not_le.mpr low.1)
    refine .inl ⟨⟨Set.mem_insert _ _, smaller.1⟩, ?_⟩
    rintro other ⟨rfl | offered, above⟩
    · exact le_rfl
    · exact (smaller.2.trans_le (reached.2 ⟨offered, above⟩)).le
  · have greater : key < next := by
      rcases better with low | low
      · exact low.2
      · exact absurd (low.2.trans (short.1 key short.2.1)) (not_lt.mpr low.1)
    by_cases reached : target ≤ next
    · refine .inl ⟨⟨Set.mem_insert _ _, reached⟩, ?_⟩
      rintro other ⟨rfl | offered, above⟩
      · exact le_rfl
      · exact absurd (short.1 other offered) (not_lt.mpr above)
    · refine .inr ⟨?_, Set.mem_insert _ _, ?_⟩
      · rintro other (rfl | offered)
        · exact lt_of_not_ge reached
        · exact short.1 other offered
      · rintro other (rfl | offered)
        · exact le_rfl
        · exact ((short.2.2 offered).trans_lt greater).le

theorem retain (nearest : IsNearest target keys key) (better : ¬ Better target key next) :
    IsNearest target (insert next keys) key := by
  simp only [Better, not_or, not_and, not_lt] at better
  rcases nearest with reached | short
  · refine .inl ⟨⟨Set.mem_insert_of_mem _ reached.1.1, reached.1.2⟩, ?_⟩
    rintro other ⟨rfl | offered, above⟩
    · exact better.2 above
    · exact reached.2 ⟨offered, above⟩
  · have below : next ≤ key := better.1 (short.1 key short.2.1)
    refine .inr ⟨?_, Set.mem_insert_of_mem _ short.2.1, ?_⟩
    · rintro other (rfl | offered)
      · exact below.trans_lt (short.1 key short.2.1)
      · exact short.1 other offered
    · rintro other (rfl | offered)
      · exact below
      · exact short.2.2 offered

-- Two targets have the same nearest key if no key but the greatest lies between them.
theorem eq_iff {target' : κ} (first : IsNearest target keys key)
    (second : IsNearest target' keys next) (ordered : target ≤ target') :
    key = next ↔ ∀ other ∈ keys, target ≤ other → other < target' → IsGreatest keys other := by
  constructor
  · rintro rfl other offered above below
    have reached : key ≤ other := by
      rcases first with reached | short
      · exact reached.2 ⟨offered, above⟩
      · exact absurd (short.1 other offered) (not_lt.mpr above)
    rcases second with reached' | short
    · exact absurd (reached'.1.2.trans reached) (not_le.mpr below)
    · exact ⟨offered, fun _ inside => (short.2.2 inside).trans reached⟩
  · intro between
    rcases first with reached | short
    · by_cases below : key < target'
      · have greatest := between key reached.1.1 reached.1.2 below
        rcases second with reached' | short'
        · exact absurd ((reached'.1.2.trans (greatest.2 reached'.1.1))) (not_le.mpr below)
        · exact greatest.unique short'.2
      · have above : target' ≤ key := not_lt.mp below
        rcases second with reached' | short'
        · exact le_antisymm (reached.2 ⟨reached'.1.1, ordered.trans reached'.1.2⟩)
            (reached'.2 ⟨reached.1.1, above⟩)
        · exact absurd (short'.1 key reached.1.1) below
    · rcases second with reached' | short'
      · exact absurd (short.1 next reached'.1.1) (not_lt.mpr (ordered.trans reached'.1.2))
      · exact short.2.unique short'.2

end IsNearest

section Passes

variable {α : Type*} (keyOf : α → κ) (target : κ)

def collect : List α → α → List α
  | [], next => [next]
  | front :: kept, next =>
    if keyOf front = keyOf next then front :: kept ++ [next]
    else if Better target (keyOf front) (keyOf next) then [next]
    else front :: kept

def keep : Option α → α → Option α
  | none, next => some next
  | some kept, next => if Better target (keyOf kept) (keyOf next) then some next else some kept

def keys (entries : List α) : Set κ := {key | ∃ entry ∈ entries, keyOf entry = key}

variable {keyOf target}

omit [LinearOrder κ] in
theorem keys_singleton (entry : α) : keys keyOf [entry] = {keyOf entry} := by
  ext key
  simp [keys, eq_comm]

omit [LinearOrder κ] in
theorem keys_snoc (seen : List α) (next : α) :
    keys keyOf (seen ++ [next]) = insert (keyOf next) (keys keyOf seen) := by
  ext key
  simp only [keys, List.mem_append, List.mem_singleton, Set.mem_ofPred_eq, Set.mem_insert_iff]
  constructor
  · rintro ⟨entry, inside | rfl, rfl⟩
    · exact .inr ⟨entry, inside, rfl⟩
    · exact .inl rfl
  · rintro (rfl | ⟨entry, inside, rfl⟩)
    · exact ⟨next, .inr rfl, rfl⟩
    · exact ⟨entry, .inl inside, rfl⟩

def Collected (keyOf : α → κ) (target : κ) (seen kept : List α) : Prop :=
  ∃ key, IsNearest target (keys keyOf seen) key ∧
    kept = seen.filter fun entry => keyOf entry = key

theorem Collected.first (next : α) : Collected keyOf target [next] (collect keyOf target [] next) := by
  refine ⟨keyOf next, ?_, by simp [collect]⟩
  rw [keys_singleton]
  exact .singleton _ _

theorem Collected.next {seen kept : List α} (collected : Collected keyOf target seen kept)
    (next : α) : Collected keyOf target (seen ++ [next]) (collect keyOf target kept next) := by
  obtain ⟨key, nearest, rfl⟩ := collected
  obtain ⟨entry, inside, found⟩ := nearest.mem
  have front : ∀ {first later}, seen.filter (fun entry => keyOf entry = key) = first :: later →
      keyOf first = key := by
    intro first later shape
    have mem : first ∈ seen.filter fun entry => keyOf entry = key := by simp [shape]
    simpa using (List.mem_filter.mp mem).2
  cases shape : seen.filter fun entry => keyOf entry = key with
  | nil => simpa [found] using List.filter_eq_nil_iff.mp shape entry inside
  | cons first later =>
    simp only [collect, front shape]
    rw [← shape]
    by_cases same : key = keyOf next
    · refine ⟨key, ?_, by simp [same]⟩
      rw [keys_snoc, ← same, Set.insert_eq_of_mem nearest.mem]
      exact nearest
    · rw [if_neg same]
      by_cases better : Better target key (keyOf next)
      · refine ⟨keyOf next, by rw [keys_snoc]; exact nearest.replace better, ?_⟩
        -- No entry seen so far can have the better key.
        have fresh : seen.filter (fun entry => keyOf entry = keyOf next) = [] := by
          refine List.filter_eq_nil_iff.mpr fun other offered => ?_
          intro equal
          have offeredKey : keyOf next ∈ keys keyOf seen := ⟨other, offered, by simpa using equal⟩
          have again := nearest.replace better
          rw [Set.insert_eq_of_mem offeredKey] at again
          exact same (nearest.unique again)
        rw [if_pos better, List.filter_append, fresh]
        simp
      · refine ⟨key, by rw [keys_snoc]; exact nearest.retain better, ?_⟩
        rw [if_neg better, List.filter_append]
        simp [Ne.symm same]

theorem Collected.run {seen kept : List α} (collected : Collected keyOf target seen kept)
    (entries : List α) :
    Collected keyOf target (seen ++ entries) (entries.foldl (collect keyOf target) kept) := by
  induction entries generalizing seen kept with
  | nil => simpa using collected
  | cons next entries ih => simpa using ih (collected.next next)

theorem collect_run (keyOf : α → κ) (target : κ) {entries : List α} (offered : entries ≠ []) :
    Collected keyOf target entries (entries.foldl (collect keyOf target) []) := by
  cases entries with
  | nil => contradiction
  | cons next entries => exact (Collected.first next).run entries

theorem keep_run_from (kept : α) (seen entries : List α) (inside : kept ∈ seen)
    (nearest : IsNearest target (keys keyOf seen) (keyOf kept)) :
    ∃ best ∈ seen ++ entries, entries.foldl (keep keyOf target) (some kept) = some best ∧
      IsNearest target (keys keyOf (seen ++ entries)) (keyOf best) := by
  induction entries generalizing kept seen with
  | nil => exact ⟨kept, by simpa using inside, rfl, by simpa using nearest⟩
  | cons next entries ih =>
    rw [List.foldl_cons, keep, List.append_cons]
    by_cases better : Better target (keyOf kept) (keyOf next)
    · rw [if_pos better]
      exact ih next _ (by simp) (by rw [keys_snoc]; exact nearest.replace better)
    · rw [if_neg better]
      exact ih kept _ (by simp [inside]) (by rw [keys_snoc]; exact nearest.retain better)

theorem keep_run (keyOf : α → κ) (target : κ) {entries : List α} (offered : entries ≠ []) :
    ∃ best ∈ entries, entries.foldl (keep keyOf target) none = some best ∧
      IsNearest target (keys keyOf entries) (keyOf best) := by
  cases entries with
  | nil => contradiction
  | cons next entries =>
    refine keep_run_from next [next] entries (by simp) ?_
    rw [keys_singleton]
    exact .singleton _ _

theorem keep_first_from {kept best : α} {seen entries : List α}
    (nearest : IsNearest target (keys keyOf seen) (keyOf kept))
    (first : seen.find? (fun entry => keyOf entry = keyOf kept) = some kept)
    (ran : entries.foldl (keep keyOf target) (some kept) = some best) :
    (seen ++ entries).find? (fun entry => keyOf entry = keyOf best) = some best := by
  induction entries generalizing kept seen with
  | nil =>
    cases ran
    simpa using first
  | cons next entries ih =>
    rw [List.foldl_cons, keep] at ran
    rw [List.append_cons]
    by_cases better : Better target (keyOf kept) (keyOf next)
    · rw [if_pos better] at ran
      refine ih ?_ ?_ ran
      · rw [keys_snoc]
        exact nearest.replace better
      · have fresh : seen.find? (fun entry => keyOf entry = keyOf next) = none := by
          refine List.find?_eq_none.mpr fun other offered equal => ?_
          have offeredKey : keyOf next ∈ keys keyOf seen := ⟨other, offered, by simpa using equal⟩
          have again := nearest.replace better
          rw [Set.insert_eq_of_mem offeredKey] at again
          exact better.ne (nearest.unique again)
        simp [List.find?_append, fresh]
    · rw [if_neg better] at ran
      refine ih ?_ ?_ ran
      · rw [keys_snoc]
        exact nearest.retain better
      · simp [List.find?_append, first]

theorem keep_first {best : α} {entries : List α}
    (ran : entries.foldl (keep keyOf target) none = some best) :
    entries.find? (fun entry => keyOf entry = keyOf best) = some best := by
  cases entries with
  | nil => cases ran
  | cons next entries =>
    have first : IsNearest target (keys keyOf [next]) (keyOf next) := by
      rw [keys_singleton]
      exact .singleton _ _
    exact keep_first_from first (by simp) ran

end Passes

end Nearest

import Mathlib.Tactic.Common

set_option autoImplicit false

namespace Bisection

inductive Outcome
  | found (index : Int)
  | crossed (low high : Int)
  | diverged
deriving DecidableEq, Repr

section

variable (middle : Int → Int → Int) (key : Int → Int) (target : Int)

def search : Nat → Int → Int → Outcome
  | 0, _, _ => .diverged
  | fuel + 1, low, high =>
    if low ≤ high then
      if key (middle low high) < target then search fuel (middle low high + 1) high
      else if key (middle low high) > target then search fuel low (middle low high - 1)
      else .found (middle low high)
    else .crossed low high

def attempt {ε : Type} (key : Int → Except ε Int) : Nat → Int → Int → Except ε Outcome
  | 0, _, _ => .ok .diverged
  | fuel + 1, low, high =>
    if low ≤ high then
      (key (middle low high)).bind fun found =>
        if found < target then attempt key fuel (middle low high + 1) high
        else if found > target then attempt key fuel low (middle low high - 1)
        else .ok (.found (middle low high))
    else .ok (.crossed low high)

def along (fits : Int → Int → Bool) : Nat → Int → Int → Bool
  | 0, _, _ => true
  | fuel + 1, low, high =>
    if low ≤ high then
      fits low high &&
        if key (middle low high) < target then along fits fuel (middle low high + 1) high
        else if key (middle low high) > target then along fits fuel low (middle low high - 1)
        else true
    else true

end

variable {middle : Int → Int → Int} {key : Int → Int} {target : Int}

theorem attempt_eq_search {ε : Type} {computed : Int → Except ε Int}
    (computes : ∀ index, computed index = .ok (key index)) (fuel : Nat) (low high : Int) :
    attempt middle target computed fuel low high = .ok (search middle key target fuel low high) := by
  induction fuel generalizing low high with
  | zero => rfl
  | succ fuel ih =>
    rw [attempt, search, computes]
    dsimp only [Except.bind]
    split
    · split
      · exact ih _ _
      · split
        · exact ih _ _
        · rfl
    · rfl

def Increasing (key : Int → Int) (low high : Int) : Prop :=
  ∀ first second, low ≤ first → first < second → second ≤ high → key first < key second

theorem Increasing.shrink {low high low' high' : Int} (increasing : Increasing key low high)
    (above : low ≤ low') (below : high' ≤ high) : Increasing key low' high' := by
  intro first second lower less upper
  exact increasing first second (Int.le_trans above lower) less (Int.le_trans upper below)

def Inside (middle : Int → Int → Int) (low high : Int) : Prop :=
  ∀ first second, low ≤ first → first ≤ second → second ≤ high →
    first ≤ middle first second ∧ middle first second ≤ second

theorem Inside.shrink {low high low' high' : Int} (inside : Inside middle low high)
    (above : low ≤ low') (below : high' ≤ high) : Inside middle low' high' := by
  intro first second lower less upper
  exact inside first second (Int.le_trans above lower) less (Int.le_trans upper below)

def Correct (key : Int → Int) (target low high : Int) : Outcome → Prop
  | .found index => low ≤ index ∧ index ≤ high ∧ key index = target
  | .crossed above below =>
    above = below + 1 ∧ low ≤ above ∧ below ≤ high ∧
      (∀ index, low ≤ index → index ≤ below → key index < target) ∧
      ∀ index, above ≤ index → index ≤ high → target < key index
  | .diverged => False

theorem Correct.raise {low high mid : Int} {outcome : Outcome}
    (increasing : Increasing key low high) (lower : low ≤ mid) (upper : mid ≤ high)
    (small : key mid < target) (correct : Correct key target (mid + 1) high outcome) :
    Correct key target low high outcome := by
  cases outcome with
  | found index => exact ⟨by have := correct.1; omega, correct.2.1, correct.2.2⟩
  | crossed above below =>
    obtain ⟨next, least, most, smaller, larger⟩ := correct
    refine ⟨next, by omega, most, ?_, larger⟩
    intro index above' below'
    rcases Int.lt_trichotomy index mid with less | same | more
    · exact Int.lt_trans (increasing index mid above' less upper) small
    · rw [same]
      exact small
    · exact smaller index more below'
  | diverged => exact correct

theorem Correct.lower {low high mid : Int} {outcome : Outcome}
    (increasing : Increasing key low high) (lower : low ≤ mid) (upper : mid ≤ high)
    (large : target < key mid) (correct : Correct key target low (mid - 1) outcome) :
    Correct key target low high outcome := by
  cases outcome with
  | found index => exact ⟨correct.1, by have := correct.2.1; omega, correct.2.2⟩
  | crossed above below =>
    obtain ⟨next, least, most, smaller, larger⟩ := correct
    refine ⟨next, least, by omega, smaller, ?_⟩
    intro index above' below'
    rcases Int.lt_trichotomy index mid with less | same | more
    · exact larger index above' (by omega)
    · rw [same]
      exact large
    · exact Int.lt_trans large (increasing mid index lower more below')
  | diverged => exact correct

theorem search_correct {fuel : Nat} {low high : Int} (increasing : Increasing key low high)
    (inside : Inside middle low high) (ordered : low ≤ high + 1)
    (enough : high + 1 - low < fuel) :
    Correct key target low high (search middle key target fuel low high) := by
  induction fuel generalizing low high with
  | zero => omega
  | succ fuel ih =>
    unfold search
    split
    · next nonempty =>
      obtain ⟨lower, upper⟩ := inside low high (Int.le_refl low) nonempty (Int.le_refl high)
      split
      · next small =>
        apply Correct.raise increasing lower upper small
        exact ih (increasing.shrink (by omega) (Int.le_refl high))
          (inside.shrink (by omega) (Int.le_refl high)) (by omega) (by omega)
      · split
        · next large =>
          apply Correct.lower increasing lower upper large
          exact ih (increasing.shrink (Int.le_refl low) (by omega))
            (inside.shrink (Int.le_refl low) (by omega)) (by omega) (by omega)
        · next same => exact ⟨lower, upper, by omega⟩
    · next empty =>
      refine ⟨by omega, by omega, by omega, ?_, ?_⟩
      · intro index above below
        omega
      · intro index above below
        omega

/-- The last index whose key does not exceed the target, or the lowest one where every key does. -/
structure IsFloor (key : Int → Int) (target low high index : Int) : Prop where
  lower : low ≤ index
  upper : index ≤ high
  latest : ∀ other, low ≤ other → other ≤ high → key other ≤ target → other ≤ index
  reached : key index ≤ target ∨
    index = low ∧ ∀ other, low ≤ other → other ≤ high → target < key other

theorem IsFloor.eq_of_key {low high index other : Int} (increasing : Increasing key low high)
    (floor : IsFloor key target low high index) (lower : low ≤ other) (upper : other ≤ high)
    (present : key other = target) : index = other := by
  have latest := floor.latest other lower upper (by omega)
  rcases floor.reached with reached | ⟨-, above⟩
  · by_contra differs
    have := increasing other index lower (by omega) floor.upper
    omega
  · have := above other lower upper
    omega

def settle (low above below : Int) : Int := if above = low then above else below

theorem Correct.found_isFloor {low high index : Int} (increasing : Increasing key low high)
    (correct : Correct key target low high (.found index)) : IsFloor key target low high index := by
  obtain ⟨lower, upper, present⟩ := correct
  refine ⟨lower, upper, ?_, .inl (by omega)⟩
  intro other _ below small
  by_contra later
  have := increasing index other lower (by omega) below
  omega

theorem Correct.crossed_isFloor {low high above below : Int} (nonempty : low ≤ high)
    (correct : Correct key target low high (.crossed above below)) :
    IsFloor key target low high (settle low above below) := by
  obtain ⟨next, least, most, smaller, larger⟩ := correct
  unfold settle
  split
  · next isLow =>
    have every : ∀ other, low ≤ other → other ≤ high → target < key other := by
      intro other lower upper
      exact larger other (by omega) upper
    refine ⟨by omega, by omega, ?_, .inr ⟨isLow, every⟩⟩
    intro other lower upper small
    have := every other lower upper
    omega
  · next notLow =>
    refine ⟨by omega, most, ?_, .inl ?_⟩
    · intro other _ upper small
      by_contra later
      have := larger other (by omega) upper
      omega
    · have := smaller below (by omega) (Int.le_refl below)
      omega

structure IsClosest (key : Int → Int) (target low high index : Int) : Prop where
  lower : low ≤ index
  upper : index ≤ high
  closest : ∀ other, low ≤ other → other ≤ high →
    (target - key index).natAbs ≤ (target - key other).natAbs

theorem IsFloor.target_lt {low high index other : Int} (floor : IsFloor key target low high index)
    (behind : index < other) (upper : other ≤ high) : target < key other := by
  have lower := floor.lower
  by_contra small
  have := floor.latest other (by omega) upper (by omega)
  omega

theorem Increasing.le {low high first second : Int} (increasing : Increasing key low high)
    (lower : low ≤ first) (ordered : first ≤ second) (upper : second ≤ high) :
    key first ≤ key second := by
  rcases Int.lt_or_eq_of_le ordered with less | same
  · exact Int.le_of_lt (increasing first second lower less upper)
  · exact Int.le_of_eq (congrArg key same)

theorem IsFloor.closest {low high index : Int} (increasing : Increasing key low high)
    (floor : IsFloor key target low high index)
    (stays : index < high → target - key index ≤ key (index + 1) - target) :
    IsClosest key target low high index := by
  refine ⟨floor.lower, floor.upper, ?_⟩
  intro other lower upper
  rcases Int.lt_or_le index other with behind | before
  · have above := floor.target_lt behind upper
    have next := increasing.le (by have := floor.lower; omega) (show index + 1 ≤ other by omega) upper
    have less := increasing index other floor.lower behind upper
    have near := stays (by omega)
    omega
  · have below := increasing.le lower before floor.upper
    rcases floor.reached with reached | ⟨isLow, -⟩
    · omega
    · obtain rfl : other = index := by omega
      exact Nat.le_refl _

theorem search_congr {other : Int → Int → Int} {fits : Int → Int → Bool}
    (same : ∀ low high, fits low high = true → other low high = middle low high) {fuel : Nat}
    {low high : Int} (fitting : along middle key target fits fuel low high = true) :
    search other key target fuel low high = search middle key target fuel low high := by
  induction fuel generalizing low high with
  | zero => rfl
  | succ fuel ih =>
    unfold search
    unfold along at fitting
    split
    · next nonempty =>
      rw [if_pos nonempty, Bool.and_eq_true] at fitting
      rw [same low high fitting.1]
      split
      · next small =>
        rw [if_pos small] at fitting
        exact ih fitting.2
      · next notSmall =>
        rw [if_neg notSmall] at fitting
        split
        · next large =>
          rw [if_pos large] at fitting
          exact ih fitting.2
        · rfl
    · rfl

/-- A search that only ever raises its lower bound, and never above the upper one, goes on for
ever. -/
theorem search_diverges (Trapped : Int → Prop) {high : Int}
    (trap : ∀ low, Trapped low → low ≤ high ∧ key (middle low high) < target ∧
      Trapped (middle low high + 1)) {low : Int} (trapped : Trapped low) (fuel : Nat) :
    search middle key target fuel low high = .diverged := by
  induction fuel generalizing low with
  | zero => rfl
  | succ fuel ih =>
    obtain ⟨nonempty, small, next⟩ := trap low trapped
    rw [search, if_pos nonempty, if_pos small]
    exact ih next

end Bisection

import Mathlib.Logic.Relation

set_option autoImplicit false

namespace Machine

-- A while loop whose body can fail; nothing says that it ends.
structure Loop (State Error : Type) where
  going : State → Bool
  body : State → Except Error State

namespace Loop

variable {State Error : Type} {loop : Loop State Error} {first second final : State}

def run (loop : Loop State Error) (exhausted : Error) : Nat → State → Except Error State
  | rounds, state =>
    if loop.going state then
      match rounds with
      | 0 => .error exhausted
      | rounds + 1 => (loop.body state).bind (loop.run exhausted rounds)
    else .ok state

def Returns (loop : Loop State Error) (exhausted : Error) (state final : State) : Prop :=
  ∃ rounds, loop.run exhausted rounds state = .ok final

def Steps (loop : Loop State Error) (state next : State) : Prop :=
  loop.going state = true ∧ loop.body state = .ok next

def Reaches (loop : Loop State Error) : State → State → Prop := Relation.ReflTransGen loop.Steps

theorem run_of_stopped {exhausted : Error} {rounds : Nat} (stopped : loop.going first = false) :
    loop.run exhausted rounds first = .ok first := by
  cases rounds <;> simp [run, stopped]

theorem run_of_steps {exhausted : Error} {rounds : Nat} (steps : loop.Steps first second) :
    loop.run exhausted (rounds + 1) first = loop.run exhausted rounds second := by
  simp [run, steps.1, steps.2, Except.bind]

theorem run_cases {exhausted : Error} {rounds : Nat}
    (returned : loop.run exhausted rounds first = .ok final) :
    (loop.going first = false ∧ final = first) ∨
    ∃ before next, rounds = before + 1 ∧ loop.Steps first next ∧
      loop.run exhausted before next = .ok final := by
  cases going : loop.going first with
  | false =>
    rw [run_of_stopped going] at returned
    exact .inl ⟨rfl, (Except.ok.inj returned).symm⟩
  | true =>
    cases rounds with
    | zero => simp [run, going] at returned
    | succ before =>
      cases stepped : loop.body first with
      | error cause => simp [run, going, stepped, Except.bind] at returned
      | ok next =>
        have steps : loop.Steps first next := ⟨going, stepped⟩
        rw [run_of_steps steps] at returned
        exact .inr ⟨before, next, rfl, steps, returned⟩

theorem Steps.unique {other : State} (steps : loop.Steps first second)
    (again : loop.Steps first other) : second = other :=
  Except.ok.inj (steps.2.symm.trans again.2)

theorem run_after_steps {exhausted : Error} {rounds : Nat} (steps : loop.Steps first second)
    (returned : loop.run exhausted rounds first = .ok final) :
    ∃ before, rounds = before + 1 ∧ loop.run exhausted before second = .ok final := by
  rcases run_cases returned with ⟨stopped, -⟩ | ⟨before, next, counted, again, later⟩
  · rw [steps.1] at stopped
    cases stopped
  · rw [steps.unique again]
    exact ⟨before, counted, later⟩

theorem returns_iff_of_stopped {exhausted : Error} (stopped : loop.going first = false) :
    loop.Returns exhausted first final ↔ final = first := by
  constructor
  · rintro ⟨rounds, returned⟩
    rw [run_of_stopped stopped] at returned
    exact (Except.ok.inj returned).symm
  · rintro rfl
    exact ⟨0, run_of_stopped stopped⟩

theorem returns_iff_of_reaches {exhausted : Error} (reaches : loop.Reaches first second) :
    loop.Returns exhausted first final ↔ loop.Returns exhausted second final := by
  induction reaches using Relation.ReflTransGen.head_induction_on with
  | refl => rfl
  | head steps _ ih =>
    rw [← ih]
    constructor
    · rintro ⟨rounds, returned⟩
      obtain ⟨before, -, later⟩ := run_after_steps steps returned
      exact ⟨before, later⟩
    · rintro ⟨rounds, returned⟩
      exact ⟨rounds + 1, (run_of_steps steps).trans returned⟩

theorem Returns.reaches {exhausted : Error} (returns : loop.Returns exhausted first final) :
    loop.Reaches first final ∧ loop.going final = false := by
  obtain ⟨rounds, returned⟩ := returns
  induction rounds generalizing first with
  | zero =>
    rcases run_cases returned with ⟨stopped, rfl⟩ | ⟨_, _, counted, _, _⟩
    · exact ⟨.refl, stopped⟩
    · cases counted
  | succ rounds ih =>
    rcases run_cases returned with ⟨stopped, rfl⟩ | ⟨before, next, counted, steps, later⟩
    · exact ⟨.refl, stopped⟩
    · cases counted
      obtain ⟨reaches, stopped⟩ := ih later
      exact ⟨.head steps reaches, stopped⟩

theorem Returns.unique {exhausted : Error} {other : State}
    (returns : loop.Returns exhausted first final) (again : loop.Returns exhausted first other) :
    other = final := by
  obtain ⟨reaches, stopped⟩ := returns.reaches
  exact (returns_iff_of_stopped stopped).mp ((returns_iff_of_reaches reaches).mp again)

theorem run_after_path {exhausted : Error} {rounds : Nat}
    (path : Relation.TransGen loop.Steps first second)
    (returned : loop.run exhausted rounds first = .ok final) :
    ∃ before, before < rounds ∧ loop.run exhausted before second = .ok final := by
  induction path with
  | single steps =>
    obtain ⟨before, rfl, later⟩ := run_after_steps steps returned
    exact ⟨before, by omega, later⟩
  | tail _ steps ih =>
    obtain ⟨middle, fewer, again⟩ := ih
    obtain ⟨before, rfl, later⟩ := run_after_steps steps again
    exact ⟨before, by omega, later⟩

/-- From every cut point the loop comes to the next one, or it stops with the result in hand. -/
theorem Returns.cutPoints {exhausted : Error} (cut result : State → Prop)
    (advance : ∀ state, cut state →
      (∃ next, Relation.TransGen loop.Steps state next ∧ cut next) ∨
      ∃ last, loop.Reaches state last ∧ loop.going last = false ∧ result last)
    (begins : cut first) (returns : loop.Returns exhausted first final) : result final := by
  obtain ⟨rounds, returned⟩ := returns
  induction rounds using Nat.strongRecOn generalizing first with
  | ind rounds ih =>
    rcases advance first begins with ⟨next, path, again⟩ | ⟨last, reaches, stopped, holds⟩
    · obtain ⟨before, fewer, later⟩ := run_after_path path returned
      exact ih before fewer again later
    · have later := (returns_iff_of_reaches reaches).mp ⟨rounds, returned⟩
      rw [(returns_iff_of_stopped stopped).mp later]
      exact holds

/-- A loop that comes back to a state it was in never ends. -/
theorem not_returns_of_cycle {exhausted : Error} (cycle : Relation.TransGen loop.Steps first first) :
    ¬ loop.Returns exhausted first final := by
  intro returns
  refine Returns.cutPoints (fun state => state = first) (fun _ => False) ?_ rfl returns
  rintro state rfl
  exact .inl ⟨_, cycle, rfl⟩

/-! Loops whose steps get smaller -/

variable {measure : State → Nat}

theorem Returns.run_eq {exhausted : Error} {rounds : Nat} (returns : loop.Returns exhausted first final)
    (decreases : ∀ state next, loop.Steps state next → measure next < measure state)
    (enough : measure first ≤ rounds) : loop.run exhausted rounds first = .ok final := by
  induction rounds generalizing first with
  | zero =>
    obtain ⟨other, returned⟩ := returns
    rcases run_cases returned with ⟨stopped, rfl⟩ | ⟨_, next, _, steps, _⟩
    · exact run_of_stopped stopped
    · have := decreases _ _ steps
      omega
  | succ rounds ih =>
    obtain ⟨other, returned⟩ := returns
    rcases run_cases returned with ⟨stopped, rfl⟩ | ⟨before, next, _, steps, later⟩
    · exact run_of_stopped stopped
    · have less := decreases _ _ steps
      rw [run_of_steps steps]
      exact ih ⟨before, later⟩ (by omega)

theorem run_keeps {exhausted : Error} {rounds : Nat} (keeps : State → Prop)
    (each : ∀ state next, keeps state → loop.Steps state next → keeps next) (kept : keeps first)
    (returned : loop.run exhausted rounds first = .ok final) : keeps final := by
  induction rounds generalizing first with
  | zero =>
    rcases run_cases returned with ⟨_, rfl⟩ | ⟨_, _, counted, _, _⟩
    · exact kept
    · cases counted
  | succ rounds ih =>
    rcases run_cases returned with ⟨_, rfl⟩ | ⟨before, next, counted, steps, later⟩
    · exact kept
    · cases counted
      exact ih (each _ _ kept steps) later

/-! Loops that are guided by an invariant -/

section Guided

variable (inv : State → Prop)

theorem Reaches.keeps
    (advance : ∀ state, inv state → loop.going state = true →
      ∃ next, loop.Steps state next ∧ inv next)
    (reaches : loop.Reaches first second) (begins : inv first) : inv second := by
  induction reaches with
  | refl => exact begins
  | tail _ steps ih =>
    obtain ⟨next, again, holds⟩ := advance _ ih steps.1
    exact again.unique steps ▸ holds

/-- A loop ends whose invariant lets each round go on, and to a smaller state. -/
theorem Returns.of_variant {exhausted : Error} {Size : Type} {smaller : Size → Size → Prop}
    (wellFounded : WellFounded smaller) (size : State → Size)
    (advance : ∀ state, inv state → loop.going state = true →
      ∃ next, loop.Steps state next ∧ inv next ∧ smaller (size next) (size state))
    (begins : inv first) :
    ∃ final, loop.Returns exhausted first final ∧ inv final ∧ loop.going final = false := by
  generalize sized : size first = bound
  induction bound using wellFounded.induction generalizing first with
  | _ bound ih =>
    cases going : loop.going first with
    | false => exact ⟨first, (returns_iff_of_stopped going).mpr rfl, begins, going⟩
    | true =>
      obtain ⟨next, steps, holds, less⟩ := advance first begins going
      obtain ⟨final, returns, ends⟩ := ih (size next) (sized ▸ less) holds rfl
      exact ⟨final, (returns_iff_of_reaches (.single steps)).mpr returns, ends⟩

end Guided

end Loop

end Machine

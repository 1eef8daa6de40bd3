import NDash.Shared.PullRules

set_option autoImplicit false

/-!
# Logs of a pull reader

A parse function that also writes down what it has read, and the one it becomes when the log is left
out.
-/

namespace Pull

section Run

variable {Node ω ε σ α : Type} {textNode : Node} {diverged : ε}
  {visit : Node → Nat → σ → Parser (List (Event Node)) ω ε σ}

theorem childLoop_keeps {keeps : σ → Prop}
    (each : ∀ node depth state pulled world result, keeps state →
      visit node depth state pulled world = .ok result → keeps result.1.1)
    {parentDepth rounds : Nat} {state : σ} {pulled : List (Event Node)} {world : ω}
    {result : (σ × List (Event Node)) × ω} (kept : keeps state)
    (ran : childLoop textNode diverged visit parentDepth rounds state pulled world = .ok result) :
    keeps result.1.1 := by
  induction rounds generalizing state pulled world with
  | zero => cases ran
  | succ rounds ih =>
    cases pulled with
    | nil =>
      cases ran
      exact kept
    | cons event rest =>
      rw [run_childLoop] at ran
      obtain ⟨middle, visited, ran⟩ := Outcome.bind_ok ran
      have after := each _ _ _ _ _ _ kept visited
      split at ran
      · exact ih after ran
      · cases ran
        exact after

theorem element_keeps {start : Effect ω ε σ} {rules : List (Rule Node (List (Event Node)) ω ε Nat σ)}
    {finish : σ → Effect ω ε α} {depth : Nat} {pulled : List (Event Node)} {world : ω}
    {result : (α × List (Event Node)) × ω} (keeps : σ → Prop)
    (starts : ∀ world first, start world = .ok first → keeps first.1)
    (each : ∀ rule ∈ rules, ∀ node place state pulled world result, keeps state →
      rule.run node place state pulled world = .ok result → keeps result.1.1)
    (ran : element (reader textNode diverged) start rules finish depth pulled world = .ok result) :
    ∃ state world, keeps state ∧ finish state world = .ok (result.1.1, result.2) := by
  obtain ⟨first, started, ran⟩ := run_bind_ok ran
  obtain ⟨begun, beginning, rfl⟩ := run_lift_ok started
  obtain ⟨last, looped, ran⟩ := run_bind_ok ran
  obtain ⟨_, finished, rfl⟩ := run_lift_ok ran
  exact ⟨last.1.1, last.2,
    childLoop_keeps (fun _ _ _ _ _ _ => dispatch_keeps keeps each) (starts _ _ beginning) looped,
    finished⟩

end Run

section Erase

variable {Node S ω ε Place σ ρ α β γ : Type}

def Erases (forget : ρ → σ) (logged : Parser S ω ε ρ) (plain : Parser S ω ε σ) : Prop :=
  ∀ pulled world, plain pulled world =
    (logged pulled world).map fun result => ((forget result.1.1, result.1.2), result.2)

theorem Erases.pure {forget : ρ → σ} (value : ρ) :
    Erases forget (pure value : Parser S ω ε ρ) (Pure.pure (forget value)) := fun _ _ => rfl

theorem Erases.lift {forget : ρ → σ} {logged : Effect ω ε ρ} {plain : Effect ω ε σ}
    (erases : ∀ world, plain world =
      (logged world).map fun result => (forget result.1, result.2)) :
    Erases forget (liftM logged : Parser S ω ε ρ) (liftM plain) := by
  intro pulled world
  rw [run_lift, run_lift, erases]
  cases logged world <;> rfl

theorem Erases.bind {forget : ρ → σ} {forget' : α → β} {logged : Parser S ω ε ρ}
    {plain : Parser S ω ε σ} {next : ρ → Parser S ω ε α} {next' : σ → Parser S ω ε β}
    (erases : Erases forget logged plain)
    (then' : ∀ value, Erases forget' (next value) (next' (forget value))) :
    Erases forget' (logged >>= next) (plain >>= next') := by
  intro pulled world
  rw [run_bind, run_bind, erases]
  cases logged pulled world with
  | error failure => rfl
  | ok result => exact then' result.1.1 result.1.2 result.2

structure Rule.Erases (forget : ρ → σ) (logged : Rule Node S ω ε Place ρ)
    (plain : Rule Node S ω ε Place σ) : Prop where
  is : plain.is = logged.is
  idle : ∀ state, plain.idle (forget state) = logged.idle state
  run : ∀ node place state,
    Pull.Erases forget (logged.run node place state) (plain.run node place (forget state))

theorem dispatch_erases {forget : ρ → σ} {logged : List (Rule Node S ω ε Place ρ)}
    {plain : List (Rule Node S ω ε Place σ)} (rules : List.Forall₂ (Rule.Erases forget) logged plain)
    (node : Node) (place : Place) (state : ρ) :
    Erases forget (dispatch logged node place state) (dispatch plain node place (forget state)) := by
  induction rules with
  | nil => exact .pure state
  | @cons rule rule' _ _ erases _ ih =>
    rw [dispatch, dispatch, erases.is, erases.idle]
    by_cases own : rule.is node = true
    · rw [if_pos own, if_pos own]
      by_cases idle : rule.idle state = true
      · rw [if_pos idle, if_pos idle]
        exact .pure state
      · rw [if_neg idle, if_neg idle]
        exact erases.run node place state
    · rw [if_neg own, if_neg own]
      exact ih

theorem childLoop_erases {textNode : Node} {diverged : ε} {forget : ρ → σ}
    {logged : Node → Nat → ρ → Parser (List (Event Node)) ω ε ρ}
    {plain : Node → Nat → σ → Parser (List (Event Node)) ω ε σ}
    (erases : ∀ node depth state,
      Erases forget (logged node depth state) (plain node depth (forget state)))
    (parentDepth rounds : Nat) (state : ρ) :
    Erases forget (childLoop textNode diverged logged parentDepth rounds state)
      (childLoop textNode diverged plain parentDepth rounds (forget state)) := by
  induction rounds generalizing state with
  | zero => exact fun _ _ => rfl
  | succ rounds ih =>
    intro pulled world
    cases pulled with
    | nil => rfl
    | cons event rest =>
      rw [run_childLoop, run_childLoop, erases]
      cases logged (event.node textNode) event.depth state rest world with
      | error failure => rfl
      | ok result =>
        simp only [Except.map, Except.bind]
        split
        · exact ih result.1.1 result.1.2 result.2
        · rfl

theorem element_erases {textNode : Node} {diverged : ε} {forget : ρ → σ} {forget' : α → β}
    {start : Effect ω ε ρ} {start' : Effect ω ε σ}
    {logged : List (Rule Node (List (Event Node)) ω ε Nat ρ)}
    {plain : List (Rule Node (List (Event Node)) ω ε Nat σ)} {finish : ρ → Effect ω ε α}
    {finish' : σ → Effect ω ε β}
    (starts : ∀ world, start' world =
      (start world).map fun result => (forget result.1, result.2))
    (rules : List.Forall₂ (Rule.Erases forget) logged plain)
    (finishes : ∀ state world, finish' (forget state) world =
      (finish state world).map fun result => (forget' result.1, result.2)) (depth : Nat) :
    Erases forget' (element (reader textNode diverged) start logged finish depth)
      (element (reader textNode diverged) start' plain finish' depth) := by
  refine Erases.bind (.lift starts) fun first => ?_
  refine Erases.bind ?_ fun last => .lift (finishes last)
  intro pulled world
  exact childLoop_erases (dispatch_erases rules) depth (pulled.length + 1) first pulled world

def Rule.keepLog (rule : Rule Node S ω ε Place σ) : Rule Node S ω ε Place (σ × List γ) where
  is := rule.is
  idle state := rule.idle state.1
  run node place state := do
    let after ← rule.run node place state.1
    pure (after, state.2)

def Rule.insideLogged (is : Node → Bool) (idle : σ → Bool) (parse : Node → Place → σ → Parser S ω ε γ)
    (update : σ → γ → Effect ω ε σ) : Rule Node S ω ε Place (σ × List γ) where
  is
  idle state := idle state.1
  run node place state := do
    let value ← parse node place state.1
    let after ← liftM (update state.1 value)
    pure (after, state.2 ++ [value])

theorem Rule.keepLog_erases (rule : Rule Node S ω ε Place σ) :
    (rule.keepLog : Rule Node S ω ε Place (σ × List γ)).Erases Prod.fst rule where
  is := rfl
  idle _ := rfl
  run node place state := by
    intro pulled world
    simp only [keepLog, run_bind]
    cases rule.run node place state.1 pulled world <;> rfl

theorem Rule.insideLogged_erases (is : Node → Bool) (idle : σ → Bool)
    (parse : Node → Place → σ → Parser S ω ε γ) (update : σ → γ → Effect ω ε σ) :
    (Rule.insideLogged is idle parse update).Erases Prod.fst
      (Rule.inside is idle parse update) where
  is := rfl
  idle _ := rfl
  run node place state := by
    intro pulled world
    simp only [inside, insideLogged, run_bind, run_lift]
    cases parse node place state.1 pulled world with
    | error failure => rfl
    | ok result =>
      simp only [Except.bind]
      cases update state.1 result.1.1 result.2 <;> rfl

theorem Rule.keepLog_keeps {rule : Rule Node S ω ε Place σ} {keeps : List γ → σ → Prop}
    (each : ∀ log node place state pulled world result, keeps log state →
      rule.run node place state pulled world = .ok result → keeps log result.1.1)
    {node : Node} {place : Place} {state : σ × List γ} {pulled : S} {world : ω}
    {result : ((σ × List γ) × S) × ω} (kept : keeps state.2 state.1)
    (ran : rule.keepLog.run node place state pulled world = .ok result) :
    keeps result.1.1.2 result.1.1.1 := by
  obtain ⟨middle, inner, ran⟩ := run_bind_ok ran
  cases ran
  exact each _ _ _ _ _ _ _ kept inner

theorem Rule.insideLogged_keeps {is : Node → Bool} {idle : σ → Bool}
    {parse : Node → Place → σ → Parser S ω ε γ} {update : σ → γ → Effect ω ε σ}
    {keeps : List γ → σ → Prop}
    (each : ∀ log state value world result, keeps log state →
      update state value world = .ok result → keeps (log ++ [value]) result.1)
    {node : Node} {place : Place} {state : σ × List γ} {pulled : S} {world : ω}
    {result : ((σ × List γ) × S) × ω} (kept : keeps state.2 state.1)
    (ran : (Rule.insideLogged is idle parse update).run node place state pulled world = .ok result) :
    keeps result.1.1.2 result.1.1.1 := by
  obtain ⟨middle, _, ran⟩ := run_bind_ok ran
  obtain ⟨after, updated, ran⟩ := run_bind_ok ran
  obtain ⟨value, first, rfl⟩ := run_lift_ok updated
  cases ran
  exact each _ _ _ _ _ kept first

end Erase

end Pull

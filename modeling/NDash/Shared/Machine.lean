import Mathlib.Tactic.Common

set_option autoImplicit false

namespace Machine

-- `Step` is a relation so that a step may be undefined, refused or left to the environment.
structure System (State Op : Type) where
  Start : State → Prop
  Step : State → Op → State → Prop

variable {State Op : Type} {machine : System State Op}

inductive Run (machine : System State Op) : State → List Op → State → Prop
  | nil (state : State) : Run machine state [] state
  | cons {state middle final : State} {op : Op} {ops : List Op} :
      machine.Step state op middle → Run machine middle ops final →
      Run machine state (op :: ops) final

def Reachable (machine : System State Op) (state : State) : Prop :=
  ∃ start ops, machine.Start start ∧ Run machine start ops state

def Preserves (machine : System State Op) (inv : State → Prop) : Prop :=
  ∀ state op next, inv state → machine.Step state op next → inv next

def System.restrict (machine : System State Op) (condition : State → Op → State → Prop) :
    System State Op where
  Start := machine.Start
  Step state op next := machine.Step state op next ∧ condition state op next

def execute (advance : State → Op → Option State) : State → List Op → Option State
  | state, [] => some state
  | state, op :: ops => (advance state op).bind fun next => execute advance next ops

theorem Run.of_execute {advance : State → Op → Option State} {ops : List Op}
    (steps : ∀ state op next, op ∈ ops → advance state op = some next → machine.Step state op next)
    {first last : State} (executed : execute advance first ops = some last) :
    Run machine first ops last := by
  induction ops generalizing first with
  | nil =>
    cases executed
    exact .nil _
  | cons op ops ih =>
    obtain ⟨middle, step, rest⟩ := Option.bind_eq_some_iff.mp executed
    refine .cons (steps _ _ _ (by simp) step) (ih ?_ rest)
    intro state later next member advances
    exact steps state later next (by simp [member]) advances

theorem Run.restrict {condition : State → Op → State → Prop} {first last : State} {ops : List Op}
    (run : Run machine first ops last)
    (always : ∀ op ∈ ops, ∀ state next, condition state op next) :
    Run (machine.restrict condition) first ops last := by
  induction run with
  | nil => exact .nil _
  | @cons state middle final op ops step _ ih =>
    refine .cons ⟨step, always op (by simp) state middle⟩ (ih ?_)
    intro later member
    exact always later (by simp [member])

theorem Run.append {first middle last : State} {ops rest : List Op}
    (left : Run machine first ops middle) (right : Run machine middle rest last) :
    Run machine first (ops ++ rest) last := by
  induction left with
  | nil => exact right
  | cons step _ ih => exact .cons step (ih right)

theorem Run.preserves {inv : State → Prop} (preserved : Preserves machine inv)
    {first last : State} {ops : List Op} (run : Run machine first ops last)
    (initial : inv first) : inv last := by
  induction run with
  | nil => exact initial
  | cons step _ ih => exact ih (preserved _ _ _ initial step)

theorem Reachable.start (machine : System State Op) {state : State}
    (initial : machine.Start state) : Reachable machine state :=
  ⟨state, [], initial, .nil state⟩

theorem Reachable.run {state final : State} {ops : List Op} (reachable : Reachable machine state)
    (run : Run machine state ops final) : Reachable machine final := by
  obtain ⟨start, before, initial, prior⟩ := reachable
  exact ⟨start, before ++ ops, initial, prior.append run⟩

theorem Reachable.next {state next : State} (reachable : Reachable machine state) (op : Op)
    (step : machine.Step state op next) : Reachable machine next :=
  reachable.run (.cons step (.nil next))

theorem Reachable.invariant (inv : State → Prop)
    (initial : ∀ state, machine.Start state → inv state) (preserved : Preserves machine inv)
    {state : State} (reachable : Reachable machine state) : inv state := by
  obtain ⟨start, ops, begins, run⟩ := reachable
  exact run.preserves preserved (initial start begins)

inductive Paced (machine : System State Op) (mark : State → Op → Prop) : State → Nat → State → Prop
  | nil (state : State) : Paced machine mark state 0 state
  | other {state middle final : State} {op : Op} {count : Nat} :
      machine.Step state op middle → ¬ mark state op → Paced machine mark middle count final →
      Paced machine mark state count final
  | marked {state middle final : State} {op : Op} {count : Nat} :
      machine.Step state op middle → mark state op → Paced machine mark middle count final →
      Paced machine mark state (count + 1) final

-- A measure that no step raises and each marked step lowers bounds the marked steps of a run.
theorem Paced.bounded {mark : State → Op → Prop} {inv : State → Prop} (measure : State → Nat)
    (preserved : Preserves machine inv)
    (never : ∀ state op next, inv state → machine.Step state op next →
      measure next ≤ measure state)
    (lowers : ∀ state op next, inv state → machine.Step state op next → mark state op →
      measure next < measure state)
    {first last : State} {count : Nat} (run : Paced machine mark first count last)
    (initial : inv first) : count + measure last ≤ measure first ∧ inv last := by
  induction run with
  | nil state => exact ⟨by omega, initial⟩
  | other step _ _ ih =>
    obtain ⟨bound, final⟩ := ih (preserved _ _ _ initial step)
    exact ⟨Nat.le_trans bound (never _ _ _ initial step), final⟩
  | marked step marks _ ih =>
    obtain ⟨bound, final⟩ := ih (preserved _ _ _ initial step)
    have lower := lowers _ _ _ initial step marks
    exact ⟨by omega, final⟩

end Machine

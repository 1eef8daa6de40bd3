import Mathlib.Tactic.Common

set_option autoImplicit false

namespace Incremental

variable {Token State : Type}

/-- A parser of consecutive fields: the state says how wide the next field is, and a state in which
that is 0 takes no more input. -/
structure Parser (Token State : Type) where
  width : State → Nat
  advance : State → List Token → State

namespace Parser

variable (parser : Parser Token State)

def step (state : State) (input : List Token) : Option (Nat × State) :=
  if 0 < parser.width state ∧ parser.width state ≤ input.length then
    some (parser.width state, parser.advance state (input.take (parser.width state)))
  else none

theorem consumes {state next : State} {input : List Token} {count : Nat}
    (stepped : parser.step state input = some (count, next)) :
    0 < count ∧ count ≤ input.length := by
  unfold step at stepped
  split at stepped
  · next fits =>
    cases stepped
    exact fits
  · cases stepped

theorem stable {state : State} {input : List Token} {taken : Nat × State} (more : List Token)
    (stepped : parser.step state input = some taken) :
    parser.step state (input ++ more) = some taken := by
  unfold step at stepped ⊢
  split at stepped
  · next fits =>
    rw [if_pos ⟨fits.1, by rw [List.length_append]; omega⟩,
      List.take_append_of_le_length fits.2]
    exact stepped
  · cases stepped

def drain : Nat → State → List Token → State × List Token
  | 0, state, input => (state, input)
  | fuel + 1, state, input =>
    match parser.step state input with
    | none => (state, input)
    | some (count, next) => drain fuel next (input.drop count)

-- Every step consumes, so the length of the input is fuel enough.
def parse (state : State) (input : List Token) : State × List Token :=
  parser.drain input.length state input

theorem drain_stop {state : State} {input : List Token} (stopped : parser.step state input = none)
    (fuel : Nat) : parser.drain fuel state input = (state, input) := by
  cases fuel with
  | zero => rfl
  | succ fuel => simp [drain, stopped]

theorem step_nil (state : State) : parser.step state [] = none := by
  cases stepped : parser.step state [] with
  | none => rfl
  | some taken =>
    have consumed := parser.consumes stepped
    rw [List.length_nil] at consumed
    omega

theorem drain_fuel {first second : Nat} {state : State} {input : List Token}
    (enough : input.length ≤ first) (also : input.length ≤ second) :
    parser.drain first state input = parser.drain second state input := by
  induction first generalizing second state input with
  | zero =>
    have stopped : parser.step state input = none := by
      rw [List.length_eq_zero_iff.mp (Nat.le_zero.mp enough)]
      exact parser.step_nil state
    rw [parser.drain_stop stopped, parser.drain_stop stopped]
  | succ first ih =>
    cases stepped : parser.step state input with
    | none => rw [parser.drain_stop stepped, parser.drain_stop stepped]
    | some taken =>
      obtain ⟨count, next⟩ := taken
      have consumed := parser.consumes stepped
      cases second with
      | zero => omega
      | succ second =>
        have rest : (input.drop count).length ≤ first ∧ (input.drop count).length ≤ second := by
          rw [List.length_drop]
          omega
        simp only [drain, stepped, ih rest.1 rest.2]

theorem parse_stop {state : State} {input : List Token} (stopped : parser.step state input = none) :
    parser.parse state input = (state, input) :=
  parser.drain_stop stopped _

theorem parse_step {state next : State} {input : List Token} {count : Nat}
    (stepped : parser.step state input = some (count, next)) :
    parser.parse state input = parser.parse next (input.drop count) := by
  have consumed := parser.consumes stepped
  have rest : (input.drop count).length ≤ input.length - 1 := by
    rw [List.length_drop]
    omega
  have fuel : input.length = input.length - 1 + 1 := by omega
  rw [parse, fuel, drain, stepped]
  exact parser.drain_fuel rest (Nat.le_refl _)

theorem parse_short {state : State} {input : List Token}
    (short : input.length < parser.width state) : parser.parse state input = (state, input) := by
  apply parser.parse_stop
  rw [step, if_neg]
  rintro ⟨-, fits⟩
  exact absurd (Nat.lt_of_lt_of_le short fits) (Nat.lt_irrefl _)

theorem parse_closed {state : State} (closed : parser.width state = 0) (input : List Token) :
    parser.parse state input = (state, input) := by
  apply parser.parse_stop
  rw [step, if_neg]
  rintro ⟨positive, -⟩
  exact absurd positive (by rw [closed]; exact Nat.lt_irrefl 0)

theorem parse_field {state : State} {rest : List Token} (field : List Token)
    (positive : 0 < parser.width state) (wide : field.length = parser.width state) :
    parser.parse state (field ++ rest) = parser.parse (parser.advance state field) rest := by
  have stepped : parser.step state (field ++ rest) =
      some (parser.width state, parser.advance state field) := by
    rw [step, if_pos ⟨positive, by rw [List.length_append]; omega⟩, ← wide, List.take_left]
  rw [parser.parse_step stepped, ← wide, List.drop_left]

theorem parse_append (state : State) (first second : List Token) :
    parser.parse state (first ++ second) =
      parser.parse (parser.parse state first).1 ((parser.parse state first).2 ++ second) := by
  induction size : first.length using Nat.strongRecOn generalizing state first with
  | ind length ih =>
    subst size
    cases stepped : parser.step state first with
    | none => rw [parser.parse_stop stepped]
    | some taken =>
      obtain ⟨count, next⟩ := taken
      have consumed := parser.consumes stepped
      have shorter : (first.drop count).length < first.length := by
        rw [List.length_drop]
        omega
      rw [parser.parse_step stepped, parser.parse_step (parser.stable second stepped),
        List.drop_append_of_le_length consumed.2, ih _ shorter next _ rfl]

end Parser

end Incremental

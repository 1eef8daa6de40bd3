import Mathlib.Tactic.Common

set_option autoImplicit false

namespace Outcome

variable {ε α β : Type} {tolerated : ε → Prop}

theorem bind_ok {first : Except ε α} {second : α → Except ε β} {result : β}
    (computed : first.bind second = .ok result) :
    ∃ value, first = .ok value ∧ second value = .ok result := by
  cases first with
  | error fault => cases computed
  | ok value => exact ⟨value, rfl, computed⟩

theorem map_ok {computed : Except ε α} {change : α → β} {result : β}
    (mapped : computed.map change = .ok result) :
    ∃ value, computed = .ok value ∧ change value = result := by
  cases computed with
  | error fault => cases mapped
  | ok value => exact ⟨value, rfl, Except.ok.inj mapped⟩

theorem ok_of_toOption {computed : Except ε α} {value : α}
    (found : computed.toOption = some value) : computed = .ok value := by
  cases computed with
  | error fault => cases found
  | ok result => exact congrArg Except.ok (Option.some.inj found)

-- A computation may stop at a tolerated error; any result it returns meets the postcondition.
def Ensures (tolerated : ε → Prop) (result : Except ε α) (post : α → Prop) : Prop :=
  match result with
  | .ok value => post value
  | .error fault => tolerated fault

theorem Ensures.bind {first : Except ε α} {second : α → Except ε β} {middle : α → Prop}
    {post : β → Prop} (before : Ensures tolerated first middle)
    (after : ∀ value, middle value → Ensures tolerated (second value) post) :
    Ensures tolerated (first.bind second) post := by
  cases first with
  | error fault => exact before
  | ok value => exact after value before

theorem Ensures.map {result : Except ε α} {change : α → β} {post : β → Prop}
    (ensured : Ensures tolerated result fun value => post (change value)) :
    Ensures tolerated (result.map change) post := by
  cases result with
  | error fault => exact ensured
  | ok value => exact ensured

theorem Ensures.weaken {result : Except ε α} {strong weak : α → Prop}
    (ensured : Ensures tolerated result strong) (implied : ∀ value, strong value → weak value) :
    Ensures tolerated result weak := by
  cases result with
  | error fault => exact ensured
  | ok value => exact implied value ensured

theorem Ensures.ok {result : Except ε α} {post : α → Prop} {value : α}
    (ensured : Ensures tolerated result post) (returned : result = .ok value) : post value := by
  subst returned
  exact ensured

theorem Ensures.error {result : Except ε α} {post : α → Prop} {fault : ε}
    (ensured : Ensures tolerated result post) (failed : result = .error fault) : tolerated fault := by
  subst failed
  exact ensured

end Outcome

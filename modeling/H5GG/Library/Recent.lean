import Mathlib.Data.List.Chain
import Mathlib.Data.List.Induction

/-!
# Lists of recent values

Newest first, up to a limit, and without a value that the newest already is.
-/

namespace Recent
variable {Value : Type*}

def push (limit : Nat) (values : List Value) (value : Value) : List Value :=
  (value :: values).take limit

/-- Pushing one by one keeps the last of them. -/
theorem foldl_push (limit : Nat) (added : List Value) :
    added.foldl (push limit) [] = added.reverse.take limit := by
  induction added using List.reverseRecOn with
  | nil => exact List.take_nil.symm
  | append_singleton earlier value ih =>
      rw [List.foldl_append, List.foldl_cons, List.foldl_nil, ih, List.reverse_append]
      cases limit with
      | zero => rfl
      | succ limit =>
          rw [push, List.take_succ_cons, List.reverse_singleton, List.singleton_append,
            List.take_succ_cons, List.take_take, Nat.min_eq_left (Nat.le_succ limit)]

variable [DecidableEq Value]

def pushNew (limit : Nat) (values : List Value) (value : Value) : List Value :=
  if values.head? = some value then values else push limit values value

/-- Newest first, each value that equals the one before it left out. -/
def collapse : List Value → List Value
  | [] => []
  | value :: older => if older.head? = some value then collapse older else value :: collapse older

theorem head_collapse (values : List Value) : (collapse values).head? = values.head? := by
  induction values with
  | nil => rfl
  | cons value older ih =>
      rw [collapse]
      split
      · rename_i same
        rw [ih, same]
        rfl
      · rfl

theorem collapse_isChain (values : List Value) : (collapse values).IsChain (· ≠ ·) := by
  induction values with
  | nil => exact .nil
  | cons value older ih =>
      rw [collapse]
      split
      · exact ih
      · rename_i differ
        rw [← head_collapse] at differ
        apply List.isChain_cons.mpr
        refine ⟨fun next first same => differ ?_, ih⟩
        rw [same]
        exact first

theorem foldl_pushNew {limit : Nat} (positive : 0 < limit) (added : List Value) :
    added.foldl (pushNew limit) [] = (collapse added.reverse).take limit := by
  induction added using List.reverseRecOn with
  | nil => exact List.take_nil.symm
  | append_singleton earlier value ih =>
      obtain ⟨limit, rfl⟩ := Nat.exists_eq_succ_of_ne_zero (Nat.ne_of_gt positive)
      have head : ((collapse earlier.reverse).take (limit + 1)).head? = earlier.reverse.head? := by
        rw [← head_collapse earlier.reverse]
        cases collapse earlier.reverse <;> rfl
      rw [List.foldl_append, List.foldl_cons, List.foldl_nil, ih, List.reverse_append,
        List.reverse_singleton, List.singleton_append, collapse, pushNew, head]
      split
      · rfl
      · rw [push, List.take_succ_cons, List.take_succ_cons, List.take_take,
          Nat.min_eq_left (Nat.le_succ limit)]

end Recent

import H5GG.Library.Machine

/-!
# Stores into windows of a memory

A run of stores, each of which settles the cells of its own window. A cell holds what the last store
over it put there.
-/

namespace Overwrite

structure Store (Cell : Type*) where
  address : Nat
  length : Nat
  /-- What the cells of the window hold after the store. -/
  cell : Nat → Cell

variable {Cell : Type*}

namespace Store

def covers (s : Store Cell) (a : Nat) : Bool := s.address ≤ a && a < s.address + s.length

theorem covers_iff {s : Store Cell} {a : Nat} :
    s.covers a = true ↔ s.address ≤ a ∧ a < s.address + s.length := by
  rw [covers, Bool.and_eq_true, decide_eq_true_eq, decide_eq_true_eq]

def put (s : Store Cell) (memory : Nat → Cell) : Nat → Cell :=
  fun a => if s.covers a then s.cell a else memory a

end Store

variable (stores : List (Store Cell)) (memory : Nat → Cell)

/-- A cell by the last store over it. -/
theorem execute_cell (a : Nat) : execute Store.put stores memory a =
    ((stores.filter (·.covers a)).getLast?.elim (memory a) (·.cell a)) := by
  induction stores generalizing memory with
  | nil => rfl
  | cons store rest ih =>
      rw [execute_cons, ih, List.filter_cons]
      cases covered : store.covers a with
      | false => simp only [Store.put, covered, Bool.false_eq_true, if_false]
      | true =>
          simp only [Store.put, covered, if_true, List.getLast?_cons, Option.elim_some]
          cases (rest.filter (·.covers a)).getLast? <;> rfl

variable {stores}

theorem execute_frame {a : Nat} (outside : ∀ store ∈ stores, store.covers a = false) :
    execute Store.put stores memory a = memory a := by
  have none : stores.filter (·.covers a) = [] := by
    apply List.filter_eq_nil_iff.mpr
    intro store among
    rw [outside store among]
    exact Bool.false_ne_true
  rw [execute_cell, none]
  rfl

theorem execute_last {front back : List (Store Cell)} {store : Store Cell}
    (placed : stores = front ++ store :: back) {a : Nat} (covered : store.covers a = true)
    (later : ∀ other ∈ back, other.covers a = false) :
    execute Store.put stores memory a = store.cell a := by
  rw [placed, execute_append, execute_cons, execute_frame _ later, Store.put, if_pos covered]

end Overwrite

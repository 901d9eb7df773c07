import Mathlib.Algebra.GroupWithZero.Nat

/-!
# Unsigned machine arithmetic

A program written over an `Arithmetic` can be run with operations that wrap, as the machine's do,
and with operations that have no result where a machine word cannot hold it.
-/

/-- Where the first computation has a result, the second has the same. -/
def LessDefined {α : Type*} (first second : Option α) : Prop :=
  ∀ result, first = some result → second = some result

namespace LessDefined
variable {α β : Type} {first second : Option α} {next next' : α → Option β}

theorem refl (first : Option α) : LessDefined first first := fun _ result => result

theorem bind (less : LessDefined first second) (onward : ∀ a, LessDefined (next a) (next' a)) :
    LessDefined (first >>= next) (second >>= next') := by
  intro result found
  obtain ⟨a, here, later⟩ := Option.bind_eq_some_iff.mp found
  exact Option.bind_eq_some_iff.mpr ⟨a, less a here, onward a result later⟩

theorem ite {condition : Prop} [Decidable condition] {first' second' : Option α}
    (yes : LessDefined first second) (no : LessDefined first' second') :
    LessDefined (if condition then first else first') (if condition then second else second') := by
  split
  · exact yes
  · exact no

end LessDefined

structure Arithmetic where
  add : Nat → Nat → Option Nat
  sub : Nat → Nat → Option Nat
  mul : Nat → Nat → Option Nat

namespace Arithmetic

def wrapping (width : Nat) : Arithmetic where
  add a b := some ((a + b) % 2 ^ width)
  sub a b := some ((2 ^ width + a - b) % 2 ^ width)
  mul a b := some (a * b % 2 ^ width)

def checked (width : Nat) : Arithmetic where
  add a b := if a + b < 2 ^ width then some (a + b) else none
  sub a b := if b ≤ a ∧ a < 2 ^ width then some (a - b) else none
  mul a b := if a * b < 2 ^ width then some (a * b) else none

/-- Wherever `first` has a result, `second` has the same. -/
structure Extends (first second : Arithmetic) : Prop where
  add : ∀ a b, LessDefined (first.add a b) (second.add a b)
  sub : ∀ a b, LessDefined (first.sub a b) (second.sub a b)
  mul : ∀ a b, LessDefined (first.mul a b) (second.mul a b)

variable {width a b : Nat}

theorem checked_add (fits : a + b < 2 ^ width) : (checked width).add a b = some (a + b) :=
  if_pos fits

theorem checked_sub (below : b ≤ a) (fits : a < 2 ^ width) :
    (checked width).sub a b = some (a - b) :=
  if_pos ⟨below, fits⟩

theorem checked_mul (fits : a * b < 2 ^ width) : (checked width).mul a b = some (a * b) :=
  if_pos fits

theorem Extends.refl (arithmetic : Arithmetic) : Extends arithmetic arithmetic :=
  ⟨fun _ _ => .refl _, fun _ _ => .refl _, fun _ _ => .refl _⟩

/-- Checked operations only leave out what would wrap. -/
theorem checked_extends (width : Nat) : Extends (checked width) (wrapping width) where
  add a b c result := by
    simp only [checked, Option.ite_none_right_eq_some, Option.some.injEq] at result
    obtain ⟨fits, rfl⟩ := result
    show some ((a + b) % 2 ^ width) = some (a + b)
    rw [Nat.mod_eq_of_lt fits]
  sub a b c result := by
    simp only [checked, Option.ite_none_right_eq_some, Option.some.injEq] at result
    obtain ⟨⟨below, fits⟩, rfl⟩ := result
    have turn : 2 ^ width + a - b = a - b + 2 ^ width := by omega
    show some ((2 ^ width + a - b) % 2 ^ width) = some (a - b)
    rw [turn, Nat.add_mod_right, Nat.mod_eq_of_lt (by omega)]
  mul a b c result := by
    simp only [checked, Option.ite_none_right_eq_some, Option.some.injEq] at result
    obtain ⟨fits, rfl⟩ := result
    show some (a * b % 2 ^ width) = some (a * b)
    rw [Nat.mod_eq_of_lt fits]

end Arithmetic

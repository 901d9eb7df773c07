import Mathlib.Data.List.Basic

/-!
# Filters that ask

A filter whose test asks about some elements only, and whose questions may each be answered
differently. The questions are numbered in the order of the list.
-/

namespace Questions

section
variable {α β : Type} (asks : α → Bool) (answer : Nat → α → Bool)

/-- What is left when `calls` questions were asked before. -/
def kept (calls : Nat) (list : List α) : List α :=
  (((list.filter asks).zipIdx calls).filter fun question => answer question.2 question.1).map Prod.fst

/-- The questions asked, those before included. -/
def asked (calls : Nat) (list : List α) : Nat := calls + (list.filter asks).length

variable {asks answer} {calls : Nat}

@[simp] theorem kept_nil : kept asks answer calls [] = [] := rfl

@[simp] theorem asked_nil : asked asks calls [] = calls := rfl

theorem kept_cons (a : α) (rest : List α) :
    kept asks answer calls (a :: rest) =
      if asks a then
        (if answer calls a then [a] else []) ++ kept asks answer (calls + 1) rest
      else kept asks answer calls rest := by
  unfold kept
  rw [List.filter_cons]
  split
  · rw [List.zipIdx_cons, List.filter_cons]
    split <;> simp_all
  · rfl

theorem asked_cons (a : α) (rest : List α) :
    asked asks calls (a :: rest) =
      if asks a then asked asks (calls + 1) rest else asked asks calls rest := by
  unfold asked
  rw [List.filter_cons]
  split
  · rw [List.length_cons]
    omega
  · rfl

theorem kept_append (front back : List α) :
    kept asks answer calls (front ++ back) =
      kept asks answer calls front ++ kept asks answer (asked asks calls front) back := by
  unfold kept asked
  rw [List.filter_append, List.zipIdx_append, List.filter_append, List.map_append]

theorem kept_map (f : β → α) (list : List β) :
    kept asks answer calls (list.map f) =
      (kept (fun b => asks (f b)) (fun call b => answer call (f b)) calls list).map f := by
  induction list generalizing calls with
  | nil => rfl
  | cons b rest ih =>
      rw [List.map_cons, kept_cons, kept_cons, ih, ih]
      split
      · split <;> rfl
      · rfl

theorem kept_sublist (list : List α) : (kept asks answer calls list).Sublist list := by
  induction list generalizing calls with
  | nil => exact List.Sublist.refl []
  | cons a rest ih =>
      rw [kept_cons]
      split
      · split
        · exact ih.cons_cons a
        · exact ih.cons a
      · exact ih.cons a

/-- Where every question has one answer, this is the filter of the list. -/
theorem kept_constant (answer : α → Bool) (list : List α) :
    kept asks (fun _ => answer) calls list = list.filter fun a => asks a && answer a := by
  induction list generalizing calls with
  | nil => rfl
  | cons a rest ih =>
      rw [kept_cons, List.filter_cons, ih, ih]
      cases asks a
      · rfl
      · cases answer a <;> rfl

end

end Questions

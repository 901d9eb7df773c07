import Mathlib.Data.List.Basic

/-!
# Histories

What has happened is a list, the latest last.
-/

variable {α : Type}

/-- `mark` happened, and nothing that ends it since. -/
def Since (mark : α) (ends : α → Prop) (history : List α) : Prop :=
  ∃ earlier later, history = earlier ++ mark :: later ∧ ∀ x ∈ later, ¬ends x

/-- Whenever `mark` happened, things were as they should be. -/
def Whenever (mark : α) (good : List α → Prop) (history : List α) : Prop :=
  ∀ earlier later, history = earlier ++ mark :: later → good earlier

variable {mark x : α} {ends : α → Prop} {good : List α → Prop} {history : List α}

@[simp] theorem since_nil : ¬Since mark ends [] := by
  rintro ⟨earlier, later, shape, -⟩
  exact List.append_ne_nil_of_right_ne_nil earlier (List.cons_ne_nil mark later) shape.symm

@[simp] theorem since_concat :
    Since mark ends (history ++ [x]) ↔ x = mark ∨ ¬ends x ∧ Since mark ends history := by
  constructor
  · rintro ⟨earlier, later, shape, free⟩
    rcases List.eq_nil_or_concat' later with rfl | ⟨later, last, rfl⟩
    · exact .inl (List.cons.inj (List.append_inj' shape rfl).2).1
    · rw [← List.cons_append, ← List.append_assoc] at shape
      obtain ⟨rfl, same⟩ := List.append_inj' shape rfl
      cases same
      exact .inr ⟨free x (by simp), earlier, later, rfl, fun y inside => free y (by simp [inside])⟩
  · rintro (rfl | ⟨other, earlier, later, rfl, free⟩)
    · exact ⟨history, [], rfl, by simp⟩
    · refine ⟨earlier, later ++ [x], by simp, ?_⟩
      intro y inside
      rcases List.mem_append.mp inside with inside | inside
      · exact free y inside
      · rw [List.mem_singleton.mp inside]
        exact other

/-- What ends it is to be found behind, if it has ended. -/
theorem Since.append (since : Since mark ends history) (added : List α) :
    Since mark ends (history ++ added) ∨ ∃ x ∈ added, ends x := by
  by_cases ended : ∃ x ∈ added, ends x
  · exact .inr ended
  · obtain ⟨earlier, later, rfl, free⟩ := since
    refine .inl ⟨earlier, later ++ added, by simp, fun x inside => ?_⟩
    rcases List.mem_append.mp inside with inside | inside
    · exact free x inside
    · exact fun done => ended ⟨x, inside, done⟩

@[simp] theorem whenever_nil : Whenever mark good [] := by
  intro earlier later shape
  exact absurd shape.symm (List.append_ne_nil_of_right_ne_nil earlier (List.cons_ne_nil mark later))

@[simp] theorem whenever_concat :
    Whenever mark good (history ++ [x]) ↔ Whenever mark good history ∧ (x = mark → good history) := by
  constructor
  · intro all
    constructor
    · rintro earlier later rfl
      exact all earlier (later ++ [x]) (by simp)
    · rintro rfl
      exact all history [] rfl
  · rintro ⟨all, last⟩ earlier later shape
    rcases List.eq_nil_or_concat' later with rfl | ⟨later, y, rfl⟩
    · obtain ⟨rfl, same⟩ := List.append_inj' shape rfl
      exact last (List.cons.inj same).1
    · rw [← List.cons_append, ← List.append_assoc] at shape
      exact all earlier later (List.append_inj' shape rfl).1

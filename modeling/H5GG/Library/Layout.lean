import Mathlib.Data.List.Sort

/-!
# Offsets in disjoint parts

Parts of an address space in ascending order, each with offsets into it.
-/

namespace Layout

section
variable {Part : Type*} (base size : Part → Nat) (offsets : Part → List Nat)

/-- The addresses of all offsets, part by part, with every offset sent through `narrow`. -/
def addresses (narrow : Nat → Nat) (parts : List Part) : List Nat :=
  parts.flatMap fun part => (offsets part).map fun offset => base part + narrow offset

/-- Parts that do not overlap, with ascending offsets inside each. -/
structure Ordered (parts : List Part) : Prop where
  apart : parts.Pairwise fun a b => base a + size a ≤ base b
  sorted : ∀ part ∈ parts, (offsets part).Pairwise (· < ·)
  inside : ∀ part ∈ parts, ∀ offset ∈ offsets part, offset < size part

variable {base size offsets}

theorem addresses_sorted {parts : List Part} (ordered : Ordered base size offsets parts) :
    (addresses base offsets id parts).Pairwise (· < ·) := by
  refine List.pairwise_flatMap.mpr ⟨fun part member => ?_, ?_⟩
  · refine List.pairwise_map.mpr ((ordered.sorted part member).imp ?_)
    exact fun below => Nat.add_lt_add_left below _
  · refine ordered.apart.imp_of_mem ?_
    intro a b memberA _ below x memberX y memberY
    obtain ⟨offset, member, rfl⟩ := List.mem_map.mp memberX
    obtain ⟨offset', -, rfl⟩ := List.mem_map.mp memberY
    have := ordered.inside a memberA offset member
    simp only [id_eq]
    omega

theorem eq_of_shared {parts : List Part}
    (apart : parts.Pairwise fun a b => base a + size a ≤ base b) {a b : Part} (memberA : a ∈ parts)
    (memberB : b ∈ parts) {x : Nat} (insideA : base a ≤ x ∧ x < base a + size a)
    (insideB : base b ≤ x ∧ x < base b + size b) : a = b := by
  induction parts with
  | nil => cases memberA
  | cons part rest ih =>
      obtain ⟨before, apart⟩ := List.pairwise_cons.mp apart
      rcases List.mem_cons.mp memberA with rfl | restA <;>
        rcases List.mem_cons.mp memberB with rfl | restB
      · rfl
      · have := before b restB
        omega
      · have := before a restA
        omega
      · exact ih apart restA restB

theorem addresses_congr {narrow narrow' : Nat → Nat} {parts : List Part}
    (same : ∀ part ∈ parts, ∀ offset ∈ offsets part, narrow offset = narrow' offset) :
    addresses base offsets narrow parts = addresses base offsets narrow' parts := by
  refine List.flatMap_congr fun part member => List.map_congr_left fun offset inside => ?_
  rw [same part member offset inside]

theorem narrow_eq_of_addresses_eq {narrow : Nat → Nat} {parts : List Part}
    (same : addresses base offsets narrow parts = addresses base offsets id parts) :
    ∀ part ∈ parts, ∀ offset ∈ offsets part, narrow offset = offset := by
  induction parts with
  | nil => simp
  | cons part rest ih =>
      simp only [addresses, List.flatMap_cons] at same
      obtain ⟨first, others⟩ := List.append_inj same (by simp)
      intro other member
      rcases List.mem_cons.mp member with rfl | member
      · intro offset inside
        have := List.map_inj_left.mp first offset inside
        simp only [id_eq] at this
        omega
      · exact ih others other member

/-- Narrowed offsets report every address once and in order only where nothing is narrowed. -/
theorem addresses_exact_iff {narrow : Nat → Nat} {parts : List Part}
    (ordered : Ordered base size offsets parts) :
    ((addresses base offsets narrow parts).Pairwise (· < ·) ∧
      ∀ a, a ∈ addresses base offsets narrow parts ↔
        ∃ part ∈ parts, ∃ offset ∈ offsets part, a = base part + offset) ↔
      ∀ part ∈ parts, ∀ offset ∈ offsets part, narrow offset = offset := by
  have members (a : Nat) : a ∈ addresses base offsets id parts ↔
      ∃ part ∈ parts, ∃ offset ∈ offsets part, a = base part + offset := by
    simp [addresses, eq_comm]
  constructor
  · rintro ⟨sorted, exact⟩
    refine narrow_eq_of_addresses_eq (sorted.eq_of_mem_iff (addresses_sorted ordered) fun a => ?_)
    rw [exact, members]
  · intro same
    have whole : addresses base offsets narrow parts = addresses base offsets id parts :=
      addresses_congr same
    rw [whole]
    exact ⟨addresses_sorted ordered, members⟩

end

end Layout

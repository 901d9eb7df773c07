import Mathlib.Data.List.Basic

/-!
# Placeholders in a library
-/

namespace H5GG

/-- `std::search`: where the placeholder is found first. -/
def search (placeholder : List UInt8) : List UInt8 → Option Nat
  | [] => if placeholder = [] then some 0 else none
  | byte :: rest =>
      if placeholder.isPrefixOf (byte :: rest) then some 0
      else (search placeholder rest).map (· + 1)

/-- The loop of `h5ggReplaceAllTemplates`, from its cursor on. -/
def replaceFrom (placeholder replacement : List UInt8) (nonempty : replacement ≠ []) :
    List UInt8 → List UInt8 × Nat
  | [] => ([], 0)
  | byte :: rest =>
      match search placeholder (byte :: rest) with
      | none => (byte :: rest, 0)
      | some found =>
          let later := replaceFrom placeholder replacement nonempty
            ((byte :: rest).drop (found + replacement.length))
          ((byte :: rest).take found ++ replacement ++ later.1, later.2 + 1)
termination_by binary => binary.length
decreasing_by
  have advances := List.length_pos_iff.mpr nonempty
  rw [List.length_drop, List.length_cons]
  omega

/-- The payload, filled up with zeros to the length of its placeholder. -/
def padded (placeholder payload : List UInt8) : List UInt8 :=
  payload ++ List.replicate (placeholder.length - payload.length) 0

/-- The binary afterwards, and the number of replacements. -/
def h5ggReplaceAllTemplates (binary placeholder payload : List UInt8) : List UInt8 × Nat :=
  if usable : binary = [] ∨ placeholder = [] ∨ payload = [] ∨
      placeholder.length ≤ payload.length then (binary, 0)
  else
    replaceFrom placeholder (padded placeholder payload)
      (fun empty => usable (.inr (.inr (.inl (List.append_eq_nil_iff.mp empty).1)))) binary

end H5GG

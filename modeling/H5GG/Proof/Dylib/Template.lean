import H5GG.Dylib.Template
import Mathlib.Data.List.Infix

/-!
# Every placeholder is replaced
-/

namespace H5GG

theorem search_some {placeholder binary : List UInt8} {found : Nat}
    (here : search placeholder binary = some found) :
    placeholder <+: binary.drop found ∧ ∀ earlier < found, ¬placeholder <+: binary.drop earlier := by
  induction binary generalizing found with
  | nil =>
      rw [search] at here
      split_ifs at here with empty
      cases here
      rw [empty]
      exact ⟨List.nil_prefix, fun earlier before => absurd before (Nat.not_lt_zero _)⟩
  | cons byte rest ih =>
      rw [search] at here
      split_ifs at here with first
      · cases here
        exact ⟨List.isPrefixOf_iff_prefix.mp first, fun _ before => absurd before (Nat.not_lt_zero _)⟩
      · obtain ⟨later, foundLater, rfl⟩ := Option.map_eq_some_iff.mp here
        obtain ⟨placed, leftmost⟩ := ih foundLater
        refine ⟨placed, fun earlier before => ?_⟩
        cases earlier with
        | zero => exact fun starts => first (List.isPrefixOf_iff_prefix.mpr starts)
        | succ earlier => exact leftmost earlier (Nat.lt_of_succ_lt_succ before)

theorem search_none {placeholder binary : List UInt8} (missing : search placeholder binary = none) :
    ¬placeholder <:+: binary := by
  induction binary with
  | nil =>
      rw [search] at missing
      split_ifs at missing with empty
      exact fun inside => empty (List.infix_nil.mp inside)
  | cons byte rest ih =>
      rw [search] at missing
      split_ifs at missing with first
      intro inside
      cases List.infix_cons_iff.mp inside with
      | inl starts => exact first (List.isPrefixOf_iff_prefix.mpr starts)
      | inr later => exact ih (Option.map_eq_none_iff.mp missing) later

/-- The pieces between the placeholders, which are found from the left and do not overlap. -/
inductive Cut (placeholder : List UInt8) : List UInt8 → List (List UInt8) → Prop
  | last {piece : List UInt8} (free : ¬placeholder <:+: piece) : Cut placeholder piece [piece]
  | next {piece more : List UInt8} {pieces : List (List UInt8)}
      (leftmost : ∀ earlier < piece.length, ¬placeholder <+: (piece ++ placeholder).drop earlier)
      (rest : Cut placeholder more pieces) :
      Cut placeholder (piece ++ placeholder ++ more) (piece :: pieces)

theorem Cut.intercalate_cons {placeholder more piece : List UInt8} {pieces : List (List UInt8)}
    (rest : Cut placeholder more pieces) (separator : List UInt8) :
    List.intercalate separator (piece :: pieces) =
      piece ++ separator ++ List.intercalate separator pieces := by
  cases rest <;> simp [List.intercalate, List.intersperse]

theorem replaceFrom_cut {placeholder replacement : List UInt8} (nonempty : replacement ≠ [])
    (length : replacement.length = placeholder.length) (binary : List UInt8) :
    ∃ pieces, Cut placeholder binary pieces ∧
      (replaceFrom placeholder replacement nonempty binary).1 =
        List.intercalate replacement pieces ∧
      (replaceFrom placeholder replacement nonempty binary).2 + 1 = pieces.length := by
  induction binary using replaceFrom.induct placeholder replacement nonempty with
  | case1 =>
      refine ⟨[[]], .last fun inside => ?_, by simp [replaceFrom, List.intercalate], by
        rw [replaceFrom]; rfl⟩
      rw [List.infix_nil.mp inside] at length
      exact nonempty (List.length_eq_zero_iff.mp length)
  | case2 byte rest missing =>
      rw [replaceFrom, missing]
      exact ⟨[byte :: rest], .last (search_none missing), by simp [List.intercalate], rfl⟩
  | case3 byte rest found here ih =>
      obtain ⟨pieces, cut, replaced, counted⟩ := ih
      obtain ⟨⟨more, placed⟩, leftmost⟩ := search_some here
      rw [replaceFrom, here]
      have after : (byte :: rest).drop (found + replacement.length) = more := by
        rw [← List.drop_drop, ← placed, length, List.drop_left]
      have split : (byte :: rest).take found ++ placeholder ++ more = byte :: rest := by
        rw [List.append_assoc, placed, List.take_append_drop]
      rw [after] at cut replaced counted
      refine ⟨(byte :: rest).take found :: pieces, ?_, ?_, ?_⟩
      · have free : ∀ earlier < ((byte :: rest).take found).length,
            ¬placeholder <+: ((byte :: rest).take found ++ placeholder).drop earlier := by
          intro earlier before starts
          have start : (byte :: rest).take found ++ placeholder <+: byte :: rest := ⟨more, split⟩
          exact leftmost earlier (before.trans_le (List.length_take_le _ _))
            (starts.trans (start.drop earlier))
        have whole := Cut.next free cut
        rwa [split] at whole
      · rw [cut.intercalate_cons]
        simp only [after, replaced]
      · simp only [after, List.length_cons, ← counted]

theorem replaceAll_cut {binary placeholder payload : List UInt8}
    (some_found : (h5ggReplaceAllTemplates binary placeholder payload).2 ≠ 0) :
    payload.length < placeholder.length ∧ ∃ pieces, Cut placeholder binary pieces ∧
      (h5ggReplaceAllTemplates binary placeholder payload).1 =
        List.intercalate (padded placeholder payload) pieces ∧
      (h5ggReplaceAllTemplates binary placeholder payload).2 + 1 = pieces.length := by
  unfold h5ggReplaceAllTemplates at some_found ⊢
  split_ifs at some_found ⊢ with unusable
  · exact absurd rfl some_found
  · have shorter : payload.length < placeholder.length :=
      Nat.lt_of_not_le fun longer => unusable (.inr (.inr (.inr longer)))
    refine ⟨shorter, replaceFrom_cut _ ?_ binary⟩
    rw [padded, List.length_append, List.length_replicate]
    omega

/-! ### A second call -/

theorem Cut.binary_eq {placeholder binary : List UInt8} {pieces : List (List UInt8)}
    (cut : Cut placeholder binary pieces) : binary = List.intercalate placeholder pieces := by
  induction cut with
  | last free => simp [List.intercalate]
  | next leftmost rest ih => rw [rest.intercalate_cons, ← ih]

theorem Cut.intercalate_length {placeholder replacement binary : List UInt8} {pieces : List (List UInt8)}
    (cut : Cut placeholder binary pieces) (length : replacement.length = placeholder.length) :
    (List.intercalate replacement pieces).length = binary.length := by
  induction cut with
  | last free => simp [List.intercalate]
  | next leftmost rest ih =>
      rw [rest.intercalate_cons, List.length_append, List.length_append, ih, length,
        List.length_append, List.length_append]

theorem search_isSome_iff {placeholder binary : List UInt8} :
    search placeholder binary ≠ none ↔ placeholder <:+: binary := by
  constructor
  · intro there
    obtain ⟨found, here⟩ := Option.ne_none_iff_exists'.mp there
    exact (search_some here).1.isInfix.trans (List.drop_suffix found binary).isInfix
  · intro inside missing
    exact search_none missing inside

theorem replaceFrom_eq_zero {placeholder replacement : List UInt8} (nonempty : replacement ≠ [])
    (present : placeholder ≠ []) (binary : List UInt8) :
    (replaceFrom placeholder replacement nonempty binary).2 = 0 ↔ ¬placeholder <:+: binary := by
  cases binary with
  | nil =>
      rw [replaceFrom]
      exact iff_of_true rfl fun inside => present (List.infix_nil.mp inside)
  | cons byte rest =>
      rw [← search_isSome_iff, not_not, replaceFrom]
      cases search placeholder (byte :: rest) with
      | none => simp
      | some found => simp

/-- Placed one behind the other with an offset, the two agree nowhere on the bytes they share. -/
structure Separate (placeholder replacement : List UInt8) : Prop where
  front : ∀ shared, 0 < shared → shared ≤ placeholder.length →
    placeholder.take shared ≠ replacement.drop (placeholder.length - shared)
  back : ∀ shared, 0 < shared → shared ≤ placeholder.length →
    placeholder.drop (placeholder.length - shared) ≠ replacement.take shared

theorem Cut.present {placeholder binary : List UInt8} {pieces : List (List UInt8)}
    (cut : Cut placeholder binary pieces) : placeholder ≠ [] := by
  induction cut with
  | last free =>
      rintro rfl
      exact free List.nil_infix
  | next leftmost rest ih => exact ih

/-- Where an occurrence lies: in the piece, behind the replacement, or over an end of it. -/
theorem occurrence_cases {placeholder replacement piece tail : List UInt8}
    (length : replacement.length = placeholder.length)
    (occurs : placeholder <:+: piece ++ replacement ++ tail) :
    (∃ i, i + placeholder.length ≤ piece.length ∧ placeholder <+: piece.drop i) ∨
      placeholder <:+: tail ∨ ¬Separate placeholder replacement := by
  obtain ⟨front, back, whole⟩ := occurs
  -- Over the replacement, the two agree byte by byte.
  have agree (i : Nat) (inside : i < placeholder.length) (low : piece.length ≤ front.length + i)
      (high : front.length + i < piece.length + placeholder.length) :
      placeholder[i]? = replacement[front.length + i - piece.length]? := by
    calc placeholder[i]? = (piece ++ replacement ++ tail)[front.length + i]? := by
          rw [← whole, List.append_assoc, List.getElem?_append_right (Nat.le_add_right _ _),
            Nat.add_sub_cancel_left, List.getElem?_append_left inside]
      _ = replacement[front.length + i - piece.length]? := by
          rw [List.append_assoc, List.getElem?_append_right low, List.getElem?_append_left (by omega)]
  by_cases before : front.length + placeholder.length ≤ piece.length
  · left
    have placed : front ++ placeholder <+: piece :=
      List.prefix_of_prefix_length_le ⟨back, whole⟩
        ⟨replacement ++ tail, (List.append_assoc _ _ _).symm⟩ (by simpa using before)
    have here := placed.drop front.length
    rw [List.drop_left] at here
    exact ⟨front.length, before, here⟩
  · right
    by_cases behind : piece.length + placeholder.length ≤ front.length
    · left
      have lengths := congrArg List.length whole
      simp only [List.length_append] at lengths
      have placed : placeholder ++ back <:+ tail :=
        List.suffix_of_suffix_length_le ⟨front, by rw [← List.append_assoc, whole]⟩
          ⟨piece ++ replacement, rfl⟩ (by rw [List.length_append]; omega)
      exact (List.prefix_append placeholder back).isInfix.trans placed.isInfix
    · right
      intro separate
      by_cases into : front.length ≤ piece.length
      · apply separate.back (front.length + placeholder.length - piece.length) (by omega) (by omega)
        apply List.ext_getElem?
        intro i
        rw [List.getElem?_drop, List.getElem?_take]
        split
        · rw [agree _ (by omega) (by omega) (by omega)]
          congr 1
          omega
        · exact List.getElem?_eq_none (by omega)
      · apply separate.front (piece.length + placeholder.length - front.length) (by omega) (by omega)
        apply List.ext_getElem?
        intro i
        rw [List.getElem?_drop, List.getElem?_take]
        split
        · rw [agree i (by omega) (by omega) (by omega)]
          congr 1
          omega
        · exact (List.getElem?_eq_none (by omega)).symm

/-- Bytes that are separate from what they replace do not bring it back. -/
theorem Cut.removed {placeholder replacement binary : List UInt8} {pieces : List (List UInt8)}
    (cut : Cut placeholder binary pieces) (length : replacement.length = placeholder.length)
    (separate : Separate placeholder replacement) :
    ¬placeholder <:+: List.intercalate replacement pieces := by
  induction cut with
  | last free => simpa [List.intercalate] using free
  | @next piece more pieces leftmost rest ih =>
      have positive := List.length_pos_iff.mpr rest.present
      rw [rest.intercalate_cons]
      intro occurs
      rcases occurrence_cases length occurs with ⟨i, inside, here⟩ | behind | across
      · apply leftmost i (by omega)
        apply here.trans
        exact (List.prefix_append piece placeholder).drop i
      · exact ih behind
      · exact across separate

theorem padded_length {placeholder payload : List UInt8} (shorter : payload.length < placeholder.length) :
    (padded placeholder payload).length = placeholder.length := by
  rw [padded, List.length_append, List.length_replicate]
  omega

/-- What the first call makes of a binary, and what a second one finds. -/
structure Rewrites (binary placeholder payload : List UInt8) : Prop where
  size : (h5ggReplaceAllTemplates binary placeholder payload).1.length = binary.length
  cut : ∃ pieces, Cut placeholder binary pieces ∧
    binary = List.intercalate placeholder pieces ∧
    (h5ggReplaceAllTemplates binary placeholder payload).1 =
      List.intercalate (payload ++ List.replicate (placeholder.length - payload.length) 0) pieces ∧
    (h5ggReplaceAllTemplates binary placeholder payload).2 + 1 = pieces.length
  again : (h5ggReplaceAllTemplates (h5ggReplaceAllTemplates binary placeholder payload).1
      placeholder payload).2 = 0 ↔
    ¬placeholder <:+: (h5ggReplaceAllTemplates binary placeholder payload).1
  removed : Separate placeholder
      (payload ++ List.replicate (placeholder.length - payload.length) 0) →
    (h5ggReplaceAllTemplates (h5ggReplaceAllTemplates binary placeholder payload).1
      placeholder payload).2 = 0

theorem replaceAll_eq {binary placeholder payload : List UInt8} (some_payload : payload ≠ [])
    (shorter : payload.length < placeholder.length) :
    h5ggReplaceAllTemplates binary placeholder payload =
      replaceFrom placeholder (padded placeholder payload)
        (fun empty => some_payload (List.append_eq_nil_iff.mp empty).1) binary := by
  unfold h5ggReplaceAllTemplates
  split_ifs with unusable
  · rcases unusable with rfl | rfl | none | longer
    · rw [replaceFrom]
    · cases shorter
    · exact absurd none some_payload
    · exact absurd shorter (Nat.not_lt.mpr longer)
  · rfl

theorem replaceAll_rewrites (binary : List UInt8) {placeholder payload : List UInt8}
    (some_payload : payload ≠ []) (shorter : payload.length < placeholder.length) :
    Rewrites binary placeholder payload := by
  have length := padded_length shorter
  have present : placeholder ≠ [] := List.ne_nil_of_length_pos (Nat.zero_lt_of_lt shorter)
  have again (binary : List UInt8) : (h5ggReplaceAllTemplates binary placeholder payload).2 = 0 ↔
      ¬placeholder <:+: binary := by
    rw [replaceAll_eq some_payload shorter]
    exact replaceFrom_eq_zero _ present binary
  have nonempty : padded placeholder payload ≠ [] :=
    fun empty => some_payload (List.append_eq_nil_iff.mp empty).1
  obtain ⟨pieces, cut, replaced, counted⟩ := replaceFrom_cut nonempty length binary
  rw [← replaceAll_eq some_payload shorter] at replaced counted
  constructor
  · rw [replaced]
    exact cut.intercalate_length length
  · exact ⟨pieces, cut, cut.binary_eq, replaced, counted⟩
  · exact again _
  · intro separate
    rw [again, replaced]
    exact cut.removed length separate

/-- `AAB` with `AB` replaced by `B`. -/
theorem replaceAll_again : ¬∀ binary placeholder payload : List UInt8, placeholder ≠ [] → payload ≠ [] →
    payload.length < placeholder.length →
      (h5ggReplaceAllTemplates (h5ggReplaceAllTemplates binary placeholder payload).1
        placeholder payload).2 = 0 := by
  intro claim
  have none := claim [0x41, 0x41, 0x42] [0x41, 0x42] [0x42] (by decide) (by decide) (by decide)
  simp [h5ggReplaceAllTemplates, replaceFrom, search, padded] at none

theorem replaceAll_rewrites_twoTemplates :
    Rewrites [0, 1, 2, 3, 4, 5, 1, 2, 3, 4, 6] [1, 2, 3, 4] [9, 8] :=
  replaceAll_rewrites _ (by decide) (by decide)

end H5GG

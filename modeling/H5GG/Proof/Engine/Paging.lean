import H5GG.Engine.State
import H5GG.Library.Table

/-!
# Pages of the result list
-/

namespace H5GG

/-- Where a page stands after the hits `walked`: `index` counts them all, and the map holds the
ones at the positions from `skip` on, `count` of them. -/
structure PageOf (count skip : Nat) (walked : List (Nat × Int)) (state : Int × Std.TreeMap Nat Int) :
    Prop where
  index : state.1 = walked.length
  lookup : ∀ address type, state.2[address]? = some type ↔
    ∃ i, skip ≤ i ∧ i < skip + count ∧ walked[i]? = some (address, type)
  size : state.2.size = min walked.length (skip + count) - skip

namespace PageOf
variable {count skip : Nat} {walked : List (Nat × Int)} {state : Int × Std.TreeMap Nat Int}

theorem start : PageOf count skip [] (0, ∅) where
  index := rfl
  lookup := by simp
  size := by simp

theorem skipped (page : PageOf count skip walked state) (more : List (Nat × Int))
    (before : walked.length + more.length ≤ skip) :
    PageOf count skip (walked ++ more) (state.1 + more.length, state.2) where
  index := by simp [page.index]
  lookup := by
    have outside (list : List (Nat × Int)) (short : list.length ≤ skip) (hit : Nat × Int) :
        ¬∃ i, skip ≤ i ∧ i < skip + count ∧ list[i]? = some hit := by
      rintro ⟨i, low, _, found⟩
      have := (List.getElem?_eq_some_iff.mp found).1
      omega
    intro address type
    rw [page.lookup address type]
    apply iff_of_false
    · exact outside walked (by omega) _
    · exact outside _ (by simpa using before) _
  size := by
    rw [page.size, List.length_append]
    omega

theorem inside_iff (page : PageOf count skip walked state) :
    (decide ((skip : Int) ≤ state.1) && decide (state.1 - skip < count)) = true ↔
      skip ≤ walked.length ∧ walked.length < skip + count := by
  simp only [page.index, Bool.and_eq_true, decide_eq_true_eq]
  omega

theorem nowhere {address : Nat} (fresh : address ∉ walked.map Prod.fst) (i : Nat) (type : Int) :
    walked[i]? ≠ some (address, type) := by
  intro found
  exact fresh (List.mem_map.mpr ⟨_, List.mem_of_getElem? found, rfl⟩)

/-- A hit on the page, at an address that no hit before has. -/
theorem taken (page : PageOf count skip walked state) (hit : Nat × Int)
    (fresh : hit.1 ∉ walked.map Prod.fst) (low : skip ≤ walked.length)
    (high : walked.length < skip + count) :
    PageOf count skip (walked ++ [hit]) (state.1 + 1, state.2.insert hit.1 hit.2) where
  index := by simp [page.index]
  lookup := by
    intro address type
    rw [Std.TreeMap.getElem?_insert]
    simp only [getElem?_concat_iff]
    by_cases same : hit.1 = address
    · subst same
      simp only [Std.ReflCmp.compare_self, ↓reduceIte, Option.some.injEq, nowhere fresh, false_or]
      constructor
      · rintro rfl
        exact ⟨walked.length, low, high, rfl, rfl⟩
      · rintro ⟨i, _, _, _, shown⟩
        exact (Prod.mk.inj shown).2.symm
    · have other (type : Int) : (address, type) ≠ hit := by
        rintro rfl
        exact same rfl
      simp [same, page.lookup address type, other]
  size := by
    have before := page.size
    have absent : state.2.contains hit.1 = false := by
      rw [← Bool.not_eq_true]
      intro present
      obtain ⟨type, bound⟩ := Option.isSome_iff_exists.mp
        (Std.TreeMap.contains_eq_isSome_getElem?.symm.trans present)
      obtain ⟨i, _, _, found⟩ := (page.lookup _ type).mp bound
      exact nowhere fresh i type found
    simp only [Std.TreeMap.size_insert, absent, Bool.false_eq_true,
      if_false, List.length_append, List.length_singleton]
    omega

theorem passed (page : PageOf count skip walked state) (hit : Nat × Int)
    (outside : ¬(skip ≤ walked.length ∧ walked.length < skip + count)) :
    PageOf count skip (walked ++ [hit]) (state.1 + 1, state.2) where
  index := by simp [page.index]
  lookup := by
    intro address type
    simp only [getElem?_concat_iff, page.lookup address type]
    constructor
    · rintro ⟨i, low, high, found⟩
      exact ⟨i, low, high, .inl found⟩
    · rintro ⟨i, low, high, found | ⟨rfl, _⟩⟩
      · exact ⟨i, low, high, found⟩
      · exact absurd ⟨low, high⟩ outside
  size := by
    have before := page.size
    simp only [List.length_append, List.length_singleton]
    omega

theorem entry (page : PageOf count skip walked state) (region : ResultRegion) (hit : Nat × Int)
    (fresh : region.address hit.1 ∉ walked.map Prod.fst) :
    PageOf count skip (walked ++ [(region.address hit.1, hit.2)])
      (Engine.pageEntry count skip region state hit) := by
  unfold Engine.pageEntry
  by_cases inside : (decide ((skip : Int) ≤ state.1) && decide (state.1 - skip < count)) = true
  · obtain ⟨low, high⟩ := page.inside_iff.mp inside
    rw [if_pos inside]
    exact page.taken (region.address hit.1, hit.2) fresh low high
  · rw [if_neg inside]
    exact page.passed _ (mt page.inside_iff.mpr inside)

theorem entries (region : ResultRegion) (page : PageOf count skip walked state)
    {hits : List (Nat × Int)}
    (apart : ((walked ++ hits.map fun hit => (region.address hit.1, hit.2)).map Prod.fst).Nodup) :
    PageOf count skip (walked ++ hits.map fun hit => (region.address hit.1, hit.2))
      (hits.foldl (Engine.pageEntry count skip region) state) := by
  induction hits generalizing walked state with
  | nil => simpa using page
  | cons hit rest ih =>
      rw [List.map_cons, List.append_cons] at apart ⊢
      rw [List.foldl_cons]
      apply ih _ apart
      apply page.entry region hit
      rw [List.map_append, List.map_append, List.nodup_append] at apart
      have := (List.nodup_append.mp apart.1).2.2
      intro member
      exact this _ member _ (by simp) rfl

theorem region (page : PageOf count skip walked state) (region : ResultRegion)
    (apart : ((walked ++ region.hits 0).map Prod.fst).Nodup)
    (few : (walked ++ region.hits 0).length < 2 ^ 31) :
    PageOf count skip (walked ++ region.hits 0) (Engine.pageRegion count skip state region) := by
  have length : (region.hits 0).length = region.slides.length := by simp [ResultRegion.hits]
  have size : int32 region.slides.length = region.slides.length := by
    simp only [List.length_append] at few
    apply Int.bmod_eq_of_le <;> omega
  unfold Engine.pageRegion
  simp only [size]
  split
  · rename_i before
    rw [page.index] at before
    rw [← length]
    exact page.skipped _ (by omega)
  · rw [Int.toNat_natCast, List.take_of_length_le (by simp)]
    exact page.entries region apart

theorem regions (page : PageOf count skip walked state) {regions : List ResultRegion}
    (apart : ((walked ++ regions.flatMap (·.hits 0)).map Prod.fst).Nodup)
    (few : (walked ++ regions.flatMap (·.hits 0)).length < 2 ^ 31) :
    PageOf count skip (walked ++ regions.flatMap (·.hits 0))
      (regions.foldl (Engine.pageRegion count skip) state) := by
  induction regions generalizing walked state with
  | nil => simpa using page
  | cons next rest ih =>
      rw [List.flatMap_cons, ← List.append_assoc] at apart few ⊢
      rw [List.foldl_cons]
      refine ih (page.region next ?_ ?_) apart few
      · rw [List.map_append] at apart
        exact (List.nodup_append.mp apart).1
      · rw [List.length_append] at few
        omega

end PageOf

namespace Engine
variable {e : Engine} {count : Nat}

/-- The call `getResultsAndTypes(count, k * count)`. -/
def page (e : Engine) (count k : Nat) : Std.TreeMap Nat Int :=
  e.getResultsAndTypes count ((k * count : Nat) : Int)

theorem page_of (apart : ((e.result.hits 0).map Prod.fst).Nodup)
    (few : (e.result.hits 0).length < 2 ^ 31) (count k : Nat) :
    ∃ index, PageOf count (k * count) (e.result.hits 0) (index, e.page count k) :=
  ⟨_, PageOf.regions PageOf.start apart few⟩

theorem getResultsCount_eq (complete : e.result.invariantHolds = true) (fallback : Int) :
    e.getResultsCount = (e.result.hits fallback).length := by
  have shape := (Result.invariantHolds_iff.mp complete).1
  have counted : e.getResultsCount = Result.slideCount (e.result.allRegions.map some) := by
    exact congrArg Result.resultCount shape
  rw [counted, Result.hits, Result.slideCount, List.length_flatMap]
  simp [ResultRegion.hits, Function.comp_def]

/-- The pages of `count` results each, taken one behind the other. -/
structure Paged (e : Engine) (count : Nat) : Prop where
  exact : ∀ k address type, (e.page count k)[address]? = some type ↔
    ∃ i, k * count ≤ i ∧ i < k * count + count ∧ (e.result.hits 0)[i]? = some (address, type)
  apart : ∀ j k, j ≠ k → ∀ address, address ∈ e.page count j → address ∉ e.page count k
  whole : ∀ hit ∈ e.result.hits 0, ∃ k, k * count < 2 ^ 31 ∧ (e.page count k)[hit.1]? = some hit.2
  empty : ∀ k, (e.page count k).isEmpty = true ↔ e.getResultsCount ≤ k * count
  total : ∀ pages, e.getResultsCount ≤ pages * count →
    ((List.range pages).map fun k => (e.page count k).size).sum = e.getResultsCount

theorem sum_page_size {size : Nat → Nat} {length : Nat}
    (each : ∀ k, size k = min length (k * count + count) - k * count) (pages : Nat) :
    ((List.range pages).map size).sum = min length (pages * count) := by
  induction pages with
  | zero => simp
  | succ pages ih =>
      rw [List.range_succ, List.map_append, List.sum_append, ih, List.map_singleton, List.sum_singleton,
        each, Nat.succ_mul]
      omega

theorem results_paged (complete : e.result.invariantHolds = true)
    (apart : ((e.result.hits 0).map Prod.fst).Nodup) (few : e.getResultsCount < 2 ^ 31)
    (positive : 1 ≤ count) : e.Paged count := by
  have length := getResultsCount_eq complete 0
  have paged := page_of apart (by rwa [← length]) count
  have exact (k address : Nat) (type : Int) := (paged k).choose_spec.lookup address type
  have size (k : Nat) := (paged k).choose_spec.size
  constructor
  · exact exact
  · intro j k distinct address first second
    obtain ⟨type, bound⟩ := Option.isSome_iff_exists.mp (Std.TreeMap.isSome_getElem?_iff_mem.mpr first)
    obtain ⟨type', bound'⟩ :=
      Option.isSome_iff_exists.mp (Std.TreeMap.isSome_getElem?_iff_mem.mpr second)
    obtain ⟨i, low, high, found⟩ := (exact j address type).mp bound
    obtain ⟨i', low', high', found'⟩ := (exact k address type').mp bound'
    -- One address stands at one position, and a position lies on one page.
    have same : i = i' := by
      have inside := (List.getElem?_eq_some_iff.mp found).1
      apply (List.getElem?_inj (by simpa using inside) apart).mp
      rw [List.getElem?_map, List.getElem?_map, found, found']
      rfl
    subst same
    apply distinct
    have (k : Nat) (low : k * count ≤ i) (high : i < k * count + count) : i / count = k := by
      apply Nat.div_eq_of_lt_le low
      rwa [Nat.succ_mul]
    rw [← this j low high, ← this k low' high']
  · intro hit member
    obtain ⟨i, inside, rfl⟩ := List.getElem_of_mem member
    have low : i / count * count ≤ i := Nat.div_mul_le_self i count
    refine ⟨i / count, by omega, (exact _ _ _).mpr ⟨i, low, ?_, List.getElem?_eq_getElem inside⟩⟩
    have := Nat.lt_div_mul_add (a := i) (b := count) positive
    omega
  · intro k
    rw [Std.TreeMap.isEmpty_eq_size_eq_zero, size, length, beq_iff_eq]
    omega
  · intro pages all
    rw [sum_page_size size pages, ← length]
    omega

/-- An untyped region and a typed one, with a page border inside the second. -/
def threeResults : Engine :=
  { fresh with result := .ofRegions [⟨4096, 4096, [8], []⟩, ⟨8192, 4096, [0, 16], [9, 1]⟩] }

theorem results_paged_threeResults : threeResults.Paged 2 :=
  results_paged (by decide) (by decide) (by decide) (by decide)

end Engine

end H5GG

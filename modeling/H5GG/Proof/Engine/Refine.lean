import H5GG.Proof.Engine.WellFormed
import H5GG.Proof.Engine.Exact

/-!
# Numeric refinement

`ScanAgainAny` rebuilds the regions that touch the range and leaves the others as they are.
-/

namespace H5GG

/-- The slides of a region that lie in the range, with a whole value in what is mapped of the
region, and match now. -/
def refined (t : Target) (tolerance : Nat) (range : AddrRange) (values : List JJSearchValue)
    (type : SearchType) (region : ResultRegion) : List Nat :=
  region.slides.filter fun slide =>
    slide + type.len ≤ t.loadedSize region.regionBase region.regionSize &&
      range.start ≤ region.address slide && region.address slide < range.stop &&
      jjSearchValueMatchesAny (t.bytesAt (region.address slide) type.len) values type tolerance

def refinedHits (t : Target) (e : Engine) (range : AddrRange) (values : List JJSearchValue)
    (type : SearchType) : List (Nat × Int) :=
  e.result.allRegions.flatMap fun region =>
    (refined t e.floatTolerance range values type region).map fun slide =>
      (region.address slide, type.code)

section
variable {t : Target} {range : AddrRange} {tolerance : Nat} {values : List JJSearchValue}
  {type : SearchType} {region : ResultRegion} {e : Engine}

theorem ResultRegion.WellFormed.address_eq (wellFormed : region.WellFormed) {slide : Nat}
    (member : slide ∈ region.slides) : region.address slide = region.regionBase + slide := by
  have := (wellFormed.inside slide member).1
  have := wellFormed.bounded
  exact u64_of_lt (by omega)

theorem scanAgainRegion_value (wellFormed : region.WellFormed) :
    (scanAgainRegion t tolerance range values type region).value =
      if refined t tolerance range values type region = [] then none
      else some ⟨region.regionBase, region.regionSize,
        refined t tolerance range values type region, []⟩ := by
  cases loaded : t.loadRegion region.regionBase region.regionSize with
  | none =>
      have empty : refined t tolerance range values type region = [] := by
        have positive := type.len_pos
        refine List.filter_eq_nil_iff.mpr fun slide _ => ?_
        simp only [Target.loadedSize, loaded, Bool.and_eq_true, decide_eq_true_eq, not_and]
        omega
      simp [scanAgainRegion, loaded, empty]
  | some buffer =>
      have kept : (region.slides.filter fun slide =>
          (slide + type.len ≤ buffer.size &&
            range.start ≤ region.address slide && region.address slide < range.stop) &&
              scanDataHit buffer values type tolerance slide) =
          refined t tolerance range values type region := by
        unfold refined
        refine List.filter_congr fun slide member => ?_
        rw [Target.loadedSize_of_some loaded]
        by_cases fits : slide + type.len ≤ buffer.size
        · rw [scanDataHit, Target.loadRegion_bytes loaded fits, wellFormed.address_eq member]
        · simp [fits]
      have narrow : (refined t tolerance range values type region).map u32 =
          refined t tolerance range values type region :=
        map_u32 fun slide member => (wellFormed.inside slide (List.mem_filter.mp member).1).2
      rw [scanAgainRegion_eq loaded]
      simp only [kept, narrow]

theorem address_of_inactive (wellFormed : region.WellFormed)
    (inactive : activeRegion range region = false) {slide : Nat} (member : slide ∈ region.slides) :
    ¬ (range.start ≤ region.address slide ∧ region.address slide < range.stop) := by
  have inside := (wellFormed.inside slide member).1
  have bounded := wellFormed.bounded
  rw [wellFormed.address_eq member]
  simp only [activeRegion, u64_of_lt bounded, Bool.not_eq_false', Bool.or_eq_true,
    decide_eq_true_eq] at inactive
  omega

theorem scanAgainAny_hits {type : Int} {searched : SearchType} (done : e.firstScanDone = true)
    (given : values ≠ []) (valid : SearchType.ofCode? type = some searched) :
    (e.jjScanMemoryAny t range values type).hits =
      e.result.allRegions.flatMap fun region =>
        (scanAgainKept t e.floatTolerance range values searched region).elim [] (·.hits type) := by
  simp only [Engine.jjScanMemoryAny, valid, if_neg given, done, ↓reduceIte, saveSnapshot_hits]
  rw [Engine.hits, scanAgainAny_eq, Result.hits_nonempty, Result.hits_filterMap]
  rfl

theorem scanAgainKept_hits (wellFormed : region.WellFormed)
    (active : activeRegion range region = true) :
    (scanAgainKept t tolerance range values type region).elim [] (·.hits type.code) =
      (refined t tolerance range values type region).map fun slide =>
        (region.address slide, type.code) := by
  rw [scanAgainKept, if_pos active, scanAgainRegion_value wellFormed]
  split_ifs with empty
  · rw [empty]
    rfl
  · rw [Option.elim_some, ResultRegion.hits_untyped rfl]
    rfl

/-- A numeric refinement is exact when and only when it rebuilds every region. -/
theorem refinement_exact_iff {type : Int} {searched : SearchType} (wellFormed : e.WellFormed)
    (done : e.firstScanDone = true) (given : values ≠ [])
    (valid : SearchType.ofCode? type = some searched) :
    (e.jjScanMemoryAny t range values type).hits = refinedHits t e range values searched ↔
      ∀ region ∈ e.result.allRegions, activeRegion range region = true := by
  rw [scanAgainAny_hits done given valid, ← SearchType.ofCode?_eq_some.mp valid]
  constructor
  · intro exact region member
    by_contra inactive
    rw [Bool.not_eq_true] at inactive
    have shape := wellFormed.regions region member
    obtain ⟨slide, found⟩ := List.exists_mem_of_ne_nil _ shape.found
    obtain ⟨kept, hit⟩ := ResultRegion.exists_mem_hits found searched.code
    have survives : (region.address slide, kept) ∈ refinedHits t e range values searched := by
      rw [← exact]
      refine List.mem_flatMap.mpr ⟨region, member, ?_⟩
      rw [scanAgainKept, inactive]
      exact hit
    obtain ⟨other, listed, kept_of⟩ := List.mem_flatMap.mp survives
    obtain ⟨slide', refined_of, same⟩ := List.mem_map.mp kept_of
    have inside := (List.mem_filter.mp refined_of).2
    rw [Prod.mk.injEq] at same
    simp only [Bool.and_eq_true, decide_eq_true_eq, same.1] at inside
    exact address_of_inactive shape inactive found ⟨inside.1.1.2, inside.1.2⟩
  · intro active
    exact List.flatMap_congr fun region member =>
      scanAgainKept_hits (wellFormed.regions region member) (active region member)

end

/-- Two pages, apart from each other. -/
def twoPages (byte : Nat → UInt8) : Target :=
  .ofMemory 0x4000 Target.page_pos byte
    (fun a => (0x100000000 ≤ a && a < 0x100004000) || (0x100008000 ≤ a && a < 0x10000c000))
    { entries := [(0x100000000, 0x4000), (0x100008000, 0x4000)]
      ascending := by simp
      bounded := by decide }

/-- Two zeros at the end of the first page, and one at the start of the second. -/
def scannedPages : Engine :=
  Engine.fresh.jjScanMemoryAny (twoPages fun _ => 0) ⟨0x100003ff8, 0x100008004⟩ [byteValue 0]
    SearchType.sInt.code

theorem wellFormed_scannedPages : scannedPages.WellFormed :=
  show (Engine.step (_, .scanMemoryAny _ _ _) Engine.fresh).WellFormed from
    wellFormed_step wellFormed_fresh trivial

/-- One of the three has changed. -/
theorem refinement_exact_zero :
    (scannedPages.jjScanMemoryAny (twoPages fun a => if a = 0x100003ffc then 1 else 0)
        ⟨0x100003ff8, 0x100008004⟩ [byteValue 0] SearchType.uByte.code).hits =
      refinedHits (twoPages fun a => if a = 0x100003ffc then 1 else 0) scannedPages
        ⟨0x100003ff8, 0x100008004⟩ [byteValue 0] .uByte :=
  (refinement_exact_iff wellFormed_scannedPages rfl (List.cons_ne_nil _ _) rfl).mpr (by decide +kernel)

example : (scannedPages.jjScanMemoryAny (twoPages fun a => if a = 0x100003ffc then 1 else 0)
    ⟨0x100003ff8, 0x100008004⟩ [byteValue 0] SearchType.uByte.code).hits =
      [(0x100003ff8, SearchType.uByte.code), (0x100008000, SearchType.uByte.code)] := by
  decide +kernel

/-- A refinement by a range behind the result keeps the result. -/
theorem refinement_not_exact :
    (scannedZero.jjScanMemoryAny (.onePage fun _ => 0) ⟨0x100000100, 0x100000104⟩
        [byteValue 0] SearchType.uByte.code).hits = [(0x100000000, SearchType.uByte.code)] ∧
      refinedHits (.onePage fun _ => 0) scannedZero ⟨0x100000100, 0x100000104⟩
        [byteValue 0] .uByte = [] := by
  decide +kernel

end H5GG

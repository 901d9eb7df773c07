import H5GG.Engine.Step

/-!
# What each pass computes

One lemma a function: the loops of the engine as filters over slides and positions.
-/

namespace H5GG

theorem scanRegionAny_none {t : Target} {tolerance : Nat} {range : AddrRange}
    {values : List JJSearchValue} {type : SearchType} {base size : Nat}
    (failed : t.loadRegion base size = none) :
    (scanRegionAny t tolerance range values type base size).value = none := by
  simp [scanRegionAny, failed]

/-- The offsets a first scan keeps: the hits among the stride positions, up to the first whose
reported address leaves the range. -/
theorem scanRegionAny_some {t : Target} {tolerance : Nat} {range : AddrRange}
    {values : List JJSearchValue} {type : SearchType} {base size : Nat} {buffer : Buffer}
    (loaded : t.loadRegion base size = some buffer) :
    (scanRegionAny t tolerance range values type base size).value =
      let kept := ((Stride.positions type.len 0 buffer.size).filter
        (scanDataHit buffer values type tolerance)).takeWhile fun offset =>
          range.start ≤ u64 (base + u32 offset) && u64 (base + u32 offset) < range.stop
      if kept = [] then none else some ⟨base, buffer.size, kept.map u32, []⟩ := by
  simp only [scanRegionAny, loaded]
  rw [Stride.collect_fst type.len_pos (by omega)]
  exact growAll_slides u32 _

theorem scanRegionAny_built {t : Target} {tolerance : Nat} {range : AddrRange}
    {values : List JJSearchValue} {type : SearchType} {base size : Nat} {region : ResultRegion}
    (scanned : (scanRegionAny t tolerance range values type base size).value = some region) :
    ∃ buffer, t.loadRegion base size = some buffer ∧
      region = ⟨base, buffer.size, (((Stride.positions type.len 0 buffer.size).filter
        (scanDataHit buffer values type tolerance)).takeWhile fun offset =>
          range.start ≤ u64 (base + u32 offset) && u64 (base + u32 offset) < range.stop).map u32,
        []⟩ := by
  cases loaded : t.loadRegion base size with
  | none => simp [scanRegionAny_none loaded] at scanned
  | some buffer =>
      rw [scanRegionAny_some loaded] at scanned
      dsimp only at scanned
      split_ifs at scanned
      exact ⟨buffer, rfl, (Option.some.inj scanned).symm⟩

theorem scanRegionAny_invariantHolds {t : Target} {tolerance : Nat} {range : AddrRange}
    {values : List JJSearchValue} {type : SearchType} {base size : Nat} {region : ResultRegion}
    (scanned : (scanRegionAny t tolerance range values type base size).value = some region) :
    region.invariantHolds = true := by
  obtain ⟨buffer, -, rfl⟩ := scanRegionAny_built scanned
  simp [ResultRegion.invariantHolds]

theorem scanHexRegion_eq {t : Target} {pattern : JJHexPattern} {base size : Nat}
    {buffer : Buffer} (loaded : t.loadRegion base size = some buffer) :
    (scanHexRegion t pattern base size).value =
      let found := (List.range (buffer.size + 1 - pattern.size)).filter fun offset =>
        jjHexPatternMatches (buffer.bytes offset pattern.size) pattern
      if found = [] then none
      else some ⟨base, size, found.map u32, found.map fun _ => SearchType.uByte.code⟩ := by
  have bound := Target.loadRegion_size_le loaded
  have offsets : (if pattern.size ≤ min buffer.size size then
      List.range (min buffer.size size - pattern.size + 1) else []) =
        List.range (buffer.size + 1 - pattern.size) := by
    rw [Nat.min_eq_left bound]
    split
    · congr 1
      omega
    · rw [show buffer.size + 1 - pattern.size = 0 by omega, List.range_zero]
  unfold scanHexRegion
  split
  · rename_i short
    rw [show buffer.size + 1 - pattern.size = 0 by omega]
    rfl
  · simp only [loaded, offsets]
    generalize (List.range (buffer.size + 1 - pattern.size)).filter _ = found
    have typed : ∀ entry ∈ found.map fun offset => (u32 offset, SearchType.uByte.code),
        entry.2 ≠ 0 := by
      intro entry member
      obtain ⟨offset, -, rfl⟩ := List.mem_map.mp member
      exact show SearchType.uByte.code ≠ 0 by decide
    rw [ResultRegion.appendAll_typed rfl typed]
    cases found <;> simp [Function.comp_def]

theorem scanHexRegion_built {t : Target} {pattern : JJHexPattern} {base size : Nat}
    {region : ResultRegion} (scanned : (scanHexRegion t pattern base size).value = some region) :
    ∃ buffer found, t.loadRegion base size = some buffer ∧
      found = ((List.range (buffer.size + 1 - pattern.size)).filter fun offset =>
        jjHexPatternMatches (buffer.bytes offset pattern.size) pattern) ∧
      region = ⟨base, size, found.map u32, found.map fun _ => SearchType.uByte.code⟩ := by
  cases loaded : t.loadRegion base size with
  | none =>
      simp only [scanHexRegion, loaded] at scanned
      split at scanned <;> cases scanned
  | some buffer =>
      rw [scanHexRegion_eq loaded] at scanned
      dsimp only at scanned
      split_ifs at scanned
      exact ⟨buffer, _, rfl, rfl, (Option.some.inj scanned).symm⟩

theorem scanHexRegion_invariantHolds {t : Target} {pattern : JJHexPattern} {base size : Nat}
    {region : ResultRegion} (scanned : (scanHexRegion t pattern base size).value = some region) :
    region.invariantHolds = true := by
  obtain ⟨buffer, found, -, -, rfl⟩ := scanHexRegion_built scanned
  simp [ResultRegion.invariantHolds]

theorem scanAgainRegion_eq {t : Target} {tolerance : Nat} {range : AddrRange}
    {values : List JJSearchValue} {type : SearchType} {region : ResultRegion} {buffer : Buffer}
    (loaded : t.loadRegion region.regionBase region.regionSize = some buffer) :
    (scanAgainRegion t tolerance range values type region).value =
      let kept := region.slides.filter fun slide =>
        (slide + type.len ≤ buffer.size &&
          range.start ≤ region.address slide && region.address slide < range.stop) &&
            scanDataHit buffer values type tolerance slide
      if kept = [] then none
      else some ⟨region.regionBase, region.regionSize, kept.map u32, []⟩ := by
  simp only [scanAgainRegion, loaded]
  rw [growAll_slides, List.filter_filter]
  simp only [Bool.and_comm]

theorem scanAgainRegion_built {t : Target} {tolerance : Nat} {range : AddrRange}
    {values : List JJSearchValue} {type : SearchType} {region built : ResultRegion}
    (scanned : (scanAgainRegion t tolerance range values type region).value = some built) :
    ∃ buffer, t.loadRegion region.regionBase region.regionSize = some buffer ∧
      built = ⟨region.regionBase, region.regionSize, (region.slides.filter fun slide =>
        (slide + type.len ≤ buffer.size &&
          range.start ≤ region.address slide && region.address slide < range.stop) &&
            scanDataHit buffer values type tolerance slide).map u32, []⟩ := by
  cases loaded : t.loadRegion region.regionBase region.regionSize with
  | none => simp [scanAgainRegion, loaded] at scanned
  | some buffer =>
      rw [scanAgainRegion_eq loaded] at scanned
      dsimp only at scanned
      split_ifs at scanned
      exact ⟨buffer, rfl, (Option.some.inj scanned).symm⟩

theorem scanAgainRegion_invariantHolds {t : Target} {tolerance : Nat} {range : AddrRange}
    {values : List JJSearchValue} {type : SearchType} {region built : ResultRegion}
    (scanned : (scanAgainRegion t tolerance range values type region).value = some built) :
    built.invariantHolds = true := by
  obtain ⟨buffer, -, rfl⟩ := scanAgainRegion_built scanned
  simp [ResultRegion.invariantHolds]

/-- What a numeric refinement leaves of a region: all of it when the range does not touch it. -/
def scanAgainKept (t : Target) (tolerance : Nat) (range : AddrRange) (values : List JJSearchValue)
    (type : SearchType) (region : ResultRegion) : Option ResultRegion :=
  if activeRegion range region then (scanAgainRegion t tolerance range values type region).value
  else some region

theorem scanAgainAny_eq {t : Target} {range : AddrRange} {values : List JJSearchValue}
    {type : SearchType} {e : Engine} :
    (e.scanAgainAny t range values type).result =
      Result.ofRegions ((e.result.allRegions.filterMap
        (scanAgainKept t e.floatTolerance range values type)).filter
          fun region => region.slides ≠ []) := by
  let rebuild := fun (_ : Nat) region =>
    (scanAgainRegion t e.floatTolerance range values type region).value
  have valid : ∀ i region r, rebuild i region = some r → r.invariantHolds = true :=
    fun _ _ _ => scanAgainRegion_invariantHolds
  have shape := Result.replace_active (activeRegion range) valid e.result _ rfl
  simp only [Engine.scanAgainAny]
  rw [Result.removeEmptyRegions_eq]
  congr 2
  have constant : (e.result.regions.mapIdx fun i region => region.bind fun region =>
      if activeRegion range region then rebuild i region else some region) =
        e.result.regions.map (·.bind (scanAgainKept t e.floatTolerance range values type)) :=
    List.mapIdx_eq_iff.mpr fun _ => List.getElem?_map
  rw [Result.allRegions, shape, constant]
  change List.filterMap id _ = List.filterMap _ (List.filterMap id e.result.regions)
  rw [List.filterMap_map, List.filterMap_filterMap]
  rfl

theorem changeRegion_eq {t : Target} {e : Engine} {change : ChangeType} {region : ResultRegion}
    {buffer : Buffer} (loaded : t.loadRegion region.regionBase region.regionSize = some buffer) :
    changeRegion t e change region =
      growAll region.regionBase region.regionSize
        (((region.typed e.lastNumberType).filter (changeKeeps t e.snapshot change region)).map
          fun entry => (entry.1, if region.hasTypes then entry.2 else 0)) := by
  simp only [changeRegion, loaded]
  exact foldl_grow_filter _ _ _

theorem changeRegion_built {t : Target} {e : Engine} {change : ChangeType}
    {region built : ResultRegion} (kept : changeRegion t e change region = some built) :
    growAll region.regionBase region.regionSize
      (((region.typed e.lastNumberType).filter (changeKeeps t e.snapshot change region)).map
        fun entry => (entry.1, if region.hasTypes then entry.2 else 0)) = some built := by
  cases loaded : t.loadRegion region.regionBase region.regionSize with
  | none => simp [changeRegion, loaded] at kept
  | some buffer => rwa [changeRegion_eq loaded] at kept

theorem changeRegion_invariantHolds {t : Target} {e : Engine} {change : ChangeType}
    {region built : ResultRegion} (kept : changeRegion t e change region = some built) :
    built.invariantHolds = true :=
  growAll_invariantHolds (changeRegion_built kept)

theorem jjRefineByChange_result {t : Target} {e : Engine} {change : ChangeType} :
    (e.jjRefineByChange t change).result =
      Result.ofRegions ((e.result.allRegions.filterMap (changeRegion t e change)).filter
        fun region => region.slides ≠ []) :=
  Result.replaceEach_eq (fun _ _ kept => changeRegion_invariantHolds kept) _

end H5GG

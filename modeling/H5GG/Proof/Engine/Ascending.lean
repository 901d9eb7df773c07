import H5GG.Proof.Engine.Nearby

/-!
# Ascending result sets

Regions below 4 GiB keep their slides in ascending order through every operation, as long as the
nearby searches among them are ordered.
-/

namespace H5GG

/-- The representation is complete, slides ascend, and no address occurs twice. -/
structure Engine.Ascending (e : Engine) : Prop where
  complete : e.result.invariantHolds = true
  sorted : ∀ region ∈ e.result.allRegions, region.slides.Pairwise (· < ·)
  distinct : (e.hits.map Prod.fst).Nodup

/-- Every nearby search of a loaded region is ordered. -/
def nearbyInOrder : Target × EngineOp → Engine → Prop
  | (t, .nearBySearch range target type), e => ∀ searched, SearchType.ofCode? type = some searched →
      ∀ region ∈ e.result.allRegions, ∀ buffer,
        t.loadRegion region.regionBase region.regionSize = some buffer →
          nearbyOrdered buffer region target searched e.floatTolerance
            (nearbyReach range searched.len)
  | _, _ => True

def narrowRegions (event : Target × EngineOp) : Prop :=
  ∀ region ∈ event.1.regions.entries, region.2 < 2 ^ 32

structure ResultRegion.Ascending (region : ResultRegion) : Prop where
  narrow : region.regionSize < 2 ^ 32
  sorted : region.slides.Pairwise (· < ·)

section
variable {t : Target} {e : Engine} {op : EngineOp}

theorem ascending_of_sublist {region built : ResultRegion} (ascending : region.Ascending)
    (size : built.regionSize = region.regionSize)
    (slides : built.slides.Sublist region.slides) : built.Ascending :=
  ⟨size ▸ ascending.narrow, ascending.sorted.sublist slides⟩

theorem scanAgainRegion_sublist {tolerance : Nat} {range : AddrRange} {values : List JJSearchValue}
    {type : SearchType} {region built : ResultRegion} (wellFormed : region.WellFormed)
    (kept : (scanAgainRegion t tolerance range values type region).value = some built) :
    built.slides.Sublist region.slides := by
  obtain ⟨buffer, -, rfl⟩ := scanAgainRegion_built kept
  dsimp only
  rw [map_u32 fun slide member => (wellFormed.inside slide (List.mem_filter.mp member).1).2]
  exact List.filter_sublist

theorem changeRegion_sublist {change : ChangeType} {region built : ResultRegion}
    (kept : changeRegion t e change region = some built) :
    built.slides.Sublist region.slides := by
  refine (growAll_some (changeRegion_built kept)).2.2.trans ?_
  rw [List.map_map, ← ResultRegion.typed_map_fst region e.lastNumberType]
  exact List.filter_sublist.map Prod.fst

theorem nearbyRegion_sorted {tolerance : Nat} {lastNumberType : Int} {range : Nat}
    {target : JJSearchValue} {type : SearchType} {region built : ResultRegion}
    (ascending : region.Ascending)
    (ordered : ∀ buffer, t.loadRegion region.regionBase region.regionSize = some buffer →
      nearbyOrdered buffer region target type tolerance (nearbyReach range type.len))
    (searched : (nearbyRegion t tolerance lastNumberType range target type region).value =
      some built) : built.slides.Pairwise (· < ·) := by
  obtain ⟨buffer, loaded, grown⟩ := nearbyRegion_built searched
  have slides := (growAll_some grown).2.2
  rw [List.map_map] at slides
  exact (nearbyPicks_sorted ascending.narrow ascending.sorted ascending.sorted
    (ordered buffer loaded)).sublist slides

theorem passed_ascending (wellFormed : e.WellFormed)
    (ascending : ∀ region ∈ e.result.allRegions, region.Ascending)
    (inOrder : nearbyInOrder (t, op) e) : ∀ region ∈ passed t e op, region.Ascending := by
  intro built member
  obtain ⟨region, listed, kept⟩ := List.mem_filterMap.mp (List.mem_filter.mp member).1
  have shape := wellFormed.regions region listed
  have old := ascending region listed
  have size := (passOver_rebuilds shape kept).size
  cases passOver_cases kept with
  | same unchanged => exact unchanged ▸ old
  | scanned _ kept => exact ascending_of_sublist old size (scanAgainRegion_sublist shape kept)
  | changed _ kept => exact ascending_of_sublist old size (changeRegion_sublist kept)
  | filtered kept =>
      refine ascending_of_sublist old size ?_
      rw [filterRegion_eq (SearchType.code_ne_zero _)] at kept
      rw [← Option.some.inj kept]
      exact List.filter_sublist
  | searched nearby built_of =>
      subst nearby
      exact ⟨size ▸ old.narrow, nearbyRegion_sorted old
        (inOrder _ (SearchType.ofCode?_code _) region listed) built_of⟩

theorem scannedRegions_ascending {range : AddrRange} {offsets : Nat × Nat → List Nat}
    {size : Nat × Nat → Nat} {types : List Nat → List Int}
    (narrow : ∀ region ∈ t.regions.entries, region.2 < 2 ^ 32)
    (sorted : ∀ part, (offsets part).Pairwise (· < ·))
    (inside : ∀ part, ∀ offset ∈ offsets part, offset < size part)
    (within : ∀ part, size part ≤ part.2) :
    ∀ region ∈ (parts t range).filterMap (scannedRegion offsets size types),
      region.Ascending := by
  intro region member
  obtain ⟨part, listed, scanned⟩ := List.mem_filterMap.mp member
  obtain ⟨entry, entry_listed, clipped⟩ := List.mem_filterMap.mp listed
  have bound := narrow entry entry_listed
  have clip := overlap_eq_some.mp clipped
  have := within part
  unfold scannedRegion at scanned
  split_ifs at scanned
  rw [← Option.some.inj scanned]
  refine ⟨by dsimp only; omega, ?_⟩
  dsimp only
  rw [map_u32]
  · exact sorted part
  · intro offset found
    have := inside part offset found
    omega

theorem firstRegions_ascending (narrow : narrowRegions (t, op)) :
    ∀ region ∈ firstRegions t e op, region.Ascending := by
  cases op with
  | scanMemoryAny range values type =>
      simp only [firstRegions]
      split
      · split_ifs
        · simp
        · exact scannedRegions_ascending narrow (fun _ => numericOffsets_sorted)
            (fun _ _ => numericOffsets_lt_loaded) fun part => loadedSize_le t part.1 part.2
      · simp
  | scanHexMemory range hexStr =>
      simp only [firstRegions]
      split
      · exact scannedRegions_ascending narrow (fun _ => hexOffsets_sorted)
          (fun _ _ => hexOffsets_lt) fun _ => le_rfl
      · simp
  | _ => simp [firstRegions]

theorem step_ascending (wellFormed : e.WellFormed)
    (ascending : ∀ region ∈ e.result.allRegions, region.Ascending) (promise : promisedRange (t, op))
    (narrow : narrowRegions (t, op)) (inOrder : nearbyInOrder (t, op) e) :
    ∀ region ∈ (Engine.step (t, op) e).result.allRegions, region.Ascending := by
  cases done : e.firstScanDone with
  | true =>
      rw [step_result wellFormed done, Result.allRegions_ofRegions]
      exact passed_ascending wellFormed ascending inOrder
  | false =>
      rw [firstStep_result wellFormed done promise, Result.allRegions_ofRegions]
      exact firstRegions_ascending narrow

theorem ascending_of_regions (wellFormed : e.WellFormed)
    (ascending : ∀ region ∈ e.result.allRegions, region.Ascending) : e.Ascending := by
  refine ⟨Result.invariantHolds_iff.mpr ⟨wellFormed.present, fun region member =>
    (wellFormed.regions region member).complete⟩, fun region member =>
      (ascending region member).sorted, ?_⟩
  have addresses : e.hits.map Prod.fst = Layout.addresses ResultRegion.regionBase
      ResultRegion.slides id e.result.allRegions := by
    rw [Engine.hits, Result.hits, List.map_flatMap, Layout.addresses]
    refine List.flatMap_congr fun region member => ?_
    have shape := wellFormed.regions region member
    have bounded := shape.bounded
    rw [ResultRegion.hits, List.map_map, ← ResultRegion.typed_map_fst region e.lastNumberType,
      List.map_map]
    refine List.map_congr_left fun entry typed => ?_
    have inside := (shape.inside _ (ResultRegion.mem_typed_slide typed)).1
    exact u64_of_lt (by omega)
  have ordered : Layout.Ordered ResultRegion.regionBase ResultRegion.regionSize
      ResultRegion.slides e.result.allRegions :=
    ⟨wellFormed.apart, fun region member => (ascending region member).sorted,
      fun region member slide listed =>
        ((wellFormed.regions region member).inside slide listed).1⟩
  rw [addresses]
  exact (Layout.addresses_sorted ordered).imp Nat.ne_of_lt

end

/-- Along a run whose nearby searches are ordered the result set stays ascending. -/
theorem run_ascending (events : List (Target × EngineOp))
    (admitted : Along Engine.step (fun event e =>
      promisedRange event ∧ narrowRegions event ∧ nearbyInOrder event e) events Engine.fresh) :
    Along Engine.step (fun event e => (Engine.step event e).Ascending) events Engine.fresh := by
  refine Along.of_invariant (fun e => e.WellFormed ∧ ∀ region ∈ e.result.allRegions,
    region.Ascending) ?_ ?_ ⟨wellFormed_fresh, by simp [Engine.fresh, Result.allRegions]⟩ admitted
  · rintro ⟨t, op⟩ e ⟨wellFormed, ascending⟩ ⟨promise, narrow, inOrder⟩
    exact ⟨wellFormed_step wellFormed promise,
      step_ascending wellFormed ascending promise narrow inOrder⟩
  · rintro ⟨t, op⟩ e ⟨wellFormed, ascending⟩ ⟨promise, narrow, inOrder⟩
    exact ascending_of_regions (wellFormed_step wellFormed promise)
      (step_ascending wellFormed ascending promise narrow inOrder)

def alternating : Target :=
  .onePage fun a => if a = 0x100000004 ∨ a = 0x10000000c then 1 else 0

/-- A first scan finds the zeros, and the search for zeros near them the same ones. -/
theorem run_ascending_alternating :
    Along Engine.step (fun event e => (Engine.step event e).Ascending)
      [(alternating, .scanMemoryAny ⟨0x100000000, 0x100000010⟩
          [⟨List.replicate 16 0, rfl⟩] SearchType.sInt.code),
        (alternating, .nearBySearch 4 ⟨List.replicate 16 0, rfl⟩ SearchType.sInt.code)]
      Engine.fresh := by
  have narrow : ∀ region ∈ alternating.regions.entries, region.2 < 2 ^ 32 := by
    decide
  refine run_ascending _ ⟨⟨trivial, narrow, trivial⟩, ⟨trivial, narrow, ?_⟩, trivial⟩
  intro searched known region member buffer loaded
  rw [SearchType.ofCode?_code] at known
  obtain rfl := Option.some.inj known
  have zeros : (Engine.step (alternating, .scanMemoryAny ⟨0x100000000, 0x100000010⟩
      [⟨List.replicate 16 0, rfl⟩] SearchType.sInt.code) Engine.fresh).result.allRegions =
        [⟨0x100000000, 16, [0, 8], []⟩] := by
    decide +kernel
  rw [zeros, List.mem_singleton] at member
  subst member
  have ordered : ∀ buffer ∈ alternating.loadRegion 0x100000000 16,
      nearbyOrdered buffer ⟨0x100000000, 16, [0, 8], []⟩ ⟨List.replicate 16 0, rfl⟩ .sInt
        Engine.fresh.floatTolerance (nearbyReach 4 4) := by
    decide +kernel
  exact ordered buffer loaded

/-- A first scan finds the zeros. The search for 0 to 1 near them carries the second zero over in
the window of the first one, and finds it again in its own. -/
theorem run_not_ascending :
    ¬ Along Engine.step (fun event e => (Engine.step event e).Ascending)
      [(alternating, .scanMemoryAny ⟨0x100000000, 0x100000010⟩
          [⟨List.replicate 16 0, rfl⟩] SearchType.sInt.code),
        (alternating, .nearBySearch 4
          ⟨[0, 0, 0, 0, 1, 0, 0, 0, 0, 0, 0, 0, 0, 0, 0, 0], rfl⟩ SearchType.sInt.code)]
      Engine.fresh := by
  rintro ⟨-, ascending, -⟩
  have sorted := ascending.sorted ⟨0x100000000, 0x10, [0, 4, 8, 8, 12], []⟩ (by decide +kernel)
  exact absurd sorted (by decide)

end H5GG

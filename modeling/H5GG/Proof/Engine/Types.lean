import H5GG.Proof.Engine.WellFormed

/-!
# Types of rebuilt regions
-/

namespace H5GG

/-- Only types of the table occur, and the last type is one when untyped results may need it. -/
structure KnownTypes (e : Engine) : Prop where
  regions : ∀ region ∈ e.result.allRegions, ∀ type ∈ region.types,
    ∃ known : SearchType, type = known.code
  fallback : e.firstScanDone = true → ∃ type : SearchType, type.code = e.lastNumberType

section
variable {t : Target} {e : Engine} {op : EngineOp} {region built : ResultRegion}

theorem int8_code (type : SearchType) : int8 type.code = type.code := by
  cases type <;> rfl

theorem scanAgainRegion_types {tolerance : Nat} {range : AddrRange} {values : List JJSearchValue}
    {type : SearchType}
    (kept : (scanAgainRegion t tolerance range values type region).value = some built) :
    built.types = [] := by
  obtain ⟨buffer, -, rfl⟩ := scanAgainRegion_built kept
  rfl

theorem filterRegion_types {type : Int} {pass : Nat → Bool} (typed : type ≠ 0)
    (filtered : filterRegion type pass region = some built) :
    built.types = built.slides.map fun _ => type := by
  rw [filterRegion_eq typed, Option.some.injEq] at filtered
  exact filtered ▸ rfl

theorem changeRegion_types {change : ChangeType} (complete : region.invariantHolds = true)
    (valid : ∀ type ∈ region.types, ∃ known : SearchType, type = known.code)
    (kept : changeRegion t e change region = some built) :
    region.types = [] ∧ built.types = [] ∨
      region.types ≠ [] ∧ built.types ≠ [] ∧ built.types ⊆ region.types := by
  replace kept := changeRegion_built kept
  by_cases untyped : region.types = []
  · refine .inl ⟨untyped, growAll_types_untyped kept fun entry member => ?_⟩
    obtain ⟨old, -, rfl⟩ := List.mem_map.mp member
    simp [ResultRegion.hasTypes, untyped]
  · have listed : ∀ entry ∈ region.typed e.lastNumberType, entry.2 ∈ region.types := by
      intro entry member
      rcases ResultRegion.mem_typed_type complete member with ⟨empty, -⟩ | listed
      · exact absurd empty untyped
      · exact listed
    have subset : ∀ type ∈ (((region.typed e.lastNumberType).filter
        (changeKeeps t e.snapshot change region)).map fun entry =>
          (entry.1, if region.hasTypes then entry.2 else 0)).map Prod.snd,
        type ∈ region.types := by
      intro type member
      simp only [List.map_map, List.mem_map, List.mem_filter, Function.comp_apply] at member
      obtain ⟨entry, ⟨typed, -⟩, rfl⟩ := member
      simpa [ResultRegion.hasTypes, untyped] using listed entry typed
    obtain ⟨some, types⟩ := growAll_types_typed kept fun entry member => by
      obtain ⟨known, code⟩ := valid _ (subset _ (List.mem_map_of_mem member))
      exact code ▸ known.code_ne_zero
    rw [types]
    exact .inr ⟨untyped, by simpa using some, subset⟩

/-- A nearby search leaves a region untyped only where it and the search agree on the type, and
otherwise uses the type searched for and the types that were there. -/
theorem nearbyRegion_types {tolerance : Nat} {lastNumberType : Int} {range : Nat}
    {target : JJSearchValue} {type : SearchType} (complete : region.invariantHolds = true)
    (valid : ∀ type ∈ region.types, ∃ known : SearchType, type = known.code)
    (last : region.types = [] → ∃ known : SearchType, lastNumberType = known.code)
    (searched : (nearbyRegion t tolerance lastNumberType range target type region).value =
      some built) :
    region.types = [] ∧ built.types = [] ∧ type.code = lastNumberType ∨
      built.types ≠ [] ∧ ∀ type ∈ built.types, ∃ known : SearchType, type = known.code := by
  obtain ⟨buffer, -, searched⟩ := nearbyRegion_built searched
  by_cases needType : (region.hasTypes || type.code ≠ lastNumberType) = true
  · simp only [needType, ↓reduceIte, Prod.mk.eta, List.map_id'] at searched
    have known : ∀ entry ∈ nearbyPicks buffer region target type tolerance
        (nearbyReach range type.len) lastNumberType region.slides 0 0,
        ∃ known : SearchType, entry.2 = known.code := by
      intro entry member
      rcases mem_nearbyPicks member with ⟨-, -, -, same⟩ | ⟨old, typed, -, same⟩
      · exact ⟨type, same⟩
      · obtain ⟨known, code⟩ : ∃ known : SearchType, old.2 = known.code := by
          rcases ResultRegion.mem_typed_type complete typed with ⟨untyped, fallback⟩ | listed
          · exact fallback ▸ last untyped
          · exact valid _ listed
        exact ⟨known, by rw [← same, code, int8_code]⟩
    obtain ⟨some, types⟩ := growAll_types_typed searched fun entry member => by
      obtain ⟨type, code⟩ := known entry member
      exact code ▸ type.code_ne_zero
    refine .inr ⟨by rw [types]; simpa using some, fun other member => ?_⟩
    rw [types] at member
    obtain ⟨entry, listed, rfl⟩ := List.mem_map.mp member
    exact known entry listed
  · have types := growAll_types_untyped searched fun entry member => by
      obtain ⟨pick, -, rfl⟩ := List.mem_map.mp member
      exact if_neg needType
    refine .inl ?_
    simpa [ResultRegion.hasTypes, types] using needType

theorem firstRegions_types : ∀ region ∈ firstRegions t e op,
    region.types = [] ∨ ∃ type : SearchType, ∀ other ∈ region.types, other = type.code := by
  intro region member
  cases op with
  | scanMemoryAny range values type =>
      simp only [firstRegions] at member
      split at member
      · split_ifs at member
        · simp at member
        · obtain ⟨part, -, scanned⟩ := List.mem_filterMap.mp member
          unfold numericRegion scannedRegion at scanned
          split_ifs at scanned
          exact .inl (Option.some.inj scanned ▸ rfl)
      · simp at member
  | scanHexMemory range hexStr =>
      simp only [firstRegions] at member
      split at member
      · obtain ⟨part, -, scanned⟩ := List.mem_filterMap.mp member
        unfold hexRegion scannedRegion at scanned
        split_ifs at scanned
        refine .inr ⟨.uByte, fun other listed => ?_⟩
        rw [← Option.some.inj scanned] at listed
        exact (List.mem_map.mp listed).choose_spec.2.symm
      · simp at member
  | _ => simp [firstRegions] at member

theorem step_fallback
    (fallback : e.firstScanDone = true → ∃ type : SearchType, type.code = e.lastNumberType)
    (promise : promised (t, op))
    (done : (Engine.step (t, op) e).firstScanDone = true) :
    ∃ type : SearchType, type.code = (Engine.step (t, op) e).lastNumberType := by
  cases op with
  | scanMemoryAny range values type =>
      simp only [Engine.step, Engine.jjScanMemoryAny] at done ⊢
      cases valid : SearchType.ofCode? type with
      | none =>
          simp only [valid] at done ⊢
          exact fallback done
      | some searched =>
          simp only [valid] at done ⊢
          split_ifs at done ⊢ with empty again
          · exact fallback done
          · exact ⟨searched, SearchType.ofCode?_eq_some.mp valid⟩
          · exact ⟨searched, SearchType.ofCode?_eq_some.mp valid⟩
  | scanHexMemory range hexStr =>
      simp only [Engine.step, Engine.jjScanHexMemory] at done ⊢
      split at done
      · exact fallback done
      · split_ifs
        · exact ⟨.uByte, rfl⟩
        · exact ⟨.uByte, rfl⟩
  | nearBySearch range target type =>
      simp only [Engine.step, Engine.jjNearBySearch] at done ⊢
      split at done <;> exact fallback done
  | filterResults valueStr type mode =>
      obtain ⟨searched, valid⟩ := Option.isSome_iff_exists.mp promise
      exact ⟨searched, SearchType.ofCode?_eq_some.mp valid⟩
  | _ => exact fallback done

theorem passed_known (wellFormed : e.WellFormed) (known : KnownTypes e)
    (done : e.firstScanDone = true) :
    ∀ region ∈ passed t e op, ∀ type ∈ region.types, ∃ known : SearchType, type = known.code := by
  intro built member type listed
  obtain ⟨region, old, kept⟩ := List.mem_filterMap.mp (List.mem_filter.mp member).1
  have complete := (wellFormed.regions region old).complete
  have valid := known.regions region old
  cases passOver_cases kept with
  | same unchanged => exact valid type (unchanged ▸ listed)
  | scanned _ kept => simp [scanAgainRegion_types kept] at listed
  | filtered kept =>
      rename_i searched _
      rw [filterRegion_types searched.code_ne_zero kept] at listed
      exact ⟨searched, (List.mem_map.mp listed).choose_spec.2.symm⟩
  | changed _ kept =>
      rcases changeRegion_types complete valid kept with ⟨-, untyped⟩ | ⟨-, -, subset⟩
      · simp [untyped] at listed
      · exact valid type (subset listed)
  | searched _ kept =>
      obtain ⟨last, same⟩ := known.fallback done
      rcases nearbyRegion_types complete valid (fun _ => ⟨last, same.symm⟩) kept with
        ⟨-, untyped, -⟩ | ⟨-, every⟩
      · simp [untyped] at listed
      · exact every type listed

theorem knownTypes_step (wellFormed : e.WellFormed) (known : KnownTypes e)
    (promise : promised (t, op)) : KnownTypes (Engine.step (t, op) e) := by
  refine ⟨?_, step_fallback known.fallback promise⟩
  cases done : e.firstScanDone with
  | true =>
      rw [step_result wellFormed done, Result.allRegions_ofRegions]
      exact passed_known wellFormed known done
  | false =>
      rw [firstStep_result wellFormed done promise.range, Result.allRegions_ofRegions]
      intro region member type listed
      rcases firstRegions_types region member with untyped | ⟨known, every⟩
      · simp [untyped] at listed
      · exact ⟨known, every type listed⟩

/-! ### What a search sets, and which regions are untyped behind an operation -/

theorem scanMemoryAny_sets {range : AddrRange} {values : List JJSearchValue} {type : SearchType}
    (given : values ≠ []) :
    (Engine.step (t, .scanMemoryAny range values type.code) e).firstScanDone = true ∧
      (Engine.step (t, .scanMemoryAny range values type.code) e).lastNumberType = type.code := by
  simp only [Engine.step, Engine.jjScanMemoryAny, SearchType.ofCode?_code, given, ↓reduceIte,
    saveSnapshot_firstScanDone, saveSnapshot_lastNumberType]
  split
  · rename_i done
    exact ⟨done, rfl⟩
  · exact ⟨rfl, rfl⟩

theorem scanHexMemory_sets {range : AddrRange} {hexStr : CString}
    (parsed : (jjParseMaskedHexPattern hexStr).isSome = true) :
    (Engine.step (t, .scanHexMemory range hexStr) e).firstScanDone = true ∧
      (Engine.step (t, .scanHexMemory range hexStr) e).lastNumberType =
        SearchType.uByte.code := by
  obtain ⟨pattern, given⟩ := Option.isSome_iff_exists.mp parsed
  simp only [Engine.step, Engine.jjScanHexMemory, given]
  split
  · rename_i done
    exact ⟨done, rfl⟩
  · exact ⟨rfl, rfl⟩

theorem nearBySearch_untyped {range : Nat} {target : JJSearchValue} {type : SearchType}
    (wellFormed : e.WellFormed) (known : KnownTypes e) (done : e.firstScanDone = true)
    (member : built ∈ (Engine.step (t, .nearBySearch range target type.code) e).result.allRegions)
    (untyped : built.types = []) : type.code = e.lastNumberType := by
  rw [step_result wellFormed done, Result.allRegions_ofRegions] at member
  obtain ⟨region, old, kept⟩ := List.mem_filterMap.mp (List.mem_filter.mp member).1
  simp only [passOver, SearchType.ofCode?_code] at kept
  obtain ⟨last, same⟩ := known.fallback done
  rcases nearbyRegion_types (wellFormed.regions region old).complete (known.regions region old)
    (fun _ => ⟨last, same.symm⟩) kept with ⟨-, -, agreed⟩ | ⟨typed, -⟩
  · exact agreed
  · exact absurd untyped typed

theorem filterResults_typed {valueStr : CString} {type : SearchType} {mode : Int}
    (wellFormed : e.WellFormed) (done : e.firstScanDone = true)
    (known : (FilterMode.ofCode? mode).isSome = true)
    (parsed : (jjParseValue valueStr type.code).isSome = true)
    (member : built ∈
      (Engine.step (t, .filterResults valueStr type.code mode) e).result.allRegions) :
    built.types ≠ [] := by
  rw [step_result wellFormed done, Result.allRegions_ofRegions] at member
  obtain ⟨kept, found⟩ := List.mem_filter.mp member
  obtain ⟨region, -, kept⟩ := List.mem_filterMap.mp kept
  obtain ⟨m, mode⟩ := Option.isSome_iff_exists.mp known
  obtain ⟨target, value⟩ := Option.isSome_iff_exists.mp parsed
  simp only [passOver, SearchType.ofCode?_code, mode, value] at kept
  rw [filterRegion_types type.code_ne_zero kept]
  simpa using found

theorem refineByChange_untyped {change : ChangeType} (wellFormed : e.WellFormed)
    (known : KnownTypes e) (done : e.firstScanDone = true)
    (member : built ∈ (Engine.step (t, .refineByChange change) e).result.allRegions)
    (untyped : built.types = []) : ∃ region ∈ e.result.allRegions, region.types = [] := by
  rw [step_result wellFormed done, Result.allRegions_ofRegions] at member
  obtain ⟨region, old, kept⟩ := List.mem_filterMap.mp (List.mem_filter.mp member).1
  rcases changeRegion_types (wellFormed.regions region old).complete (known.regions region old)
    kept with ⟨source, -⟩ | ⟨-, typed, -⟩
  · exact ⟨region, old, source⟩
  · exact absurd untyped typed

end

end H5GG

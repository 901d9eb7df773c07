import H5GG.Proof.Engine.FirstScan
import H5GG.Proof.Engine.Windows

/-!
# Well-formed result sets

An operation on an engine with results is one pass over its regions. A pass rebuilds a region in
its place, from slides that were found inside it.
-/

namespace H5GG

structure ResultRegion.WellFormed (region : ResultRegion) : Prop where
  complete : region.invariantHolds = true
  found : region.slides ≠ []
  inside : ∀ slide ∈ region.slides, slide < region.regionSize ∧ slide < 2 ^ 32
  bounded : region.regionBase + region.regionSize < 2 ^ 64

structure Engine.WellFormed (e : Engine) : Prop where
  present : e.result = Result.ofRegions e.result.allRegions
  regions : ∀ region ∈ e.result.allRegions, region.WellFormed
  apart : e.result.allRegions.Pairwise fun a b => a.regionBase + a.regionSize ≤ b.regionBase
  first : e.firstScanDone = false → e.result.allRegions = []

structure Rebuilds (region built : ResultRegion) : Prop where
  base : built.regionBase = region.regionBase
  size : built.regionSize = region.regionSize
  complete : built.invariantHolds = true
  inside : ∀ slide ∈ built.slides, slide < region.regionSize ∧ slide < 2 ^ 32

/-- What the only caller of a hex search checks. -/
def promisedRange : Target × EngineOp → Prop
  | (_, .scanHexMemory range _) => range.start < range.stop
  | _ => True

/-- What the callers check before they call the engine. -/
def promised : Target × EngineOp → Prop
  | (_, .scanHexMemory range _) => range.start < range.stop
  | (_, .filterResults _ type _) => (SearchType.ofCode? type).isSome = true
  | _ => True

theorem promised.range {event : Target × EngineOp} (promise : promised event) :
    promisedRange event := by
  obtain ⟨t, op⟩ := event
  cases op <;> first | exact promise | exact trivial

def hexPasses (t : Target) (range : AddrRange) (pattern : JJHexPattern) (address : Nat) : Bool :=
  range.start ≤ address && address < range.stop && pattern.size ≤ range.stop - address &&
    match t.reader.readExact address pattern.size with
    | some bytes => jjHexPatternMatches bytes pattern
    | none => false

def valuePasses (t : Target) (type : SearchType) (mode : FilterMode) (target : Bytes)
    (address : Nat) : Bool :=
  match t.reader.readExact address type.len with
  | some current => jjValueMatchesFilter current target type mode
  | none => false

/-- The pass that an operation makes over the regions of an engine with results. -/
def passOver (t : Target) (e : Engine) : EngineOp → ResultRegion → Option ResultRegion
  | .setFloatTolerance _ => some
  | .scanMemoryAny range values type =>
      match SearchType.ofCode? type with
      | some searched =>
          if values = [] then some else scanAgainKept t e.floatTolerance range values searched
      | none => some
  | .scanHexMemory range hexStr =>
      match jjParseMaskedHexPattern hexStr with
      | some pattern =>
          if pattern.nibbles = [] || range.stop ≤ range.start then some
          else filterRegion SearchType.uByte.code (hexPasses t range pattern)
      | none => some
  | .nearBySearch range target type =>
      match SearchType.ofCode? type with
      | some searched => fun region =>
          (nearbyRegion t e.floatTolerance e.lastNumberType range target searched region).value
      | none => some
  | .filterResults valueStr type mode =>
      match SearchType.ofCode? type, FilterMode.ofCode? mode, jjParseValue valueStr type with
      | some searched, some m, some target => filterRegion type (valuePasses t searched m target)
      | _, _, _ => some
  | .refineByChange change => changeRegion t e change

def passed (t : Target) (e : Engine) (op : EngineOp) : List ResultRegion :=
  (e.result.allRegions.filterMap (passOver t e op)).filter fun region => region.slides ≠ []

def firstRegions (t : Target) (e : Engine) : EngineOp → List ResultRegion
  | .scanMemoryAny range values type =>
      match SearchType.ofCode? type with
      | some searched =>
          if values = [] then []
          else (parts t range).filterMap (numericRegion t e.floatTolerance values searched)
      | none => []
  | .scanHexMemory range hexStr =>
      match jjParseMaskedHexPattern hexStr with
      | some pattern => (parts t range).filterMap (hexRegion t pattern)
      | none => []
  | _ => []

theorem parts_inverted {t : Target} {range : AddrRange} (inverted : range.stop ≤ range.start) :
    parts t range = [] := by
  refine List.eq_nil_iff_forall_not_mem.mpr fun part member => ?_
  have := parts_bounds member
  omega

section
variable {t : Target} {e : Engine} {op : EngineOp}

@[simp] theorem saveSnapshot_result : (e.saveSnapshot t).result = e.result := rfl
@[simp] theorem saveSnapshot_firstScanDone :
    (e.saveSnapshot t).firstScanDone = e.firstScanDone := rfl
@[simp] theorem saveSnapshot_lastNumberType :
    (e.saveSnapshot t).lastNumberType = e.lastNumberType := rfl

theorem filterRegion_invariantHolds {type : Int} {pass : Nat → Bool} (typed : type ≠ 0)
    {region built : ResultRegion} (filtered : filterRegion type pass region = some built) :
    built.invariantHolds = true := by
  rw [filterRegion_eq typed] at filtered
  simp only [Option.some.injEq] at filtered
  subst filtered
  simp [ResultRegion.invariantHolds]

theorem SearchType.code_ne_zero (type : SearchType) : type.code ≠ 0 := by
  have := type.code_bounds
  omega

theorem nearbyRegion_invariantHolds {tolerance : Nat} {lastNumberType : Int} {range : Nat}
    {target : JJSearchValue} {type : SearchType} {region built : ResultRegion}
    (searched : (nearbyRegion t tolerance lastNumberType range target type region).value =
      some built) : built.invariantHolds = true := by
  obtain ⟨buffer, -, searched⟩ := nearbyRegion_built searched
  exact growAll_invariantHolds searched

theorem Engine.WellFormed.keep_all (wellFormed : e.WellFormed) :
    Result.ofRegions ((e.result.allRegions.filterMap some).filter fun region =>
      region.slides ≠ []) = e.result := by
  have nonempty : (e.result.allRegions.filter fun region => region.slides ≠ []) =
      e.result.allRegions := by
    refine List.filter_eq_self.mpr fun region member => ?_
    simpa using (wellFormed.regions region member).found
  rw [List.filterMap_some, nonempty]
  exact wellFormed.present.symm

/-- Every operation on an engine whose first scan is done is one pass. -/
theorem step_result (wellFormed : e.WellFormed) (done : e.firstScanDone = true) :
    (Engine.step (t, op) e).result = Result.ofRegions (passed t e op) := by
  have kept := wellFormed.keep_all
  cases op with
  | setFloatTolerance bits => exact kept.symm
  | refineByChange change => exact jjRefineByChange_result
  | scanMemoryAny range values type =>
      simp only [Engine.step, Engine.jjScanMemoryAny, passed, passOver]
      cases SearchType.ofCode? type with
      | none => exact kept.symm
      | some searched =>
          by_cases given : values = []
          · simp only [given, ↓reduceIte]
            exact kept.symm
          · simp only [given, ↓reduceIte, done, saveSnapshot_result]
            exact scanAgainAny_eq
  | scanHexMemory range hexStr =>
      simp only [Engine.step, Engine.jjScanHexMemory, passed, passOver]
      cases jjParseMaskedHexPattern hexStr with
      | none => exact kept.symm
      | some pattern =>
          simp only [done, ↓reduceIte, saveSnapshot_result, jjFilterHexResultSet]
          split
          · exact kept.symm
          · exact Result.replaceEach_eq
              (fun _ _ => filterRegion_invariantHolds (SearchType.code_ne_zero _)) _
  | nearBySearch range target type =>
      simp only [Engine.step, Engine.jjNearBySearch, passed, passOver]
      cases SearchType.ofCode? type with
      | none => exact kept.symm
      | some searched => exact Result.replaceEach_eq (fun _ _ => nearbyRegion_invariantHolds) _
  | filterResults valueStr type mode =>
      simp only [Engine.step, Engine.jjFilterResults, passed, passOver, saveSnapshot_result,
        jjFilterResultSet]
      cases valid : SearchType.ofCode? type with
      | none => exact kept.symm
      | some searched =>
          cases FilterMode.ofCode? mode with
          | none => exact kept.symm
          | some m =>
              cases jjParseValue valueStr type with
              | none => exact kept.symm
              | some target =>
                  refine Result.replaceEach_eq (fun _ _ => filterRegion_invariantHolds ?_) _
                  exact SearchType.ofCode?_eq_some.mp valid ▸ searched.code_ne_zero

theorem Engine.WellFormed.empty (wellFormed : e.WellFormed) (first : e.firstScanDone = false) :
    e.result = {} := by
  rw [wellFormed.present, wellFormed.first first]
  rfl

theorem Engine.WellFormed.done (wellFormed : e.WellFormed) {region : ResultRegion}
    (member : region ∈ e.result.allRegions) : e.firstScanDone = true := by
  by_contra undone
  simp [wellFormed.first (Bool.eq_false_iff.mpr undone)] at member

/-- Before a first scan only the two scans find anything. -/
theorem firstStep_result (wellFormed : e.WellFormed) (first : e.firstScanDone = false)
    (promise : promisedRange (t, op)) :
    (Engine.step (t, op) e).result = Result.ofRegions (firstRegions t e op) := by
  have empty := wellFormed.empty first
  cases op with
  | setFloatTolerance bits => exact empty
  | refineByChange change =>
      refine jjRefineByChange_result.trans ?_
      rw [wellFormed.first first]
      rfl
  | scanMemoryAny range values type =>
      simp only [Engine.step, Engine.jjScanMemoryAny, firstRegions]
      cases SearchType.ofCode? type with
      | none => exact empty
      | some searched =>
          by_cases given : values = []
          · simp only [given, ↓reduceIte]
            exact empty
          · simp only [given, ↓reduceIte, first, Bool.false_eq_true, saveSnapshot_result]
            by_cases ordered : range.start < range.stop
            · exact firstScanAny_result (by exact empty) ordered
            · rw [firstScanAny_inverted (by exact empty) (by omega), parts_inverted (by omega)]
              rfl
  | scanHexMemory range hexStr =>
      simp only [Engine.step, Engine.jjScanHexMemory, firstRegions]
      cases jjParseMaskedHexPattern hexStr with
      | none => exact empty
      | some pattern =>
          simp only [first, Bool.false_eq_true, ↓reduceIte, saveSnapshot_result]
          exact firstScanHex_result empty promise
  | nearBySearch range target type =>
      simp only [Engine.step, Engine.jjNearBySearch]
      split
      · exact empty
      · refine (Result.replaceEach_eq (fun _ _ => nearbyRegion_invariantHolds) _).trans ?_
        rw [wellFormed.first first]
        rfl
  | filterResults valueStr type mode =>
      simp only [Engine.step, Engine.jjFilterResults, saveSnapshot_result, jjFilterResultSet]
      split
      · rename_i searched m target valid _ _
        refine (Result.replaceEach_eq (fun _ _ => filterRegion_invariantHolds ?_) _).trans ?_
        · exact SearchType.ofCode?_eq_some.mp valid ▸ searched.code_ne_zero
        · rw [wellFormed.first first]
          rfl
      · exact empty

/-! ### Every operation keeps a result set well formed -/

theorem ResultRegion.WellFormed.rebuilds_self {region : ResultRegion}
    (wellFormed : region.WellFormed) : Rebuilds region region where
  base := rfl
  size := rfl
  complete := wellFormed.complete
  inside := wellFormed.inside

theorem rebuilds_of_growAll {region built : ResultRegion} {entries : List (Nat × Int)}
    (grown : growAll region.regionBase region.regionSize entries = some built)
    (inside : ∀ entry ∈ entries, entry.1 < region.regionSize ∧ entry.1 < 2 ^ 32) :
    Rebuilds region built where
  base := (growAll_some grown).1
  size := (growAll_some grown).2.1
  complete := growAll_invariantHolds grown
  inside slide member := by
    obtain ⟨entry, listed, rfl⟩ := List.mem_map.mp ((growAll_some grown).2.2.subset member)
    exact inside entry listed

theorem filterRegion_rebuilds {type : Int} {pass : Nat → Bool} {region built : ResultRegion}
    (wellFormed : region.WellFormed) (typed : type ≠ 0)
    (filtered : filterRegion type pass region = some built) : Rebuilds region built := by
  have complete := filterRegion_invariantHolds typed filtered
  rw [filterRegion_eq typed, Option.some.injEq] at filtered
  subst filtered
  exact ⟨rfl, rfl, complete, fun slide member =>
    wellFormed.inside slide (List.mem_filter.mp member).1⟩

theorem scanAgainRegion_rebuilds {tolerance : Nat} {range : AddrRange}
    {values : List JJSearchValue} {type : SearchType} {region built : ResultRegion}
    (wellFormed : region.WellFormed)
    (kept : (scanAgainRegion t tolerance range values type region).value = some built) :
    Rebuilds region built := by
  have complete := scanAgainRegion_invariantHolds kept
  obtain ⟨buffer, -, rfl⟩ := scanAgainRegion_built kept
  refine ⟨rfl, rfl, complete, fun slide member => ?_⟩
  obtain ⟨slide, listed, rfl⟩ := List.mem_map.mp member
  have inside := wellFormed.inside slide (List.mem_filter.mp listed).1
  have narrow := u32_le slide
  exact ⟨by omega, u32_lt slide⟩

theorem changeRegion_rebuilds {change : ChangeType} {region built : ResultRegion}
    (wellFormed : region.WellFormed) (kept : changeRegion t e change region = some built) :
    Rebuilds region built := by
  refine rebuilds_of_growAll (changeRegion_built kept) fun entry member => ?_
  obtain ⟨old, listed, rfl⟩ := List.mem_map.mp member
  exact wellFormed.inside old.1 (ResultRegion.mem_typed_slide (List.mem_filter.mp listed).1)

theorem nearbyRegion_rebuilds {tolerance : Nat} {lastNumberType : Int} {range : Nat}
    {target : JJSearchValue} {type : SearchType} {region built : ResultRegion}
    (wellFormed : region.WellFormed)
    (searched : (nearbyRegion t tolerance lastNumberType range target type region).value =
      some built) : Rebuilds region built := by
  obtain ⟨buffer, -, searched⟩ := nearbyRegion_built searched
  refine rebuilds_of_growAll searched fun entry member => ?_
  obtain ⟨pick, listed, rfl⟩ := List.mem_map.mp member
  rcases mem_nearbyPicks listed with ⟨-, inside, narrow, -⟩ | ⟨old, carried, same, -⟩
  · exact ⟨inside, narrow⟩
  · exact same ▸ wellFormed.inside _ (ResultRegion.mem_typed_slide carried)

/-- What an operation does to a region that it does not drop. -/
inductive Passes (t : Target) (e : Engine) (op : EngineOp) (region built : ResultRegion) : Prop
  | same : built = region → Passes t e op region built
  | scanned {range values} {type : SearchType} : op = .scanMemoryAny range values type.code →
      (scanAgainRegion t e.floatTolerance range values type region).value = some built →
      Passes t e op region built
  | filtered {type : SearchType} {pass} : filterRegion type.code pass region = some built →
      Passes t e op region built
  | changed {change} : op = .refineByChange change → changeRegion t e change region = some built →
      Passes t e op region built
  | searched {range target} {type : SearchType} : op = .nearBySearch range target type.code →
      (nearbyRegion t e.floatTolerance e.lastNumberType range target type region).value =
        some built →
      Passes t e op region built

theorem passOver_cases {region built : ResultRegion} (kept : passOver t e op region = some built) :
    Passes t e op region built := by
  have same (unchanged : some region = some built) : Passes t e op region built :=
    .same (Option.some.inj unchanged).symm
  cases op with
  | setFloatTolerance bits => exact same kept
  | refineByChange change => exact .changed rfl kept
  | scanMemoryAny range values type =>
      cases valid : SearchType.ofCode? type with
      | none => exact same (by simpa only [passOver, valid] using kept)
      | some searched =>
          obtain rfl := SearchType.ofCode?_eq_some.mp valid
          simp only [passOver, valid] at kept
          by_cases given : values = []
          · exact same (by simpa only [given, ↓reduceIte] using kept)
          · simp only [given, ↓reduceIte, scanAgainKept] at kept
            split at kept
            · exact .scanned rfl kept
            · exact same kept
  | scanHexMemory range hexStr =>
      cases parsed : jjParseMaskedHexPattern hexStr with
      | none => exact same (by simpa only [passOver, parsed] using kept)
      | some pattern =>
          simp only [passOver, parsed] at kept
          by_cases empty : (pattern.nibbles = [] || range.stop ≤ range.start) = true
          · exact same (by simpa only [empty, ↓reduceIte] using kept)
          · exact .filtered (by simpa only [empty, Bool.false_eq_true, ↓reduceIte] using kept)
  | nearBySearch range target type =>
      cases valid : SearchType.ofCode? type with
      | none => exact same (by simpa only [passOver, valid] using kept)
      | some searched =>
          obtain rfl := SearchType.ofCode?_eq_some.mp valid
          exact .searched rfl (by simpa only [passOver, valid] using kept)
  | filterResults valueStr type mode =>
      cases valid : SearchType.ofCode? type with
      | none => exact same (by simpa only [passOver, valid] using kept)
      | some searched =>
          obtain rfl := SearchType.ofCode?_eq_some.mp valid
          cases m : FilterMode.ofCode? mode with
          | none => exact same (by simpa only [passOver, valid, m] using kept)
          | some m' =>
              cases target : jjParseValue valueStr searched.code with
              | none => exact same (by simpa only [passOver, valid, m, target] using kept)
              | some target' =>
                  exact .filtered (by simpa only [passOver, valid, m, target] using kept)

theorem passOver_rebuilds {region built : ResultRegion} (wellFormed : region.WellFormed)
    (kept : passOver t e op region = some built) : Rebuilds region built := by
  cases passOver_cases kept with
  | same unchanged => exact unchanged ▸ wellFormed.rebuilds_self
  | scanned _ kept => exact scanAgainRegion_rebuilds wellFormed kept
  | filtered kept => exact filterRegion_rebuilds wellFormed (SearchType.code_ne_zero _) kept
  | changed _ kept => exact changeRegion_rebuilds wellFormed kept
  | searched _ kept => exact nearbyRegion_rebuilds wellFormed kept

theorem scannedRegions_wellFormed {range : AddrRange} {offsets : Nat × Nat → List Nat}
    {size : Nat × Nat → Nat} {types : List Nat → List Int}
    (complete : ∀ slides, types slides = [] ∨ (types slides).length = slides.length)
    (inside : ∀ part, ∀ offset ∈ offsets part, offset < size part)
    (within : ∀ part, size part ≤ part.2) :
    (∀ region ∈ (parts t range).filterMap (scannedRegion offsets size types),
      region.WellFormed) ∧
    ((parts t range).filterMap (scannedRegion offsets size types)).Pairwise
      fun a b => a.regionBase + a.regionSize ≤ b.regionBase := by
  constructor
  · intro region member
    obtain ⟨part, listed, scanned⟩ := List.mem_filterMap.mp member
    have bounds := parts_bounds listed
    have := within part
    unfold scannedRegion at scanned
    split_ifs at scanned with none_found
    rw [Option.some.injEq] at scanned
    subst scanned
    refine ⟨?_, by simpa using none_found, fun slide found => ?_, by dsimp only; omega⟩
    · rw [ResultRegion.invariantHolds_iff, List.length_map]
      exact complete _
    · obtain ⟨offset, matched, rfl⟩ := List.mem_map.mp found
      have := inside part offset matched
      have := u32_le offset
      exact ⟨by dsimp only; omega, u32_lt offset⟩
  · refine List.pairwise_filterMap.mpr (parts_apart.imp ?_)
    intro a b below regionA scannedA regionB scannedB
    have := within a
    unfold scannedRegion at scannedA scannedB
    split_ifs at scannedA scannedB
    rw [Option.some.injEq] at scannedA scannedB
    subst scannedA scannedB
    dsimp only
    omega

theorem numericRegions_wellFormed {tolerance : Nat} {values : List JJSearchValue}
    {type : SearchType} {range : AddrRange} :
    (∀ region ∈ (parts t range).filterMap (numericRegion t tolerance values type),
      region.WellFormed) ∧
    ((parts t range).filterMap (numericRegion t tolerance values type)).Pairwise
      fun a b => a.regionBase + a.regionSize ≤ b.regionBase :=
  scannedRegions_wellFormed (fun _ => .inl rfl) (fun _ _ => numericOffsets_lt_loaded)
    fun part => loadedSize_le t part.1 part.2

theorem hexRegions_wellFormed {pattern : JJHexPattern} {range : AddrRange} :
    (∀ region ∈ (parts t range).filterMap (hexRegion t pattern), region.WellFormed) ∧
    ((parts t range).filterMap (hexRegion t pattern)).Pairwise
      fun a b => a.regionBase + a.regionSize ≤ b.regionBase :=
  scannedRegions_wellFormed (fun _ => .inr (by simp)) (fun _ _ => hexOffsets_lt) fun _ => le_rfl

theorem firstRegions_wellFormed :
    (∀ region ∈ firstRegions t e op, region.WellFormed) ∧
      (firstRegions t e op).Pairwise fun a b => a.regionBase + a.regionSize ≤ b.regionBase := by
  cases op with
  | scanMemoryAny range values type =>
      simp only [firstRegions]
      split
      · split_ifs
        · simp
        · exact numericRegions_wellFormed
      · simp
  | scanHexMemory range hexStr =>
      simp only [firstRegions]
      split
      · exact hexRegions_wellFormed
      · simp
  | _ => simp [firstRegions]

theorem passed_wellFormed (wellFormed : e.WellFormed) :
    (∀ region ∈ passed t e op, region.WellFormed) ∧
      (passed t e op).Pairwise fun a b => a.regionBase + a.regionSize ≤ b.regionBase := by
  constructor
  · intro built member
    obtain ⟨kept, found⟩ := List.mem_filter.mp member
    obtain ⟨region, listed, rebuilt⟩ := List.mem_filterMap.mp kept
    have old := wellFormed.regions region listed
    have rebuilds := passOver_rebuilds old rebuilt
    refine ⟨rebuilds.complete, by simpa using found, ?_, ?_⟩
    · rw [rebuilds.size]
      exact rebuilds.inside
    · rw [rebuilds.base, rebuilds.size]
      exact old.bounded
  · refine (List.pairwise_filterMap.mpr (wellFormed.apart.imp_of_mem ?_)).filter _
    intro a b memberA memberB below builtA keptA builtB keptB
    have rebuiltA := passOver_rebuilds (wellFormed.regions a memberA) keptA
    have rebuiltB := passOver_rebuilds (wellFormed.regions b memberB) keptB
    rw [rebuiltA.base, rebuiltA.size, rebuiltB.base]
    exact below

theorem firstRegions_of_undone (undone : (Engine.step (t, op) e).firstScanDone = false) :
    firstRegions t e op = [] := by
  cases op with
  | scanMemoryAny range values type =>
      simp only [Engine.step, Engine.jjScanMemoryAny, firstRegions] at undone ⊢
      split at undone
      · rename_i invalid
        simp [invalid]
      · rename_i searched valid
        split_ifs at undone with empty done
        · simp [valid, empty]
        · simp [Engine.scanAgainAny, done] at undone
        · simp [Engine.firstScanAny] at undone
  | scanHexMemory range hexStr =>
      simp only [Engine.step, Engine.jjScanHexMemory, firstRegions] at undone ⊢
      split at undone
      · rename_i unparsed
        simp [unparsed]
      · split_ifs at undone with done
        · simp [done] at undone
        · simp at undone
  | _ => rfl

theorem step_firstScanDone (done : e.firstScanDone = true) :
    (Engine.step (t, op) e).firstScanDone = true := by
  cases op with
  | scanMemoryAny range values type =>
      simp only [Engine.step, Engine.jjScanMemoryAny]
      split
      · exact done
      · split_ifs
        · exact done
        · exact done
  | scanHexMemory range hexStr =>
      simp only [Engine.step, Engine.jjScanHexMemory]
      split
      · exact done
      · rw [if_pos done]
        exact done
  | nearBySearch range target type =>
      simp only [Engine.step, Engine.jjNearBySearch]
      split <;> exact done
  | _ => exact done

end

theorem wellFormed_of_result {e : Engine} {regions : List ResultRegion}
    (shape : e.result = Result.ofRegions regions) (each : ∀ region ∈ regions, region.WellFormed)
    (apart : regions.Pairwise fun a b => a.regionBase + a.regionSize ≤ b.regionBase)
    (first : e.firstScanDone = false → regions = []) : e.WellFormed := by
  have same : e.result.allRegions = regions := by rw [shape, Result.allRegions_ofRegions]
  exact ⟨by rw [same, shape], same ▸ each, same ▸ apart, fun undone => same ▸ first undone⟩

theorem wellFormed_fresh : Engine.fresh.WellFormed :=
  wellFormed_of_result (Eq.refl (Result.ofRegions [])) (by simp) .nil fun _ => rfl

theorem wellFormed_step {event : Target × EngineOp} {e : Engine} (wellFormed : e.WellFormed)
    (promise : promisedRange event) : (Engine.step event e).WellFormed := by
  obtain ⟨t, op⟩ := event
  cases done : e.firstScanDone with
  | true =>
      obtain ⟨each, apart⟩ := @passed_wellFormed t e op wellFormed
      refine wellFormed_of_result (step_result wellFormed done) each apart fun undone => ?_
      rw [step_firstScanDone done] at undone
      cases undone
  | false =>
      obtain ⟨each, apart⟩ := @firstRegions_wellFormed t e op
      exact wellFormed_of_result (firstStep_result wellFormed done promise) each apart
        firstRegions_of_undone

end H5GG

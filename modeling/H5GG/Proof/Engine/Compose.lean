import H5GG.Proof.Engine.Refine
import H5GG.Proof.Engine.Reject

/-!
# Composition of refinements

Over unchanged memory a search is a filter of stride positions: a first scan starts from all of
them and a refinement from those that are left.
-/

namespace H5GG

def valueAt (t : Target) (tolerance : Nat) (values : List JJSearchValue) (type : SearchType)
    (a : Nat) : Bool :=
  jjSearchValueMatchesAny (t.bytesAt a type.len) values type tolerance

def matchedOffsets (t : Target) (type : SearchType) (pass : Nat → Bool) (part : Nat × Nat) :
    List Nat :=
  (Stride.positions type.len 0 (t.loadedSize part.1 part.2)).filter fun offset =>
    pass (part.1 + offset)

def matchedRegion (t : Target) (type : SearchType) (pass : Nat → Bool) (part : Nat × Nat) :
    Option ResultRegion :=
  if matchedOffsets t type pass part = [] then none
  else some ⟨part.1, t.loadedSize part.1 part.2, matchedOffsets t type pass part, []⟩

def matchedHits (t : Target) (range : AddrRange) (type : SearchType) (pass : Nat → Bool) :
    List (Nat × Int) :=
  (parts t range).flatMap fun part =>
    (matchedOffsets t type pass part).map fun offset => (part.1 + offset, type.code)

/-- The state after searches for one type that left the positions that pass. -/
structure Searched (t : Target) (range : AddrRange) (type : SearchType) (pass : Nat → Bool)
    (e : Engine) : Prop where
  done : e.firstScanDone = true
  numberType : e.lastNumberType = type.code
  result : e.result = Result.ofRegions ((parts t range).filterMap (matchedRegion t type pass))
  current : snapshotCurrent t e

section
variable {t : Target} {range : AddrRange} {type : SearchType} {pass : Nat → Bool}
  {values : List JJSearchValue} {part : Nat × Nat} {e : Engine}

theorem parts_narrow (fits : ∀ region ∈ t.regions.entries, region.2 ≤ 2 ^ 32)
    (member : part ∈ parts t range) : part.2 ≤ 2 ^ 32 := by
  obtain ⟨region, listed, clipped⟩ := List.mem_filterMap.mp member
  have := fits region listed
  have := overlap_eq_some.mp clipped
  omega

theorem mem_matchedOffsets {offset : Nat} (member : offset ∈ matchedOffsets t type pass part) :
    offset + type.len ≤ t.loadedSize part.1 part.2 ∧ pass (part.1 + offset) = true := by
  obtain ⟨position, passes⟩ := List.mem_filter.mp member
  exact ⟨(Stride.positions_bounds type.len_pos position).2, passes⟩

theorem matchedOffsets_lt (fits : ∀ region ∈ t.regions.entries, region.2 ≤ 2 ^ 32)
    (member : part ∈ parts t range) {offset : Nat}
    (found : offset ∈ matchedOffsets t type pass part) : offset < 2 ^ 32 := by
  have := parts_narrow fits member
  have := loadedSize_le t part.1 part.2
  have := (mem_matchedOffsets found).1
  have := type.len_pos
  omega

theorem matchedRegion_wellFormed (fits : ∀ region ∈ t.regions.entries, region.2 ≤ 2 ^ 32)
    (member : part ∈ parts t range) (found : matchedOffsets t type pass part ≠ []) :
    (ResultRegion.mk part.1 (t.loadedSize part.1 part.2) (matchedOffsets t type pass part)
      []).WellFormed where
  complete := rfl
  found := found
  inside offset matched := by
    have := (mem_matchedOffsets matched).1
    have := type.len_pos
    exact ⟨by dsimp only; omega, matchedOffsets_lt fits member matched⟩
  bounded := by
    have := (parts_bounds member).2.2.2
    have := loadedSize_le t part.1 part.2
    dsimp only
    omega

theorem loadedSize_again (base size : Nat) :
    t.loadedSize base (t.loadedSize base size) = t.loadedSize base size := by
  cases loaded : t.loadRegion base size with
  | none =>
      have empty : t.loadedSize base size = 0 := by simp [Target.loadedSize, loaded]
      have := loadedSize_le t base 0
      rw [empty]
      omega
  | some buffer =>
      rw [Target.loadedSize_of_some loaded]
      exact Target.loadedSize_of_some (Target.loadRegion_again loaded)

theorem refined_matchedRegion {tolerance : Nat} (member : part ∈ parts t range)
    (shape : (ResultRegion.mk part.1 (t.loadedSize part.1 part.2)
      (matchedOffsets t type pass part) []).WellFormed) :
    refined t tolerance range values type
        ⟨part.1, t.loadedSize part.1 part.2, matchedOffsets t type pass part, []⟩ =
      matchedOffsets t type (fun a => pass a && valueAt t tolerance values type a) part := by
  obtain ⟨above, -, below, -⟩ := parts_bounds member
  have within := loadedSize_le t part.1 part.2
  have positive := type.len_pos
  have inRange : ∀ offset ∈ matchedOffsets t type pass part,
      (offset + type.len ≤ t.loadedSize part.1 (t.loadedSize part.1 part.2) &&
        range.start ≤ part.1 + offset && part.1 + offset < range.stop) = true := by
    intro offset matched
    have fits := (mem_matchedOffsets matched).1
    rw [loadedSize_again]
    simp only [Bool.and_eq_true, decide_eq_true_eq]
    omega
  unfold refined
  rw [List.filter_congr (q := fun offset => valueAt t tolerance values type (part.1 + offset))]
  · simp only [matchedOffsets, List.filter_filter, Bool.and_comm]
  · intro offset matched
    rw [shape.address_eq matched]
    simp only [inRange offset matched, Bool.true_and]
    rfl

theorem scanAgainKept_matchedRegion {tolerance : Nat}
    (fits : ∀ region ∈ t.regions.entries, region.2 ≤ 2 ^ 32) (member : part ∈ parts t range) :
    (matchedRegion t type pass part).bind (scanAgainKept t tolerance range values type) =
      matchedRegion t type (fun a => pass a && valueAt t tolerance values type a) part := by
  unfold matchedRegion
  by_cases empty : matchedOffsets t type pass part = []
  · have stays : matchedOffsets t type (fun a => pass a && valueAt t tolerance values type a)
        part = [] := by
      refine List.eq_nil_iff_forall_not_mem.mpr fun offset found => ?_
      obtain ⟨position, passes⟩ := List.mem_filter.mp found
      rw [Bool.and_eq_true] at passes
      have : offset ∈ matchedOffsets t type pass part := List.mem_filter.mpr ⟨position, passes.1⟩
      simp [empty] at this
    rw [if_pos empty, if_pos stays]
    rfl
  · have shape := matchedRegion_wellFormed fits member empty
    have active : activeRegion range
        ⟨part.1, t.loadedSize part.1 part.2, matchedOffsets t type pass part, []⟩ = true := by
      obtain ⟨above, positive, below, -⟩ := parts_bounds member
      have bounded := shape.bounded
      dsimp only at bounded
      simp only [activeRegion, u64_of_lt bounded, Bool.not_eq_eq_eq_not, Bool.not_true,
        Bool.or_eq_false_iff, decide_eq_false_iff_not]
      omega
    rw [if_neg empty, Option.bind_some, scanAgainKept, if_pos active, scanAgainRegion_value shape]
    simp only [refined_matchedRegion member shape]

theorem searched_refined (fits : ∀ region ∈ t.regions.entries, region.2 ≤ 2 ^ 32)
    (searched : Searched t range type pass e) (given : values ≠ []) :
    Searched t range type (fun a => pass a && valueAt t e.floatTolerance values type a)
      (e.jjScanMemoryAny t range values type.code) := by
  have step : e.jjScanMemoryAny t range values type.code = Engine.saveSnapshot t
      (Engine.scanAgainAny t range values type { e with lastNumberType := type.code }) := by
    simp only [Engine.jjScanMemoryAny, SearchType.ofCode?_code, if_neg given]
    rw [if_pos searched.done]
  rw [step]
  refine ⟨searched.done, rfl, ?_, snapshotCurrent_saveSnapshot⟩
  rw [saveSnapshot_result, scanAgainAny_eq]
  congr 1
  dsimp only
  rw [searched.result, Result.allRegions_ofRegions, List.filterMap_filterMap,
    List.filterMap_congr fun part member => scanAgainKept_matchedRegion fits member,
    List.filter_eq_self]
  intro region member
  obtain ⟨part, -, built⟩ := List.mem_filterMap.mp member
  unfold matchedRegion at built
  split_ifs at built with empty
  rw [Option.some.injEq] at built
  subst built
  simpa using empty

theorem searched_first (fits : ∀ region ∈ t.regions.entries, region.2 ≤ 2 ^ 32)
    (first : e.firstScanDone = false) (empty : e.result = {}) (given : values ≠ []) :
    Searched t range type (valueAt t e.floatTolerance values type)
      (e.jjScanMemoryAny t range values type.code) := by
  have step : e.jjScanMemoryAny t range values type.code = Engine.saveSnapshot t
      (Engine.firstScanAny t range values type { e with lastNumberType := type.code }) := by
    simp only [Engine.jjScanMemoryAny, SearchType.ofCode?_code, if_neg given]
    rw [if_neg (Bool.eq_false_iff.mp first)]
  rw [step]
  refine ⟨rfl, rfl, ?_, snapshotCurrent_saveSnapshot⟩
  rw [saveSnapshot_result]
  by_cases ordered : range.start < range.stop
  · rw [firstScanAny_result (by exact empty) ordered]
    congr 1
    refine List.filterMap_congr fun part member => ?_
    have wide : (numericOffsets t e.floatTolerance values type part).map u32 =
        matchedOffsets t type (valueAt t e.floatTolerance values type) part := by
      change (matchedOffsets t type (valueAt t e.floatTolerance values type) part).map u32 = _
      exact map_u32 fun offset found => matchedOffsets_lt fits member found
    rw [numericRegion, scannedRegion, wide]
    rfl
  · rw [firstScanAny_inverted (by exact empty) (by omega), parts_inverted (by omega)]
    rfl

theorem searched_hits (fits : ∀ region ∈ t.regions.entries, region.2 ≤ 2 ^ 32)
    (searched : Searched t range type pass e) : e.hits = matchedHits t range type pass := by
  rw [Engine.hits, searched.result, searched.numberType, Result.hits_filterMap]
  refine List.flatMap_congr fun part member => ?_
  unfold matchedRegion
  split_ifs with empty
  · rw [empty]
    rfl
  · have shape := matchedRegion_wellFormed fits member empty
    rw [Option.elim_some, ResultRegion.hits_untyped rfl]
    refine List.map_congr_left fun offset found => ?_
    rw [shape.address_eq found]

theorem matchedRegion_congr {pass' : Nat → Bool} (same : ∀ a, pass a = pass' a) :
    matchedRegion t type pass = matchedRegion t type pass' := by
  rw [funext same]

/-- A search that everything left has passed changes nothing. -/
theorem searched_again (fits : ∀ region ∈ t.regions.entries, region.2 ≤ 2 ^ 32)
    (searched : Searched t range type pass e) (given : values ≠ [])
    (passed : ∀ a, pass a = true → valueAt t e.floatTolerance values type a = true) :
    e.jjScanMemoryAny t range values type.code = e := by
  have after := searched_refined fits searched given
  have same : ∀ a, (pass a && valueAt t e.floatTolerance values type a) = pass a := by
    intro a
    cases passes : pass a with
    | false => rfl
    | true => rw [passed a passes]; rfl
  have results : (e.jjScanMemoryAny t range values type.code).result = e.result := by
    rw [after.result, searched.result, matchedRegion_congr same]
  have step : e.jjScanMemoryAny t range values type.code = Engine.saveSnapshot t
      { e with
        result := (e.jjScanMemoryAny t range values type.code).result
        lastNumberType := type.code } := by
    simp only [Engine.jjScanMemoryAny, SearchType.ofCode?_code, if_neg given, searched.done,
      ↓reduceIte, saveSnapshot_result]
    rfl
  rw [step, results]
  exact saveSnapshot_retype_eq_self.mpr ⟨searched.numberType.symm, searched.current⟩

/-! ### Hex searches -/

theorem hexOffsets_readable {pattern : JJHexPattern} {offset : Nat}
    (found : offset ∈ hexOffsets t pattern part) :
    t.reader.readExact (part.1 + offset) pattern.size =
      some (t.bytesAt (part.1 + offset) pattern.size) := by
  obtain ⟨fits, matched⟩ := mem_hexOffsets.mp found
  have positive := jjHexPatternMatches_size matched
  cases loaded : t.loadRegion part.1 part.2 with
  | none =>
      simp only [Target.loadedSize, loaded] at fits
      omega
  | some buffer =>
      rw [Target.loadedSize_of_some loaded] at fits
      refine Target.readExact_reader.mpr ⟨positive, fun i below => ?_, rfl⟩
      rw [Nat.add_assoc]
      exact Target.loadRegion_readable loaded (by omega)

theorem hexPasses_of_found {pattern : JJHexPattern} (member : part ∈ parts t range) {offset : Nat}
    (found : offset ∈ hexOffsets t pattern part) :
    hexPasses t range pattern (part.1 + offset) = true := by
  obtain ⟨above, -, below, -⟩ := parts_bounds member
  obtain ⟨fits, matched⟩ := mem_hexOffsets.mp found
  have within := loadedSize_le t part.1 part.2
  have positive := jjHexPatternMatches_size matched
  simp only [hexPasses, hexOffsets_readable found, Bool.and_eq_true, decide_eq_true_eq, matched,
    and_true]
  omega

theorem filterRegion_hex {pattern : JJHexPattern}
    (fits : ∀ region ∈ t.regions.entries, region.2 ≤ 2 ^ 32) (member : part ∈ parts t range)
    {region : ResultRegion} (scanned : hexRegion t pattern part = some region) :
    filterRegion SearchType.uByte.code (hexPasses t range pattern) region = some region := by
  have narrow : (hexOffsets t pattern part).map u32 = hexOffsets t pattern part := by
    refine map_u32 fun offset found => ?_
    have := parts_narrow fits member
    have := hexOffsets_lt found
    omega
  unfold hexRegion scannedRegion at scanned
  split_ifs at scanned
  rw [narrow, Option.some.injEq] at scanned
  subst scanned
  have wide := (parts_bounds member).2.2.2
  have kept : ((hexOffsets t pattern part).filter fun slide => slide ≤ 2 ^ 64 - 1 - part.1 &&
      hexPasses t range pattern (u64 (part.1 + slide))) = hexOffsets t pattern part := by
    refine List.filter_eq_self.mpr fun offset found => ?_
    have inside := hexOffsets_lt found
    rw [u64_of_lt (by omega), hexPasses_of_found member found]
    simp only [Bool.and_true, decide_eq_true_eq]
    omega
  rw [filterRegion_eq (SearchType.code_ne_zero _)]
  simp only [ResultRegion.address, kept]

theorem jjFilterHexResultSet_found {pattern : JJHexPattern}
    (fits : ∀ region ∈ t.regions.entries, region.2 ≤ 2 ^ 32) :
    (jjFilterHexResultSet (Result.ofRegions ((parts t range).filterMap (hexRegion t pattern)))
        pattern t.reader range.start range.stop).2 =
      Result.ofRegions ((parts t range).filterMap (hexRegion t pattern)) := by
  have passes : (parts t range).filterMap (fun part => (hexRegion t pattern part).bind
      (filterRegion SearchType.uByte.code (hexPasses t range pattern))) =
        (parts t range).filterMap (hexRegion t pattern) := by
    refine List.filterMap_congr fun part member => ?_
    cases built : hexRegion t pattern part with
    | none => rfl
    | some region => exact filterRegion_hex fits member built
  have found : ((parts t range).filterMap (hexRegion t pattern)).filter
      (fun region => region.slides ≠ []) = (parts t range).filterMap (hexRegion t pattern) :=
    List.filter_eq_self.mpr fun region member => by
      simpa using (hexRegions_wellFormed.1 region member).found
  rw [jjFilterHexResultSet]
  split
  · rfl
  · refine (Result.replaceEach_eq
      (fun _ _ => filterRegion_invariantHolds (SearchType.code_ne_zero _)) _).trans ?_
    rw [Result.allRegions_ofRegions, List.filterMap_filterMap]
    exact congrArg Result.ofRegions ((congrArg _ passes).trans found)

/-- A second hex search with the same pattern and range changes nothing. -/
theorem hexScan_again (fits : ∀ region ∈ t.regions.entries, region.2 ≤ 2 ^ 32)
    (first : e.firstScanDone = false) (empty : e.result = {}) (hexStr : CString) :
    (e.jjScanHexMemory t range hexStr).jjScanHexMemory t range hexStr =
      e.jjScanHexMemory t range hexStr := by
  cases parsed : jjParseMaskedHexPattern hexStr with
  | none => simp only [Engine.jjScanHexMemory, parsed]
  | some pattern =>
      obtain ⟨scanned, shape⟩ : ∃ scanned, e.jjScanHexMemory t range hexStr =
          Engine.saveSnapshot t scanned ∧ scanned.firstScanDone = true ∧
            scanned.lastNumberType = SearchType.uByte.code ∧
            (range.start < range.stop → scanned.result =
              Result.ofRegions ((parts t range).filterMap (hexRegion t pattern))) := by
        simp only [Engine.jjScanHexMemory, parsed]
        rw [if_neg (Bool.eq_false_iff.mp first)]
        exact ⟨_, rfl, rfl, rfl, firstScanHex_result empty⟩
      obtain ⟨scan, done, typed, result⟩ := shape
      rw [scan]
      have results : (jjFilterHexResultSet scanned.result pattern t.reader range.start
          range.stop).2 = scanned.result := by
        by_cases ordered : range.start < range.stop
        · rw [result ordered, jjFilterHexResultSet_found fits]
        · rw [jjFilterHexResultSet_rejected (by omega)]
      have again : (Engine.saveSnapshot t scanned).jjScanHexMemory t range hexStr =
          Engine.saveSnapshot t { Engine.saveSnapshot t scanned with
            lastNumberType := SearchType.uByte.code } := by
        simp only [Engine.jjScanHexMemory, parsed, saveSnapshot_result,
          saveSnapshot_firstScanDone, results]
        rw [if_pos done]
      rw [again]
      exact saveSnapshot_retype_eq_self.mpr ⟨typed.symm, snapshotCurrent_saveSnapshot⟩

/-! ### Sequences of searches -/

def searchAll (t : Target) (range : AddrRange) (type : SearchType)
    (searches : List (List JJSearchValue)) (e : Engine) : Engine :=
  searches.foldl (fun e values => e.jjScanMemoryAny t range values type.code) e

def valueAtAll (t : Target) (tolerance : Nat) (searches : List (List JJSearchValue))
    (type : SearchType) (a : Nat) : Bool :=
  searches.all fun values => valueAt t tolerance values type a

theorem jjScanMemoryAny_floatTolerance {type : Int} :
    (e.jjScanMemoryAny t range values type).floatTolerance = e.floatTolerance := by
  simp only [Engine.jjScanMemoryAny]
  split
  · rfl
  · split_ifs <;> rfl

theorem searchAll_floatTolerance (searches : List (List JJSearchValue)) :
    (searchAll t range type searches e).floatTolerance = e.floatTolerance := by
  induction searches generalizing e with
  | nil => rfl
  | cons values rest ih =>
      rw [searchAll, List.foldl_cons, ← searchAll, ih, jjScanMemoryAny_floatTolerance]

theorem searched_searchAll (fits : ∀ region ∈ t.regions.entries, region.2 ≤ 2 ^ 32)
    {tolerance : Nat} {before searches : List (List JJSearchValue)}
    (given : ∀ values ∈ searches, values ≠ []) (same : e.floatTolerance = tolerance)
    (searched : Searched t range type (valueAtAll t tolerance before type) e) :
    Searched t range type (valueAtAll t tolerance (before ++ searches) type)
      (searchAll t range type searches e) := by
  induction searches generalizing before e with
  | nil => simpa [searchAll] using searched
  | cons values rest ih =>
      have next := searched_refined fits searched (given values List.mem_cons_self)
      have pass : (fun a => valueAtAll t tolerance before type a &&
          valueAt t e.floatTolerance values type a) =
            valueAtAll t tolerance (before ++ [values]) type := by
        funext a
        simp [valueAtAll, same]
      rw [pass] at next
      have later := ih (fun v member => given v (List.mem_cons_of_mem _ member))
        (jjScanMemoryAny_floatTolerance.trans same) next
      rwa [List.append_assoc] at later

theorem searched_firstAll (fits : ∀ region ∈ t.regions.entries, region.2 ≤ 2 ^ 32)
    (first : e.firstScanDone = false) (empty : e.result = {})
    {searches : List (List JJSearchValue)} (some : searches ≠ [])
    (given : ∀ values ∈ searches, values ≠ []) :
    Searched t range type (valueAtAll t e.floatTolerance searches type)
      (searchAll t range type searches e) := by
  cases searches with
  | nil => exact absurd rfl some
  | cons values rest =>
      have started : Searched t range type _ _ :=
        searched_first fits first empty (given values List.mem_cons_self)
      have pass : valueAt t e.floatTolerance values type =
          valueAtAll t e.floatTolerance [values] type := by
        funext a
        simp [valueAtAll]
      rw [pass] at started
      exact searched_searchAll fits (fun v member => given v (List.mem_cons_of_mem _ member))
        jjScanMemoryAny_floatTolerance started

/-- Searches commute, and a search that was applied before changes nothing. -/
theorem searches_compose (range : AddrRange) (type : SearchType)
    (fits : ∀ region ∈ t.regions.entries, region.2 ≤ 2 ^ 32)
    (first : e.firstScanDone = false) (empty : e.result = {}) :
    (∀ a b : List JJSearchValue, a ≠ [] → b ≠ [] →
      ((e.jjScanMemoryAny t range a type.code).jjScanMemoryAny t range b type.code).hits =
          matchedHits t range type (valueAtAll t e.floatTolerance [a, b] type) ∧
        ((e.jjScanMemoryAny t range b type.code).jjScanMemoryAny t range a type.code).hits =
          matchedHits t range type (valueAtAll t e.floatTolerance [a, b] type)) ∧
    (∀ searches : List (List JJSearchValue), (∀ values ∈ searches, values ≠ []) →
      ∀ values ∈ searches, (searchAll t range type searches e).jjScanMemoryAny t range values
        type.code = searchAll t range type searches e) ∧
    ∀ hexStr, (e.jjScanHexMemory t range hexStr).jjScanHexMemory t range hexStr =
      e.jjScanHexMemory t range hexStr := by
  refine ⟨fun a b someA someB => ⟨?_, ?_⟩, fun searches given values member => ?_,
    hexScan_again fits first empty⟩
  · exact searched_hits fits (searched_firstAll fits first empty (List.cons_ne_nil a [b])
      (by simp [someA, someB]))
  · have both : valueAtAll t e.floatTolerance [a, b] type =
        valueAtAll t e.floatTolerance [b, a] type := by
      funext p
      simp [valueAtAll, Bool.and_comm]
    rw [both]
    exact searched_hits fits (searched_firstAll fits first empty (List.cons_ne_nil b [a])
      (by simp [someA, someB]))
  · have searched : Searched t range type _ _ :=
      searched_firstAll fits first empty (List.ne_nil_of_mem member) given
    refine searched_again fits searched (given values member) fun a passes => ?_
    rw [searchAll_floatTolerance]
    exact List.all_eq_true.mp passes values member

end

theorem searches_compose_zeros :
    ((Engine.fresh.jjScanMemoryAny (.onePage fun _ => 0) ⟨0x100000000, 0x100000008⟩
        [byteValue 0] SearchType.uByte.code).jjScanMemoryAny (.onePage fun _ => 0)
          ⟨0x100000000, 0x100000008⟩ [byteValue 0, byteValue 1] SearchType.uByte.code).hits =
      ((Engine.fresh.jjScanMemoryAny (.onePage fun _ => 0) ⟨0x100000000, 0x100000008⟩
        [byteValue 0, byteValue 1] SearchType.uByte.code).jjScanMemoryAny (.onePage fun _ => 0)
          ⟨0x100000000, 0x100000008⟩ [byteValue 0] SearchType.uByte.code).hits := by
  have fits : ∀ region ∈ (Target.onePage fun _ => 0).regions.entries, region.2 ≤ 2 ^ 32 := by
    decide
  have both := (searches_compose (e := Engine.fresh) ⟨0x100000000, 0x100000008⟩ .uByte fits rfl
    rfl).1 [byteValue 0] [byteValue 0, byteValue 1]
    (List.cons_ne_nil _ _) (List.cons_ne_nil _ _)
  exact both.1.trans both.2.symm

end H5GG

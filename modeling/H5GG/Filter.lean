import H5GG.Library.Questions
import H5GG.Results
import H5GG.Value.Output

/-!
# Result filters

`MemoryFilter.cpp`. Both filters rebuild every region from the results that pass, typed with the
filter's own type, and report the number left; a rejected call reports 0 and changes nothing.
-/

namespace H5GG

/-- The rebuilt region shared by the two filters: `filtered`, appended to where `pass` holds. -/
def filterRegion (type : Int) (pass : Nat → Bool) (region : ResultRegion) : Option ResultRegion :=
  some (region.slides.foldl
    (fun filtered slide =>
      if slide > 2 ^ 64 - 1 - region.regionBase then filtered
      else if pass (region.address slide) then filtered.append slide type
      else filtered)
    ⟨region.regionBase, region.regionSize, [], []⟩)

def jjFilterResultSet (results : Result) (value : CString) (type mode : Int)
    (reader : MemoryReader) : Nat × Result :=
  match SearchType.ofCode? type, FilterMode.ofCode? mode, jjParseValue value type with
  | some t, some m, some target =>
      let results := results.replaceEach (filterRegion type fun address =>
        match reader.readExact address t.len with
        | some current => jjValueMatchesFilter current target t m
        | none => false)
      (results.count, results)
  | _, _, _ => (0, results)

def jjFilterHexResultSet (results : Result) (pattern : JJHexPattern) (reader : MemoryReader)
    (rangeStart rangeEnd : Nat) : Nat × Result :=
  if pattern.nibbles = [] || rangeEnd ≤ rangeStart then (0, results)
  else
    let results := results.replaceEach (filterRegion SearchType.uByte.code fun address =>
      rangeStart ≤ address && address < rangeEnd && pattern.size ≤ rangeEnd - address &&
        match reader.readExact address pattern.size with
        | some bytes => jjHexPatternMatches bytes pattern
        | none => false)
    (results.count, results)

/-! ### Readers whose answers change -/

section
variable (reader : Nat → MemoryReader) (type : Int) (asks : Nat → Bool)
  (passes : MemoryReader → Nat → Bool)

/-- One turn of the inner loop, with the calls made of the reader. -/
def filterSlide (region : ResultRegion) (state : ResultRegion × Nat) (slide : Nat) :
    ResultRegion × Nat :=
  let (filtered, calls) := state
  if slide > 2 ^ 64 - 1 - region.regionBase then (filtered, calls)
  else
    let address := region.address slide
    if asks address then
      (if passes (reader calls) address then filtered.append slide type else filtered, calls + 1)
    else (filtered, calls)

/-- One turn of the outer loop. -/
def filterRegionAt (state : Result × Nat) (regionIndex : Nat) : Result × Nat :=
  let (results, calls) := state
  match results.regionAt regionIndex with
  | none => (results, calls)
  | some region =>
      let (filtered, calls) := region.slides.foldl (filterSlide reader type asks passes region)
        (⟨region.regionBase, region.regionSize, [], []⟩, calls)
      (results.replace regionIndex (some filtered), calls)

def filterRegions (results : Result) : Nat × Result :=
  let results := ((List.range results.regionCount).foldl
    (filterRegionAt reader type asks passes) (results, 0)).1.removeEmptyRegions
  (results.count, results)

end

/-- `JJFilterResultSet`, with a reader that answers each call differently. -/
def jjFilterResultSetCalls (results : Result) (value : Option CString) (type mode : Int)
    (reader : Nat → MemoryReader) : Nat × Result :=
  match SearchType.ofCode? type, FilterMode.ofCode? mode with
  | some t, some m =>
      let (parsed, target) := jjParseValueInto (List.replicate 8 0) 0 value type
      if parsed = false then (0, results)
      else filterRegions reader type (fun _ => true) (fun reader address =>
        match reader.readExact address t.len with
        | some current => jjValueMatchesFilter current target t m
        | none => false) results
  | _, _ => (0, results)

/-- `JJFilterHexResultSet`, with a reader that answers each call differently. -/
def jjFilterHexResultSetCalls (results : Result) (pattern : JJHexPattern)
    (reader : Nat → MemoryReader) (rangeStart rangeEnd : Nat) : Nat × Result :=
  if pattern.nibbles = [] || rangeEnd ≤ rangeStart then (0, results)
  else filterRegions reader SearchType.uByte.code
    (fun address => rangeStart ≤ address && address < rangeEnd && pattern.size ≤ rangeEnd - address)
    (fun reader address =>
      match reader.readExact address pattern.size with
      | some bytes => jjHexPatternMatches bytes pattern
      | none => false) results

theorem filterRegion_eq {type : Int} (typed : type ≠ 0) (pass : Nat → Bool)
    (region : ResultRegion) :
    filterRegion type pass region =
      let kept := region.slides.filter fun slide =>
        slide ≤ 2 ^ 64 - 1 - region.regionBase && pass (region.address slide)
      some ⟨region.regionBase, region.regionSize, kept, kept.map fun _ => type⟩ := by
  have shape (slides : List Nat) (start : ResultRegion)
      (same : start.types.length = start.slides.length) :
      slides.foldl (fun filtered slide =>
        if slide > 2 ^ 64 - 1 - region.regionBase then filtered
        else if pass (region.address slide) then filtered.append slide type
        else filtered) start =
      let kept := slides.filter fun slide =>
        slide ≤ 2 ^ 64 - 1 - region.regionBase && pass (region.address slide)
      { start with
        slides := start.slides ++ kept
        types := start.types ++ kept.map fun _ => type } := by
    induction slides generalizing start with
    | nil => simp
    | cons slide rest ih =>
        rw [List.foldl_cons, List.filter_cons]
        by_cases fits : slide ≤ 2 ^ 64 - 1 - region.regionBase
        · by_cases passes : pass (region.address slide) = true
          · rw [if_neg (by omega), if_pos passes, ResultRegion.append_typed same typed,
              ih _ (by simp [same]), if_pos (by rw [decide_eq_true fits, passes]; rfl)]
            simp only [List.append_assoc, List.singleton_append, List.map_cons]
          · rw [if_neg (by omega), if_neg passes, ih _ same, if_neg (by simp only [passes]; simp)]
        · rw [if_pos (by omega), ih _ same, if_neg (by rw [decide_eq_false fits]; simp)]
  rw [filterRegion, shape _ _ rfl]
  simp

end H5GG

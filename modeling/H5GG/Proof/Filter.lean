import H5GG.Filter
import H5GG.Proof.Value.Tokens

/-!
# Filters are exact

Each filter rebuilds the regions one after another in place. What is left is the filter of the list
of results, its questions numbered by the calls of the reader.
-/

namespace H5GG
open Questions

structure ResultEntry where
  regionBase : Nat
  regionSize : Nat
  slide : Nat
  deriving DecidableEq, Repr

/-- The address, which need not fit in 64 bits. -/
def ResultEntry.address (entry : ResultEntry) : Nat := entry.regionBase + entry.slide

def ResultRegion.entries (region : ResultRegion) : List ResultEntry :=
  region.slides.map fun slide => ⟨region.regionBase, region.regionSize, slide⟩

def Result.entries (result : Result) : List ResultEntry :=
  result.allRegions.flatMap (·.entries)

section
variable (reader : Nat → MemoryReader) (type : Int) (asks : Nat → Bool)
  (passes : MemoryReader → Nat → Bool)

/-- A result is asked for where its address fits and the filter wants it read. -/
def asksFor (entry : ResultEntry) : Bool := entry.address < 2 ^ 64 && asks entry.address

def passesAt (call : Nat) (entry : ResultEntry) : Bool := passes (reader call) entry.address

/-- The results that a filter leaves: the n-th one asked for is tested with the n-th answer. -/
def survivors (entries : List ResultEntry) : List ResultEntry :=
  kept (asksFor asks) (passesAt reader passes) 0 entries

/-! ### One region -/

section
variable {reader type asks passes} {region : ResultRegion}

theorem filterSlide_eq (bounded : region.regionBase < 2 ^ 64) (filtered : ResultRegion)
    (calls slide : Nat) :
    filterSlide reader type asks passes region (filtered, calls) slide =
      let entry : ResultEntry := ⟨region.regionBase, region.regionSize, slide⟩
      if asksFor asks entry then
        (if passesAt reader passes calls entry then filtered.append slide type else filtered,
          calls + 1)
      else (filtered, calls) := by
  unfold filterSlide asksFor passesAt ResultEntry.address
  dsimp only
  by_cases fits : region.regionBase + slide < 2 ^ 64
  · have address : region.address slide = region.regionBase + slide := u64_of_lt fits
    rw [if_neg (by omega), address, decide_eq_true fits, Bool.true_and]
  · rw [if_pos (by omega), decide_eq_false fits, Bool.false_and]
    rfl

theorem foldl_filterSlide (bounded : region.regionBase < 2 ^ 64) (typed : type ≠ 0)
    (slides : List Nat) (filtered : ResultRegion)
    (same : filtered.types.length = filtered.slides.length) (calls : Nat) :
    slides.foldl (filterSlide reader type asks passes region) (filtered, calls) =
      let entries := slides.map fun slide =>
        (⟨region.regionBase, region.regionSize, slide⟩ : ResultEntry)
      let left := (kept (asksFor asks) (passesAt reader passes) calls entries).map (·.slide)
      ({ filtered with
          slides := filtered.slides ++ left
          types := filtered.types ++ left.map fun _ => type },
        asked (asksFor asks) calls entries) := by
  induction slides generalizing filtered calls with
  | nil => simp
  | cons slide rest ih =>
      rw [List.foldl_cons, filterSlide_eq bounded, List.map_cons]
      dsimp only
      rw [kept_cons, asked_cons]
      split
      · split
        · rw [ResultRegion.append_typed same typed, ih _ (by simp [same])]
          simp only [List.append_assoc, List.singleton_append, List.map_cons]
        · rw [ih _ same]
          rfl
      · exact ih _ same calls

theorem filterRegionAt_eq (bounded : region.regionBase < 2 ^ 64) (typed : type ≠ 0)
    {results : Result} {regionIndex : Nat} (found : results.regionAt regionIndex = some region)
    (calls : Nat) :
    filterRegionAt reader type asks passes (results, calls) regionIndex =
      let left := (kept (asksFor asks) (passesAt reader passes) calls region.entries).map (·.slide)
      (results.replace regionIndex
          (some ⟨region.regionBase, region.regionSize, left, left.map fun _ => type⟩),
        asked (asksFor asks) calls region.entries) := by
  unfold filterRegionAt
  dsimp only
  rw [found]
  dsimp only
  rw [foldl_filterSlide bounded typed _ _ rfl]
  rfl

end

/-! ### All regions -/

/-- The regions that the outer loop puts in place of the old ones. -/
def rebuilt (calls : Nat) : List ResultRegion → List ResultRegion
  | [] => []
  | region :: rest =>
      let left := (kept (asksFor asks) (passesAt reader passes) calls region.entries).map (·.slide)
      ⟨region.regionBase, region.regionSize, left, left.map fun _ => type⟩ ::
        rebuilt (asked (asksFor asks) calls region.entries) rest

section
variable {reader type asks passes} {results : Result} {regions : List ResultRegion} {calls : Nat}

theorem foldl_filterRegionAt (typed : type ≠ 0) (done rest : List ResultRegion)
    (bases : ∀ region ∈ rest, region.regionBase < 2 ^ 64)
    (shape : results.regions = (done ++ rest).map some) (calls : Nat) :
    ((List.range' done.length rest.length).foldl (filterRegionAt reader type asks passes)
      (results, calls)).1.regions = (done ++ rebuilt reader type asks passes calls rest).map some := by
  induction rest generalizing done results calls with
  | nil => exact shape
  | cons region rest ih =>
      have found : results.regionAt done.length = some region := by
        simp [Result.regionAt, shape]
      rw [List.length_cons, List.range'_succ, List.foldl_cons,
        filterRegionAt_eq (bases region List.mem_cons_self) typed found]
      dsimp only
      generalize built : (⟨region.regionBase, region.regionSize, _, _⟩ : ResultRegion) = filtered
      have complete : filtered.invariantHolds = true := by
        rw [← built, ResultRegion.invariantHolds_iff]
        exact .inr (List.length_map _)
      have next : (results.replace done.length (some filtered)).regions =
          ((done ++ [filtered]) ++ rest).map some := by
        rw [Result.replace_accepted (by rintro r ⟨⟩; exact complete), shape]
        simp
      have length : (done ++ [filtered]).length = done.length + 1 := List.length_append
      rw [← length, ih (done ++ [filtered]) (fun r member => bases r (List.mem_cons_of_mem _ member))
        next, rebuilt, built, List.append_assoc]
      rfl

theorem filterRegions_eq (typed : type ≠ 0) (bases : ∀ region ∈ regions, region.regionBase < 2 ^ 64) :
    filterRegions reader type asks passes (.ofRegions regions) =
      let left := Result.ofRegions
        ((rebuilt reader type asks passes 0 regions).filter fun region => region.slides ≠ [])
      (left.count, left) := by
  have looped := @foldl_filterRegionAt reader type asks passes (.ofRegions regions) typed [] regions
    bases rfl 0
  have size : (Result.ofRegions regions).regionCount = regions.length := List.length_map _
  have all : ((rebuilt reader type asks passes 0 regions).map some).reduceOption =
      rebuilt reader type asks passes 0 regions := Result.allRegions_ofRegions _
  rw [List.length_nil, List.nil_append] at looped
  unfold filterRegions
  rw [size, List.range_eq_range']
  dsimp only
  rw [Result.removeEmptyRegions_eq, Result.allRegions, looped, all]

theorem entries_rebuilt (calls : Nat) (regions : List ResultRegion) :
    (rebuilt reader type asks passes calls regions).flatMap (·.entries) =
      kept (asksFor asks) (passesAt reader passes) calls (regions.flatMap (·.entries)) := by
  induction regions generalizing calls with
  | nil => rfl
  | cons region rest ih =>
      rw [rebuilt, List.flatMap_cons, List.flatMap_cons, kept_append, ← ih]
      congr 1
      unfold ResultRegion.entries
      rw [kept_map, List.map_map, List.map_map]
      rfl

theorem rebuilt_bases (calls : Nat) (regions : List ResultRegion) :
    (rebuilt reader type asks passes calls regions).map (fun r => (r.regionBase, r.regionSize)) =
      regions.map fun r => (r.regionBase, r.regionSize) := by
  induction regions generalizing calls with
  | nil => rfl
  | cons region rest ih =>
      rw [rebuilt, List.map_cons, List.map_cons, ih]

theorem rebuilt_types {region : ResultRegion}
    (member : region ∈ rebuilt reader type asks passes calls regions) :
    region.types = region.slides.map fun _ => type := by
  induction regions generalizing calls with
  | nil => cases member
  | cons first rest ih =>
      rcases List.mem_cons.mp member with rfl | later
      · rfl
      · exact ih later

theorem entries_nonempty (regions : List ResultRegion) :
    (regions.filter fun region => region.slides ≠ []).flatMap (·.entries) =
      regions.flatMap (·.entries) := by
  induction regions with
  | nil => rfl
  | cons region rest ih =>
      rw [List.filter_cons, List.flatMap_cons, ← ih]
      by_cases empty : region.slides = []
      · simp [empty, ResultRegion.entries]
      · simp [empty]

theorem slideCount_eq (regions : List ResultRegion) :
    Result.slideCount (regions.map some) = (regions.flatMap (·.entries)).length := by
  induction regions with
  | nil => rfl
  | cons region rest ih =>
      rw [List.flatMap_cons, List.length_append, ← ih]
      simp [Result.slideCount, ResultRegion.entries]

end

/-! ### The two filters -/

/-- What a filter returns and leaves, where `left` are the results that it should leave. -/
structure Filtered (before : Result) (left : List ResultEntry) (type : Int)
    (outcome : Nat × Result) : Prop where
  entries : outcome.2.entries = left
  ordered : left.Sublist before.entries
  regions : (outcome.2.allRegions.map fun r => (r.regionBase, r.regionSize)).Sublist
    (before.allRegions.map fun r => (r.regionBase, r.regionSize))
  nonempty : ∀ region ∈ outcome.2.allRegions, region.slides ≠ []
  typed : ∀ region ∈ outcome.2.allRegions, region.types = region.slides.map fun _ => type
  counted : outcome.1 = outcome.2.count ∧ outcome.1 = left.length
  holds : outcome.2.invariantHolds = true

section
variable {reader type asks passes} {results : Result}

theorem filterRegions_filtered (holds : results.invariantHolds = true)
    (bases : ∀ region ∈ results.allRegions, region.regionBase < 2 ^ 64) (typed : type ≠ 0) :
    Filtered results (survivors reader asks passes results.entries) type
      (filterRegions reader type asks passes results) := by
  have shape := (Result.invariantHolds_iff.mp holds).1
  have filtered := @filterRegions_eq reader type asks passes _ typed bases
  rw [← shape] at filtered
  rw [filtered]
  dsimp only
  have entries : (Result.ofRegions ((rebuilt reader type asks passes 0 results.allRegions).filter
      fun region => region.slides ≠ [])).entries =
        survivors reader asks passes results.entries := by
    rw [Result.entries, Result.allRegions_ofRegions, entries_nonempty, entries_rebuilt]
    rfl
  have member (region : ResultRegion) (inside : region ∈ (Result.ofRegions
      ((rebuilt reader type asks passes 0 results.allRegions).filter
        fun region => region.slides ≠ [])).allRegions) :
      region ∈ rebuilt reader type asks passes 0 results.allRegions ∧ region.slides ≠ [] := by
    rw [Result.allRegions_ofRegions] at inside
    simpa using List.mem_filter.mp inside
  constructor
  · exact entries
  · exact kept_sublist _
  · rw [Result.allRegions_ofRegions, ← rebuilt_bases 0 results.allRegions]
    exact List.filter_sublist.map _
  · exact fun region inside => (member region inside).2
  · exact fun region inside => rebuilt_types (member region inside).1
  · refine ⟨rfl, ?_⟩
    rw [← entries, Result.entries, Result.allRegions_ofRegions]
    exact slideCount_eq _
  · refine Result.invariantHolds_ofRegions.mpr fun region inside => ?_
    have types := rebuilt_types (List.mem_filter.mp inside).1
    rw [ResultRegion.invariantHolds_iff, types]
    exact .inr (List.length_map _)

end

end

section
variable {results : Result} (holds : results.invariantHolds = true)
  (bases : ∀ region ∈ results.allRegions, region.regionBase < 2 ^ 64)
include holds bases

theorem jjFilterResultSetCalls_filtered {type mode : Int} {t : SearchType} {m : FilterMode}
    {value : Option CString} {target : Bytes} (known : SearchType.ofCode? type = some t)
    (valid : FilterMode.ofCode? mode = some m)
    (parsed : jjParseValueInto (List.replicate 8 0) 0 value type = (true, target))
    (reader : Nat → MemoryReader) :
    Filtered results (survivors reader (fun _ => true) (fun reader address =>
      (reader.readExact address t.len).any fun current => jjValueMatchesFilter current target t m)
        results.entries) type (jjFilterResultSetCalls results value type mode reader) := by
  have typed : type ≠ 0 := by
    have bounds := t.code_bounds
    rw [SearchType.ofCode?_eq_some.mp known] at bounds
    omega
  have called : jjFilterResultSetCalls results value type mode reader =
      filterRegions reader type (fun _ => true) (fun reader address =>
        (reader.readExact address t.len).any fun current =>
          jjValueMatchesFilter current target t m) results := by
    simp only [jjFilterResultSetCalls, known, valid, parsed]
    refine congrArg (filterRegions reader type _ · results) ?_
    funext reader address
    cases reader.readExact address t.len <;> rfl
  rw [called]
  exact filterRegions_filtered holds bases typed

theorem jjFilterHexResultSetCalls_filtered {pattern : JJHexPattern} (some' : pattern.nibbles ≠ [])
    {rangeStart rangeEnd : Nat} (ordered : rangeStart < rangeEnd) (reader : Nat → MemoryReader) :
    Filtered results (survivors reader
      (fun address => rangeStart ≤ address ∧ address + pattern.size ≤ rangeEnd)
      (fun reader address => (reader.readExact address pattern.size).any fun bytes =>
        jjHexPatternMatches bytes pattern) results.entries) SearchType.uByte.code
      (jjFilterHexResultSetCalls results pattern reader rangeStart rangeEnd) := by
  have positive : 0 < pattern.size := List.length_pos_of_ne_nil some'
  have asks : (fun address => decide (rangeStart ≤ address ∧ address + pattern.size ≤ rangeEnd)) =
      fun address => decide (rangeStart ≤ address) && decide (address < rangeEnd) &&
        decide (pattern.size ≤ rangeEnd - address) := by
    funext address
    rw [← Bool.decide_and, ← Bool.decide_and]
    congr 1
    apply propext
    omega
  have called : jjFilterHexResultSetCalls results pattern reader rangeStart rangeEnd =
      filterRegions reader SearchType.uByte.code
        (fun address => rangeStart ≤ address ∧ address + pattern.size ≤ rangeEnd)
        (fun reader address => (reader.readExact address pattern.size).any fun bytes =>
          jjHexPatternMatches bytes pattern) results := by
    simp only [jjFilterHexResultSetCalls, some', not_le.mpr ordered, decide_false, Bool.or_self,
      Bool.false_eq_true, if_false]
    rw [asks]
    refine congrArg (filterRegions reader _ _ · results) ?_
    funext reader address
    cases reader.readExact address pattern.size <;> rfl
  rw [called]
  exact filterRegions_filtered holds bases (by decide)

/-- The filters leave exactly what passes, in its order, and a rejected call changes nothing. -/
theorem filters_exact (reader : Nat → MemoryReader) :
    (∀ (value : Option CString) (type mode : Int),
      (∀ t m target, SearchType.ofCode? type = some t → FilterMode.ofCode? mode = some m →
        jjParseValueInto (List.replicate 8 0) 0 value type = (true, target) →
        Filtered results (survivors reader (fun _ => true) (fun reader address =>
          (reader.readExact address t.len).any fun current =>
            jjValueMatchesFilter current target t m) results.entries) type
          (jjFilterResultSetCalls results value type mode reader)) ∧
      (SearchType.ofCode? type = none ∨ FilterMode.ofCode? mode = none ∨
          (jjParseValueInto (List.replicate 8 0) 0 value type).1 = false →
        jjFilterResultSetCalls results value type mode reader = (0, results))) ∧
    ∀ (pattern : JJHexPattern) (rangeStart rangeEnd : Nat),
      (pattern.nibbles ≠ [] → rangeStart < rangeEnd →
        Filtered results (survivors reader
          (fun address => rangeStart ≤ address ∧ address + pattern.size ≤ rangeEnd)
          (fun reader address => (reader.readExact address pattern.size).any fun bytes =>
            jjHexPatternMatches bytes pattern) results.entries) SearchType.uByte.code
          (jjFilterHexResultSetCalls results pattern reader rangeStart rangeEnd)) ∧
      (pattern.nibbles = [] ∨ rangeEnd ≤ rangeStart →
        jjFilterHexResultSetCalls results pattern reader rangeStart rangeEnd = (0, results)) := by
  refine ⟨fun value type mode => ⟨?_, ?_⟩, fun pattern rangeStart rangeEnd => ⟨?_, ?_⟩⟩
  · intro t m target known valid parsed
    exact jjFilterResultSetCalls_filtered holds bases known valid parsed reader
  · intro rejected
    unfold jjFilterResultSetCalls
    split
    · rename_i t m known valid
      have refused : (jjParseValueInto (List.replicate 8 0) 0 value type).1 = false := by
        simpa [known, valid] using rejected
      dsimp only
      rw [if_pos refused]
    · rfl
  · exact fun some' ordered => jjFilterHexResultSetCalls_filtered holds bases some' ordered reader
  · intro rejected
    rw [jjFilterHexResultSetCalls, if_pos]
    simpa using rejected

end

/-- An untyped region and a typed one. -/
def mixedResult : Result :=
  .ofRegions [⟨0x100000000, 16, [0, 4], []⟩, ⟨0x100000010, 16, [8], [10]⟩]

theorem filters_exact_mixed :
    Filtered mixedResult
      (survivors (fun _ => (Target.onePage fun _ => 0).reader) (fun _ => true) (fun reader address =>
        (reader.readExact address 1).any fun current =>
          jjValueMatchesFilter current (List.replicate 8 0) .uByte .equal) mixedResult.entries) 9
      (jjFilterResultSetCalls mixedResult (some [0x30]) 9 0
        fun _ => (Target.onePage fun _ => 0).reader) :=
  ((@filters_exact mixedResult (by decide) (by decide) _).1 (some [0x30]) 9 0).1 .uByte .equal
    (List.replicate 8 0) (by decide) (by decide) (by decide)

/-! ### One answer for every call -/

section
variable {type : Int} {asks : Nat → Bool} {passes : MemoryReader → Nat → Bool} {results : Result}

theorem rebuilt_constant (typed : type ≠ 0) (reader : MemoryReader) {regions : List ResultRegion}
    (bases : ∀ region ∈ regions, region.regionBase < 2 ^ 64) (calls : Nat) :
    rebuilt (fun _ => reader) type asks passes calls regions =
      regions.filterMap (filterRegion type fun address => asks address && passes reader address) := by
  induction regions generalizing calls with
  | nil => rfl
  | cons region rest ih =>
      have bounded := bases region List.mem_cons_self
      have tests (slide : Nat) :
          (asksFor asks ⟨region.regionBase, region.regionSize, slide⟩ &&
            passes reader (region.regionBase + slide)) =
          (decide (slide ≤ 2 ^ 64 - 1 - region.regionBase) &&
            (asks (region.address slide) && passes reader (region.address slide))) := by
        unfold asksFor ResultEntry.address
        by_cases fits : region.regionBase + slide < 2 ^ 64
        · have address : region.address slide = region.regionBase + slide := u64_of_lt fits
          rw [address, decide_eq_true fits, decide_eq_true (by omega), Bool.true_and, Bool.true_and]
        · rw [decide_eq_false fits, decide_eq_false (by omega)]
          rfl
      have left : (kept (asksFor asks) (passesAt (fun _ => reader) passes) calls
          region.entries).map (·.slide) = region.slides.filter fun slide =>
            decide (slide ≤ 2 ^ 64 - 1 - region.regionBase) &&
              (asks (region.address slide) && passes reader (region.address slide)) := by
        unfold ResultRegion.entries
        rw [kept_map, List.map_map]
        have constant := @kept_constant Nat
          (fun slide => asksFor asks ⟨region.regionBase, region.regionSize, slide⟩) calls
          (fun slide => passes reader (region.regionBase + slide)) region.slides
        refine (List.map_id _).trans (constant.trans (List.filter_congr fun slide _ => ?_))
        exact tests slide
      rw [rebuilt, List.filterMap_cons, filterRegion_eq typed,
        ih fun r member => bases r (List.mem_cons_of_mem _ member)]
      dsimp only
      rw [left]

theorem filterRegions_constant (holds : results.invariantHolds = true)
    (bases : ∀ region ∈ results.allRegions, region.regionBase < 2 ^ 64) (typed : type ≠ 0)
    (reader : MemoryReader) :
    filterRegions (fun _ => reader) type asks passes results =
      let left := results.replaceEach
        (filterRegion type fun address => asks address && passes reader address)
      (left.count, left) := by
  have shape := (Result.invariantHolds_iff.mp holds).1
  have filtered := @filterRegions_eq (fun _ => reader) type asks passes _ typed bases
  rw [← shape, rebuilt_constant typed reader bases] at filtered
  rw [filtered, Result.replaceEach_eq]
  intro region built kept
  rw [filterRegion_eq typed, Option.some.injEq] at kept
  rw [← kept, ResultRegion.invariantHolds_iff]
  exact .inr (List.length_map _)

theorem jjFilterResultSetCalls_constant (holds : results.invariantHolds = true)
    (bases : ∀ region ∈ results.allRegions, region.regionBase < 2 ^ 64) (value : CString)
    (type mode : Int) (reader : MemoryReader) :
    jjFilterResultSetCalls results (some value) type mode (fun _ => reader) =
      jjFilterResultSet results value type mode reader := by
  unfold jjFilterResultSetCalls jjFilterResultSet
  cases known : SearchType.ofCode? type with
  | none => rfl
  | some t =>
      cases FilterMode.ofCode? mode with
      | none => rfl
      | some m =>
          obtain rfl := SearchType.ofCode?_eq_some.mp known
          have typed : t.code ≠ 0 := by
            have bounds := t.code_bounds
            omega
          dsimp only
          rw [SearchExpression.parseInto_zeros]
          cases jjParseValue value t.code with
          | none => rfl
          | some target =>
              refine (filterRegions_constant holds bases typed reader).trans ?_
              simp only [Bool.true_and]
              rfl

theorem jjFilterHexResultSetCalls_constant (holds : results.invariantHolds = true)
    (bases : ∀ region ∈ results.allRegions, region.regionBase < 2 ^ 64) (pattern : JJHexPattern)
    (reader : MemoryReader) (rangeStart rangeEnd : Nat) :
    jjFilterHexResultSetCalls results pattern (fun _ => reader) rangeStart rangeEnd =
      jjFilterHexResultSet results pattern reader rangeStart rangeEnd := by
  unfold jjFilterHexResultSetCalls jjFilterHexResultSet
  split
  · rfl
  · exact filterRegions_constant holds bases (by decide) reader

end

end H5GG

import H5GG.Proof.Engine.Exact
import H5GG.Proof.Engine.Paging
import H5GG.Proof.Facade
import H5GG.Proof.Value.Format
import Mathlib.Data.List.Sort

/-!
# A search and the pages that show it
-/

namespace H5GG
open Validation

/-! ## Pages in order -/

/-- A page of results that ascend is a stretch of them. -/
theorem PageOf.toList_eq {count skip : Nat} {walked : List (Nat × Int)}
    {state : Int × Std.TreeMap Nat Int} (page : PageOf count skip walked state)
    (ascending : (walked.map Prod.fst).Pairwise (· < ·)) :
    state.2.toList = (walked.drop skip).take count := by
  have order : Std.Irrefl fun first second : Nat × Int => first.1 < second.1 :=
    ⟨fun _ => Nat.lt_irrefl _⟩
  have asymmetric : Std.Antisymm fun first second : Nat × Int => first.1 < second.1 :=
    ⟨fun _ _ below above => absurd (below.trans above) (Nat.lt_irrefl _)⟩
  apply List.Pairwise.eq_of_mem_iff (r := fun first second : Nat × Int => first.1 < second.1)
  · exact Std.TreeMap.ordered_keys_toList.imp fun below => Nat.compare_eq_lt.mp below
  · exact ((List.pairwise_map.mp ascending).drop).take
  · rintro ⟨address, type⟩
    rw [Std.TreeMap.mem_toList_iff_getElem?_eq_some, page.lookup, List.mem_iff_getElem?]
    constructor
    · rintro ⟨i, low, high, found⟩
      refine ⟨i - skip, ?_⟩
      rw [List.getElem?_take_of_lt (by omega), List.getElem?_drop, Nat.add_sub_cancel' low]
      exact found
    · rintro ⟨i, found⟩
      have inside := (List.getElem?_eq_some_iff.mp found).1
      rw [List.length_take] at inside
      rw [List.getElem?_take_of_lt (by omega), List.getElem?_drop] at found
      exact ⟨skip + i, by omega, by omega, found⟩

theorem mapM_congr {ε Input Output : Type} {f g : Input → Except ε Output} {inputs : List Input}
    (same : ∀ input ∈ inputs, f input = g input) : inputs.mapM f = inputs.mapM g := by
  induction inputs with
  | nil => rfl
  | cons input rest ih =>
      rw [List.forall_mem_cons] at same
      rw [List.mapM_cons, List.mapM_cons, same.1, ih same.2]

/-! ## Memory that was loaded -/

section
variable {t : Target}

theorem loadedSize_readable {base size i : Nat} (inside : i < t.loadedSize base size) :
    t.readable (base + i) = true := by
  cases loaded : t.loadRegion base size with
  | none =>
      rw [Target.loadedSize, loaded] at inside
      exact absurd inside (Nat.not_lt_zero i)
  | some buffer =>
      rw [Target.loadedSize_of_some loaded] at inside
      exact Target.loadRegion_readable loaded inside

variable {range : AddrRange} {tolerance : Nat} {values : List JJSearchValue} {type : SearchType}

/-- A value that was found is still there to be shown. -/
theorem numericMatch_read {part : Nat × Nat} {a : Nat}
    (found : numericMatch t tolerance values type part a) :
    t.reader.readValue a type.code = some (t.bytesAt a type.len) := by
  obtain ⟨⟨k, rfl⟩, fits, -⟩ := found
  rw [MemoryReader.readValue, SearchType.ofCode?_code]
  apply Target.readExact_reader.mpr
  refine ⟨type.len_pos, fun i low => ?_, rfl⟩
  have inside : k * type.len + i < t.loadedSize part.1 part.2 := by omega
  rw [Nat.add_assoc]
  exact loadedSize_readable inside

end

namespace MemorySession

/-- How one address is shown. -/
def shownAt (t : Target) (type : SearchType) (address : Nat) : Except Alert ResultDictionary := do
  let value ← formatValue ((t.bytesAt address type.len).rightpad 8 0) type.code
  return { address := hexAddress address, value, type := type.name }

section
variable {system : System} {session after : MemorySession}

/-- What a search that is accepted has read off its texts. -/
structure Accepted (value type memoryFrom memoryTo : Option NSString) (searched : SearchType)
    (values : List JJSearchValue) (range : AddrRange) : Prop where
  type : jjTypeFromName (NSString.utf8String type) = searched.code
  values : (NSString.utf8String value).bind (jjParseSearchExpression · searched.code) = some values
  range : parseRange memoryFrom memoryTo = some range

theorem searchNumber_accepted {value type memoryFrom memoryTo : Option NSString}
    (success : searchNumber system value type memoryFrom memoryTo session = .ok after) :
    ∃ searched values range, Accepted value type memoryFrom memoryTo searched values range ∧
      after = markSearchDone { session with
        engine := session.engine.jjScanMemoryAny system.memory range values searched.code }
        searched.code := by
  simp only [searchNumber, searchNumberRequest, bind_eq_ok, accept_eq_ok, require_eq_ok,
    decide_eq_true_eq, pure_eq_ok] at success
  obtain ⟨_, ⟨-, -, -, valid, values, parsed, -, -, range, bounds, -, -, rfl⟩, rfl⟩ := success
  obtain ⟨searched, code⟩ := jjTypeFromName_code _ valid
  rw [code] at parsed ⊢
  exact ⟨searched, values, range, ⟨code, parsed, bounds⟩, rfl⟩

/-- The addresses that a first search finds. -/
def foundAddresses (t : Target) (tolerance : Nat) (values : List JJSearchValue) (type : SearchType)
    (range : AddrRange) : List Nat :=
  (parts t range).flatMap fun part =>
    (numericOffsets t tolerance values type part).map fun offset => u64 (part.1 + u32 offset)

section
variable {e : Engine} {t : Target} {range : AddrRange} {values : List JJSearchValue}
  {searched : SearchType}

theorem firstScan_result (first : e.firstScanDone = false) (empty : e.result = {})
    (given : values ≠ []) (ordered : range.start < range.stop) :
    (e.jjScanMemoryAny t range values searched.code).result =
      .ofRegions ((parts t range).filterMap (numericRegion t e.floatTolerance values searched)) := by
  have known : SearchType.ofCode? searched.code = some searched := SearchType.ofCode?_code _
  simp only [Engine.jjScanMemoryAny, known, if_neg given, first, Bool.false_eq_true, ↓reduceIte,
    saveSnapshot_result]
  exact firstScanAny_result (by exact empty) ordered

variable (t searched) in
theorem firstScan_complete (first : e.firstScanDone = false) (empty : e.result = {})
    (given : values ≠ []) (ordered : range.start < range.stop) :
    (e.jjScanMemoryAny t range values searched.code).result.invariantHolds = true := by
  rw [firstScan_result first empty given ordered, Result.invariantHolds_ofRegions]
  intro region member
  obtain ⟨part, -, scanned⟩ := List.mem_filterMap.mp member
  unfold numericRegion scannedRegion at scanned
  split_ifs at scanned
  rw [← Option.some.inj scanned]
  rfl

theorem firstScan_hits (first : e.firstScanDone = false) (empty : e.result = {})
    (given : values ≠ []) (ordered : range.start < range.stop) (fallback : Int) :
    (e.jjScanMemoryAny t range values searched.code).result.hits fallback =
      (foundAddresses t e.floatTolerance values searched range).map fun a => (a, fallback) := by
  rw [firstScan_result first empty given ordered]
  refine (hits_scannedRegions (fun _ _ _ _ => typed_numeric) _).trans ?_
  simp only [foundAddresses, List.map_flatMap, List.map_map]
  rfl

variable (searched) in
/-- What a first scan finds in regions whose offsets fit a slide. -/
theorem foundAddresses_exact (first : e.firstScanDone = false) (empty : e.result = {})
    (given : values ≠ []) (ordered : range.start < range.stop)
    (narrow : ∀ region ∈ t.regions.entries, region.2 ≤ 2 ^ 32) :
    (foundAddresses t e.floatTolerance values searched range).Pairwise (· < ·) ∧
      ∀ a, a ∈ foundAddresses t e.floatTolerance values searched range ↔
        ∃ part ∈ parts t range, numericMatch t e.floatTolerance values searched part a := by
  have known : SearchType.ofCode? searched.code = some searched := SearchType.ofCode?_code _
  have shape : (e.jjScanMemoryAny t range values searched.code).hits =
      (foundAddresses t e.floatTolerance values searched range).map fun a => (a, searched.code) := by
    rw [jjScanMemoryAny_first first empty given known, if_pos ordered]
    simp only [foundAddresses, List.map_flatMap, List.map_map]
    rfl
  rw [← reportsExactly_map, ← shape, numericScan_exact_iff first empty given known]
  rintro part member a ⟨-, fits, -⟩
  obtain ⟨region, listed, clipped⟩ := List.mem_filterMap.mp member
  have bound := narrow region listed
  have clip := overlap_eq_some.mp clipped
  have within := loadedSize_le t part.1 part.2
  have positive := searched.len_pos
  omega

end

end

/-- A page of fives. -/
def fives : System where
  getpid := 1
  memory := .onePage fun _ => 5
  running _ := true
  taskForPid _ := (true, 9)

def searchFives : Except Alert MemorySession :=
  searchNumber fives (some (.ofAscii "5")) (some (.ofAscii "I8")) (some (.ofAscii "0x100000000"))
    (some (.ofAscii "0x100000002")) (create ⟨7, 9⟩)

end MemorySession

end H5GG

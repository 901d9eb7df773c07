import H5GG.Library.Arithmetic
import H5GG.Reader
import Mathlib.Data.List.Sort

/-!
# The pointer search

`PointerSearch.cpp`. Every sum, difference and product of the source goes through the arithmetic
that the search is given; `none` is a result which that arithmetic does not have, or a `while` that
has used up its fuel. A reader may answer every request differently, so there is one for each.
-/

namespace H5GG

structure JJPointerSearchRegion where
  base : Nat
  size : Nat
  bounded : base < 2 ^ 64 ∧ size < 2 ^ 64

structure JJPointerSearchOptions where
  maxResults : Nat := 4096
  maxScannedBytes : Nat := 512 * 1024 * 1024
  chunkBytes : Nat := 64 * 1024
  bounded : maxResults < 2 ^ 64 ∧ maxScannedBytes < 2 ^ 64 ∧ chunkBytes < 2 ^ 64 := by decide

/-- `std::sort` by `base`: regions with one base may come in any order. -/
structure RegionSort where
  sort : List JJPointerSearchRegion → List JJPointerSearchRegion
  perm : ∀ regions, (sort regions).Perm regions
  ascending : ∀ regions, (sort regions).Pairwise fun left right => left.base ≤ right.base

def pointerWidth : Nat := 8
def maximumChunkBytes : Nat := 1024 * 1024

/-- `std::numeric_limits<uint64_t>::max()`. -/
def maximumAddress : Nat := 2 ^ 64 - 1

/-- What a search has found, asked its reader for and scanned. It is full where it returns from
within its loops, with as many results as it may have. -/
structure PointerSearch where
  results : List (Nat × Nat) := []
  requests : List (Nat × Nat) := []
  scannedBytes : Nat := 0
  full : Bool := false
  deriving DecidableEq, Repr

section
variable (arithmetic : Arithmetic)

/-- The address rounded up, or `none` where the source returns false. -/
def alignPointerAddress (address : Nat) : Option (Option Nat) := do
  let mask := pointerWidth - 1
  if (← arithmetic.sub maximumAddress mask) < address then return none
  let sum ← arithmetic.add address mask
  return some (sum - sum % pointerWidth)

/-- `region.base + region.size`, or the maximum where the sum would wrap. -/
def regionLimit (region : JJPointerSearchRegion) : Option Nat := do
  let room ← arithmetic.sub maximumAddress region.base
  if room < region.size then return maximumAddress
  arithmetic.add region.base region.size

section
variable (targetAddress maxResults cursor : Nat) (bytes : Bytes)

/-- The loop over the pointers of one answer. -/
def collectPointers : List Nat → PointerSearch → Option PointerSearch
  | [], search => some search
  | index :: rest, search => do
      let offset ← arithmetic.mul index pointerWidth
      let value := Word.ofLittleEndian ((bytes.drop offset).take pointerWidth)
      if value = targetAddress then
        let address ← arithmetic.add cursor offset
        let search := { search with results := search.results ++ [(address, value)] }
        if maxResults ≤ search.results.length then return { search with full := true }
        else collectPointers rest search
      else collectPointers rest search

end

section
variable (targetAddress rangeStart rangeEnd : Nat) (reader : Nat → MemoryReader)
  (options : JJPointerSearchOptions) (chunkBytes : Nat)

/-- The `while` loop over one region. -/
def scanPointers (scanEnd : Nat) : Nat → Nat → PointerSearch → Option PointerSearch
  | 0, _, _ => none
  | fuel + 1, cursor, search =>
      if cursor < scanEnd ∧ search.scannedBytes < options.maxScannedBytes then do
        let available ← arithmetic.sub scanEnd cursor
        let budget ← arithmetic.sub options.maxScannedBytes search.scannedBytes
        let requestValue := min (min available chunkBytes) budget
        let requestValue ← arithmetic.sub requestValue (requestValue % pointerWidth)
        if requestValue < pointerWidth then return search
        let bytes := (reader search.requests.length).readBytes cursor requestValue
        let scannedBytes ← arithmetic.add search.scannedBytes requestValue
        let search ← collectPointers arithmetic targetAddress options.maxResults cursor bytes
          (List.range (bytes.length / pointerWidth))
          { search with requests := search.requests ++ [(cursor, requestValue)], scannedBytes }
        if search.full then return search
        let cursor ← arithmetic.add cursor requestValue
        scanPointers scanEnd fuel cursor search
      else some search

/-- The loop over the sorted regions. -/
def searchRegions (fuel : Nat) :
    List JJPointerSearchRegion → PointerSearch → Option PointerSearch
  | [], search => some search
  | region :: rest, search => do
      if region.size = 0 ∨ rangeEnd ≤ region.base then searchRegions fuel rest search
      else
        let regionEnd ← regionLimit arithmetic region
        if regionEnd ≤ rangeStart then searchRegions fuel rest search
        else
          match ← alignPointerAddress arithmetic (max region.base rangeStart) with
          | none => searchRegions fuel rest search
          | some cursor =>
              let search ← scanPointers arithmetic targetAddress reader options chunkBytes
                (min regionEnd rangeEnd) fuel cursor search
              if search.full ∨ options.maxScannedBytes ≤ search.scannedBytes then return search
              else searchRegions fuel rest search

end

def jjFindExactPointers (sorting : RegionSort) (fuel targetAddress rangeStart rangeEnd : Nat)
    (regions : List JJPointerSearchRegion) (reader : Nat → MemoryReader)
    (options : JJPointerSearchOptions) : Option PointerSearch := do
  if rangeEnd ≤ rangeStart ∨ options.maxResults = 0 ∨ options.maxScannedBytes < pointerWidth ∨
      options.chunkBytes < pointerWidth then return {}
  let chunkBytes := min options.chunkBytes maximumChunkBytes
  let chunkBytes ← arithmetic.sub chunkBytes (chunkBytes % pointerWidth)
  if chunkBytes = 0 then return {}
  searchRegions arithmetic targetAddress rangeStart rangeEnd reader options chunkBytes fuel
    (sorting.sort regions) {}

end

end H5GG

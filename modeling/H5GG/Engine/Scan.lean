import H5GG.Engine.State
import H5GG.Library.Stride

/-!
# Numeric and hex scans

The first scans walk the enumerated regions; `scanAgainAny` rebuilds the regions of an earlier
result set that the range may touch.
-/

namespace H5GG

/-- The regions a first scan loads: `continue` below the range, `break` above it, clipped to it
in 64-bit arithmetic in between. -/
def clips (range : AddrRange) : List (Nat × Nat) → List (Nat × Nat)
  | [] => []
  | (base, size) :: rest =>
      if u64 (base + size) ≤ range.start then clips range rest
      else if range.stop ≤ base then []
      else
        let regionEnd := min (u64 (base + size)) range.stop
        let start := max base range.start
        (start, u64 (regionEnd + 2 ^ 64 - start)) :: clips range rest

def scanDataHit (buffer : Buffer) (values : List JJSearchValue) (type : SearchType)
    (tolerance offset : Nat) : Bool :=
  jjSearchValueMatchesAny (buffer.bytes offset type.len) values type tolerance

/-- `Stride.collect` is the restart loop around `ScanDataAny`, `Stride.find` the loop inside. -/
def scanRegionAny (t : Target) (tolerance : Nat) (range : AddrRange) (values : List JJSearchValue)
    (type : SearchType) (base size : Nat) : Pass (Option ResultRegion) :=
  match t.loadRegion base size with
  | none => { value := none }
  | some buffer =>
      let inRange := fun offset =>
        let address := u64 (base + u32 offset)
        range.start ≤ address && address < range.stop
      let scan := Stride.collect (scanDataHit buffer values type tolerance) inRange type.len
        buffer.size buffer.size 0
      { value := growAll base buffer.size (scan.1.map fun offset => (u32 offset, 0))
        reads := scan.2.map fun offset => ⟨offset, type.len, buffer.size⟩ }

/-- The body of `ScanAgainAny`'s loop over the active regions. -/
def scanAgainRegion (t : Target) (tolerance : Nat) (range : AddrRange)
    (values : List JJSearchValue) (type : SearchType) (region : ResultRegion) :
    Pass (Option ResultRegion) :=
  match t.loadRegion region.regionBase region.regionSize with
  | none => { value := none }
  | some buffer =>
      let inspected := region.slides.filter fun slide =>
        slide + type.len ≤ buffer.size &&
          range.start ≤ region.address slide && region.address slide < range.stop
      let matched := inspected.filter (scanDataHit buffer values type tolerance)
      { value := growAll region.regionBase region.regionSize
          (matched.map fun slide => (u32 slide, 0))
        reads := inspected.map fun slide => ⟨slide, type.len, buffer.size⟩ }

/-- The interval test that picks the regions `ScanAgainAny` rebuilds. -/
def activeRegion (range : AddrRange) (region : ResultRegion) : Bool :=
  !(u64 (region.regionBase + region.regionSize) < range.start || range.stop < region.regionBase)

def scanHexRegion (t : Target) (pattern : JJHexPattern) (base size : Nat) :
    Pass (Option ResultRegion) :=
  if size < pattern.size then { value := none }
  else
    match t.loadRegion base size with
    | none => { value := none }
    | some buffer =>
        let scanSize := min buffer.size size
        let offsets :=
          if pattern.size ≤ scanSize then List.range (scanSize - pattern.size + 1) else []
        let found := offsets.filter fun offset =>
          jjHexPatternMatches (buffer.bytes offset pattern.size) pattern
        let scanned := (ResultRegion.mk base size [] []).appendAll
          (found.map fun offset => (u32 offset, SearchType.uByte.code))
        { value := if scanned.slides ≠ [] then some scanned else none
          reads := offsets.map fun offset => ⟨offset, pattern.size, buffer.size⟩ }

namespace Engine

def firstScanAny (t : Target) (range : AddrRange) (values : List JJSearchValue)
    (type : SearchType) (e : Engine) : Engine :=
  { e with
    result := (clips range t.regions.entries).foldl (fun result clip =>
      result.add (scanRegionAny t e.floatTolerance range values type clip.1 clip.2).value) e.result
    firstScanDone := true }

def scanAgainAny (t : Target) (range : AddrRange) (values : List JJSearchValue)
    (type : SearchType) (e : Engine) : Engine :=
  let activeIndices := (List.range e.result.regionCount).filter fun i =>
    (e.result.regionAt i).any (activeRegion range)
  let newRegions := activeIndices.map fun i => (e.result.regionAt i).bind fun region =>
    (scanAgainRegion t e.floatTolerance range values type region).value
  let replaced := (activeIndices.zip newRegions).foldl
    (fun result entry => result.replace entry.1 entry.2) e.result
  { e with result := replaced.removeEmptyRegions }

def jjScanMemoryAny (t : Target) (range : AddrRange) (values : List JJSearchValue) (type : Int)
    (e : Engine) : Engine :=
  match SearchType.ofCode? type with
  | none => e
  | some searched =>
      if values = [] then e
      else
        let e := { e with lastNumberType := type }
        saveSnapshot t (if e.firstScanDone then scanAgainAny t range values searched e
          else firstScanAny t range values searched e)

def jjScanHexMemory (t : Target) (range : AddrRange) (hexStr : CString) (e : Engine) : Engine :=
  match jjParseMaskedHexPattern hexStr with
  | none => e
  | some pattern =>
      if e.firstScanDone then
        let (_, result) := jjFilterHexResultSet e.result pattern t.reader range.start range.stop
        saveSnapshot t { e with result, lastNumberType := SearchType.uByte.code }
      else
        let result := (clips range t.regions.entries).foldl
          (fun result clip => result.add (scanHexRegion t pattern clip.1 clip.2).value) e.result
        saveSnapshot t
          { e with result, lastNumberType := SearchType.uByte.code, firstScanDone := true }

def jjFilterResults (t : Target) (valueStr : CString) (type mode : Int) (e : Engine) : Engine :=
  let (_, result) := jjFilterResultSet e.result valueStr type mode t.reader
  saveSnapshot t { e with result, lastNumberType := type }

end Engine

end H5GG

import H5GG.Filter
import Mathlib.Logic.Function.Basic
import Std.Data.TreeMap

/-!
# The engine's state and its snapshot
-/

namespace H5GG

structure AddrRange where
  start : Nat
  stop : Nat
  deriving DecidableEq, Repr

/-- One access to a mapping: `count` bytes at `offset` of a buffer of `mapped` bytes. -/
structure BufferRead where
  offset : Nat
  count : Nat
  mapped : Nat
  deriving DecidableEq, Repr

structure Pass (α : Type) where
  value : α
  reads : List BufferRead := []

/-- `map<uint64_t, pair<uint8_t, uint64_t>>`: the type and value last seen at an address. -/
abbrev Snapshot := Nat → Option (Int × Nat)

/-- `JJMemoryEngine`. The task is the `Target` each operation is given, and `regions` is only
filled and used within a first scan. -/
structure Engine where
  result : Result
  firstScanDone : Bool
  floatTolerance : Nat
  lastNumberType : Int
  snapshot : Snapshot

namespace Engine

def fresh : Engine where
  result := {}
  firstScanDone := false
  floatTolerance := 0
  lastNumberType := 0
  snapshot := fun _ => none

/-- The results with the type every later operation takes them to have. -/
def hits (e : Engine) : List (Nat × Int) := e.result.hits e.lastNumberType

def getResultsCount (e : Engine) : Nat := e.result.count

/-- The inner loop body of `getResultsAndTypes`, over `index` and `results`. -/
def pageEntry (count skip : Int) (region : ResultRegion) (state : Int × Std.TreeMap Nat Int)
    (entry : Nat × Int) : Int × Std.TreeMap Nat Int :=
  (state.1 + 1,
    if skip ≤ state.1 && state.1 - skip < count then
      state.2.insert (region.address entry.1) entry.2
    else state.2)

def pageRegion (count skip : Int) (state : Int × Std.TreeMap Nat Int) (region : ResultRegion) :
    Int × Std.TreeMap Nat Int :=
  let size := int32 region.slides.length
  if state.1 + size ≤ skip then (state.1 + size, state.2)
  else ((region.typed 0).take size.toNat).foldl (pageEntry count skip region) state

def getResultsAndTypes (count skip : Int) (e : Engine) : Std.TreeMap Nat Int :=
  (e.result.allRegions.foldl (pageRegion count skip) (0, ∅)).2

def snapshotEntry (t : Target) (region : ResultRegion) (snapshot : Snapshot)
    (entry : Nat × Int) : Snapshot :=
  let address := region.address entry.1
  let type := uint8 entry.2
  match t.reader.readExact address (searchTypeLen type) with
  | some bytes => Function.update snapshot address (some (type, Word.ofLittleEndian bytes))
  | none => snapshot

def saveSnapshot (t : Target) (e : Engine) : Engine :=
  { e with
    snapshot := e.result.allRegions.foldl (fun snapshot region =>
      (region.typed e.lastNumberType).foldl (snapshotEntry t region) snapshot) fun _ => none }

end Engine

end H5GG

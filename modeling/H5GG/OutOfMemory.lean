import H5GG.Facade

/-!
# Searches that run out of memory

Where a `std::bad_alloc` leaves an engine call and reaches the handlers of `searchNumber` and
`searchNearby`, and what the session is then. One that is thrown inside the `@try` around a
region's scan stays there, and the search goes on with what that scan had come to.
-/

namespace H5GG
open Validation

/-- The allocations of `JJScanMemoryAny` outside its `@try` blocks: a node of `regions`, the
element `Result::add` appends, one of `activeIndices` and `newRegions`, a node of `snapshot`. -/
inductive ScanAllocation
  | enumerating (region : Nat)
  | adding (clip : Nat)
  | collecting
  | recording (entry : Nat)
  deriving DecidableEq, Repr

/-- Whether a region stands as the call found it. -/
inductive Origin
  | untouched | rebuilt
  deriving DecidableEq, Repr

structure Thrown where
  engine : Engine
  slots : List (Origin × ResultRegion)

/-- `swallowed` is the number of matches after which the scan of a region was given up. -/
def abandon (swallowed : Option Nat) (scanned : Option ResultRegion) : Option ResultRegion :=
  match swallowed with
  | none => scanned
  | some 0 => none
  | some count => scanned.map fun region => { region with slides := region.slides.take count }

namespace Result

/-- No region pointer is null: what goes through `allRegions()` takes each of them for a region. -/
def whole (result : Result) : Bool := result.regions.all Option.isSome

/-- The regions in front of the first null pointer. -/
def reached (result : Result) : List ResultRegion :=
  (result.regions.takeWhile Option.isSome).reduceOption

def addThrows (result : Result) (region : ResultRegion) : Result :=
  { result with resultCount := result.resultCount + region.slides.length }

end Result

namespace Engine
variable (t : Target)

def snapshotEntries (e : Engine) : List (ResultRegion × Nat × Int) :=
  e.result.reached.flatMap fun region => (region.typed e.lastNumberType).map (region, ·)

/-- Only an address that is not in the map yet takes a node. -/
def saveSnapshotThrows (entry : Nat) (e : Engine) : Option Engine := do
  let (region, slide, type) ← e.snapshotEntries[entry]?
  let snapshot := (e.snapshotEntries.take entry).foldl
    (fun snapshot (region, entry) => snapshotEntry t region snapshot entry) fun _ => none
  let _ ← t.reader.readExact (region.address slide) (searchTypeLen (uint8 type))
  if (snapshot (region.address slide)).isSome then none else some { e with snapshot }

section
variable (range : AddrRange) (values : List JJSearchValue) (type : SearchType)
  (swallowed : Nat → Option Nat) (e : Engine)

/-- What `ScanRegionAny` puts out for each clip; a scan that is given up puts out nothing. -/
def scannedClips : List (Option ResultRegion) :=
  (clips range t.regions.entries).mapIdx fun k clip =>
    if (swallowed k).isSome then none
    else (scanRegionAny t e.floatTolerance range values type clip.1 clip.2).value

def addSlots (scanned : List (Option ResultRegion)) : List (Origin × ResultRegion) :=
  e.result.allRegions.map (.untouched, ·) ++ scanned.reduceOption.map (.rebuilt, ·)

def firstScanThrows : ScanAllocation → Option Thrown
  | .enumerating region =>
      if region < t.regions.entries.length then some ⟨e, addSlots e []⟩ else none
  | .adding clip => do
      let scanned := scannedClips t range values type swallowed e
      let region ← scanned[clip]?.join
      let result := (scanned.take clip).foldl Result.add e.result
      return ⟨{ e with result := result.addThrows region }, addSlots e (scanned.take clip)⟩
  | .collecting => none
  | .recording entry => do
      let scanned := scannedClips t range values type swallowed e
      let after ← saveSnapshotThrows t entry
        { e with result := scanned.foldl Result.add e.result, firstScanDone := true }
      return ⟨after, addSlots e scanned⟩

/-- `newRegions` at the index of `region`. -/
def rescanned (i : Nat) (region : ResultRegion) : Option ResultRegion :=
  abandon (swallowed i) (scanAgainRegion t e.floatTolerance range values type region).value

def rescanSlots : List (Origin × ResultRegion) :=
  (e.result.regions.mapIdx fun i region => region.bind fun region =>
    if activeRegion range region then
      (rescanned t range values type swallowed e i region).map (.rebuilt, ·)
    else some (.untouched, region)).reduceOption.filter fun slot => slot.2.slides ≠ []

def scanAgainThrows : ScanAllocation → Option Thrown
  | .collecting =>
      if e.result.reached.any (activeRegion range) then some ⟨e, addSlots e []⟩ else none
  | .recording entry => if !e.result.whole then none else do
      let activeIndices := (List.range e.result.regionCount).filter fun i =>
        (e.result.regionAt i).any (activeRegion range)
      let newRegions := activeIndices.map fun i =>
        (e.result.regionAt i).bind (rescanned t range values type swallowed e i)
      let replaced := (activeIndices.zip newRegions).foldl
        (fun result entry => result.replace entry.1 entry.2) e.result
      let after ← saveSnapshotThrows t entry { e with result := replaced.removeEmptyRegions }
      return ⟨after, rescanSlots t range values type swallowed e⟩
  | _ => none

end

def jjScanMemoryAnyThrows (range : AddrRange) (values : List JJSearchValue) (type : Int)
    (swallowed : Nat → Option Nat) (failing : ScanAllocation) (e : Engine) : Option Thrown :=
  match SearchType.ofCode? type with
  | none => none
  | some searched =>
      if values = [] then none
      else
        let e := { e with lastNumberType := type }
        if e.firstScanDone then scanAgainThrows t range values searched swallowed e failing
        else firstScanThrows t range values searched swallowed e failing

/-- The allocations of `JJNearBySearch` all happen while it rebuilds a region: the `failing`-th
here, with those before it replaced and empty ones not yet removed. -/
def jjNearBySearchThrows (range : Nat) (target : JJSearchValue) (type : Int) (failing : Nat)
    (e : Engine) : Option Thrown :=
  match SearchType.ofCode? type with
  | none => none
  | some searched =>
      let rebuild := fun region =>
        (nearbyRegion t e.floatTolerance e.lastNumberType range target searched region).value
      match (e.result.reached[failing]?).bind rebuild with
      | none => none
      | some _ => some
          { engine := { e with
              result := (List.range failing).foldl
                (fun result i => result.replace i ((result.regionAt i).bind rebuild)) e.result }
            slots := (e.result.regions.mapIdx fun i region => region.bind fun region =>
              if i < failing then (rebuild region).map (.rebuilt, ·)
              else some (.untouched, region)).reduceOption }

end Engine

/-- A search call and the allocation of its engine call that fails. -/
inductive FailingSearch
  | searchNumber (value type memoryFrom memoryTo : Option NSString)
      (swallowed : Nat → Option Nat) (failing : ScanAllocation)
  | searchNearby (value type range : Option NSString) (failing : Nat)

structure Aftermath where
  session : MemorySession
  slots : List (Origin × ResultRegion)

namespace MemorySession

def caught (session : MemorySession) (jjtype : Int) (thrown : Thrown) : Aftermath where
  session := ({ session with engine := thrown.engine } : MemorySession).markSearchDone jjtype
  slots := thrown.slots

/-- A search whose engine call throws: the handler shows an alert, and the call goes on. -/
def callThrows (system : System) (session : MemorySession) : FailingSearch → Option Aftermath
  | .searchNumber value type memoryFrom memoryTo swallowed failing =>
      match searchNumberRequest value type memoryFrom memoryTo session with
      | .error _ => none
      | .ok (range, values, jjtype) =>
          (session.engine.jjScanMemoryAnyThrows system.memory range values jjtype swallowed
            failing).map (session.caught jjtype)
  | .searchNearby value type range failing =>
      match searchNearbyRequest value type range session with
      | .error _ => none
      | .ok (searchRange, target, jjtype) =>
          (session.engine.jjNearBySearchThrows system.memory searchRange target jjtype
            failing).map (session.caught jjtype)

end MemorySession

end H5GG

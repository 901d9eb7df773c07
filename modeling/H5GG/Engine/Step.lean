import H5GG.Engine.Scan
import H5GG.Engine.Change
import H5GG.Engine.Nearby

/-!
# Runs of the engine

One event is an entry point called with its arguments, together with the state the target is in
during the call, so that memory may change freely between two calls.
-/

namespace H5GG

inductive EngineOp
  | setFloatTolerance (bits : Nat)
  | scanMemoryAny (range : AddrRange) (values : List JJSearchValue) (type : Int)
  | scanHexMemory (range : AddrRange) (hexStr : CString)
  | nearBySearch (range : Nat) (target : JJSearchValue) (type : Int)
  | filterResults (valueStr : CString) (type mode : Int)
  | refineByChange (change : ChangeType)

namespace Engine

def step : Target × EngineOp → Engine → Engine
  | (_, .setFloatTolerance bits), e => { e with floatTolerance := bits }
  | (t, .scanMemoryAny range values type), e => e.jjScanMemoryAny t range values type
  | (t, .scanHexMemory range hexStr), e => e.jjScanHexMemory t range hexStr
  | (t, .nearBySearch range target type), e => e.jjNearBySearch t range target type
  | (t, .filterResults valueStr type mode), e => e.jjFilterResults t valueStr type mode
  | (t, .refineByChange change), e => e.jjRefineByChange t change

/-- Everything an operation reads of the buffers that `loadRegion` returned to it. -/
def bufferReads : Target × EngineOp → Engine → List BufferRead
  | (t, .scanMemoryAny range values type), e =>
      match SearchType.ofCode? type with
      | none => []
      | some searched =>
          if values = [] then []
          else if e.firstScanDone then
            (e.result.allRegions.filter (activeRegion range)).flatMap fun region =>
              (scanAgainRegion t e.floatTolerance range values searched region).reads
          else
            (clips range t.regions.entries).flatMap fun clip =>
              (scanRegionAny t e.floatTolerance range values searched clip.1 clip.2).reads
  | (t, .scanHexMemory range hexStr), e =>
      match jjParseMaskedHexPattern hexStr with
      | none => []
      | some pattern =>
          if e.firstScanDone then []
          else
            (clips range t.regions.entries).flatMap fun clip =>
              (scanHexRegion t pattern clip.1 clip.2).reads
  | (t, .nearBySearch range target type), e =>
      match SearchType.ofCode? type with
      | none => []
      | some searched =>
          e.result.allRegions.flatMap fun region =>
            (nearbyRegion t e.floatTolerance e.lastNumberType range target searched region).reads
  | _, _ => []

end Engine

end H5GG

import H5GG.Engine.Step

/-!
# Target processes and memory sessions
-/

namespace H5GG

/-- `TargetProcess`, with `0` for `MACH_PORT_NULL`. -/
structure TargetProcess where
  pid : Int := 0
  port : Nat := 0
  deriving DecidableEq, Repr

def TargetProcess.valid (target : TargetProcess) : Bool := 0 < target.pid && target.port ≠ 0

structure MemorySession where
  target : TargetProcess
  engine : Engine
  firstSearchDone : Bool := false
  lastSearchType : Int := 0

namespace MemorySession

/-- `H5GGCreateMemorySession`. -/
def create (target : TargetProcess) : MemorySession := { target, engine := .fresh }

variable (session : MemorySession)

def markSearchDone (type : Int) : MemorySession :=
  { session with firstSearchDone := true, lastSearchType := type }

def resetSearchState : MemorySession :=
  { session with firstSearchDone := false, lastSearchType := 0 }

def replaceEngine (engine : Engine) : MemorySession :=
  resetSearchState { session with engine }

end MemorySession

end H5GG

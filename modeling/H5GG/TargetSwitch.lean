import H5GG.Freezer
import H5GG.OutOfMemory

/-!
# Switching targets

The target calls of `h5gg.mm` with every outcome of their allocations, and the freezer that
writes through the current session. The facade numbers the session objects that it creates.
-/

namespace H5GG

/-- What a write goes through: a session object and the task port of its engine. -/
structure Route where
  object : Nat
  port : Nat
  deriving DecidableEq, Repr

/-- `_session` and `_freezer` of an `h5ggEngine`. -/
structure TargetFacade where
  session : MemorySession
  object : Nat := 0
  /-- The port that the session's engine was made with. -/
  enginePort : Nat
  /-- How many session objects there have been. -/
  created : Nat := 1
  freezer : FreezerController := {}
  /-- The session and the port that were current when the entry of an address was frozen. -/
  frozenThrough : Nat → Option Route := fun _ => none

/-- How the allocations of one call end. -/
structure Allocations where
  emptySession : Bool
  newSession : Bool
  engine : Bool

inductive TargetCall
  | facade (system : System) (allocations : Allocations) (call : FacadeCall)
  | searchThrows (system : System) (search : FailingSearch)
  | freezeValue (system : System) (schedules : Bool) (address value type : Option NSString)
  | unfreezeValue (address : Option NSString)
  | clearFrozenValues
  | performTick (system : System) (writer : FrozenWrite → WriterAnswer)

namespace TargetFacade

/-- The facade after `init`: a session for `target`, and nothing frozen. -/
def start (target : TargetProcess) : TargetFacade where
  session := .create target
  enginePort := target.port

/-- What the writer of the freezer writes through. -/
def writer (f : TargetFacade) : Route := ⟨f.object, f.enginePort⟩

/-- The session that is current, and its target's port. -/
def current (f : TargetFacade) : Route := ⟨f.object, f.session.target.port⟩

def clearFrozenValues (f : TargetFacade) : TargetFacade := { f with freezer := f.freezer.clear }

/-- `_session` becomes a new session, and the previous one is deleted. -/
def replaceSession (target : TargetProcess) (f : TargetFacade) : TargetFacade :=
  clearFrozenValues
    { f with
      session := .create target
      object := f.created
      enginePort := target.port
      created := f.created + 1 }

def invalidateTargetSession (allocates : Bool) (f : TargetFacade) : TargetFacade :=
  if allocates then f.replaceSession {} else f

def setTargetProc (system : System) (allocations : Allocations) (pid : Int) (f : TargetFacade) :
    Bool × TargetFacade :=
  if pid ≤ 0 then (false, f)
  else
    let selected := pid = f.session.target.pid && f.session.target.valid
    if selected && f.session.targetIsAvailable system then (true, f)
    else
      let f := if selected then f.invalidateTargetSession allocations.emptySession else f
      let (success, port) := system.taskForPid pid
      if !success || port = 0 then (false, f)
      else if !allocations.newSession then (false, f)
      else (true, f.replaceSession ⟨pid, port⟩)

def getTargetStatus (system : System) (allocations : Allocations) (f : TargetFacade) :
    TargetStatus × TargetFacade :=
  let available := f.session.targetIsAvailable system
  let pid := f.session.target.pid
  (⟨available, pid, 0 < pid⟩,
    if !available && f.session.target.port ≠ 0 then
      f.invalidateTargetSession allocations.emptySession
    else f)

def clearResults (allocations : Allocations) (f : TargetFacade) : TargetFacade :=
  if allocations.engine then
    { f with session := f.session.replaceEngine .fresh, enginePort := f.session.target.port }
  else f

def freezeValue (system : System) (schedules : Bool) (address value type : Option NSString)
    (f : TargetFacade) : Bool × TargetFacade :=
  let (frozen, freezer) := f.freezer.freezeAddress (f.session.targetIsAvailable system)
    f.session.target.pid schedules address value type
  (frozen,
    { f with
      freezer
      frozenThrough := fun numericAddress =>
        if frozen && FreezerController.parseAddress address = some numericAddress then
          some f.current
        else f.frozenThrough numericAddress })

def unfreezeValue (address : Option NSString) (f : TargetFacade) : Bool × TargetFacade :=
  let (unfrozen, freezer) := f.freezer.unfreezeAddress address
  (unfrozen, { f with freezer })

/-- A tick, with its writes and what they go through. -/
def performTick (system : System) (writer : FrozenWrite → WriterAnswer) (f : TargetFacade) :
    List (Route × FrozenWrite) × TargetFacade :=
  let (writes, freezer) := f.freezer.performTick (f.session.targetIsAvailable system)
    f.session.target.pid writer
  (writes.map fun write => (f.writer, write), { f with freezer })

def step : TargetCall → TargetFacade → TargetFacade
  | .facade system allocations call, f =>
      match call with
      | .setTargetProc pid => (f.setTargetProc system allocations pid).2
      | .getTargetStatus => (f.getTargetStatus system allocations).2
      | .clearResults => f.clearResults allocations
      | _ => { f with session := MemorySession.call (system, call) f.session }
  | .searchThrows system search, f =>
      match f.session.callThrows system search with
      | none => f
      | some aftermath => { f with session := aftermath.session }
  | .freezeValue system schedules address value type, f =>
      (f.freezeValue system schedules address value type).2
  | .unfreezeValue address, f => (f.unfreezeValue address).2
  | .clearFrozenValues, f => f.clearFrozenValues
  | .performTick system writer, f => (f.performTick system writer).2

end TargetFacade

end H5GG

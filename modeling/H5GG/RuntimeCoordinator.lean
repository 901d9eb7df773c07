import H5GG.Library.Machine

/-!
# The runtime coordinator's timers

`RuntimeCoordinator.m`, on the main thread. A block is known by what one invocation of it does: the
calls that it makes on the coordinator, and what it returns.
-/

namespace H5GG

inductive TimerKind
  | readiness
  | globalView
  deriving DecidableEq, Repr

structure NSTimer where
  kind : TimerKind
  id : Nat
  deriving DecidableEq, Repr

/-- The calls that a block may make on the coordinator. -/
inductive CoordinatorCall
  | stopGlobalViewMonitor
  | stop
  deriving DecidableEq, Repr

/-- One invocation of `poll`: what `readiness` does and returns, and what `initialize` does. -/
structure PollRun where
  readiness : List CoordinatorCall := []
  ready : Bool
  initialization : List CoordinatorCall := []
  deriving DecidableEq, Repr

inductive CoordinatorAction
  | startCalled
  | readinessAsked
  | initializeRuns
  | tickRuns
  | timerScheduled (timer : NSTimer)
  | monitorStopped
  | stopReturned
  deriving DecidableEq, Repr

/-- Something that happens, and the timers that are valid from then on. -/
structure Moment where
  action : CoordinatorAction
  valid : List NSTimer
  deriving DecidableEq, Repr

structure RuntimeCoordinator where
  initialized : Bool := false
  readinessTimer : Option NSTimer := none
  globalViewTimer : Option NSTimer := none
  /-- The timers that the run loop fires. -/
  valid : List NSTimer := []
  created : Nat := 0
  history : List Moment := []
  deriving DecidableEq, Repr

namespace RuntimeCoordinator
variable (coordinator : RuntimeCoordinator)

def record (action : CoordinatorAction) : RuntimeCoordinator :=
  { coordinator with
    history := coordinator.history ++ [{ action, valid := coordinator.valid }] }

/-- `invalidate`, which does nothing to `nil`. -/
def invalidate (timer : Option NSTimer) : RuntimeCoordinator :=
  { coordinator with valid := coordinator.valid.filter fun other => some other ≠ timer }

/-- `scheduledTimerWithTimeInterval:repeats:block:`, and the property that is set to the timer. -/
def schedule (kind : TimerKind) : RuntimeCoordinator :=
  let timer : NSTimer := { kind, id := coordinator.created }
  let coordinator := match kind with
    | .readiness => { coordinator with readinessTimer := some timer }
    | .globalView => { coordinator with globalViewTimer := some timer }
  record { coordinator with
    valid := coordinator.valid ++ [timer]
    created := coordinator.created + 1 } (.timerScheduled timer)

def stopGlobalViewMonitor : RuntimeCoordinator :=
  record { coordinator.invalidate coordinator.globalViewTimer with globalViewTimer := none }
    .monitorStopped

def stop : RuntimeCoordinator :=
  (stopGlobalViewMonitor { coordinator.invalidate coordinator.readinessTimer with
    readinessTimer := none }).record .stopReturned

def perform : CoordinatorCall → RuntimeCoordinator
  | .stopGlobalViewMonitor => coordinator.stopGlobalViewMonitor
  | .stop => coordinator.stop

def invoke (calls : List CoordinatorCall) : RuntimeCoordinator := calls.foldl perform coordinator

/-- The block `poll`. It does not look again at the coordinator once `readiness` has returned. -/
def poll (invocation : PollRun) : RuntimeCoordinator :=
  if coordinator.initialized then coordinator
  else
    let coordinator := (coordinator.record .readinessAsked).invoke invocation.readiness
    if invocation.ready = false then coordinator
    else
      let coordinator := { coordinator.invalidate coordinator.readinessTimer with
        readinessTimer := none
        initialized := true }
      (coordinator.record .initializeRuns).invoke invocation.initialization

def tick (calls : List CoordinatorCall) : RuntimeCoordinator :=
  (coordinator.record .tickRuns).invoke calls

/-- `startWhenReady:interval:initialize:`, with what its first `poll` does, or `none` where one of
the blocks is `nil`. -/
def startWhenReady (blocks : Option PollRun) : RuntimeCoordinator :=
  let coordinator := coordinator.record .startCalled
  match blocks with
  | none => coordinator
  | some invocation =>
      if coordinator.initialized || coordinator.readinessTimer.isSome then coordinator
      else
        let coordinator := coordinator.poll invocation
        if coordinator.initialized then coordinator else coordinator.schedule .readiness

/-- `startGlobalViewMonitorWithInterval:tick:`, with what the first `tick` does. -/
def startGlobalViewMonitor (block : Option (List CoordinatorCall)) : RuntimeCoordinator :=
  let coordinator := coordinator.record .startCalled
  match block with
  | none => coordinator
  | some calls =>
      if coordinator.globalViewTimer.isSome then coordinator
      else (coordinator.tick calls).schedule .globalView

def fire (timer : NSTimer) (invocation : PollRun) (calls : List CoordinatorCall) :
    RuntimeCoordinator :=
  if timer ∈ coordinator.valid then
    match timer.kind with
    | .readiness => coordinator.poll invocation
    | .globalView => coordinator.tick calls
  else coordinator

end RuntimeCoordinator

inductive CoordinatorEvent
  | startWhenReady (blocks : Option PollRun)
  | startGlobalViewMonitor (block : Option (List CoordinatorCall))
  | stopGlobalViewMonitor
  | stop
  | fire (timer : NSTimer) (invocation : PollRun) (calls : List CoordinatorCall)
  deriving DecidableEq, Repr

def CoordinatorEvent.step (event : CoordinatorEvent) (coordinator : RuntimeCoordinator) :
    RuntimeCoordinator :=
  match event with
  | .startWhenReady blocks => coordinator.startWhenReady blocks
  | .startGlobalViewMonitor block => coordinator.startGlobalViewMonitor block
  | .stopGlobalViewMonitor => coordinator.stopGlobalViewMonitor
  | .stop => coordinator.stop
  | .fire timer invocation calls => coordinator.fire timer invocation calls

end H5GG

import H5GG.Library.Machine

/-!
# Modal requests

`ModalRequestQueue.cpp`. A request is the number of its `State`; a `shared_ptr` to one is that
number or, when null, `none`. What a request does under the mutex is one step.
-/

namespace H5GG

inductive RequestStatus
  | waiting
  | active
  | completed
  deriving DecidableEq, Repr

structure Coordinator where
  states : List RequestStatus := []
  requests : List Nat := []
  /-- The requests that have become active, in order. -/
  activated : List Nat := []
  /-- The requests that have left `requests`, in order. -/
  removed : List Nat := []
  /-- The requests that were cancelled while they waited. -/
  skipped : List Nat := []
  /-- The requests for which `complete` has returned true. -/
  answered : List Nat := []
  deriving DecidableEq, Repr

namespace Coordinator

def activateFront (c : Coordinator) : Coordinator :=
  match c.requests with
  | [] => c
  | front :: _ =>
      { c with states := c.states.set front .active, activated := c.activated ++ [front] }

def enqueue (c : Coordinator) : Coordinator :=
  let state := c.states.length
  if c.requests.isEmpty then
    { c with
      states := c.states ++ [.active]
      requests := c.requests ++ [state]
      activated := c.activated ++ [state] }
  else { c with states := c.states ++ [.waiting], requests := c.requests ++ [state] }

def complete (state : Nat) (c : Coordinator) : Bool × Coordinator :=
  if c.states[state]? ≠ some .active || c.requests.isEmpty || c.requests.head? ≠ some state then
    (false, c)
  else
    let popped : Coordinator :=
      { c with
        states := c.states.set state .completed
        requests := c.requests.tail
        removed := c.removed ++ [state]
        answered := c.answered ++ [state] }
    (true, popped.activateFront)

def cancel (state : Nat) (c : Coordinator) : Coordinator :=
  if c.states[state]? = some .completed then c
  else
    let found := c.requests.contains state
    let wasActive := c.requests.head? = some state
    let erased : Coordinator :=
      { c with
        states := c.states.set state .completed
        requests := c.requests.erase state
        removed := if found then c.removed ++ [state] else c.removed
        skipped := if c.states[state]? = some .waiting then c.skipped ++ [state] else c.skipped }
    if wasActive && !erased.requests.isEmpty then erased.activateFront else erased

end Coordinator

/-- A `Request`: `coordinator_` and `state_` are null together. -/
structure RequestHandle where
  state : Option Nat
  destroyed : Bool := false
  deriving DecidableEq, Repr

structure ModalRequestQueue where
  coordinator : Coordinator := {}
  handles : List RequestHandle := []
  deriving DecidableEq, Repr

inductive ModalEvent
  | enqueue
  | complete (handle : Nat)
  | cancel (handle : Nat)
  | destroy (handle : Nat)
  | moveConstruct (other : Nat)
  | moveAssign (handle other : Nat)
  deriving DecidableEq, Repr

namespace ModalRequestQueue

/-- `state_` of a handle that has not been destroyed. -/
def stateOf (handle : Nat) (q : ModalRequestQueue) : Option Nat :=
  q.handles[handle]?.bind fun it => if it.destroyed then none else it.state

def alive (handle : Nat) (q : ModalRequestQueue) : Bool :=
  q.handles[handle]?.any (!·.destroyed)

def enqueue (q : ModalRequestQueue) : ModalRequestQueue where
  coordinator := q.coordinator.enqueue
  handles := q.handles ++ [{ state := some q.coordinator.states.length }]

def complete (handle : Nat) (q : ModalRequestQueue) : Bool × ModalRequestQueue :=
  match q.stateOf handle with
  | none => (false, q)
  | some state =>
      let (answer, coordinator) := q.coordinator.complete state
      (answer, { q with coordinator })

def cancel (handle : Nat) (q : ModalRequestQueue) : ModalRequestQueue :=
  match q.stateOf handle with
  | none => q
  | some state =>
      { coordinator := q.coordinator.cancel state
        handles := q.handles.set handle { state := none } }

def destroy (handle : Nat) (q : ModalRequestQueue) : ModalRequestQueue :=
  if q.alive handle then
    let cancelled := q.cancel handle
    { cancelled with handles := cancelled.handles.set handle { state := none, destroyed := true } }
  else q

def moveConstruct (other : Nat) (q : ModalRequestQueue) : ModalRequestQueue :=
  if q.alive other then
    let given := q.stateOf other
    { q with handles := q.handles.set other { state := none } ++ [{ state := given }] }
  else q

def moveAssign (handle other : Nat) (q : ModalRequestQueue) : ModalRequestQueue :=
  if q.alive handle && q.alive other then
    if handle = other then q
    else
      let cancelled := q.cancel handle
      let given := cancelled.stateOf other
      { cancelled with
        handles := (cancelled.handles.set handle { state := given }).set other { state := none } }
  else q

def step : ModalEvent → ModalRequestQueue → ModalRequestQueue
  | .enqueue, q => q.enqueue
  | .complete handle, q => (q.complete handle).2
  | .cancel handle, q => q.cancel handle
  | .destroy handle, q => q.destroy handle
  | .moveConstruct other, q => q.moveConstruct other
  | .moveAssign handle other, q => q.moveAssign handle other

end ModalRequestQueue

end H5GG

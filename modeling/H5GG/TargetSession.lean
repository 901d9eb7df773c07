import H5GG.Library.Machine
import H5GG.Session

/-!
# Who releases ports and engines

`TargetSession.cpp` as a program of C++ objects: their construction, moves and destruction.
Releasers, engines and deleters are numbers, a null one is `none`.
-/

namespace H5GG

/-- A `TargetProcess` with its `releaser_`. -/
structure OwningTarget extends TargetProcess where
  releaser : Option Nat := none
  deriving DecidableEq, Repr

/-- A call of a releaser or a deleter. -/
inductive Disposal
  | released (port releaser : Nat)
  | deleted (engine deleter : Nat)
  deriving DecidableEq, Repr

/-- What `reset` and the destructor call; what is left is empty. -/
def OwningTarget.reset (target : OwningTarget) : List Disposal :=
  match target.releaser with
  | some releaser => if target.port ≠ 0 then [.released target.port releaser] else []
  | none => []

structure TargetObject where
  target : OwningTarget
  destroyed : Bool := false
  deriving DecidableEq, Repr

/-- A `MemorySession`. One that has been destroyed keeps what it had. -/
structure SessionObject where
  target : OwningTarget
  engine : Option Nat
  engineDeleter : Option Nat
  destroyed : Bool := false
  deriving DecidableEq, Repr

/-- The call that disposes of the engine, if there is one and someone to do it. -/
def SessionObject.deleteEngine (session : SessionObject) : List Disposal :=
  match session.engine, session.engineDeleter with
  | some engine, some deleter => [.deleted engine deleter]
  | _, _ => []

structure ObjectHeap where
  targets : List TargetObject := []
  sessions : List SessionObject := []
  /-- The calls that releasers and deleters have got, in order. -/
  log : List Disposal := []
  /-- The ports that targets were constructed with, and their releasers. -/
  ports : List (Nat × Option Nat) := []
  /-- The deleter that an engine was registered with last. -/
  registered : List (Nat × Option Nat) := []
  deriving DecidableEq, Repr

inductive ObjectEvent
  | construct (pid : Int) (port : Nat) (releaser : Option Nat)
  | moveConstruct (other : Nat)
  | moveAssign (object other : Nat)
  | reset (object : Nat)
  | destroy (object : Nat)
  | constructSession (target : Nat) (engine engineDeleter : Option Nat)
  | replaceEngine (session : Nat) (engine engineDeleter : Option Nat)
  | destroySession (session : Nat)
  deriving DecidableEq, Repr

namespace ObjectHeap

/-- A target that is there to be used. -/
def target? (object : Nat) (heap : ObjectHeap) : Option OwningTarget :=
  heap.targets[object]?.bind fun it => if it.destroyed then none else some it.target

def session? (session : Nat) (heap : ObjectHeap) : Option SessionObject :=
  heap.sessions[session]?.bind fun it => if it.destroyed then none else some it

def setTarget (object : Nat) (target : OwningTarget) (heap : ObjectHeap) : ObjectHeap :=
  { heap with targets := heap.targets.set object { target } }

def dispose (calls : List Disposal) (heap : ObjectHeap) : ObjectHeap :=
  { heap with log := heap.log ++ calls }

def register (engine deleter : Option Nat) (heap : ObjectHeap) : ObjectHeap :=
  match engine with
  | none => heap
  | some engine =>
      { heap with registered := (engine, deleter) :: heap.registered.filter (·.1 ≠ engine) }

def step : ObjectEvent → ObjectHeap → ObjectHeap
  | .construct pid port releaser, heap =>
      { heap with
        targets := heap.targets ++ [{ target := { pid, port, releaser } }]
        ports := if port ≠ 0 then heap.ports ++ [(port, releaser)] else heap.ports }
  | .moveConstruct other, heap =>
      match heap.target? other with
      | none => heap
      | some target =>
          let emptied := heap.setTarget other {}
          { emptied with targets := emptied.targets ++ [{ target }] }
  | .moveAssign object other, heap =>
      match heap.target? object, heap.target? other with
      | some previous, some target =>
          if object = other then heap
          else ((heap.dispose previous.reset).setTarget object target).setTarget other {}
      | _, _ => heap
  | .reset object, heap =>
      match heap.target? object with
      | none => heap
      | some target => (heap.dispose target.reset).setTarget object {}
  | .destroy object, heap =>
      match heap.target? object with
      | none => heap
      | some target =>
          let disposed := heap.dispose target.reset
          { disposed with
            targets := disposed.targets.set object { target := {}, destroyed := true } }
  | .constructSession object engine engineDeleter, heap =>
      match heap.target? object with
      | none => heap
      | some target =>
          let emptied := (heap.setTarget object {}).register engine engineDeleter
          { emptied with sessions := emptied.sessions ++ [{ target, engine, engineDeleter }] }
  | .replaceEngine index engine engineDeleter, heap =>
      match heap.session? index with
      | none => heap
      | some session =>
          let calls := if session.engine ≠ engine then session.deleteEngine else []
          let registered := (heap.dispose calls).register engine engineDeleter
          { registered with
            sessions := registered.sessions.set index { session with engine, engineDeleter } }
  | .destroySession index, heap =>
      match heap.session? index with
      | none => heap
      | some session =>
          -- The body of the destructor runs before the destructors of the members.
          let disposed := heap.dispose (session.deleteEngine ++ session.target.reset)
          { disposed with sessions := disposed.sessions.set index { session with destroyed := true } }

/-- A port with a releaser is introduced once, and so is an engine, except that a session may be
given the engine it has. -/
def Introduces (event : ObjectEvent) (heap : ObjectHeap) : Prop :=
  match event with
  | .construct _ port releaser =>
      ∀ known ∈ heap.ports, known.1 = port → known.2 = none ∧ releaser = none
  | .constructSession _ engine _ => ∀ known ∈ heap.registered, engine ≠ some known.1
  | .replaceEngine index engine _ =>
      (∀ known ∈ heap.registered, engine ≠ some known.1) ∨
        ∃ session, heap.session? index = some session ∧ session.engine = engine
  | _ => True

end ObjectHeap

end H5GG

import H5GG.Library.Machine
import H5GG.NSString

/-!
# Frozen values

`FreezerController.mm`. The scheduler numbers the timers it starts.
-/

namespace H5GG

structure FrozenEntry where
  address : String
  value : NSString
  type : NSString
  numericAddress : Nat
  valueType : Int
  bytes : Bytes
  targetPID : Int
  status : String := "active"
  failures : Nat := 0
  lastError : Option String := none
  deriving DecidableEq, Repr

/-- An `NSMutableDictionary`, in the order in which it lists its keys. -/
abbrev FrozenEntries := List (String × FrozenEntry)

namespace FrozenEntries

def removeObject (key : String) (entries : FrozenEntries) : FrozenEntries :=
  entries.filter (·.1 ≠ key)

def setObject (key : String) (entry : FrozenEntry) (entries : FrozenEntries) : FrozenEntries :=
  entries.removeObject key ++ [(key, entry)]

end FrozenEntries

/-- What the writer does with one value. -/
inductive WriterAnswer
  | returned (success : Bool)
  | raised (reason : Option String)
  deriving DecidableEq, Repr

/-- One call of the writer. -/
structure FrozenWrite where
  address : Nat
  bytes : Bytes
  valueType : Int
  deriving DecidableEq, Repr

namespace FrozenEntry

def write (entry : FrozenEntry) : FrozenWrite := ⟨entry.numericAddress, entry.bytes, entry.valueType⟩

def unavailable (entry : FrozenEntry) : FrozenEntry :=
  { entry with
    status := "target-unavailable"
    lastError := some "Target process is no longer available" }

def wrote (answer : WriterAnswer) (entry : FrozenEntry) : FrozenEntry :=
  let failed := fun reason : Option String =>
    { entry with
      status := "write-failed"
      failures := entry.failures + 1
      lastError := some (reason.getD "Memory write failed") }
  match answer with
  | .returned true => { entry with status := "active", failures := 0, lastError := none }
  | .returned false => failed none
  | .raised reason => failed reason

/-- One round of a tick, with the call of the writer that it makes. -/
def tick (available : Bool) (currentPID : Int) (writer : FrozenWrite → WriterAnswer)
    (entry : FrozenEntry) : Option FrozenWrite × FrozenEntry :=
  if !available || entry.targetPID ≠ currentPID then (none, entry.unavailable)
  else (some entry.write, entry.wrote (writer entry.write))

end FrozenEntry

structure FreezerController where
  timer : Option Nat := none
  entries : FrozenEntries := []
  /-- How many timers the scheduler has started. -/
  started : Nat := 0
  /-- The timers it has stopped, in order. -/
  stopped : List Nat := []
  deriving DecidableEq, Repr

inductive FreezerEvent
  | freezeAddress (available : Bool) (targetPID : Int) (schedules : Bool)
      (address value type : Option NSString)
  | unfreezeAddress (address : Option NSString)
  | clear
  | performTick (available : Bool) (currentPID : Int) (writer : FrozenWrite → WriterAnswer)

namespace FreezerController

/-- `JJParseAddress`, with the base that the spelling asks for. -/
def parseAddress (address : Option NSString) : Option Nat :=
  (NSString.utf8String address).bind fun text =>
    jjParseAddress text (if NSString.hasPrefix (.ofAscii "0x") address then 16 else 10)

/-- What `freezeAddress:value:type:` freezes, if it gets past its checks. -/
def entryFor (available : Bool) (targetPID : Int) (address value type : Option NSString) :
    Option FrozenEntry := do
  let value' ← value
  let type' ← type
  guard (address.isSome && available)
  let valueType := jjTypeFromName (NSString.utf8String type)
  let searchType ← SearchType.ofCode? valueType
  let numericAddress ← parseAddress address
  guard (numericAddress ≠ 0)
  let parsedValue ← (NSString.utf8String value).bind (jjParseValue · valueType)
  guard (0 < targetPID)
  return {
    address := hexAddress numericAddress
    value := value'
    type := type'
    numericAddress
    valueType
    bytes := parsedValue.take searchType.len
    targetPID }

def freezeAddress (available : Bool) (targetPID : Int) (schedules : Bool)
    (address value type : Option NSString) (f : FreezerController) : Bool × FreezerController :=
  match entryFor available targetPID address value type with
  | none => (false, f)
  | some entry =>
      let previousEntry := f.entries.lookup entry.address
      let entries := f.entries.setObject entry.address entry
      if f.timer.isSome then (true, { f with entries })
      else if schedules then
        (true, { f with entries, timer := some f.started, started := f.started + 1 })
      else
        match previousEntry with
        | some previous => (false, { f with entries := entries.setObject entry.address previous })
        | none => (false, { f with entries := entries.removeObject entry.address })

def stopTimer (f : FreezerController) : FreezerController :=
  match f.timer with
  | none => f
  | some timer => { f with timer := none, stopped := f.stopped ++ [timer] }

def unfreezeAddress (address : Option NSString) (f : FreezerController) :
    Bool × FreezerController :=
  match parseAddress address with
  | none => (false, f)
  | some numericAddress =>
      let canonicalAddress := hexAddress numericAddress
      if (f.entries.lookup canonicalAddress).isNone then (false, f)
      else
        let removed := { f with entries := f.entries.removeObject canonicalAddress }
        (true, if removed.entries.isEmpty then removed.stopTimer else removed)

def clear (f : FreezerController) : FreezerController := { f with entries := [] }.stopTimer

def performTick (available : Bool) (currentPID : Int) (writer : FrozenWrite → WriterAnswer)
    (f : FreezerController) : List FrozenWrite × FreezerController :=
  let round := FrozenEntry.tick available currentPID writer
  (f.entries.filterMap fun (_, entry) => (round entry).1,
    { f with entries := f.entries.map fun (key, entry) => (key, (round entry).2) })

def step : FreezerEvent → FreezerController → FreezerController
  | .freezeAddress available targetPID schedules address value type, f =>
      (f.freezeAddress available targetPID schedules address value type).2
  | .unfreezeAddress address, f => (f.unfreezeAddress address).2
  | .clear, f => f.clear
  | .performTick available currentPID writer, f =>
      (f.performTick available currentPID writer).2

end FreezerController

end H5GG

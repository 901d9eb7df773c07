import H5GG.Facade
import H5GG.Freezer
import H5GG.WriteMemory

/-!
# Reading and editing values

`getValue`, `setValue` and `editAll` of `h5gg.mm`, with `JJWriteAll` of `MemScan.mm`. What the kernel
makes of a `vm_write` is given by its number.
-/

namespace H5GG
open Validation

/-- `vm_write`. One that fails may have put anything into the bytes it was to write. -/
def TaskMemory.vmWrite (address : Nat) (target : Bytes) (failure : Option (Nat → UInt8))
    (memory : TaskMemory) : Bool × TaskMemory :=
  memory.write address target <| failure.map fun left a =>
    if address ≤ a ∧ a < address + target.length then left a else memory.byte a

structure Writing where
  memory : TaskMemory
  count : Int := 0
  /-- How many writes there were. -/
  calls : Nat := 0

def Writing.step (failures : Nat → Option (Nat → UInt8)) (target : Bytes) (state : Writing)
    (address : Nat) : Writing :=
  let (written, memory) := state.memory.vmWrite address target (failures state.calls)
  { memory
    count := if written then int32 (state.count + 1) else state.count
    calls := state.calls + 1 }

def Engine.jjWriteAll (failures : Nat → Option (Nat → UInt8)) (target : Bytes) (type : Int)
    (memory : TaskMemory) (e : Engine) : Int × TaskMemory :=
  match SearchType.ofCode? type with
  | none => (0, memory)
  | some t =>
      let state := e.result.allRegions.foldl (fun state region =>
        region.slides.foldl (fun state slide =>
          state.step failures (target.take t.len) (region.address slide)) state)
        { memory : Writing }
      (state.count, state.memory)

namespace MemorySession

/-- `parseValue:from:byType:`. -/
def parseValue (value type : Option NSString) : Except Alert (Int × Bytes) := do
  let jjtype := jjTypeFromName (NSString.utf8String type)
  require (jjtype ≠ 0) (some "不支持的数值类型")
  let valuebuf ← accept ((NSString.utf8String value).bind (jjParseValue · jjtype))
    (some "数值格式错误或与类型不匹配")
  return (jjtype, valuebuf)

/-- The texts `0x…` are hexadecimal, all others decimal; there is nothing at 0. -/
def parseTarget (address : Option NSString) : Option Nat :=
  (FreezerController.parseAddress address).filter (· ≠ 0)

/-- `valuebuf` is not cleared before the read. -/
def getValue (reader : MemoryReader) (valuebuf : Bytes) (address type : Option NSString) :
    Except Alert NSString := do
  let jjtype := jjTypeFromName (NSString.utf8String type)
  require (jjtype ≠ 0) none
  let addr ← accept (parseTarget address) (some "读取失败:地址格式有误!")
  let bytes ← accept (reader.readValue addr jjtype) none
  formatValue (bytes ++ valuebuf.drop bytes.length) jjtype

def setValue (pageSize : Nat) (answers : WriteAnswers) (address value type : Option NSString)
    (memory : TaskMemory) : Except Alert (Bool × TaskMemory) := do
  let (jjtype, valuebuf) ← parseValue value type
  let addr ← accept (parseTarget address) (some "修改失败:地址格式有误!")
  return jjWriteMemory pageSize addr valuebuf jjtype answers memory

def editAll (failures : Nat → Option (Nat → UInt8)) (value type : Option NSString)
    (memory : TaskMemory) (session : MemorySession) : Except Alert (Int × TaskMemory) := do
  let (jjtype, valuebuf) ← parseValue value type
  require (session.engine.getResultsCount ≠ 0) (some "修改全部: 结果列表为空!")
  return session.engine.jjWriteAll failures valuebuf jjtype memory

end MemorySession

end H5GG

import H5GG.Reader
import Mathlib.Logic.Function.Basic

/-!
# Writing a value into the target

`JJWriteMemory` of `MemScan.mm`. What the kernel makes of each call is given beforehand, success or
failure. A write that fails may leave any memory behind.
-/

namespace H5GG

abbrev VM_PROT_READ : Nat := 1
abbrev VM_PROT_WRITE : Nat := 2
abbrev VM_PROT_ALL : Nat := 7
abbrev VM_PROT_COPY : Nat := 0x10

/-- The protection of each page, which is there if the page is mapped, and the bytes. -/
structure TaskMemory where
  protection : Nat → Option Nat
  byte : Nat → UInt8

/-- What `mach_vm_region` reports; it may lie above the address that is asked for. -/
structure ReportedRegion where
  base : Nat
  size : Nat
  protection : Nat
  deriving DecidableEq, Repr

/-- Whether each call succeeds; for a write, otherwise, the bytes that it leaves. -/
structure WriteAnswers where
  region : Option ReportedRegion
  protect : Bool
  protectAgain : Bool
  write : Option (Nat → UInt8)
  protectForRetry : Bool
  writeAgain : Option (Nat → UInt8)
  restore : Bool

namespace TaskMemory

/-- `mach_vm_protect` of the page at `base`. Of the protection, `VM_PROT_COPY` is not kept. -/
def protect (pageSize base protection : Nat) (succeeds : Bool) (memory : TaskMemory) : TaskMemory :=
  if succeeds then
    { memory with
      protection := Function.update memory.protection (base / pageSize)
        ((memory.protection (base / pageSize)).map fun _ => protection &&& VM_PROT_ALL) }
  else memory

/-- `writeMemory`. -/
def write (address : Nat) (target : Bytes) (failure : Option (Nat → UInt8)) (memory : TaskMemory) :
    Bool × TaskMemory :=
  match failure with
  | some left => (false, { memory with byte := left })
  | none =>
      (true, { memory with
        byte := fun a =>
          if address ≤ a ∧ a < address + target.length then target.getD (a - address) 0
          else memory.byte a })

end TaskMemory

/-- `address & ~PAGE_MASK`. -/
def pageBase (pageSize address : Nat) : Nat := address - address % pageSize

/-- `JJWriteMemory` from the first write on. -/
def writeAndRestore (pageSize address : Nat) (target : Bytes) (base protection : Nat)
    (answers : WriteAnswers) (memory : TaskMemory) : Bool × TaskMemory :=
  let (result, memory) := memory.write address target answers.write
  let (result, memory) :=
    if result = false ∧ base ≠ 0 then
      let memory := memory.protect pageSize base (VM_PROT_READ ||| VM_PROT_WRITE ||| VM_PROT_COPY)
        answers.protectForRetry
      if answers.protectForRetry then memory.write address target answers.writeAgain
      else (result, memory)
    else (result, memory)
  (result, if base ≠ 0 then memory.protect pageSize base protection answers.restore else memory)

def jjWriteMemory (pageSize address : Nat) (target : Bytes) (type : Int) (answers : WriteAnswers)
    (memory : TaskMemory) : Bool × TaskMemory :=
  match SearchType.ofCode? type with
  | none => (false, memory)
  | some t =>
      let target := target.take t.len
      match answers.region with
      | none => (false, memory)
      | some info =>
          if info.protection &&& VM_PROT_WRITE = 0 then
            let base := pageBase pageSize address
            let memory := memory.protect pageSize base
              (info.protection ||| VM_PROT_WRITE ||| VM_PROT_COPY) answers.protect
            if answers.protect then
              writeAndRestore pageSize address target base info.protection answers memory
            else
              let memory := memory.protect pageSize base
                (VM_PROT_READ ||| VM_PROT_WRITE ||| VM_PROT_COPY) answers.protectAgain
              if answers.protectAgain then
                writeAndRestore pageSize address target base info.protection answers memory
              else (false, memory)
          else writeAndRestore pageSize address target 0 info.protection answers memory

end H5GG

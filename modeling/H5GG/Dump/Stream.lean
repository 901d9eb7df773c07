import H5GG.Reader

/-!
# Streaming memory

`MemoryDump.cpp`. The callbacks may answer differently each time, so they are given the round of
the loop that calls them; what they change is the `State`.
-/

namespace H5GG

inductive JJMemoryDumpStatus
  | completed | cancelled | readFailed | writeFailed | invalidInput
  deriving DecidableEq, Repr

structure JJMemoryDumpResult where
  status : JJMemoryDumpStatus := .invalidInput
  bytesWritten : Nat := 0
  failureAddress : Nat := 0
  deriving DecidableEq, Repr

inductive WriteReply
  | returned (written : Bool)
  | raised (reason : Option String)

structure DumpCallbacks (State : Type) where
  reader : Nat → MemoryReader
  writer : Nat → Bytes → State → WriteReply × State
  cancelled : Nat → Bool
  progress : Nat → Nat → State → State

section
variable {State : Type} (callbacks : DumpCallbacks State) (address length bufferSize : Nat)

/-- The loop. Every round that goes on has written, so that `length` rounds are enough. -/
def dumpRounds : Nat → Nat → Nat → State → Except (Option String) JJMemoryDumpResult × State
  | 0, _, written, state => (.ok ⟨.completed, written, address⟩, state)
  | fuel + 1, round, written, state =>
      if length ≤ written then (.ok ⟨.completed, written, address⟩, state)
      else if callbacks.cancelled round then (.ok ⟨.cancelled, written, address⟩, state)
      else
        let current := u64 (address + written)
        let bytes := (callbacks.reader round).readBytes current (min bufferSize (length - written))
        if bytes = [] then (.ok ⟨.readFailed, written, current⟩, state)
        else
          match callbacks.writer round bytes state with
          | (.raised reason, state) => (.error reason, state)
          | (.returned false, state) => (.ok ⟨.writeFailed, written, current⟩, state)
          | (.returned true, state) =>
              let written := written + bytes.length
              dumpRounds fuel (round + 1) written (callbacks.progress written length state)

def jjStreamMemoryDump (chunkSize : Nat) (state : State) :
    Except (Option String) JJMemoryDumpResult × State :=
  if length = 0 || chunkSize = 0 || 2 ^ 64 - 1 - address < length - 1 then
    (.ok { failureAddress := address }, state)
  else dumpRounds callbacks address length (min chunkSize length) length 0 0 state

end

end H5GG

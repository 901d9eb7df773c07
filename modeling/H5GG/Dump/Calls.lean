import H5GG.Dump.Stream
import H5GG.Library.Arithmetic

/-!
# The calls of a streamed dump

`JJStreamMemoryDump` with the calls that it makes of its callbacks, an empty `std::function` being
`none`. Every sum and difference goes through the arithmetic that the loop is given; `none` is a
result which that arithmetic does not have, or a loop that has used up its fuel.
-/

namespace H5GG

structure DumpRead where
  address : Nat
  requested : Nat
  bytes : Bytes
  deriving DecidableEq, Repr

inductive DumpCall
  | cancelled (answer : Bool)
  | read (request : DumpRead)
  | write (bytes : Bytes) (answer : Bool)
  | progress (written total : Nat)
  deriving DecidableEq, Repr

/-- The answers of the callbacks, by the round of the loop. -/
structure DumpAnswers where
  reader : Nat → MemoryReader
  writer : Option (Nat → Bytes → Bool)
  cancelled : Option (Nat → Bool) := none
  progress : Bool := false

abbrev DumpOutcome := JJMemoryDumpResult × List DumpCall

section
variable (arithmetic : Arithmetic) (answers : DumpAnswers)

section
variable (writer : Nat → Bytes → Bool) (address length bufferSize : Nat)

/-- The `while` loop. -/
def dumpCalls : Nat → Nat → JJMemoryDumpResult → List DumpCall → Option DumpOutcome
  | 0, _, _, _ => none
  | fuel + 1, round, result, calls =>
      if result.bytesWritten < length then
        let polled := answers.cancelled.map fun cancelled => cancelled round
        let calls := calls ++ polled.toList.map .cancelled
        if polled = some true then some ({ result with status := .cancelled }, calls)
        else do
          let left ← arithmetic.sub length result.bytesWritten
          let current ← arithmetic.add address result.bytesWritten
          let requested := min bufferSize left
          let bytes := (answers.reader round).readBytes current requested
          let calls := calls ++ [.read ⟨current, requested, bytes⟩]
          if bytes = [] then do
            let failureAddress ← arithmetic.add address result.bytesWritten
            return ({ result with status := .readFailed, failureAddress }, calls)
          else
            let answer := writer round bytes
            let calls := calls ++ [.write bytes answer]
            if answer = false then do
              let failureAddress ← arithmetic.add address result.bytesWritten
              return ({ result with status := .writeFailed, failureAddress }, calls)
            else do
              let bytesWritten ← arithmetic.add result.bytesWritten bytes.length
              let calls := if answers.progress then calls ++ [.progress bytesWritten length] else calls
              dumpCalls fuel (round + 1) { result with bytesWritten } calls
      else some ({ result with status := .completed }, calls)

end

def jjStreamMemoryDumpCalls (fuel address length chunkSize : Nat) : Option DumpOutcome :=
  let result : JJMemoryDumpResult := { failureAddress := address }
  match answers.writer with
  | none => some (result, [])
  | some writer =>
      if length = 0 ∨ chunkSize = 0 then some (result, [])
      else do
        let last ← arithmetic.sub length 1
        let room ← arithmetic.sub (2 ^ 64 - 1) address
        if room < last then return (result, [])
        else dumpCalls arithmetic answers writer address length (min chunkSize length) fuel 0 result []

end

end H5GG

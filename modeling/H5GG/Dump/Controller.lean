import H5GG.Dump.Stream
import H5GG.FileNames
import H5GG.Library.Validation
import H5GG.NSString
import Mathlib.Logic.Function.Basic

/-!
# Dump jobs

`DumpController.mm` over the entries of the Documents directory. What its file calls do is what
Foundation documents: creating a file truncates the one that is there, and removing an item removes
a whole directory.
-/

namespace H5GG
open Validation

inductive Entry (Tree : Type)
  | file (bytes : Bytes)
  | directory (tree : Tree)
  deriving DecidableEq, Repr

abbrev Documents (Tree : Type) := CString → Option (Entry Tree)

inductive DumpState
  | idle | running | completed | cancelled | failed
  deriving DecidableEq, Repr

/-- The `status` dictionary, with its progress as `written` and `total`. -/
structure DumpStatus where
  state : DumpState := .idle
  written : Nat := 0
  total : Nat := 0
  path : CString := []
  error : Option String := none
  deriving DecidableEq, Repr

structure DumpJob where
  address : Nat
  totalSize : Nat
  filename : CString
  deriving DecidableEq, Repr

/-- How the system answers the calls of a job: whether the file can be created and opened, what
the lease reads in each round, whether the job is cancelled by then, and what `writeData:` raises
after how many bytes. -/
structure DumpHost where
  creates : Bool
  opens : Bool
  reader : Nat → MemoryReader
  cancelled : Nat → Bool
  raises : Nat → Option (Nat × Option String)

structure DumpWorld (Tree : Type) where
  documents : Documents Tree
  status : DumpStatus

namespace Documents
variable {Tree : Type} (name : CString) (documents : Documents Tree)

def createFile (creates : Bool) : Bool × Documents Tree :=
  match documents name with
  | some (.directory _) => (false, documents)
  | _ =>
      if creates then (true, Function.update documents name (some (.file [])))
      else (false, documents)

def writeData (bytes : Bytes) : Documents Tree :=
  match documents name with
  | some (.file old) => Function.update documents name (some (.file (old ++ bytes)))
  | _ => documents

def removeItem : Documents Tree := Function.update documents name none

end Documents

/-- The checks of `startFrom:end:filename:` in front of its lock. -/
def dumpRequest (start stop filename : Option NSString) : Except Unit DumpJob := do
  let base := fun text => if NSString.hasPrefix (.ofAscii "0x") text then 16 else 10
  require (start.isSome && stop.isSome && filename.isSome) ()
  require (h5ggIsSafeFileName (NSString.utf8String filename)) ()
  let address ← accept ((NSString.utf8String start).bind (jjParseAddress · (base start))) ()
  let endAddress ← accept ((NSString.utf8String stop).bind (jjParseAddress · (base stop))) ()
  require (address ≠ 0 && address < endAddress) ()
  let name ← accept (NSString.utf8String filename) ()
  return ⟨address, endAddress - address, name⟩

/-- `startFrom:end:filename:` up to its worker. The two providers may return nothing. -/
def startFrom (status : DumpStatus) (start stop filename : Option NSString)
    (lease completion : Bool) : Except Unit DumpJob := do
  let request ← dumpRequest start stop filename
  require (status.state ≠ .running) ()
  require lease ()
  require completion ()
  return request

namespace DumpJob
variable {Tree : Type} (job : DumpJob) (host : DumpHost)

def running (written : Nat) : DumpStatus :=
  { state := .running, written, total := job.totalSize, path := job.filename }

def callbacks : DumpCallbacks (DumpWorld Tree) where
  reader := host.reader
  writer round bytes world :=
    match host.raises round with
    | none =>
        (.returned true, { world with documents := world.documents.writeData job.filename bytes })
    | some (count, reason) =>
        (.raised reason,
          { world with documents := world.documents.writeData job.filename (bytes.take count) })
  cancelled := host.cancelled
  progress written _ world := { world with status := job.running written }

def failureOf (result : JJMemoryDumpResult) : Option String :=
  match result.status with
  | .readFailed => some ("Unreadable memory at " ++ hexAddress result.failureAddress)
  | .writeFailed => some "Unable to write dump file"
  | .invalidInput => some "Invalid dump request"
  | .completed | .cancelled => none

def finish (success cancelled : Bool) (failure : Option String) (written : Nat)
    (documents : Documents Tree) : DumpWorld Tree where
  documents := if success then documents else documents.removeItem job.filename
  status :=
    { state := if success then .completed else if cancelled then .cancelled else .failed
      written
      total := job.totalSize
      path := job.filename
      error := failure }

def conclude : Except (Option String) JJMemoryDumpResult × DumpWorld Tree → DumpWorld Tree
  | (.ok result, world) =>
      job.finish (result.status = .completed) (result.status = .cancelled) (failureOf result)
        result.bytesWritten world.documents
  | (.error reason, world) =>
      job.finish false false (some (reason.getD "File write failed")) 0 world.documents

/-- The worker block. -/
def work (documents : Documents Tree) : DumpWorld Tree :=
  let (created, documents) := documents.createFile job.filename host.creates
  if created && host.opens then
    job.conclude (jjStreamMemoryDump (job.callbacks host) job.address job.totalSize (64 * 1024)
      ⟨documents, job.running 0⟩)
  else job.finish false false (some "Unable to create dump file") 0 documents

end DumpJob

end H5GG

import H5GG.Dump.Controller
import H5GG.Library.Machine

/-!
# Dump jobs in time

`startFrom:end:filename:`, `cancel` and the two blocks of a job, one access to shared state at a
time. `held` is where a caller stands inside `@synchronized(self)`; one that waits for it changes
nothing. The blocks do not take that lock.
-/

namespace H5GG
open Validation

/-- `H5GGDumpTargetLease`, with the number of times its release block has run. -/
structure Lease where
  armed : Bool := true
  releases : Nat := 0
  deriving DecidableEq, Repr

def Lease.invalidate (lease : Lease) : Lease :=
  if lease.armed then { armed := false, releases := lease.releases + 1 } else lease

/-- What the worker captures for its completion block. -/
structure Outcome where
  success : Bool
  cancelled : Bool
  failure : Option String
  written : Nat
  deriving DecidableEq, Repr

namespace Outcome

def ofResult (result : JJMemoryDumpResult) : Outcome where
  success := result.status = .completed
  cancelled := result.status = .cancelled
  failure := DumpJob.failureOf result
  written := result.bytesWritten

def failed (failure : Option String) : Outcome := ⟨false, false, failure, 0⟩

def state (outcome : Outcome) : DumpState :=
  if outcome.success then .completed else if outcome.cancelled then .cancelled else .failed

def status (job : DumpJob) (outcome : Outcome) : DumpStatus where
  state := outcome.state
  written := outcome.written
  total := job.totalSize
  path := job.filename
  error := outcome.failure

end Outcome

/-- Where a job stands: handed to the executor or not yet, in one of the steps of its worker, and
from `concluding` on in its completion block. -/
inductive Phase
  | accepted
  | queued
  | polling
  | reading
  | writing (count : Nat)
  | reporting
  | closing (outcome : Outcome)
  | submitting (outcome : Outcome)
  | concluding (outcome : Outcome)
  | calling (outcome : Outcome)
  | done (outcome : Outcome)
  deriving DecidableEq, Repr

structure Job where
  request : DumpJob
  lease : Lease
  phase : Phase := .accepted
  /-- The bytes of the writes that have returned. -/
  written : Nat := 0
  /-- Whether a `cancel` that found this job running has answered `YES`. -/
  cancelAccepted : Bool := false
  /-- The state its completion block has published, if the controller was still there. -/
  published : Option DumpState := none
  completions : List Bool := []
  deriving DecidableEq, Repr

/-- What a call of the worker answers: whether it succeeds, the bytes it reads, the reason it
raises. -/
structure Answer where
  ok : Bool := true
  count : Nat := 0
  reason : Option String := none

namespace Job

def running (job : Job) : Bool :=
  match job.phase with
  | .calling _ | .done _ => false
  | _ => true

/-- The next step of a job's own blocks; `stop` is what the cancellation callback sees. -/
def next (controller stop : Bool) (answer : Answer) (job : Job) : Job :=
  let total := job.request.totalSize
  match job.phase with
  | .accepted => { job with phase := .queued }
  | .queued =>
      if !answer.ok then { job with phase := .closing (.failed (some "Unable to create dump file")) }
      else if total = 0 || 2 ^ 64 - 1 - job.request.address < total - 1 then
        { job with phase := .closing (.ofResult { failureAddress := job.request.address }) }
      else { job with phase := .polling }
  | .polling =>
      if total ≤ job.written then
        { job with phase := .closing (.ofResult ⟨.completed, job.written, job.request.address⟩) }
      else if !controller || stop then
        { job with phase := .closing (.ofResult ⟨.cancelled, job.written, job.request.address⟩) }
      else { job with phase := .reading }
  | .reading =>
      let read := min answer.count (min (min (64 * 1024) total) (total - job.written))
      if read = 0 then
        let failure := u64 (job.request.address + job.written)
        { job with phase := .closing (.ofResult ⟨.readFailed, job.written, failure⟩) }
      else { job with phase := .writing read }
  | .writing count =>
      if answer.ok then { job with phase := .reporting, written := job.written + count }
      else { job with phase := .closing (.failed (some (answer.reason.getD "File write failed"))) }
  | .reporting => { job with phase := .polling }
  | .closing outcome => { job with phase := .submitting outcome, lease := job.lease.invalidate }
  | .submitting outcome => { job with phase := .concluding outcome }
  | .concluding outcome =>
      { job with
        phase := .calling outcome
        published := if controller then some outcome.state else none }
  | .calling outcome =>
      { job with phase := .done outcome, completions := job.completions ++ [outcome.success] }
  | .done _ => job

/-- The status that the next step sets, on a controller that is still there. -/
def publishes (job : Job) : Option DumpStatus :=
  match job.phase with
  | .reporting => some (job.request.running job.written)
  | .concluding outcome => some (outcome.status job.request)
  | _ => none

end Job

inductive Held
  | checked (request : DumpJob)
  | leased (request : DumpJob) (lease : Lease)
  | ready (request : DumpJob) (lease : Lease)
  | reset (request : DumpJob) (lease : Lease)
  | cancelling
  deriving DecidableEq, Repr

structure DumpSystem where
  /-- Whether the controller has not been released. -/
  controller : Bool := true
  status : DumpStatus := {}
  cancelled : Bool := false
  held : Option Held := none
  jobs : List Job := []
  /-- The leases of starts that were turned away after they had got one. -/
  abandoned : List Lease := []

inductive DumpEvent
  | enterStart (start stop filename : Option NSString)
  | provideTarget (found : Bool)
  | provideCompletion (found : Bool)
  | resetCancelled
  | publish
  | enterCancel
  | acceptCancel
  | work (job : Nat) (answer : Answer)
  | releaseController
  | deallocLease (job : Nat)
  | deallocAbandoned (lease : Nat)

namespace DumpSystem

def workOn (job : Nat) (answer : Answer) (s : DumpSystem) : DumpSystem :=
  match s.jobs[job]? with
  | none => s
  | some current =>
      { s with
        jobs := s.jobs.set job (current.next s.controller s.cancelled answer)
        status := if s.controller then current.publishes.getD s.status else s.status }

def step : DumpEvent → DumpSystem → DumpSystem
  | .enterStart start stop filename, s =>
      match dumpRequest start stop filename with
      | .error _ => s
      | .ok request =>
          if !s.controller || s.held.isSome || s.status.state = .running then s
          else { s with held := some (.checked request) }
  | .provideTarget found, s =>
      match s.held with
      | some (.checked request) =>
          { s with held := if found then some (.leased request {}) else none }
      | _ => s
  | .provideCompletion found, s =>
      match s.held with
      | some (.leased request lease) =>
          if found then { s with held := some (.ready request lease) }
          else { s with held := none, abandoned := s.abandoned ++ [lease.invalidate] }
      | _ => s
  | .resetCancelled, s =>
      match s.held with
      | some (.ready request lease) =>
          { s with cancelled := false, held := some (.reset request lease) }
      | _ => s
  | .publish, s =>
      match s.held with
      | some (.reset request lease) =>
          { s with
            status := request.running 0
            held := none
            jobs := s.jobs ++ [{ request, lease }] }
      | _ => s
  | .enterCancel, s =>
      if s.controller && s.held.isNone && s.status.state = .running then
        { s with held := some .cancelling }
      else s
  | .acceptCancel, s =>
      match s.held with
      | some .cancelling =>
          { s with
            cancelled := true
            held := none
            jobs := s.jobs.modify (s.jobs.length - 1) fun job => { job with cancelAccepted := true } }
      | _ => s
  | .work job answer, s => workOn job answer s
  | .releaseController, s =>
      if s.held.isNone && s.jobs.all (·.phase ≠ .accepted) then
        { s with controller := false, cancelled := true }
      else s
  | .deallocLease job, s =>
      { s with jobs := s.jobs.modify job fun job =>
          match job.phase with
          | .concluding _ | .calling _ | .done _ => { job with lease := job.lease.invalidate }
          | _ => job }
  | .deallocAbandoned lease, s => { s with abandoned := s.abandoned.modify lease Lease.invalidate }

end DumpSystem

end H5GG

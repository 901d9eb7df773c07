import H5GG.Dump.Lifecycle
import H5GG.Library.Table
import H5GG.Proof.Dump

/-!
# What holds of dump jobs at any time
-/

namespace H5GG
open Validation

def Lease.released : Lease := { armed := false, releases := 1 }

@[simp] theorem Lease.invalidate_new : ({} : Lease).invalidate = .released := rfl

namespace Phase

def outcome : Phase → Option Outcome
  | .closing outcome | .submitting outcome | .concluding outcome | .calling outcome
  | .done outcome => some outcome
  | _ => none

/-- The lease is held until the worker has invalidated it. -/
def lease : Phase → Lease
  | .submitting _ | .concluding _ | .calling _ | .done _ => .released
  | _ => {}

def completions : Phase → List Bool
  | .done outcome => [outcome.success]
  | _ => []

/-- What the bytes written so far and the bytes asked for are at a phase. -/
def Fits (written total : Nat) : Phase → Prop
  | .accepted | .queued => written = 0
  | .reading => written < total
  | .writing count => 0 < count ∧ written + count ≤ total
  | _ => True

end Phase

namespace Job

structure Good (controller : Bool) (job : Job) : Prop where
  nonempty : 0 < job.request.totalSize
  bounded : job.written ≤ job.request.totalSize
  fits : job.phase.Fits job.written job.request.totalSize
  lease : job.lease = job.phase.lease
  completions : job.completions = job.phase.completions
  success : ∀ outcome, job.phase.outcome = some outcome →
    (outcome.success = true ↔ job.written = job.request.totalSize)
  cancelled : ∀ outcome, job.phase.outcome = some outcome → outcome.cancelled = true →
    job.cancelAccepted = true ∨ controller = false
  published : ∀ state, job.published = some state →
    ∃ outcome, job.phase.outcome = some outcome ∧ state = outcome.state
  announced : controller = true → job.running = false → job.published.isSome = true

variable {controller stop : Bool} {answer : Answer} {job : Job}

theorem Good.release (good : job.Good controller) : job.Good false :=
  { good with
    cancelled := fun _ _ _ => .inr rfl
    announced := fun gone => (nomatch gone) }

theorem Good.accept (good : job.Good controller) :
    ({ job with cancelAccepted := true } : Job).Good controller :=
  { good with cancelled := fun _ _ _ => .inl rfl }

theorem Good.dropLease (good : job.Good controller) (released : job.phase.lease = .released) :
    ({ job with lease := job.lease.invalidate } : Job).Good controller :=
  { good with
    lease := by
      rw [good.lease, released]
      rfl }

theorem good_of_ended {outcome : Outcome} (good : job.Good controller)
    (before : job.phase.outcome = none) (held : job.phase.lease = {})
    (unfinished : job.phase.completions = [])
    (success : outcome.success = true ↔ job.written = job.request.totalSize)
    (cancelled : outcome.cancelled = true → job.cancelAccepted = true ∨ controller = false) :
    ({ job with phase := .closing outcome } : Job).Good controller where
  nonempty := good.nonempty
  bounded := good.bounded
  fits := trivial
  lease := good.lease.trans held
  completions := good.completions.trans unfinished
  success other same := Option.some.inj same ▸ success
  cancelled other same := Option.some.inj same ▸ cancelled
  published state told := by
    obtain ⟨outcome, same, -⟩ := good.published state told
    rw [before] at same
    cases same
  announced _ stopped := (nomatch stopped)

theorem running_of_outcome {phase : Phase} (going : phase.outcome = none) :
    ({ job with phase } : Job).running = true := by
  cases phase <;> first | rfl | cases going

theorem good_of_going {phase : Phase} (good : job.Good controller)
    (before : job.phase.outcome = none) (held : job.phase.lease = {})
    (unfinished : job.phase.completions = []) (after : phase.outcome = none)
    (holds : phase.lease = {}) (going : phase.completions = []) {written : Nat} (bounded : written ≤ job.request.totalSize)
    (fits : phase.Fits written job.request.totalSize) :
    ({ job with phase, written } : Job).Good controller where
  nonempty := good.nonempty
  bounded := bounded
  fits := fits
  lease := (good.lease.trans held).trans holds.symm
  completions := (good.completions.trans unfinished).trans going.symm
  success other same := by cases after.symm.trans same
  cancelled other same := by cases after.symm.trans same
  published state told := by
    obtain ⟨outcome, same, -⟩ := good.published state told
    cases before.symm.trans same
  announced _ stopped := by
    have runs : ({ job with phase } : Job).running = true := running_of_outcome after
    cases runs.symm.trans stopped

theorem next_good (good : job.Good controller)
    (honest : controller = true → stop = true → job.running = true → job.cancelAccepted = true) :
    (job.next controller stop answer).Good controller := by
  obtain ⟨request, lease, phase, written, cancelAccepted, published, completions⟩ := job
  have bounded : written ≤ request.totalSize := good.bounded
  have nonempty : 0 < request.totalSize := good.nonempty
  have fits := good.fits
  cases phase with
  | accepted => exact good_of_going good rfl rfl rfl rfl rfl rfl bounded fits
  | queued =>
      have unwritten : written = 0 := fits
      have short : written ≠ request.totalSize := by omega
      simp only [next]
      split_ifs
      · exact good_of_ended good rfl rfl rfl (by simp [Outcome.failed, short])
          (by simp [Outcome.failed])
      · exact good_of_ended good rfl rfl rfl (by simp [Outcome.ofResult, short])
          (by simp [Outcome.ofResult])
      · exact good_of_going good rfl rfl rfl rfl rfl rfl bounded trivial
  | polling =>
      simp only [next]
      split_ifs with complete stopped
      · exact good_of_ended good rfl rfl rfl
          (by simp [Outcome.ofResult, Nat.le_antisymm bounded complete]) (by simp [Outcome.ofResult])
      · have short : written ≠ request.totalSize := by omega
        refine good_of_ended good rfl rfl rfl (by simp [Outcome.ofResult, short]) fun _ => ?_
        cases controller with
        | false => exact .inr rfl
        | true => exact .inl (honest rfl (by simpa using stopped) rfl)
      · exact good_of_going good rfl rfl rfl rfl rfl rfl bounded (Nat.lt_of_not_le complete)
  | reading =>
      have unfinished : written < request.totalSize := fits
      simp only [next]
      split_ifs with unread
      · exact good_of_ended good rfl rfl rfl
          (by simp [Outcome.ofResult, Nat.ne_of_lt unfinished]) (by simp [Outcome.ofResult])
      · have inside : written + min answer.count (min (min (64 * 1024) request.totalSize)
            (request.totalSize - written)) ≤ request.totalSize := by omega
        exact good_of_going good rfl rfl rfl rfl rfl rfl bounded
          ⟨Nat.pos_of_ne_zero unread, inside⟩
  | writing count =>
      obtain ⟨some, inside⟩ : 0 < count ∧ written + count ≤ request.totalSize := fits
      simp only [next]
      split_ifs
      · exact good_of_going good rfl rfl rfl rfl rfl rfl inside trivial
      · have short : written ≠ request.totalSize := by omega
        exact good_of_ended good rfl rfl rfl (by simp [Outcome.failed, short])
          (by simp [Outcome.failed])
  | reporting => exact good_of_going good rfl rfl rfl rfl rfl rfl bounded trivial
  | closing outcome =>
      exact { good with
        fits := trivial
        lease := by
          have held : lease = {} := good.lease
          simp [next, held, Phase.lease] }
  | submitting outcome => exact { good with fits := trivial }
  | concluding outcome =>
      exact { good with
        fits := trivial
        published := by
          intro state told
          cases controller with
          | false => cases told
          | true => exact ⟨outcome, rfl, (Option.some.inj told).symm⟩
        announced := by
          rintro rfl -
          rfl }
  | calling outcome =>
      exact { good with
        fits := trivial
        completions := by
          have called : completions = [] := good.completions
          simp [next, called, Phase.completions] }
  | done outcome => exact good

theorem next_publishes (controller stop : Bool) (answer : Answer) (job : Job) :
    (job.publishes = none ∧ (job.next controller stop answer).running = job.running ∧
        (job.running = false → (job.next controller stop answer).published = job.published)) ∨
      (∃ status, job.publishes = some status ∧ status.state = .running ∧ job.running = true ∧
        (job.next controller stop answer).running = true) ∨
      ∃ status, job.publishes = some status ∧ status.state ≠ .running ∧ job.running = true ∧
        (job.next controller stop answer).running = false ∧
        (job.next controller stop answer).published =
          if controller then some status.state else none := by
  obtain ⟨request, lease, phase, written, cancelAccepted, published, completions⟩ := job
  cases phase with
  | reporting => exact .inr (.inl ⟨_, rfl, rfl, rfl, rfl⟩)
  | concluding outcome =>
      refine .inr (.inr ⟨_, rfl, ?_, rfl, rfl, rfl⟩)
      simp only [Outcome.status, Outcome.state]
      split_ifs <;> simp
  | queued =>
      left
      refine ⟨rfl, ?_, fun stopped => (nomatch stopped)⟩
      simp only [next]
      split_ifs <;> rfl
  | polling =>
      left
      refine ⟨rfl, ?_, fun stopped => (nomatch stopped)⟩
      simp only [next]
      split_ifs <;> rfl
  | reading =>
      left
      refine ⟨rfl, ?_, fun stopped => (nomatch stopped)⟩
      simp only [next]
      split_ifs <;> rfl
  | writing count =>
      left
      refine ⟨rfl, ?_, fun stopped => (nomatch stopped)⟩
      simp only [next]
      split_ifs <;> rfl
  | _ => exact .inl ⟨rfl, rfl, fun _ => rfl⟩

theorem running_of_next (runs : (job.next controller stop answer).running = true) :
    job.running = true := by
  rcases next_publishes controller stop answer job with ⟨-, same, -⟩ | ⟨-, -, -, before, -⟩ |
      ⟨-, -, -, before, -⟩
  · exact same ▸ runs
  · exact before
  · exact before

/-- The steps that a job's blocks take at most until they are done. -/
def remaining (job : Job) : Nat :=
  let rounds := 4 * (job.request.totalSize - job.written)
  match job.phase with
  | .accepted => rounds + 7
  | .queued => rounds + 6
  | .polling => rounds + 5
  | .reading => rounds + 4
  | .writing _ => rounds + 3
  | .reporting => rounds + 6
  | .closing _ => 4
  | .submitting _ => 3
  | .concluding _ => 2
  | .calling _ => 1
  | .done _ => 0

theorem next_remaining (good : job.Good controller) :
    (job.next controller stop answer).remaining ≤ job.remaining - 1 := by
  obtain ⟨request, lease, phase, written, cancelAccepted, published, completions⟩ := job
  have fits := good.fits
  cases phase with
  | queued =>
      simp only [next]
      split_ifs <;> simp only [remaining] <;> omega
  | polling =>
      simp only [next]
      split_ifs <;> simp only [remaining] <;> omega
  | reading =>
      have unfinished : written < request.totalSize := fits
      simp only [next]
      split_ifs <;> simp only [remaining] <;> omega
  | writing count =>
      obtain ⟨some, inside⟩ : 0 < count ∧ written + count ≤ request.totalSize := fits
      simp only [next]
      split_ifs <;> simp only [remaining] <;> omega
  | _ => simp [next, remaining]

theorem done_of_remaining (spent : job.remaining = 0) : ∃ outcome, job.phase = .done outcome := by
  obtain ⟨request, lease, phase, written, cancelAccepted, published, completions⟩ := job
  cases phase with
  | done outcome => exact ⟨outcome, rfl⟩
  | _ => simp [remaining] at spent

theorem next_cancelAccepted :
    (job.next controller stop answer).cancelAccepted = job.cancelAccepted := by
  unfold next
  split <;> simp only <;> split_ifs <;> rfl

end Job

namespace DumpSystem

def Idle (jobs : List Job) : Prop :=
  ∀ (i : Nat) (job : Job), jobs[i]? = some job → job.running = false

/-- What a `startFrom` past its check for a running job can rely on. -/
structure Vacant (s : DumpSystem) (request : DumpJob) : Prop where
  controller : s.controller = true
  nonempty : 0 < request.totalSize
  idle : Idle s.jobs

def Holds (s : DumpSystem) : Held → Prop
  | .checked request => s.Vacant request
  | .leased request lease | .ready request lease => s.Vacant request ∧ lease = {}
  | .reset request lease => s.Vacant request ∧ lease = {} ∧ s.cancelled = false
  | .cancelling => s.controller = true

structure Good (s : DumpSystem) : Prop where
  jobs : ∀ (i : Nat) (job : Job), s.jobs[i]? = some job → job.Good s.controller
  last : ∀ (i : Nat) (job : Job), s.jobs[i]? = some job → job.running = true → i + 1 = s.jobs.length
  running : s.controller = true →
    (s.status.state = .running ↔ ∃ (i : Nat) (job : Job), s.jobs[i]? = some job ∧ job.running = true)
  told : s.controller = true → ∀ (i : Nat) (job : Job), s.jobs[i]? = some job →
    i + 1 = s.jobs.length → job.running = false → job.published = some s.status.state
  cancelled : s.controller = true → s.cancelled = true →
    ∀ (i : Nat) (job : Job), s.jobs[i]? = some job → job.running = true → job.cancelAccepted = true
  held : ∀ held, s.held = some held → s.Holds held
  abandoned : ∀ lease ∈ s.abandoned, lease = .released

theorem good_initial : ({} : DumpSystem).Good where
  jobs i job listed := by cases listed
  last i job listed := by cases listed
  running _ := by
    constructor
    · intro state
      cases state
    · rintro ⟨i, job, listed, -⟩
      cases listed
  told _ i job listed := by cases listed
  cancelled _ set := by cases set
  held held same := by cases same
  abandoned lease member := by cases member

variable {s : DumpSystem}

theorem Holds.mono {after : DumpSystem} {held : Held} (holds : s.Holds held)
    (controller : after.controller = s.controller) (cancelled : after.cancelled = s.cancelled)
    (idle : Idle s.jobs → Idle after.jobs) : after.Holds held := by
  have vacant : ∀ {request}, s.Vacant request → after.Vacant request := fun vacant =>
    ⟨controller.trans vacant.controller, vacant.nonempty, idle vacant.idle⟩
  cases held with
  | checked request => exact vacant holds
  | leased request lease => exact ⟨vacant holds.1, holds.2⟩
  | ready request lease => exact ⟨vacant holds.1, holds.2⟩
  | reset request lease => exact ⟨vacant holds.1, holds.2.1, cancelled.trans holds.2.2⟩
  | cancelling => exact controller.trans holds

theorem Good.modify (good : s.Good) (index : Nat) {change : Job → Job}
    (keeps : ∀ job, job.Good s.controller → (change job).Good s.controller)
    (running : ∀ job, (change job).running = job.running)
    (published : ∀ job, (change job).published = job.published)
    (accepted : ∀ job, job.cancelAccepted = true → (change job).cancelAccepted = true) :
    ({ s with jobs := s.jobs.modify index change } : DumpSystem).Good := by
  have each : ∀ (i : Nat) (job : Job), (s.jobs.modify index change)[i]? = some job →
      ∃ old, s.jobs[i]? = some old ∧
      (job = old ∨ job = change old) := by
    intro i job listed
    rw [List.getElem?_modify, Option.map_eq_map, Option.map_eq_some_iff] at listed
    obtain ⟨old, present, rfl⟩ := listed
    split_ifs
    · exact ⟨old, present, .inr rfl⟩
    · exact ⟨old, present, .inl rfl⟩
  have same : ∀ (i : Nat) (job : Job), (s.jobs.modify index change)[i]? = some job →
      ∃ old, s.jobs[i]? = some old ∧
      job.running = old.running ∧ job.published = old.published ∧
      (old.cancelAccepted = true → job.cancelAccepted = true) := by
    intro i job listed
    obtain ⟨old, present, rfl | rfl⟩ := each i job listed
    · exact ⟨job, present, rfl, rfl, id⟩
    · exact ⟨old, present, running old, published old, accepted old⟩
  have still : Idle s.jobs → Idle (s.jobs.modify index change) := by
    intro stopped i job listed
    obtain ⟨old, present, runs, -⟩ := same i job listed
    rw [runs, stopped i old present]
  refine ⟨?_, ?_, ?_, ?_, ?_, ?_, good.abandoned⟩
  · intro i job listed
    obtain ⟨old, present, rfl | rfl⟩ := each i job listed
    · exact good.jobs i job present
    · exact keeps old (good.jobs i old present)
  · intro i job listed runs
    obtain ⟨old, present, same, -⟩ := same i job listed
    rw [List.length_modify]
    exact good.last i old present (same ▸ runs)
  · intro controller
    rw [good.running controller]
    constructor
    · rintro ⟨i, job, present, runs⟩
      have listed : (s.jobs.modify index change)[i]? =
          some (if index = i then change job else job) := by
        simp [List.getElem?_modify, present]
      refine ⟨i, _, listed, ?_⟩
      split_ifs
      · rw [running, runs]
      · exact runs
    · rintro ⟨i, job, listed, runs⟩
      obtain ⟨old, present, same, -⟩ := same i job listed
      exact ⟨i, old, present, same ▸ runs⟩
  · intro controller i job listed final stopped
    obtain ⟨old, present, runs, told, -⟩ := same i job listed
    rw [List.length_modify] at final
    rw [told]
    exact good.told controller i old present final (runs ▸ stopped)
  · intro controller set i job listed runs
    obtain ⟨old, present, same, -, mono⟩ := same i job listed
    exact mono (good.cancelled controller set i old present (same ▸ runs))
  · exact fun held inside => (good.held held inside).mono rfl rfl still

theorem Good.hold (good : s.Good) {held : Option Held}
    (holds : ∀ inside, held = some inside → s.Holds inside) :
    ({ s with held } : DumpSystem).Good where
  jobs := good.jobs
  last := good.last
  running := good.running
  told := good.told
  cancelled := good.cancelled
  held inside same := (holds inside same).mono rfl rfl id
  abandoned := good.abandoned

theorem Good.workOn_running (good : s.Good) {index : Nat} {job : Job}
    (current : s.jobs[index]? = some job) (controller : s.controller = true) (answer : Answer) :
    (job.publishes.getD s.status).state = .running ↔ ∃ (i : Nat) (other : Job),
      (s.jobs.set index (job.next s.controller s.cancelled answer))[i]? = some other ∧
        other.running = true := by
  have before := good.running controller
  have mine := List.getElem?_set_self (a := job.next s.controller s.cancelled answer)
    (List.getElem?_eq_some_iff.mp current).1
  rcases Job.next_publishes s.controller s.cancelled answer job with ⟨quiet, same, -⟩ |
      ⟨status, told, state, runs, going⟩ | ⟨status, told, state, runs, stopped, -⟩
  · rw [quiet, Option.getD_none, before]
    constructor
    · rintro ⟨i, other, present, runs⟩
      by_cases here : i = index
      · subst here
        rw [current, Option.some.injEq] at present
        exact ⟨i, _, mine, same.trans (present ▸ runs)⟩
      · exact ⟨i, other, (List.getElem?_set_ne (Ne.symm here)).trans present, runs⟩
    · rintro ⟨i, other, listed, runs⟩
      rcases getElem?_set_some listed with ⟨rfl, rfl⟩ | ⟨-, present⟩
      · exact ⟨i, job, current, Job.running_of_next runs⟩
      · exact ⟨i, other, present, runs⟩
  · rw [told, Option.getD_some]
    exact iff_of_true state ⟨index, _, mine, going⟩
  · rw [told, Option.getD_some]
    refine iff_of_false state ?_
    rintro ⟨i, other, listed, going⟩
    rcases getElem?_set_some listed with ⟨rfl, rfl⟩ | ⟨apart, present⟩
    · rw [stopped] at going
      cases going
    · have first := good.last index job current runs
      have second := good.last i other present going
      omega

theorem Good.workOn_told (good : s.Good) {index : Nat} {job : Job}
    (current : s.jobs[index]? = some job) (controller : s.controller = true) {answer : Answer}
    {i : Nat} {other : Job}
    (listed : (s.jobs.set index (job.next s.controller s.cancelled answer))[i]? = some other)
    (final : i + 1 = s.jobs.length) (stopped : other.running = false) :
    other.published = some (job.publishes.getD s.status).state := by
  rcases Job.next_publishes s.controller s.cancelled answer job with ⟨quiet, same, kept⟩ |
      ⟨status, told, state, runs, going⟩ | ⟨status, told, state, runs, -, published⟩
  · rw [quiet, Option.getD_none]
    rcases getElem?_set_some listed with ⟨rfl, rfl⟩ | ⟨-, present⟩
    · rw [kept (same ▸ stopped)]
      exact good.told controller i job current final (same ▸ stopped)
    · exact good.told controller i other present final stopped
  · have first := good.last index job current runs
    rcases getElem?_set_some listed with ⟨rfl, rfl⟩ | ⟨apart, -⟩
    · rw [going] at stopped
      cases stopped
    · omega
  · have first := good.last index job current runs
    rcases getElem?_set_some listed with ⟨rfl, rfl⟩ | ⟨apart, -⟩
    · rw [published, told, controller]
      rfl
    · omega

theorem Good.workOn (good : s.Good) (index : Nat) (answer : Answer) :
    (s.workOn index answer).Good := by
  unfold DumpSystem.workOn
  cases current : s.jobs[index]? with
  | none => exact good
  | some job =>
      have honest := fun controller set => good.cancelled controller set index job current
      have still : Idle s.jobs →
          Idle (s.jobs.set index (job.next s.controller s.cancelled answer)) := by
        intro stopped i other listed
        rcases getElem?_set_some listed with ⟨-, rfl⟩ | ⟨-, present⟩
        · refine Bool.eq_false_iff.mpr fun runs => ?_
          cases (stopped index job current).symm.trans (Job.running_of_next runs)
        · exact stopped i other present
      dsimp only
      refine ⟨?_, ?_, ?_, ?_, ?_, ?_, good.abandoned⟩
      · intro i other listed
        rcases getElem?_set_some listed with ⟨-, rfl⟩ | ⟨-, present⟩
        · exact Job.next_good (good.jobs index job current) honest
        · exact good.jobs i other present
      · intro i other listed runs
        rw [List.length_set]
        rcases getElem?_set_some listed with ⟨rfl, rfl⟩ | ⟨-, present⟩
        · exact good.last i job current (Job.running_of_next runs)
        · exact good.last i other present runs
      · intro controller
        replace controller : s.controller = true := controller
        have running := good.workOn_running current controller answer
        rwa [if_pos controller]
      · intro controller i other listed final stopped
        replace controller : s.controller = true := controller
        rw [List.length_set] at final
        have told := good.workOn_told current controller listed final stopped
        rwa [if_pos controller]
      · intro controller set i other listed runs
        rcases getElem?_set_some listed with ⟨rfl, rfl⟩ | ⟨-, present⟩
        · rw [Job.next_cancelAccepted]
          exact good.cancelled controller set i job current (Job.running_of_next runs)
        · exact good.cancelled controller set i other present runs
      · exact fun held present => (good.held held present).mono rfl rfl still

theorem dumpRequest_nonempty {start stop filename : Option NSString} {request : DumpJob}
    (checked : dumpRequest start stop filename = .ok request) : 0 < request.totalSize := by
  simp only [dumpRequest, bind_eq_ok, accept_eq_ok, require_eq_ok, Bool.and_eq_true,
    decide_eq_true_eq, pure_eq_ok] at checked
  obtain ⟨-, -, -, -, address, -, stop, -, -, ⟨-, ordered⟩, name, -, rfl⟩ := checked
  exact Nat.sub_pos_of_lt ordered

theorem Good.idle (good : s.Good) (controller : s.controller = true)
    (state : s.status.state ≠ .running) : Idle s.jobs := by
  intro i job present
  by_contra runs
  exact state ((good.running controller).mpr ⟨i, job, present, by simpa using runs⟩)

theorem Good.publish (good : s.Good) {request : DumpJob} (vacant : s.Vacant request)
    (reset : s.cancelled = false) :
    ({ s with
      status := request.running 0
      held := none
      jobs := s.jobs ++ [{ request, lease := {} }] } : DumpSystem).Good := by
  refine ⟨?_, ?_, ?_, ?_, ?_, fun held same => (nomatch same), good.abandoned⟩
  · intro i job listed
    rcases getElem?_concat_some listed with present | ⟨-, rfl⟩
    · exact good.jobs i job present
    · exact ⟨vacant.nonempty, Nat.zero_le _, rfl, rfl, rfl, fun _ same => (nomatch same),
        fun _ same => (nomatch same), fun _ same => (nomatch same),
        fun _ stopped => (nomatch stopped)⟩
  · intro i job listed runs
    rw [List.length_append, List.length_singleton]
    rcases getElem?_concat_some listed with present | ⟨rfl, -⟩
    · cases (vacant.idle i job present).symm.trans runs
    · rfl
  · intro _
    refine iff_of_true rfl ⟨s.jobs.length, { request, lease := {} }, ?_, rfl⟩
    rw [List.getElem?_append_right (Nat.le_refl _), Nat.sub_self]
    rfl
  · intro _ i job listed final stopped
    rw [List.length_append, List.length_singleton] at final
    rcases getElem?_concat_some listed with present | ⟨-, rfl⟩
    · have before := (List.getElem?_eq_some_iff.mp present).1
      omega
    · cases stopped
  · intro _ set
    replace set : s.cancelled = true := set
    cases reset.symm.trans set

theorem Good.acceptCancel (good : s.Good) :
    ({ s with
      cancelled := true
      held := none
      jobs := s.jobs.modify (s.jobs.length - 1) fun job => { job with cancelAccepted := true } }
      : DumpSystem).Good := by
  have marked := good.modify (s.jobs.length - 1) (fun _ good => good.accept) (fun _ => rfl)
    (fun _ => rfl) fun _ _ => rfl
  refine ⟨marked.jobs, marked.last, marked.running, marked.told, ?_, fun held same => (nomatch same),
    good.abandoned⟩
  intro _ _ i job listed runs
  have final := marked.last i job listed runs
  rw [List.length_modify] at final
  rw [show s.jobs.length - 1 = i by omega, List.getElem?_modify_eq, Option.map_eq_map,
    Option.map_eq_some_iff] at listed
  obtain ⟨old, -, rfl⟩ := listed
  rfl

theorem Good.enterStart (good : s.Good) (start stop filename : Option NSString) :
    (step (.enterStart start stop filename) s).Good := by
  simp only [step]
  cases checked : dumpRequest start stop filename with
  | error failure => exact good
  | ok request =>
      dsimp only
      split
      · exact good
      · rename_i free
        simp only [Bool.or_eq_true, Bool.not_eq_true', decide_eq_true_eq, not_or,
          Bool.not_eq_false] at free
        obtain ⟨⟨controller, -⟩, state⟩ := free
        refine good.hold fun inside same => ?_
        obtain rfl := Option.some.inj same
        exact ⟨controller, dumpRequest_nonempty checked, good.idle controller state⟩

theorem Good.abandon (good : s.Good) :
    ({ s with held := none, abandoned := s.abandoned ++ [.released] } : DumpSystem).Good := by
  obtain ⟨jobs, last, running, told, cancelled, -, abandoned⟩ := good
  refine ⟨jobs, last, running, told, cancelled, fun held same => (nomatch same), ?_⟩
  intro lease member
  cases List.mem_append.mp member with
  | inl old => exact abandoned lease old
  | inr new => exact List.mem_singleton.mp new

theorem Good.resetCancelled (good : s.Good) {request : DumpJob} (vacant : s.Vacant request) :
    ({ s with cancelled := false, held := some (.reset request {}) } : DumpSystem).Good := by
  refine ⟨good.jobs, good.last, good.running, good.told, fun _ set => (nomatch set), ?_,
    good.abandoned⟩
  intro held same
  obtain rfl := Option.some.inj same
  exact ⟨⟨vacant.controller, vacant.nonempty, vacant.idle⟩, rfl, rfl⟩

theorem Good.releaseController (good : s.Good) (free : s.held = none) :
    ({ s with controller := false, cancelled := true } : DumpSystem).Good := by
  refine ⟨fun i job present => (good.jobs i job present).release, good.last,
    fun gone => (nomatch gone), fun gone => (nomatch gone), fun gone => (nomatch gone), ?_,
    good.abandoned⟩
  intro held same
  cases free.symm.trans same

theorem Good.deallocLease (good : s.Good) (index : Nat) : (step (.deallocLease index) s).Good := by
  refine good.modify index ?_ ?_ ?_ ?_
  · intro job fine
    split
    · rename_i phase
      exact fine.dropLease (by rw [phase]; rfl)
    · rename_i phase
      exact fine.dropLease (by rw [phase]; rfl)
    · rename_i phase
      exact fine.dropLease (by rw [phase]; rfl)
    · exact fine
  · intro job
    split <;> rfl
  · intro job
    split <;> rfl
  · intro job
    split <;> exact id

theorem Good.deallocAbandoned (good : s.Good) (index : Nat) :
    (step (.deallocAbandoned index) s).Good := by
  obtain ⟨jobs, last, running, told, cancelled, held, abandoned⟩ := good
  refine ⟨jobs, last, running, told, cancelled,
    fun inside same => (held inside same).mono rfl rfl id, ?_⟩
  intro other member
  obtain ⟨i, listed⟩ := List.mem_iff_getElem?.mp member
  simp only [step, List.getElem?_modify, Option.map_eq_map, Option.map_eq_some_iff] at listed
  obtain ⟨old, present, rfl⟩ := listed
  rw [abandoned old (List.mem_of_getElem? present)]
  split_ifs <;> rfl

theorem step_good (event : DumpEvent) (s : DumpSystem) (good : s.Good) : (step event s).Good := by
  cases event with
  | enterStart start stop filename => exact good.enterStart start stop filename
  | provideTarget found =>
      simp only [step]
      split
      · rename_i request inside
        refine good.hold fun held same => ?_
        split_ifs at same
        obtain rfl := Option.some.inj same
        exact ⟨good.held _ inside, rfl⟩
      · exact good
  | provideCompletion found =>
      simp only [step]
      split
      · rename_i request lease inside
        obtain ⟨vacant, rfl⟩ := good.held _ inside
        split
        · refine good.hold fun held same => ?_
          obtain rfl := Option.some.inj same
          exact ⟨vacant, rfl⟩
        · exact good.abandon
      · exact good
  | resetCancelled =>
      simp only [step]
      split
      · rename_i request lease inside
        obtain ⟨vacant, rfl⟩ := good.held _ inside
        exact good.resetCancelled vacant
      · exact good
  | publish =>
      simp only [step]
      split
      · rename_i request lease inside
        obtain ⟨vacant, rfl, reset⟩ := good.held _ inside
        exact good.publish vacant reset
      · exact good
  | enterCancel =>
      simp only [step]
      split
      · rename_i running
        simp only [Bool.and_eq_true] at running
        refine good.hold fun held same => ?_
        obtain rfl := Option.some.inj same
        exact running.1.1
      · exact good
  | acceptCancel =>
      simp only [step]
      split
      · exact good.acceptCancel
      · exact good
  | work job answer => exact good.workOn job answer
  | releaseController =>
      simp only [step]
      split
      · rename_i released
        simp only [Bool.and_eq_true, Option.isNone_iff_eq_none] at released
        exact good.releaseController released.1
      · exact good
  | deallocLease job => exact good.deallocLease job
  | deallocAbandoned lease => exact good.deallocAbandoned lease

theorem run_good (events : List DumpEvent) : (execute step events {}).Good :=
  execute_invariant Good step_good events good_initial

/-! ### Every accepted job ends -/

def worksOn (index : Nat) : DumpEvent → Bool
  | .work job _ => job = index
  | _ => false

theorem remaining_modify {change : Job → Job} (keeps : ∀ job, (change job).remaining = job.remaining)
    {jobs : List Job} {index : Nat} {job : Job} (present : jobs[index]? = some job) (other : Nat) :
    ∃ after, (jobs.modify other change)[index]? = some after ∧ after.remaining ≤ job.remaining := by
  refine ⟨if other = index then change job else job, ?_, ?_⟩
  · simp [List.getElem?_modify, present]
  · split_ifs
    · exact (keeps job).le
    · exact Nat.le_refl _

theorem step_remaining {index : Nat} {job : Job} (good : s.Good)
    (present : s.jobs[index]? = some job) (event : DumpEvent) :
    ∃ after, (step event s).jobs[index]? = some after ∧
      after.remaining ≤ job.remaining - (if worksOn index event then 1 else 0) := by
  have unchanged : ∃ after, s.jobs[index]? = some after ∧ after.remaining ≤ job.remaining - 0 :=
    ⟨job, present, Nat.le_refl _⟩
  have inside := (List.getElem?_eq_some_iff.mp present).1
  cases event with
  | enterStart start stop filename =>
      simp only [step, worksOn]
      split
      · exact unchanged
      · split <;> exact unchanged
  | provideCompletion found =>
      simp only [step, worksOn]
      split
      · split <;> exact unchanged
      · exact unchanged
  | publish =>
      simp only [step, worksOn]
      split
      · exact ⟨job, (List.getElem?_append_left inside).trans present, Nat.le_refl _⟩
      · exact unchanged
  | acceptCancel =>
      simp only [step, worksOn]
      split
      · refine remaining_modify ?_ present (s.jobs.length - 1)
        exact fun _ => rfl
      · exact unchanged
  | work other answer =>
      simp only [step, workOn, worksOn, decide_eq_true_eq]
      cases current : s.jobs[other]? with
      | none =>
          have apart : other ≠ index := by
            rintro rfl
            rw [present] at current
            cases current
          simpa [apart] using unchanged
      | some working =>
          by_cases here : other = index
          · subst here
            obtain rfl : working = job := by simpa [present] using current.symm
            refine ⟨_, List.getElem?_set_self inside, ?_⟩
            rw [if_pos rfl]
            exact Job.next_remaining (good.jobs other working current)
          · refine ⟨job, (List.getElem?_set_ne here).trans present, ?_⟩
            rw [if_neg here]
            exact Nat.le_refl _
  | deallocLease other =>
      simp only [step, worksOn]
      refine remaining_modify ?_ present other
      intro job
      split <;> rfl
  | _ =>
      simp only [step, worksOn]
      first
        | exact unchanged
        | split <;> exact unchanged

theorem run_remaining {index : Nat} {job : Job} (later : List DumpEvent) (good : s.Good)
    (present : s.jobs[index]? = some job) :
    ∃ after, (execute step later s).jobs[index]? = some after ∧
      after.remaining ≤ job.remaining - later.countP (worksOn index) := by
  induction later generalizing s job with
  | nil => exact ⟨job, present, Nat.le_refl _⟩
  | cons event rest ih =>
      obtain ⟨next, listed, first⟩ := step_remaining good present event
      obtain ⟨after, present, less⟩ := ih (step_good event s good) listed
      refine ⟨after, present, less.trans ?_⟩
      rw [List.countP_cons]
      omega

/-! ### The steps and the calls as a whole -/

def outcomeOf : Except (Option String) JJMemoryDumpResult → Outcome
  | .ok result => .ofResult result
  | .error reason => .failed (some (reason.getD "File write failed"))

theorem conclude_status {Tree : Type} (request : DumpJob)
    (answer : Except (Option String) JJMemoryDumpResult) (world : DumpWorld Tree) :
    (request.conclude (answer, world)).status = (outcomeOf answer).status request := by
  cases answer with
  | ok result => rfl
  | error reason => rfl

/-- A worker that nothing comes in between takes the rounds of `jjStreamMemoryDump`. -/
theorem worker_rounds {Tree : Type} (host : DumpHost) (fuel : Nat) {round : Nat} {job : Job}
    {world : DumpWorld Tree} (polling : job.phase = .polling)
    (written : job.written = job.request.written host round)
    (enough : job.request.totalSize ≤ job.written + fuel) :
    ∃ answers : List (Bool × Answer),
      (answers.foldl (fun job x => job.next true x.1 x.2) job).phase =
        .closing (outcomeOf (dumpRounds (job.request.callbacks host) job.request.address
          job.request.totalSize (min (64 * 1024) job.request.totalSize) fuel round job.written
            world).1) := by
  obtain ⟨request, lease, phase, count, cancelAccepted, published, completions⟩ := job
  dsimp only at polling written enough ⊢
  subst polling
  induction fuel generalizing round count world with
  | zero =>
      refine ⟨[(false, {})], ?_⟩
      simp only [List.foldl_cons, List.foldl_nil, Job.next]
      rw [if_pos (by omega)]
      rfl
  | succ fuel ih =>
      rw [dumpRounds]
      by_cases complete : request.totalSize ≤ count
      · refine ⟨[(false, {})], ?_⟩
        simp [Job.next, complete, outcomeOf]
      · simp only [complete, ↓reduceIte]
        by_cases stopped : host.cancelled round = true
        · refine ⟨[(true, {})], ?_⟩
          simp [Job.next, complete, DumpJob.callbacks, stopped, outcomeOf]
        · have goes : (request.callbacks host : DumpCallbacks (DumpWorld Tree)).cancelled round =
              false := Bool.eq_false_iff.mpr stopped
          have chunk : ((request.callbacks host : DumpCallbacks (DumpWorld Tree)).reader
              round).readBytes (u64 (request.address + count))
                (min (min (64 * 1024) request.totalSize) (request.totalSize - count)) =
              request.chunk host round := by rw [written]; rfl
          have short : (request.chunk host round).length ≤
              min (min (64 * 1024) request.totalSize) (request.totalSize - count) := by
            rw [← chunk]
            exact MemoryReader.readBytes_length _ _ _
          simp only [goes, Bool.false_eq_true, ↓reduceIte, chunk]
          by_cases unread : request.chunk host round = []
          · refine ⟨[(false, {}), (false, { count := 0 })], ?_⟩
            simp [Job.next, complete, unread, outcomeOf]
          · have some : (request.chunk host round).length ≠ 0 := by simpa using unread
            have read : min (request.chunk host round).length
                (min (min (64 * 1024) request.totalSize) (request.totalSize - count)) =
                  (request.chunk host round).length := Nat.min_eq_left short
            simp only [unread, ↓reduceIte]
            cases raised : host.raises round with
            | some exception =>
                obtain ⟨kept, reason⟩ := exception
                refine ⟨[(false, {}), (false, { count := (request.chunk host round).length }),
                  (false, { ok := false, reason })], ?_⟩
                simp only [List.foldl_cons, List.foldl_nil, Job.next, complete, ↓reduceIte,
                  Bool.not_true, Bool.or_self, Bool.false_eq_true, read, some, DumpJob.callbacks,
                  raised]
                rfl
            | none =>
                have next : count + (request.chunk host round).length =
                    request.written host (round + 1) := by rw [written]; rfl
                obtain ⟨answers, closing⟩ := ih _ next (by omega)
                refine ⟨(false, {}) :: (false, { count := (request.chunk host round).length }) ::
                  (false, {}) :: (false, {}) :: answers, ?_⟩
                simp only [List.foldl_cons, Job.next, complete, ↓reduceIte, Bool.not_true,
                  Bool.or_self, Bool.false_eq_true, read, some, DumpJob.callbacks, raised]
                exact closing

/-! ### The lifecycle -/

structure Lifecycle (s : DumpSystem) : Prop where
  single : ∀ (i j : Nat) (a b : Job), s.jobs[i]? = some a → s.jobs[j]? = some b →
    a.running = true → b.running = true → i = j
  once : ∀ job ∈ s.jobs, job.completions.length ≤ 1 ∧ job.lease.releases ≤ 1
  released : ∀ job ∈ s.jobs, ∀ outcome,
    job.phase = .calling outcome ∨ job.phase = .done outcome → job.lease.releases = 1
  called : ∀ job ∈ s.jobs, job.completions ≠ [] ↔ ∃ outcome, job.phase = .done outcome
  rejected : ∀ lease ∈ s.abandoned, lease.releases = 1
  written : ∀ job ∈ s.jobs, ∀ success ∈ job.completions,
    success = true ↔ job.written = job.request.totalSize
  announced : s.controller = true → ∀ job ∈ s.jobs, job.completions ≠ [] →
    job.published.isSome = true
  agrees : ∀ job ∈ s.jobs, ∀ success ∈ job.completions, ∀ state, job.published = some state →
    state = if success then .completed
      else if job.phase.outcome.any (·.cancelled) then .cancelled else .failed
  final : s.controller = true → ∀ job, s.jobs.getLast? = some job → job.running = false →
    job.published = some s.status.state
  cancels : ∀ job ∈ s.jobs, ∀ outcome, job.phase.outcome = some outcome →
    outcome.cancelled = true → job.cancelAccepted = true ∨ s.controller = false

theorem completions_of_good {job : Job} (good : job.Good s.controller) {success : Bool}
    (called : success ∈ job.completions) :
    ∃ outcome, job.phase = .done outcome ∧ success = outcome.success := by
  rw [good.completions] at called
  obtain ⟨request, lease, phase, written, cancelAccepted, published, completions⟩ := job
  cases phase with
  | done outcome => exact ⟨outcome, rfl, List.mem_singleton.mp called⟩
  | _ => cases called

theorem Good.lifecycle (good : s.Good) : s.Lifecycle := by
  have each : ∀ job ∈ s.jobs, job.Good s.controller := by
    intro job member
    obtain ⟨i, present⟩ := List.mem_iff_getElem?.mp member
    exact good.jobs i job present
  refine ⟨?_, ?_, ?_, ?_, ?_, ?_, ?_, ?_, ?_, fun job member => (each job member).cancelled⟩
  · intro i j a b first second runs goes
    have one := good.last i a first runs
    have other := good.last j b second goes
    omega
  · intro job member
    rw [(each job member).completions, (each job member).lease]
    cases job.phase <;> simp [Phase.completions, Phase.lease, Lease.released]
  · intro job member outcome phase
    rw [(each job member).lease]
    rcases phase with phase | phase <;> rw [phase] <;> rfl
  · intro job member
    constructor
    · intro called
      obtain ⟨success, listed⟩ := List.exists_mem_of_ne_nil _ called
      obtain ⟨outcome, phase, -⟩ := completions_of_good (each job member) listed
      exact ⟨outcome, phase⟩
    · rintro ⟨outcome, phase⟩
      rw [(each job member).completions, phase]
      exact List.cons_ne_nil _ _
  · intro lease member
    rw [good.abandoned lease member]
    rfl
  · intro job member success called
    obtain ⟨outcome, phase, rfl⟩ := completions_of_good (each job member) called
    exact (each job member).success outcome (by rw [phase]; rfl)
  · intro controller job member called
    obtain ⟨success, listed⟩ := List.exists_mem_of_ne_nil _ called
    obtain ⟨outcome, phase, -⟩ := completions_of_good (each job member) listed
    exact (each job member).announced controller (by rw [Job.running, phase])
  · intro job member success called state told
    obtain ⟨outcome, phase, rfl⟩ := completions_of_good (each job member) called
    obtain ⟨other, same, rfl⟩ := (each job member).published state told
    rw [phase] at same ⊢
    obtain rfl := Option.some.inj same
    rfl
  · intro controller job last stopped
    rw [List.getLast?_eq_getElem?] at last
    have inside := (List.getElem?_eq_some_iff.mp last).1
    exact good.told controller _ job last (by omega) stopped

/-- Whatever the order of the steps, and once a job's blocks have been run to their end. -/
theorem dump_lifecycle (events : List DumpEvent) :
    (execute step events {}).Lifecycle ∧
      ∀ index job, (execute step events {}).jobs[index]? = some job →
        ∀ later : List DumpEvent, job.remaining ≤ later.countP (worksOn index) →
          ∃ ended outcome, (execute step (events ++ later) {}).jobs[index]? = some ended ∧
            ended.phase = .done outcome ∧ ended.completions = [outcome.success] ∧
              ended.lease.releases = 1 := by
  refine ⟨(run_good events).lifecycle, fun index job present later enough => ?_⟩
  obtain ⟨ended, listed, spent⟩ := run_remaining later (run_good events) present
  rw [← execute_append] at listed
  have good := (run_good (events ++ later)).jobs index ended listed
  obtain ⟨outcome, phase⟩ := Job.done_of_remaining (by omega : ended.remaining = 0)
  refine ⟨ended, outcome, listed, phase, ?_, ?_⟩
  · rw [good.completions, phase]
    rfl
  · rw [good.lease, phase]
    rfl

end DumpSystem

end H5GG

import H5GG.RuntimeCoordinator
import Mathlib.Data.List.Basic
import Mathlib.Data.Option.Basic

/-!
# Timers that a block may stop while it runs
-/

namespace H5GG.RuntimeCoordinator

/-! ### What is known of a coordinator's past -/

def stopsAfter (stopped : Bool) (moment : Moment) : Bool :=
  match moment.action with
  | .startCalled => false
  | .stopReturned => true
  | _ => stopped

/-- A `stop` has returned, and nothing has been started since. -/
def stoppedAfter (history : List Moment) : Bool := history.foldl stopsAfter false

/-- A coordinator that is stopped has no valid timer, and neither `initialize` nor `tick` runs. -/
def Silent (history : List Moment) : Prop :=
  ∀ earlier moment later, history = earlier ++ moment :: later →
    stoppedAfter (earlier ++ [moment]) = true →
      moment.valid = [] ∧ moment.action ≠ .initializeRuns ∧ moment.action ≠ .tickRuns

def timersOf (kind : TimerKind) (valid : List NSTimer) : List NSTimer :=
  valid.filter fun timer => timer.kind = kind

def initializations (history : List Moment) : Nat :=
  history.countP fun moment => moment.action = .initializeRuns

def stored (coordinator : RuntimeCoordinator) : TimerKind → Option NSTimer
  | .readiness => coordinator.readinessTimer
  | .globalView => coordinator.globalViewTimer

/-- The valid timers are those that the properties hold. -/
structure Sound (coordinator : RuntimeCoordinator) : Prop where
  timers : ∀ kind, timersOf kind coordinator.valid = (coordinator.stored kind).toList
  once : initializations coordinator.history = if coordinator.initialized then 1 else 0
  single : ∀ moment ∈ coordinator.history, ∀ kind, (timersOf kind moment.valid).length ≤ 1

section
variable {coordinator : RuntimeCoordinator}

theorem Sound.one (sound : Sound coordinator) (kind : TimerKind) :
    (timersOf kind coordinator.valid).length ≤ 1 := by
  rw [sound.timers kind]
  cases coordinator.stored kind with
  | none => exact Nat.zero_le _
  | some timer => exact Nat.le_refl _

theorem Sound.kind_of_stored (sound : Sound coordinator) {kind : TimerKind} {timer : NSTimer}
    (holds : coordinator.stored kind = some timer) : timer.kind = kind := by
  have inside : timer ∈ timersOf kind coordinator.valid := by
    rw [sound.timers kind, holds]
    exact List.mem_singleton.mpr rfl
  simpa using (List.mem_filter.mp inside).2

theorem single_record (sound : Sound coordinator) (action : CoordinatorAction) :
    ∀ moment ∈ (coordinator.record action).history, ∀ kind,
      (timersOf kind moment.valid).length ≤ 1 := by
  intro moment inside kind
  cases List.mem_append.mp inside with
  | inl old => exact sound.single moment old kind
  | inr new =>
      rw [List.mem_singleton.mp new]
      exact sound.one kind

theorem Sound.record (sound : Sound coordinator) (action : CoordinatorAction)
    (other : action ≠ .initializeRuns) : Sound (coordinator.record action) where
  timers kind := by
    have same := sound.timers kind
    cases kind with
    | readiness => exact same
    | globalView => exact same
  once := by
    have once := sound.once
    simp only [RuntimeCoordinator.record, initializations, List.countP_append] at once ⊢
    rw [List.countP_singleton, if_neg (by simpa using other)]
    exact once
  single := single_record sound action

theorem Sound.clear (sound : Sound coordinator) {cleared : RuntimeCoordinator} (kind : TimerKind)
    (valid : cleared.valid = (coordinator.invalidate (coordinator.stored kind)).valid)
    (gone : cleared.stored kind = none)
    (kept : ∀ other, other ≠ kind → cleared.stored other = coordinator.stored other)
    (initialized : cleared.initialized = coordinator.initialized)
    (history : cleared.history = coordinator.history) : Sound cleared where
  timers other := by
    have timers := sound.timers other
    unfold timersOf at timers ⊢
    rw [valid, invalidate, List.filter_comm, timers]
    by_cases here : other = kind
    · subst here
      rw [gone]
      cases coordinator.stored other <;> simp
    · rw [kept other here, List.filter_eq_self]
      intro timer inside
      have ofOther := sound.kind_of_stored (Option.mem_toList.mp inside)
      simp only [ne_eq, decide_not, Bool.not_eq_eq_eq_not, Bool.not_true, decide_eq_false_iff_not]
      exact fun same => here (ofOther.symm.trans (sound.kind_of_stored same.symm))
  once := by rw [history, initialized]; exact sound.once
  single := by rw [history]; exact sound.single

theorem Sound.clearGlobalView (sound : Sound coordinator) :
    Sound { coordinator.invalidate coordinator.globalViewTimer with globalViewTimer := none } := by
  refine sound.clear .globalView rfl rfl ?_ rfl rfl
  intro other apart
  cases other with
  | readiness => rfl
  | globalView => exact absurd rfl apart

theorem Sound.clearReadiness (sound : Sound coordinator) :
    Sound { coordinator.invalidate coordinator.readinessTimer with readinessTimer := none } := by
  refine sound.clear .readiness rfl rfl ?_ rfl rfl
  intro other apart
  cases other with
  | readiness => exact absurd rfl apart
  | globalView => rfl

theorem Sound.stopGlobalViewMonitor (sound : Sound coordinator) :
    Sound coordinator.stopGlobalViewMonitor := sound.clearGlobalView.record .monitorStopped (by decide)

theorem Sound.stop (sound : Sound coordinator) : Sound coordinator.stop :=
  sound.clearReadiness.stopGlobalViewMonitor.record .stopReturned (by decide)

theorem Sound.invoke (sound : Sound coordinator) (calls : List CoordinatorCall) :
    Sound (coordinator.invoke calls) := by
  induction calls generalizing coordinator with
  | nil => exact sound
  | cons call rest ih =>
      cases call with
      | stopGlobalViewMonitor => exact ih sound.stopGlobalViewMonitor
      | stop => exact ih sound.stop

/-- A timer of a kind that has none is made valid and held. -/
theorem Sound.arm (sound : Sound coordinator) {armed : RuntimeCoordinator} {timer : NSTimer}
    (free : coordinator.stored timer.kind = none)
    (valid : armed.valid = coordinator.valid ++ [timer])
    (held : armed.stored timer.kind = some timer)
    (kept : ∀ other, other ≠ timer.kind → armed.stored other = coordinator.stored other)
    (initialized : armed.initialized = coordinator.initialized)
    (history : armed.history = coordinator.history) : Sound armed where
  timers other := by
    have timers := sound.timers other
    unfold timersOf at timers ⊢
    rw [valid, List.filter_append, timers]
    by_cases here : other = timer.kind
    · subst here
      rw [free, held]
      simp
    · rw [kept other here]
      simp [Ne.symm here]
  once := by rw [history, initialized]; exact sound.once
  single := by rw [history]; exact sound.single

theorem Sound.schedule (sound : Sound coordinator) {kind : TimerKind}
    (free : coordinator.stored kind = none) : Sound (coordinator.schedule kind) := by
  cases kind with
  | readiness =>
      apply Sound.record _ _ (by simp)
      refine @Sound.arm coordinator sound _ ⟨.readiness, coordinator.created⟩ free rfl rfl ?_ rfl rfl
      intro other apart
      cases other with
      | readiness => exact absurd rfl apart
      | globalView => rfl
  | globalView =>
      apply Sound.record _ _ (by simp)
      refine @Sound.arm coordinator sound _ ⟨.globalView, coordinator.created⟩ free rfl rfl ?_ rfl rfl
      intro other apart
      cases other with
      | readiness => rfl
      | globalView => exact absurd rfl apart

theorem invoke_initialized (calls : List CoordinatorCall) (coordinator : RuntimeCoordinator) :
    (coordinator.invoke calls).initialized = coordinator.initialized := by
  induction calls generalizing coordinator with
  | nil => rfl
  | cons call rest ih =>
      refine (ih (coordinator.perform call)).trans ?_
      cases call <;> rfl

/-- No block sets a timer. -/
theorem invoke_stored (kind : TimerKind) (calls : List CoordinatorCall)
    (coordinator : RuntimeCoordinator) (free : coordinator.stored kind = none) :
    (coordinator.invoke calls).stored kind = none := by
  induction calls generalizing coordinator with
  | nil => exact free
  | cons call rest ih =>
      refine ih (coordinator.perform call) ?_
      cases kind with
      | readiness => cases call <;> first | exact free | rfl
      | globalView => cases call <;> rfl

theorem Sound.begin (sound : Sound coordinator) (fresh : coordinator.initialized = false) :
    Sound (({ coordinator.invalidate coordinator.readinessTimer with
      readinessTimer := none
      initialized := true } : RuntimeCoordinator).record .initializeRuns) where
  timers kind := by
    have same := sound.clearReadiness.timers kind
    cases kind with
    | readiness => exact same
    | globalView => exact same
  once := by
    have once := sound.once
    rw [fresh] at once
    simp only [RuntimeCoordinator.record, invalidate, initializations, List.countP_append] at once ⊢
    rw [once]
    rfl
  single := single_record sound.clearReadiness .initializeRuns

theorem Sound.poll (sound : Sound coordinator) (invocation : PollRun) :
    Sound (coordinator.poll invocation) := by
  have asked := (sound.record .readinessAsked (by decide)).invoke invocation.readiness
  unfold RuntimeCoordinator.poll
  split_ifs with already pending
  · exact sound
  · exact asked
  · refine (asked.begin ?_).invoke invocation.initialization
    rw [invoke_initialized]
    exact Bool.not_eq_true _ ▸ already

theorem poll_stored_readiness (free : coordinator.readinessTimer = none) (invocation : PollRun) :
    (coordinator.poll invocation).stored .readiness = none := by
  unfold RuntimeCoordinator.poll
  split_ifs
  · exact free
  · exact invoke_stored .readiness _ (coordinator.record .readinessAsked) free
  · exact invoke_stored .readiness _ _ rfl

theorem Sound.startWhenReady (sound : Sound coordinator) (blocks : Option PollRun) :
    Sound (coordinator.startWhenReady blocks) := by
  have called := sound.record .startCalled (by decide)
  cases blocks with
  | none => exact called
  | some invocation =>
      simp only [RuntimeCoordinator.startWhenReady]
      split_ifs with busy begun
      · exact called
      · exact called.poll invocation
      · have free : (coordinator.record .startCalled).readinessTimer = none := by
          rw [Bool.or_eq_true, not_or] at busy
          exact Option.not_isSome_iff_eq_none.mp busy.2
        exact (called.poll invocation).schedule (poll_stored_readiness free invocation)

theorem Sound.startGlobalViewMonitor (sound : Sound coordinator)
    (block : Option (List CoordinatorCall)) : Sound (coordinator.startGlobalViewMonitor block) := by
  have called := sound.record .startCalled (by decide)
  cases block with
  | none => exact called
  | some calls =>
      simp only [RuntimeCoordinator.startGlobalViewMonitor]
      split_ifs with busy
      · exact called
      · have free : (coordinator.record .startCalled).stored .globalView = none :=
          Option.not_isSome_iff_eq_none.mp busy
        have ticked := (called.record .tickRuns (by decide)).invoke calls
        exact ticked.schedule (invoke_stored .globalView calls _ free)

theorem Sound.step (sound : Sound coordinator) (event : CoordinatorEvent) :
    Sound (event.step coordinator) := by
  cases event with
  | startWhenReady blocks => exact sound.startWhenReady blocks
  | startGlobalViewMonitor block => exact sound.startGlobalViewMonitor block
  | stopGlobalViewMonitor => exact sound.stopGlobalViewMonitor
  | stop => exact sound.stop
  | fire timer invocation calls =>
      simp only [CoordinatorEvent.step, RuntimeCoordinator.fire]
      split_ifs
      · cases timer.kind with
        | readiness => exact sound.poll invocation
        | globalView => exact (sound.record .tickRuns (by decide)).invoke calls
      · exact sound

/-! ### After a stop -/

/-- Silent so far, and ready to stay so. -/
structure Quiet (coordinator : RuntimeCoordinator) : Prop where
  silent : Silent coordinator.history
  stopped : stoppedAfter coordinator.history = true → coordinator.valid = []

theorem stoppedAfter_record (action : CoordinatorAction) :
    stoppedAfter (coordinator.record action).history =
      stopsAfter (stoppedAfter coordinator.history) ⟨action, coordinator.valid⟩ := by
  rw [stoppedAfter, RuntimeCoordinator.record, List.foldl_append]
  rfl

theorem Quiet.record (action : CoordinatorAction) (silent : Silent coordinator.history)
    (fine : stopsAfter (stoppedAfter coordinator.history) ⟨action, coordinator.valid⟩ = true →
      coordinator.valid = [] ∧ action ≠ .initializeRuns ∧ action ≠ .tickRuns) :
    Quiet (coordinator.record action) where
  silent earlier moment later split stopped := by
    cases List.eq_nil_or_concat later with
    | inl nothing =>
        subst nothing
        obtain ⟨rfl, same⟩ := List.append_inj' split rfl
        cases same
        rw [← stoppedAfter_record, RuntimeCoordinator.record] at fine
        exact fine stopped
    | inr more =>
        obtain ⟨before, last, rfl⟩ := more
        rw [List.concat_eq_append, ← List.cons_append, ← List.append_assoc] at split
        obtain ⟨same, -⟩ := List.append_inj' split rfl
        exact silent earlier moment before same stopped
  stopped after := (fine (stoppedAfter_record action ▸ after)).1

theorem started_running : stoppedAfter (coordinator.record .startCalled).history = false :=
  stoppedAfter_record .startCalled

theorem Quiet.started (quiet : Quiet coordinator) : Quiet (coordinator.record .startCalled) :=
  .record .startCalled quiet.silent fun stopped => absurd stopped Bool.false_ne_true

/-- Before a `stop`, anything may happen. -/
theorem Quiet.running (quiet : Quiet coordinator) (action : CoordinatorAction)
    (running : stoppedAfter coordinator.history = false)
    (same : stopsAfter false ⟨action, coordinator.valid⟩ = false) :
    Quiet (coordinator.record action) :=
  .record action quiet.silent fun stopped => by
    rw [running, same] at stopped
    cases stopped

theorem Quiet.stopGlobalViewMonitor (quiet : Quiet coordinator) :
    Quiet coordinator.stopGlobalViewMonitor := by
  refine .record .monitorStopped quiet.silent fun stopped => ⟨?_, by decide, by decide⟩
  have nothing := quiet.stopped stopped
  simp only [RuntimeCoordinator.invalidate, nothing, List.filter_nil]

theorem valid_eq_nil (sound : Sound coordinator) (free : ∀ kind, coordinator.stored kind = none) :
    coordinator.valid = [] := by
  refine List.eq_nil_iff_forall_not_mem.mpr fun timer inside => ?_
  have ofKind : timer ∈ timersOf timer.kind coordinator.valid :=
    List.mem_filter.mpr ⟨inside, by simp⟩
  rw [sound.timers, free] at ofKind
  cases ofKind

theorem Quiet.stop (quiet : Quiet coordinator) (sound : Sound coordinator) :
    Quiet coordinator.stop := by
  have invalidated : Quiet { coordinator.invalidate coordinator.readinessTimer with
      readinessTimer := none } := by
    refine ⟨quiet.silent, fun stopped => ?_⟩
    rw [RuntimeCoordinator.invalidate, quiet.stopped stopped]
    rfl
  refine .record .stopReturned invalidated.stopGlobalViewMonitor.silent fun _ => ⟨?_, by decide, by decide⟩
  refine valid_eq_nil sound.clearReadiness.stopGlobalViewMonitor fun kind => ?_
  cases kind with
  | readiness => rfl
  | globalView => rfl

theorem Quiet.invoke (quiet : Quiet coordinator) (sound : Sound coordinator)
    (calls : List CoordinatorCall) : Quiet (coordinator.invoke calls) := by
  induction calls generalizing coordinator with
  | nil => exact quiet
  | cons call rest ih =>
      cases call with
      | stopGlobalViewMonitor => exact ih quiet.stopGlobalViewMonitor sound.stopGlobalViewMonitor
      | stop => exact ih (quiet.stop sound) sound.stop

theorem invoke_running {calls : List CoordinatorCall} (untouched : .stop ∉ calls)
    (coordinator : RuntimeCoordinator) :
    stoppedAfter (coordinator.invoke calls).history = stoppedAfter coordinator.history := by
  induction calls generalizing coordinator with
  | nil => rfl
  | cons call rest ih =>
      rw [List.mem_cons, not_or] at untouched
      refine (ih untouched.2 (coordinator.perform call)).trans ?_
      cases call with
      | stopGlobalViewMonitor => exact stoppedAfter_record _
      | stop => exact absurd rfl untouched.1

/-- A `poll` while nothing is stopped, whose `readiness` does not stop anything and then return
`YES`. -/
theorem Quiet.poll (quiet : Quiet coordinator) (sound : Sound coordinator) {invocation : PollRun}
    (running : stoppedAfter coordinator.history = false)
    (calm : coordinator.initialized = false → invocation.ready = true →
      .stop ∉ invocation.readiness) :
    Quiet (coordinator.poll invocation) := by
  have asked := quiet.running .readinessAsked running rfl
  have soundAsked := sound.record .readinessAsked (by decide)
  unfold RuntimeCoordinator.poll
  split_ifs with already pending
  · exact quiet
  · exact asked.invoke soundAsked invocation.readiness
  · have fresh : coordinator.initialized = false := Bool.not_eq_true _ ▸ already
    have still : stoppedAfter ((coordinator.record .readinessAsked).invoke
        invocation.readiness).history = false := by
      rw [invoke_running (calm fresh (Bool.not_eq_false _ ▸ pending)), stoppedAfter_record, running]
      rfl
    have invoked := asked.invoke soundAsked invocation.readiness
    have begun := (soundAsked.invoke invocation.readiness).begin (by
      rw [invoke_initialized]
      exact fresh)
    refine Quiet.invoke ?_ begun invocation.initialization
    refine .record .initializeRuns invoked.silent fun stopped => ?_
    exact absurd (still.symm.trans stopped) Bool.false_ne_true

theorem Quiet.tick (quiet : Quiet coordinator) (sound : Sound coordinator)
    (running : stoppedAfter coordinator.history = false) (calls : List CoordinatorCall) :
    Quiet (coordinator.tick calls) :=
  (quiet.running .tickRuns running rfl).invoke (sound.record .tickRuns (by decide)) calls

theorem Quiet.schedule (quiet : Quiet coordinator)
    (running : stoppedAfter coordinator.history = false) {kind : TimerKind} :
    Quiet (coordinator.schedule kind) := by
  cases kind with
  | readiness =>
      refine .record (.timerScheduled _) quiet.silent fun stopped => ?_
      exact absurd (running.symm.trans stopped) Bool.false_ne_true
  | globalView =>
      refine .record (.timerScheduled _) quiet.silent fun stopped => ?_
      exact absurd (running.symm.trans stopped) Bool.false_ne_true

/-! ### Runs -/

/-- A block that has been called by a start call, or that `initialize` is to follow, does not stop
the coordinator. -/
def Calm (event : CoordinatorEvent) (coordinator : RuntimeCoordinator) : Prop :=
  match event with
  | .startWhenReady (some invocation) =>
      coordinator.initialized = false → coordinator.readinessTimer = none →
        .stop ∉ invocation.readiness
  | .startGlobalViewMonitor (some calls) => coordinator.globalViewTimer = none → .stop ∉ calls
  | .fire timer invocation _ =>
      timer ∈ coordinator.valid → timer.kind = .readiness → coordinator.initialized = false →
        invocation.ready = true → .stop ∉ invocation.readiness
  | _ => True

theorem poll_running {invocation : PollRun} (untouched : .stop ∉ invocation.readiness)
    (running : stoppedAfter coordinator.history = false)
    (waits : ¬(coordinator.poll invocation).initialized = true) :
    stoppedAfter (coordinator.poll invocation).history = false := by
  unfold RuntimeCoordinator.poll at waits ⊢
  split_ifs with already pending
  · exact running
  · rw [invoke_running untouched, stoppedAfter_record, running]
    rfl
  · rw [if_neg already, if_neg pending] at waits
    exact absurd (invoke_initialized invocation.initialization _) waits

theorem Quiet.startWhenReady (quiet : Quiet coordinator) (sound : Sound coordinator)
    (blocks : Option PollRun) (calm : Calm (.startWhenReady blocks) coordinator) :
    Quiet (coordinator.startWhenReady blocks) := by
  have called := sound.record .startCalled (by decide)
  cases blocks with
  | none => exact quiet.started
  | some invocation =>
      simp only [RuntimeCoordinator.startWhenReady]
      split_ifs with busy begun
      · exact quiet.started
      all_goals
        rw [Bool.or_eq_true, not_or] at busy
        have untouched := calm (Bool.not_eq_true _ ▸ busy.1) (Option.not_isSome_iff_eq_none.mp busy.2)
        have polled := quiet.started.poll called started_running fun _ _ => untouched
      · exact polled
      · exact polled.schedule (poll_running untouched started_running begun)

theorem Quiet.startGlobalViewMonitor (quiet : Quiet coordinator) (sound : Sound coordinator)
    (block : Option (List CoordinatorCall)) (calm : Calm (.startGlobalViewMonitor block) coordinator) :
    Quiet (coordinator.startGlobalViewMonitor block) := by
  have called := sound.record .startCalled (by decide)
  cases block with
  | none => exact quiet.started
  | some calls =>
      simp only [RuntimeCoordinator.startGlobalViewMonitor]
      split_ifs with busy
      · exact quiet.started
      · have untouched := calm (Option.not_isSome_iff_eq_none.mp busy)
        refine (quiet.started.tick called started_running calls).schedule ?_
        rw [RuntimeCoordinator.tick, invoke_running untouched, stoppedAfter_record, started_running]
        rfl

theorem Quiet.step (quiet : Quiet coordinator) (sound : Sound coordinator)
    (event : CoordinatorEvent) (calm : Calm event coordinator) : Quiet (event.step coordinator) := by
  cases event with
  | startWhenReady blocks => exact quiet.startWhenReady sound blocks calm
  | startGlobalViewMonitor block => exact quiet.startGlobalViewMonitor sound block calm
  | stopGlobalViewMonitor => exact quiet.stopGlobalViewMonitor
  | stop => exact quiet.stop sound
  | fire timer invocation calls =>
      simp only [CoordinatorEvent.step, RuntimeCoordinator.fire]
      split_ifs with inside
      · have running : stoppedAfter coordinator.history = false := by
          rw [← Bool.not_eq_true]
          intro stopped
          rw [quiet.stopped stopped] at inside
          cases inside
        cases kind : timer.kind with
        | readiness => exact quiet.poll sound running fun fresh ready => calm inside kind fresh ready
        | globalView => exact quiet.tick sound running calls
      · exact quiet

theorem sound_new : Sound {} where
  timers kind := by cases kind <;> rfl
  once := rfl
  single _ inside := absurd inside List.not_mem_nil

theorem quiet_new : Quiet {} where
  silent earlier moment later split := by
    have lengths := congrArg List.length split
    simp at lengths
  stopped _ := rfl

end

/-- `initialize` runs once at most, and there is one timer of a kind at most; where no block stops
the coordinator that goes on, a coordinator that has been stopped is silent. -/
theorem timers_silent (events : List CoordinatorEvent) :
    (initializations (execute CoordinatorEvent.step events {}).history ≤ 1 ∧
      (∀ moment ∈ (execute CoordinatorEvent.step events {}).history, ∀ kind,
        (timersOf kind moment.valid).length ≤ 1) ∧
      ∀ kind, (timersOf kind (execute CoordinatorEvent.step events {}).valid).length ≤ 1) ∧
    (Along CoordinatorEvent.step Calm events {} →
      Silent (execute CoordinatorEvent.step events {}).history ∧
        (stoppedAfter (execute CoordinatorEvent.step events {}).history = true →
          (execute CoordinatorEvent.step events {}).valid = [])) := by
  have sound := execute_invariant Sound (fun event _ sound => sound.step event) events sound_new
  refine ⟨⟨?_, sound.single, sound.one⟩, fun calm => ?_⟩
  · rw [sound.once]
    split_ifs
    · exact Nat.le_refl _
    · exact Nat.zero_le _
  · have both := Along.execute (fun coordinator => Sound coordinator ∧ Quiet coordinator)
      (fun event _ known calm => ⟨known.1.step event, known.2.step known.1 event calm⟩)
      ⟨sound_new, quiet_new⟩ calm
    exact ⟨both.2.silent, both.2.stopped⟩

/-- A timer fires, `initialize` stops the coordinator, and that is the end of it. -/
theorem timers_silent_fired :
    Silent (execute CoordinatorEvent.step
      [.startWhenReady (some { ready := false }),
        .fire ⟨.readiness, 0⟩ { ready := true, initialization := [.stop] } []] {}).history ∧
    (stoppedAfter (execute CoordinatorEvent.step
        [.startWhenReady (some { ready := false }),
          .fire ⟨.readiness, 0⟩ { ready := true, initialization := [.stop] } []] {}).history = true →
      (execute CoordinatorEvent.step
        [.startWhenReady (some { ready := false }),
          .fire ⟨.readiness, 0⟩ { ready := true, initialization := [.stop] } []] {}).valid = []) :=
  (timers_silent _).2 (by simp [Along, Calm])

/-- `readiness` stops the coordinator, and the start call that has asked it sets its timer. -/
theorem start_outlives_stop :
    ¬Silent (execute CoordinatorEvent.step
      [.startWhenReady (some { readiness := [.stop], ready := false })] {}).history ∧
    stoppedAfter (execute CoordinatorEvent.step
      [.startWhenReady (some { readiness := [.stop], ready := false })] {}).history = true ∧
    (execute CoordinatorEvent.step
      [.startWhenReady (some { readiness := [.stop], ready := false })] {}).valid =
        [⟨.readiness, 0⟩] := by
  refine ⟨fun silent => ?_, rfl, rfl⟩
  have quiet := silent [⟨.startCalled, []⟩, ⟨.readinessAsked, []⟩, ⟨.monitorStopped, []⟩,
    ⟨.stopReturned, []⟩] ⟨.timerScheduled ⟨.readiness, 0⟩, [⟨.readiness, 0⟩]⟩ [] rfl rfl
  exact absurd quiet.1 (List.cons_ne_nil _ _)

end H5GG.RuntimeCoordinator

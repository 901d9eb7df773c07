import H5GG.GlobalView.Mailbox

/-!
# Which visibility requests the host shows
-/

namespace H5GG.Mailbox

/-- After `s` no request is made, and the host takes the steps of a whole tick. -/
def Polls (s : Mailbox) (steps : List MailboxEvent) : Prop :=
  ∃ before tick after, steps = before ++ .host :: tick ++ after ∧
    (∀ visible, .setWindowVisible visible ∉ steps) ∧
    (execute step before s).poll = .idle ∧ (execute step (before ++ .host :: tick) s).poll = .idle

/-- Where no request is under way, a whole tick shows the last one. -/
def Delivers (s : Mailbox) : Prop :=
  s.request = .idle → ∀ steps visible, s.Polls steps → s.asked = some visible →
    (execute step steps s).hidden = !visible

/-- The flag is still up when the application stores the state, and no tick is about to take it
down, or the view already is as it should be. -/
def Undisturbed (s : Mailbox) : Prop :=
  ∀ visible, s.request = .flagged visible →
    s.shared.setWindowVisible = true ∧ s.poll ≠ .shown ∨ s.hidden = !visible

def StoresUndisturbed (event : MailboxEvent) (s : Mailbox) : Prop :=
  event = .application → s.Undisturbed

/-- What holds in any run of a hosted application. -/
structure Good (s : Mailbox) : Prop where
  enable : s.shared.enable = true
  viewHosted : s.shared.viewHosted = true
  raised : s.poll = .tested ∨ s.poll = .shown → s.shared.setWindowVisible = true
  checked : ∀ visible, s.request = .checked visible → s.asked = some visible
  flagged : ∀ visible, s.request = .flagged visible → s.asked = some visible

theorem hosted_good (hidden : Bool) : (hosted hidden).Good where
  enable := rfl
  viewHosted := rfl
  raised reached := by simp [hosted] at reached
  checked visible under := by cases under
  flagged visible under := by cases under

theorem applicationStep_good {s : Mailbox} (good : s.Good) : s.applicationStep.Good := by
  unfold applicationStep
  cases under : s.request with
  | idle => exact good
  | checked visible =>
      exact { good with
        raised := fun _ => rfl
        checked := fun _ other => (nomatch other)
        flagged := fun _ same => Request.flagged.inj same ▸ good.checked visible under }
  | flagged visible =>
      exact { good with
        checked := fun _ other => (nomatch other)
        flagged := fun _ other => (nomatch other) }

theorem hostStep_good {s : Mailbox} (good : s.Good) : s.hostStep.Good := by
  unfold hostStep
  cases reached : s.poll with
  | idle => exact { good with viewHosted := rfl, raised := by simp }
  | hosted =>
      cases raised : s.shared.setWindowVisible with
      | true => exact { good with raised := fun _ => raised }
      | false => exact { good with raised := by simp }
  | tested => exact { good with raised := fun _ => good.raised (.inl reached) }
  | shown => exact { good with raised := by simp }

theorem step_good (event : MailboxEvent) (s : Mailbox) (good : s.Good) : (step event s).Good := by
  cases event with
  | application => exact applicationStep_good good
  | host => exact hostStep_good good
  | setWindowVisible visible =>
      cases under : s.request with
      | checked _ => simpa only [step, under] using good
      | flagged _ => simpa only [step, under] using good
      | idle =>
          simp only [step, under, good.enable, good.viewHosted, Bool.and_self, if_true]
          exact { good with
            checked := fun _ same => Request.checked.inj same ▸ rfl
            flagged := fun _ other => (nomatch other) }

theorem run_good (events : List MailboxEvent) (hidden : Bool) :
    (execute step events (hosted hidden)).Good :=
  execute_invariant Good step_good events (hosted_good hidden)

@[simp] theorem hostStep_request (s : Mailbox) : s.hostStep.request = s.request := by
  unfold hostStep
  cases s.poll <;> rfl

@[simp] theorem hostStep_asked (s : Mailbox) : s.hostStep.asked = s.asked := by
  unfold hostStep
  cases s.poll <;> rfl

theorem applicationStep_idle {s : Mailbox} (idle : s.request = .idle) : s.applicationStep = s := by
  rw [applicationStep, idle]

theorem quiet_invariant (holds : Mailbox → Prop)
    (keep : ∀ s, s.request = .idle → holds s → holds s.hostStep) (steps : List MailboxEvent)
    (quiet : ∀ visible, .setWindowVisible visible ∉ steps) {s : Mailbox} (idle : s.request = .idle)
    (init : holds s) :
    holds (execute step steps s) ∧ (execute step steps s).request = .idle ∧
      (execute step steps s).asked = s.asked := by
  have silent : ∀ event ∈ steps, ∀ visible, event ≠ .setWindowVisible visible :=
    fun event inside visible same => quiet visible (same ▸ inside)
  refine (along_of_mem steps s silent).execute
    (fun after => holds after ∧ after.request = .idle ∧ after.asked = s.asked) ?_ ⟨init, idle, rfl⟩
  intro event after ⟨kept, still, same⟩ silent
  cases event with
  | setWindowVisible visible => exact absurd rfl (silent visible)
  | application =>
      rw [step, applicationStep_idle still]
      exact ⟨kept, still, same⟩
  | host =>
      rw [step, hostStep_request, hostStep_asked]
      exact ⟨keep after still kept, still, same⟩

/-- The next tick shows `visible`, if the view is not there already. -/
structure Pending (visible : Bool) (s : Mailbox) : Prop where
  stored : s.shared.windowVisibleState = visible
  kept : s.shared.setWindowVisible = true ∧ s.poll ≠ .shown ∨ s.hidden = !visible

theorem hostStep_pending {visible : Bool} {s : Mailbox} (pending : s.Pending visible) :
    s.hostStep.Pending visible := by
  obtain ⟨stored, kept⟩ := pending
  unfold hostStep
  cases reached : s.poll with
  | idle => exact ⟨stored, kept.imp_left fun up => ⟨up.1, by simp⟩⟩
  | hosted => exact ⟨stored, kept.imp_left fun up => ⟨up.1, by simp [up.1]⟩⟩
  | tested => exact ⟨stored, .inr (by rw [stored])⟩
  | shown => exact ⟨stored, .inr (kept.resolve_left fun up => up.2 reached)⟩

/-- The view is right, and what the host would load keeps it so. -/
structure Shown (visible : Bool) (s : Mailbox) : Prop where
  stored : s.shared.windowVisibleState = visible
  right : s.hidden = !visible

theorem hostStep_shown {visible : Bool} {s : Mailbox} (shown : s.Shown visible) :
    s.hostStep.Shown visible := by
  obtain ⟨stored, right⟩ := shown
  unfold hostStep
  cases s.poll with
  | tested => exact ⟨stored, by rw [stored]⟩
  | idle => exact ⟨stored, right⟩
  | hosted => exact ⟨stored, right⟩
  | shown => exact ⟨stored, right⟩

/-- What is pending when a tick begins is under way in it until the view is right. -/
def Showing (visible : Bool) (s : Mailbox) : Prop :=
  s.Shown visible ∨ s.shared.windowVisibleState = visible ∧ s.shared.setWindowVisible = true ∧
    (s.poll = .hosted ∨ s.poll = .tested)

theorem hostStep_showing {visible : Bool} {s : Mailbox} (showing : s.Showing visible) :
    s.hostStep.Showing visible := by
  cases showing with
  | inl shown => exact .inl (hostStep_shown shown)
  | inr under =>
      obtain ⟨stored, raised, reached | reached⟩ := under
      · rw [hostStep, reached]
        exact .inr ⟨stored, raised, .inr (if_pos raised)⟩
      · rw [hostStep, reached]
        exact .inl ⟨stored, by rw [stored]⟩

theorem Pending.tick {visible : Bool} {s : Mailbox} (pending : s.Pending visible)
    (begins : s.poll = .idle) : s.hostStep.Showing visible := by
  obtain ⟨stored, kept⟩ := pending
  rw [hostStep, begins]
  cases kept with
  | inl up => exact .inr ⟨stored, up.1, .inl rfl⟩
  | inr right => exact .inl ⟨stored, right⟩

theorem Pending.delivers {visible : Bool} {s : Mailbox} (pending : s.Pending visible)
    (asked : s.asked = some visible) : s.Delivers := by
  rintro idle - shown ⟨before, tick, after, rfl, quiet, begins, ends⟩ same
  cases asked.symm.trans same
  have first := quiet_invariant (Pending visible) (fun _ _ => hostStep_pending) before
    (fun value made => quiet value (by simp [made])) idle pending
  rw [execute_append] at ends ⊢
  rw [execute_append]
  generalize execute step before s = here at first begins ends ⊢
  have stays : here.hostStep.request = .idle := by rw [hostStep_request, first.2.1]
  have second := quiet_invariant (Showing visible) (fun _ _ => hostStep_showing) tick
    (fun value made => quiet value (by simp [made])) stays (first.1.tick begins)
  rw [execute_cons, step] at ends ⊢
  generalize execute step tick here.hostStep = there at second ends ⊢
  have right : there.Shown visible := by
    refine second.1.resolve_right fun under => ?_
    rw [ends] at under
    simpa using under.2.2
  exact (quiet_invariant (Shown visible) (fun _ _ => hostStep_shown) after
    (fun value made => quiet value (by simp [made])) second.2.1 right).1.right

/-- The request was taken down before its state was stored. -/
structure Missed (visible : Bool) (s : Mailbox) : Prop where
  wrong : s.hidden ≠ !visible
  lost : s.shared.setWindowVisible = false ∧ (s.poll = .idle ∨ s.poll = .hosted) ∨ s.poll = .shown

theorem hostStep_missed {visible : Bool} {s : Mailbox} (missed : s.Missed visible) :
    s.hostStep.Missed visible := by
  obtain ⟨wrong, ⟨cleared, reached | reached⟩ | reached⟩ := missed
  · rw [hostStep, reached]
    exact ⟨wrong, .inl ⟨cleared, .inr rfl⟩⟩
  · rw [hostStep, reached]
    exact ⟨wrong, .inl ⟨cleared, .inl (by simp [cleared])⟩⟩
  · rw [hostStep, reached]
    exact ⟨wrong, .inl ⟨rfl, .inl rfl⟩⟩

/-- Such a tick ends without a look at the state. -/
theorem Missed.polls {visible : Bool} {s : Mailbox} (missed : s.Missed visible) :
    ∃ steps, s.Polls steps := by
  obtain ⟨-, ⟨cleared, reached | reached⟩ | reached⟩ := missed
  · refine ⟨_, [], [.host], [], rfl, by simp, reached, ?_⟩
    simp [execute, step, hostStep, reached, cleared]
  · refine ⟨_, [.host], [.host], [], rfl, by simp, ?_, ?_⟩
    · simp [execute, step, hostStep, reached, cleared]
    · simp [execute, step, hostStep, reached, cleared]
  · refine ⟨_, [.host], [.host], [], rfl, by simp, ?_, ?_⟩
    · simp [execute, step, hostStep, reached]
    · simp [execute, step, hostStep, reached]

theorem Missed.not_delivers {visible : Bool} {s : Mailbox} (missed : s.Missed visible)
    (idle : s.request = .idle) (asked : s.asked = some visible) : ¬s.Delivers := by
  intro delivers
  obtain ⟨steps, polls⟩ := missed.polls
  have quiet : ∀ visible, .setWindowVisible visible ∉ steps := by
    obtain ⟨-, -, -, -, quiet, -⟩ := polls
    exact quiet
  have still := quiet_invariant (Missed visible) (fun _ _ => hostStep_missed) steps quiet idle missed
  exact still.1.wrong (delivers idle steps visible polls asked)

/-- The second store of a request, on a run that has come to it. -/
theorem Good.delivers_iff {s : Mailbox} (good : s.Good) {visible : Bool}
    (under : s.request = .flagged visible) : s.applicationStep.Delivers ↔ s.Undisturbed := by
  have asked := good.flagged visible under
  rw [applicationStep, under]
  constructor
  · intro delivers other same
    cases under.symm.trans same
    by_contra disturbed
    push Not at disturbed
    have lost : s.shared.setWindowVisible = false ∧ (s.poll = .idle ∨ s.poll = .hosted) ∨
        s.poll = .shown := by
      cases raised : s.shared.setWindowVisible with
      | true => exact .inr (disturbed.1 raised)
      | false =>
          have down := good.raised
          rw [raised] at down
          cases reached : s.poll <;> simp_all
    have missed : Missed visible
        { s with shared.windowVisibleState := visible, request := .idle } := ⟨disturbed.2, lost⟩
    exact missed.not_delivers rfl asked delivers
  · intro undisturbed
    exact Pending.delivers ⟨rfl, undisturbed visible under⟩ asked

/-- Where no request is under way, the last one is pending. -/
def Settled (s : Mailbox) : Prop :=
  s.request = .idle → ∀ visible, s.asked = some visible → s.Pending visible

theorem step_settled (event : MailboxEvent) (s : Mailbox) (good : s.Good ∧ s.Settled)
    (undisturbed : StoresUndisturbed event s) : (step event s).Good ∧ (step event s).Settled := by
  refine ⟨step_good event s good.1, ?_⟩
  obtain ⟨good, settled⟩ := good
  cases event with
  | setWindowVisible visible =>
      intro idle
      cases under : s.request with
      | idle =>
          simp [step, under, good.enable, good.viewHosted] at idle
      | checked _ => simp [step, under] at idle
      | flagged _ => simp [step, under] at idle
  | application =>
      cases under : s.request with
      | idle => rwa [step, applicationStep_idle under]
      | checked visible =>
          intro idle
          simp [step, applicationStep, under] at idle
      | flagged visible =>
          rw [step, applicationStep, under]
          intro _ other same
          cases (good.flagged visible under).symm.trans same
          exact ⟨rfl, undisturbed rfl visible under⟩
  | host =>
      intro idle visible asked
      rw [step, hostStep_request] at idle
      rw [step, hostStep_asked] at asked
      exact hostStep_pending (settled idle visible asked)

theorem hosted_settled (hidden : Bool) : (hosted hidden).Settled :=
  fun _ _ asked => (nomatch asked)

/-- A run whose second stores are all undisturbed has the view as it was asked last, wherever it
has come to; and on any run at all the last request reaches the view exactly if its own second
store is undisturbed. -/
theorem setWindowVisible_delivers_iff (hidden : Bool) (events : List MailboxEvent) :
    (Along step StoresUndisturbed events (hosted hidden) →
      (execute step events (hosted hidden)).Delivers) ∧
    ∀ visible, (execute step events (hosted hidden)).request = .flagged visible →
      ((execute step (events ++ [.application]) (hosted hidden)).Delivers ↔
        (execute step events (hosted hidden)).Undisturbed) := by
  constructor
  · intro undisturbed idle steps visible polls asked
    have settled := Along.execute (fun s => s.Good ∧ s.Settled) step_settled
      ⟨hosted_good hidden, hosted_settled hidden⟩ undisturbed
    exact (settled.2 idle visible asked).delivers asked idle steps visible polls asked
  · intro visible under
    rw [execute_append]
    exact (run_good events hidden).delivers_iff under

/-- A tick between the two stores shows the state of before and takes the flag down. -/
theorem setWindowVisible_lost :
    ¬∀ hidden events, (execute step events (hosted hidden)).Delivers := by
  intro delivers
  let tick : List MailboxEvent := [.host, .host, .host, .host]
  let run : List MailboxEvent :=
    [.setWindowVisible true, .application] ++ tick ++ [.application]
  have polls : (execute step run (hosted false)).Polls [.host, .host] :=
    ⟨[], [.host], [], rfl, by decide, rfl, rfl⟩
  exact absurd (delivers false run rfl _ true polls rfl) (by decide)

end H5GG.Mailbox

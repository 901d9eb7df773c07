import H5GG.GlobalView.Hosting
import H5GG.Library.History
import Mathlib.Data.List.Infix

/-!
# What SpringBoard shows, and which clicks are answered
-/

namespace H5GG

/-- What must have happened before something happens. -/
def HostingAction.Meets : HostingAction → List HostingAction → Prop
  | .shown, history => Since .enabled (· = .stopped) history
  | .clicked, history => Since .enabled (· = .stopped) history
  | .inserted, history => Since .loaded (· = .stopped) history
  | .loaded, history =>
      Since .handled (· = .launched) history ∧ Since .launched (· = .stopped) history
  | .answered, history => history.count .answered < history.count .clicked
  | _, _ => True

/-- A click is settled by an answer, and when the process is found to be gone. -/
def HostingAction.Settles (action : HostingAction) : Prop := action = .stopped ∨ action = .answered

namespace HostingMemory
open Code

/-! ## What holds at every access -/

def Raised (memory : HostingMemory) : Prop :=
  memory.data.enable = true ∧ memory.data.customButtonAction = true ∧
    memory.data.floatBtnClick = true

structure Sound (memory : HostingMemory) : Prop where
  meets : ∀ action, Whenever action action.Meets memory.history
  alive : memory.application.running = true → Since .launched (· = .stopped) memory.history
  handled : memory.application.appWindowHandled = true →
    Since .handled (· = .launched) memory.history
  answers : memory.history.count .answered + memory.data.floatBtnClick.toNat ≤
    memory.history.count .clicked
  /-- A click that is not settled is still to be seen. -/
  clicks : Since .clicked HostingAction.Settles memory.history → memory.Raised

/-- What SpringBoard reads was written since it last found no process. -/
def Fresh (flag : HostingData → Bool) (mark : HostingAction) (memory : HostingMemory) : Prop :=
  flag memory.data = true → Since mark (· = .stopped) memory.history

/-- At most one thing happened that may happen. -/
def Grows (may : HostingAction → Prop) (memory later : HostingMemory) : Prop :=
  later.history = memory.history ∨
    ∃ action, may action ∧ later.history = memory.history ++ [action]

/-- What a step of the application or around it may change. -/
structure ByApplication (memory later : HostingMemory) : Prop where
  sound : memory.Sound → later.Sound
  fresh : (memory.Fresh (·.enable) .enabled → later.Fresh (·.enable) .enabled) ∧
    (memory.Fresh (·.appLoaded) .loaded → later.Fresh (·.appLoaded) .loaded)
  flags : (memory.data.enable = true → later.data.enable = true) ∧
    (memory.data.customButtonAction = true → later.data.customButtonAction = true)
  host : later.host = memory.host
  grows : Grows (fun action => action ≠ .stopped ∧ action ≠ .clicked) memory later

/-- What a block of the application may change. -/
structure ByBlock (memory later : HostingMemory) : Prop extends ByApplication memory later where
  running : later.application.running = memory.application.running

/-- What a step of SpringBoard may change. -/
structure ByHost (memory later : HostingMemory) : Prop where
  sound : memory.Sound → later.Sound
  application : later.application = memory.application
  grows : Grows (· ≠ .answered) memory later

theorem byApplication_refl (memory : HostingMemory) : ByApplication memory memory :=
  ⟨id, ⟨id, id⟩, ⟨id, id⟩, rfl, .inl rfl⟩

theorem byBlock_refl (memory : HostingMemory) : ByBlock memory memory :=
  ⟨byApplication_refl memory, rfl⟩

theorem byHost_refl (memory : HostingMemory) : ByHost memory memory := ⟨id, rfl, .inl rfl⟩

theorem Sound.record {memory later : HostingMemory} (sound : memory.Sound) {action : HostingAction}
    (history : later.history = memory.history ++ [action]) (meets : action.Meets memory.history)
    (alive : later.application.running = true →
      action = .launched ∨ action ≠ .stopped ∧ memory.application.running = true)
    (handled : later.application.appWindowHandled = true →
      action = .handled ∨ action ≠ .launched ∧ memory.application.appWindowHandled = true)
    (answers : (memory.history ++ [action]).count .answered + later.data.floatBtnClick.toNat ≤
      (memory.history ++ [action]).count .clicked)
    (clicks : action = .clicked ∨ ¬action.Settles ∧ memory.Raised → later.Raised) : later.Sound where
  meets other := by
    rw [history, whenever_concat]
    exact ⟨sound.meets other, fun same => same ▸ meets⟩
  alive running := by
    rw [history, since_concat]
    exact (alive running).imp_right fun still => ⟨still.1, sound.alive still.2⟩
  handled already := by
    rw [history, since_concat]
    exact (handled already).imp_right fun still => ⟨still.1, sound.handled still.2⟩
  answers := by rwa [history]
  clicks open' := by
    rw [history, since_concat] at open'
    exact clicks (open'.imp_right fun still => ⟨still.1, sound.clicks still.2⟩)

section
variable {memory later : HostingMemory}

theorem Sound.quiet (sound : memory.Sound) (history : later.history = memory.history)
    (alive : later.application.running = true → memory.application.running = true)
    (handled : later.application.appWindowHandled = true →
      memory.application.appWindowHandled = true)
    (click : later.data.floatBtnClick.toNat ≤ memory.data.floatBtnClick.toNat)
    (clicks : Since .clicked HostingAction.Settles memory.history → memory.Raised → later.Raised) :
    later.Sound where
  meets := by rw [history]; exact sound.meets
  alive running := by rw [history]; exact sound.alive (alive running)
  handled already := by rw [history]; exact sound.handled (handled already)
  answers := by
    have := sound.answers
    rw [history]
    omega
  clicks still := by rw [history] at still; exact clicks still (sound.clicks still)

theorem Sound.plain (sound : memory.Sound) {action : HostingAction}
    (plain : action ≠ .launched ∧ action ≠ .stopped ∧ action ≠ .clicked ∧ action ≠ .answered)
    (history : later.history = memory.history ++ [action]) (meets : action.Meets memory.history)
    (alive : later.application.running = true → memory.application.running = true)
    (handled : later.application.appWindowHandled = true →
      action = .handled ∨ memory.application.appWindowHandled = true)
    (click : later.data.floatBtnClick = memory.data.floatBtnClick)
    (raised : memory.Raised → later.Raised) : later.Sound := by
  obtain ⟨launched, stopped, clicked, answered⟩ := plain
  apply sound.record history meets
  · exact fun running => .inr ⟨stopped, alive running⟩
  · exact fun already => (handled already).imp_right fun before => ⟨launched, before⟩
  · have := sound.answers
    rw [List.count_append, List.count_append, click, List.count_singleton, List.count_singleton,
      if_neg (by simpa using answered), if_neg (by simpa using clicked)]
    exact this
  · rintro (same | ⟨-, before⟩)
    · exact absurd same clicked
    · exact raised before

theorem Grows.since {may : HostingAction → Prop} (grows : Grows may memory later)
    {mark : HostingAction} {ends : HostingAction → Prop} (free : ∀ action, may action → ¬ends action)
    (since : Since mark ends memory.history) : Since mark ends later.history := by
  rcases grows with same | ⟨action, allowed, shape⟩
  · rwa [same]
  · rw [shape, since_concat]
    exact .inr ⟨free action allowed, since⟩

/-! ## SpringBoard's steps -/

theorem byHost_quiet (history : later.history = memory.history)
    (application : later.application = memory.application)
    (click : later.data.floatBtnClick.toNat ≤ memory.data.floatBtnClick.toNat)
    (clicks : Since .clicked HostingAction.Settles memory.history → memory.Raised → later.Raised) :
    ByHost memory later where
  sound sound := sound.quiet history (application ▸ id) (application ▸ id) click clicks
  application := application
  grows := .inl history

/-- SpringBoard changes a variable of its own. -/
theorem byHost_own (host : HostingHost) : ByHost memory { memory with host } :=
  byHost_quiet rfl rfl (le_refl _) fun _ raised => raised

theorem byHost_record {action : HostingAction} (plain : action = .shown ∨ action = .inserted)
    (meets : action.Meets memory.history) (history : later.history = memory.history ++ [action])
    (application : later.application = memory.application) (data : later.data = memory.data) :
    ByHost memory later where
  sound sound := by
    refine sound.plain ?_ history meets (application ▸ id) ?_ (by rw [data]) ?_
    · rcases plain with rfl | rfl <;> decide
    · exact fun handled => .inr (application ▸ handled)
    · rw [Raised, Raised, data]
      exact id
  application := application
  grows := by
    refine .inr ⟨action, ?_, history⟩
    rcases plain with rfl | rfl <;> decide

theorem byHost_stopped (gone : memory.application.running = false) :
    ByHost memory (memory.record .stopped) where
  sound sound := by
    apply sound.record rfl (show HostingAction.Meets .stopped memory.history from trivial)
    · intro running
      rw [HostingMemory.record, gone] at running
      cases running
    · exact fun handled => .inr ⟨by decide, handled⟩
    · have := sound.answers
      rw [List.count_append, List.count_append]
      exact this
    · rintro (same | ⟨free, -⟩)
      · cases same
      · exact absurd (.inl rfl) free
  application := rfl
  grows := .inr ⟨.stopped, by decide, rfl⟩

theorem setHidden_eq (hide : Bool) (memory : HostingMemory) :
    ∃ hidden, memory.setHidden hide = { memory with host.hidden := hidden } := by
  unfold setHidden
  split
  · exact ⟨_, rfl⟩
  · exact ⟨_, rfl⟩

theorem toggleHidden_eq (memory : HostingMemory) :
    ∃ hidden, memory.toggleHidden = { memory with host.hidden := hidden } := by
  unfold toggleHidden
  split
  · exact setHidden_eq _ memory
  · exact ⟨_, rfl⟩

/-- What is shown is shown as `action`, if there is a view. -/
theorem addSubview_own (action : HostingAction) (memory : HostingMemory) :
    (∃ host, memory.addSubview action = { memory with host }) ∨
      ∃ host, memory.addSubview action = { memory with host }.record action := by
  unfold addSubview
  split
  · exact .inl ⟨_, rfl⟩
  · exact .inr ⟨_, rfl⟩

theorem openView_own (ios13 : Bool) (view : Option Nat) (enabled : Bool) (memory : HostingMemory) :
    (∃ host, memory.openView ios13 view enabled = { memory with host }) ∨
      enabled = true ∧
        ∃ host, memory.openView ios13 view enabled = { memory with host }.record .shown := by
  obtain ⟨host, begun⟩ : ∃ host, (if ios13 then { memory with host.hostView := view } else
      { memory with host.hostView := view }.scheduleTimer2) = { memory with host } := by
    split
    · exact ⟨_, rfl⟩
    · exact ⟨_, rfl⟩
  unfold openView
  dsimp only
  rw [begun]
  split
  · rename_i shows
    rcases addSubview_own .shown { memory with host } with ⟨host, own⟩ | ⟨host, own⟩
    · exact .inl ⟨host, own⟩
    · exact .inr ⟨(Bool.and_eq_true_iff.mp shows).1, host, own⟩
  · exact .inl ⟨_, rfl⟩

/-! ## The blocks of SpringBoard -/

/-- Between SpringBoard's blocks. -/
structure Ready (memory : HostingMemory) : Prop where
  sound : memory.Sound
  enable : memory.Fresh (·.enable) .enabled
  appLoaded : memory.Fresh (·.appLoaded) .loaded

theorem ready_stable : Stable ByApplication Ready := fun _ _ step ready =>
  ⟨step.sound ready.sound, step.fresh.1 ready.enable, step.fresh.2 ready.appLoaded⟩

theorem since_stable (mark : HostingAction) :
    Stable ByApplication fun memory => Since mark (· = .stopped) memory.history :=
  fun _ _ step since => step.grows.since (fun _ allowed => allowed.1) since

theorem flags_stable : Stable ByApplication fun memory =>
    memory.data.enable = true ∧ memory.data.customButtonAction = true :=
  fun _ _ step flags => ⟨step.flags.1 flags.1, step.flags.2 flags.2⟩

theorem Ready.own (ready : memory.Ready) (host : HostingHost) : Ready { memory with host } :=
  ⟨(byHost_own host).sound ready.sound, ready.enable, ready.appLoaded⟩

/-- A step that ends ready. -/
def Keeps (memory later : HostingMemory) : Prop := ByHost memory later ∧ later.Ready

theorem keeps_own (ready : memory.Ready) (own : ∃ host, later = { memory with host }) :
    Keeps memory later := by
  obtain ⟨host, rfl⟩ := own
  exact ⟨byHost_own host, ready.own host⟩

theorem keeps_hidden (ready : memory.Ready)
    (own : ∃ hidden, later = { memory with host.hidden := hidden }) : Keeps memory later := by
  obtain ⟨hidden, rfl⟩ := own
  exact keeps_own ready ⟨_, rfl⟩

theorem keeps_record {action : HostingAction} (ready : memory.Ready)
    (plain : action = .shown ∨ action = .inserted) (meets : action.Meets memory.history)
    (own : ∃ host, later = { memory with host }.record action) : Keeps memory later := by
  obtain ⟨host, rfl⟩ := own
  have step : ByHost memory ({ memory with host }.record action) :=
    byHost_record plain meets rfl rfl rfl
  refine ⟨step, step.sound ready.sound, fun enabled => ?_, fun loaded => ?_⟩
  · refine since_concat.mpr (.inr ⟨?_, ready.enable enabled⟩)
    rcases plain with rfl | rfl <;> decide
  · refine since_concat.mpr (.inr ⟨?_, ready.appLoaded loaded⟩)
    rcases plain with rfl | rfl <;> decide

/-- A store to a field that neither a click nor a report waits in. -/
theorem keeps_data (ready : memory.Ready) {data : HostingData}
    (enable : data.enable = memory.data.enable) (appLoaded : data.appLoaded = memory.data.appLoaded)
    (custom : data.customButtonAction = memory.data.customButtonAction)
    (click : data.floatBtnClick = memory.data.floatBtnClick) : Keeps memory { memory with data } := by
  have step : ByHost memory { memory with data } := by
    refine byHost_quiet rfl rfl (le_of_eq (congrArg Bool.toNat click)) fun _ raised => ?_
    exact ⟨enable.trans raised.1, custom.trans raised.2.1, click.trans raised.2.2⟩
  refine ⟨step, step.sound ready.sound, fun given => ?_, fun given => ?_⟩
  · exact ready.enable (enable.symm.trans given)
  · exact ready.appLoaded (appLoaded.symm.trans given)

theorem keeps_openView (ios13 : Bool) (view : Option Nat) {enabled : Bool} (ready : memory.Ready)
    (since : enabled = true → Since .enabled (· = .stopped) memory.history) :
    Keeps memory (memory.openView ios13 view enabled) := by
  rcases openView_own ios13 view enabled memory with own | ⟨given, own⟩
  · exact keeps_own ready own
  · exact keeps_record ready (.inl rfl) (since given) own

theorem keeps_insertView (ready : memory.Ready)
    (since : Since .loaded (· = .stopped) memory.history) : Keeps memory memory.insertView := by
  unfold insertView
  rcases addSubview_own .inserted { memory with host.alertloading := false } with
    ⟨host, own⟩ | ⟨host, own⟩
  · exact keeps_own ready ⟨host, own⟩
  · exact keeps_record ready (.inr rfl) since ⟨host, own⟩

/-- SpringBoard goes on with `code`, and is ready at its end. -/
abbrev HostSafe (code : Code HostingMemory) (memory : HostingMemory) : Prop :=
  Safe ByApplication ByHost Ready code memory

theorem hostSafe_done (ready : memory.Ready) : HostSafe .done memory :=
  safe_done ready_stable (fun _ => id) ready

section
variable {next : Code HostingMemory} {known : HostingMemory → Prop}

theorem hostSafe_act {effect : HostingMemory → HostingMemory} (stable : Stable ByApplication known)
    (keeps : ∀ memory, known memory → Keeps memory (effect memory))
    (goes : ∀ memory, Ready memory → HostSafe next memory) (init : known memory) :
    HostSafe (.act effect next) memory :=
  safe_act stable (fun memory held => (keeps memory held).1)
    (fun memory held => goes _ (keeps memory held).2) init

theorem toggleGlobalView_safe (ios13 : Bool) (view : Option Nat)
    (goes : ∀ memory, Ready memory → HostSafe next memory) (ready : memory.Ready) :
    HostSafe (toggleGlobalView ios13 view next) memory := by
  apply hostSafe_act ready_stable (fun memory ready => keeps_own ready ⟨_, rfl⟩) _ ready
  intro memory ready
  apply safe_ask ready_stable byHost_refl _ _ ready
  · intro memory ready _
    apply safe_ask ready_stable byHost_refl _ _ ready
    · intro memory ready enabled
      apply hostSafe_act (ready_stable.and (since_stable .enabled)) _ goes
        ⟨ready, ready.enable enabled⟩
      exact fun memory held => keeps_openView ios13 view held.1 fun _ => held.2
    · intro memory ready _
      apply hostSafe_act ready_stable _ goes ready
      exact fun memory ready => keeps_openView ios13 view ready fun given => nomatch given
  · intro memory ready _
    apply hostSafe_act ready_stable _ goes ready
    exact fun memory ready => keeps_hidden ready (toggleHidden_eq memory)

end

theorem showWindow_safe (ready : memory.Ready) : HostSafe showWindow memory := by
  apply safe_ask ready_stable byHost_refl _ (fun _ ready _ => hostSafe_done ready) ready
  intro memory ready _
  apply hostSafe_act ready_stable
    (fun memory ready => keeps_hidden ready (setHidden_eq _ memory)) _ ready
  intro memory ready
  apply hostSafe_act ready_stable _ (fun _ => hostSafe_done) ready
  exact fun memory ready => keeps_data ready rfl rfl rfl rfl

theorem insertLoaded_safe (ready : memory.Ready) : HostSafe insertLoaded memory := by
  have other : ∀ memory, Ready memory → HostSafe showWindow memory := fun _ => showWindow_safe
  apply safe_ask ready_stable byHost_refl _ (fun memory ready _ => other memory ready) ready
  intro memory ready _
  apply safe_ask ready_stable byHost_refl _ (fun memory ready _ => other memory ready) ready
  intro memory ready _
  apply safe_ask ready_stable byHost_refl _ (fun memory ready _ => other memory ready) ready
  intro memory ready loaded
  apply hostSafe_act (ready_stable.and (since_stable .loaded)) _ other ⟨ready, ready.appLoaded loaded⟩
  exact fun memory held => keeps_insertView held.1 held.2

/-- No click is open. -/
def Closed (memory : HostingMemory) : Prop :=
  ¬Since .clicked HostingAction.Settles memory.history

theorem closed_stable : Stable ByApplication Closed := by
  intro memory later step closed since
  rcases step.grows with same | ⟨action, allowed, shape⟩
  · rw [same] at since
    exact closed since
  · rw [shape, since_concat] at since
    rcases since with rfl | ⟨-, since⟩
    · exact allowed.2 rfl
    · exact closed since

theorem byHost_reset (closed : memory.Closed) (history : later.history = memory.history)
    (application : later.application = memory.application)
    (click : later.data.floatBtnClick.toNat ≤ memory.data.floatBtnClick.toNat) :
    ByHost memory later :=
  byHost_quiet history application click fun since => absurd since closed

theorem closeView_safe (sound : memory.Sound) (closed : memory.Closed) :
    HostSafe closeView memory := by
  have sound_stable : Stable ByApplication Sound := fun _ _ step => step.sound
  have enable_stable : Stable ByApplication (Fresh (·.enable) .enabled) :=
    fun _ _ step => step.fresh.1
  have enabled : ∀ memory, Sound memory ∧ Closed memory →
      ByHost memory { memory with data.enable := false } :=
    fun _ held => byHost_reset held.2 rfl rfl (le_refl _)
  have loaded : ∀ memory, (Sound memory ∧ Closed memory) ∧ Fresh (·.enable) .enabled memory →
      ByHost memory { memory with data.appLoaded := false } :=
    fun _ held => byHost_reset held.1.2 rfl rfl (le_refl _)
  -- Once the first two fields are reset, there is nothing to be read that was written before.
  unfold closeView resetData
  apply safe_act (sound_stable.and closed_stable) enabled _ ⟨sound, closed⟩
  intro memory held
  apply safe_act ((sound_stable.and closed_stable).and enable_stable) loaded _
    ⟨⟨(enabled memory held).sound held.1, held.2⟩, fun given => nomatch given⟩
  intro memory held
  have ready : Ready { memory with data.appLoaded := false } :=
    ⟨(loaded memory held).sound held.1.1, held.2, fun given => nomatch given⟩
  apply safe_actAll (ready_stable.and closed_stable) _ _ ⟨ready, held.1.2⟩
  · have reset : ∀ memory data, Ready memory ∧ Closed memory → data.enable = memory.data.enable →
        data.appLoaded = memory.data.appLoaded →
        data.floatBtnClick.toNat ≤ memory.data.floatBtnClick.toNat →
        ByHost memory { memory with data } ∧ Ready { memory with data } ∧
          Closed { memory with data } := by
      intro memory data held enable appLoaded click
      have step : ByHost memory { memory with data } := byHost_reset held.2 rfl rfl click
      exact ⟨step, ⟨step.sound held.1.sound, fun given => held.1.enable (enable.symm.trans given),
        fun given => held.1.appLoaded (appLoaded.symm.trans given)⟩, held.2⟩
    simp only [List.forall_mem_cons, List.not_mem_nil, false_implies, implies_true, and_true]
    refine ⟨?_, ?_, ?_, ?_, ?_, ?_⟩ <;> intro memory held <;>
      refine reset memory _ held ?_ ?_ ?_ <;> first | rfl | exact Nat.zero_le _
  · intro memory held
    apply hostSafe_act ready_stable (fun memory ready => keeps_own ready ⟨_, rfl⟩) _ held.1
    exact fun _ => showWindow_safe

theorem monitorTick_safe (ready : memory.Ready) : HostSafe monitorTick memory := by
  apply safe_ask ready_stable byHost_refl _ (fun _ ready _ => hostSafe_done ready) ready
  intro memory ready _
  apply hostSafe_act ready_stable _ _ ready
  · exact fun memory ready => keeps_data ready rfl rfl rfl rfl
  intro memory ready
  apply safe_access ready_stable _ ready
  intro memory ready
  unfold askRunning
  cases running : memory.application.running with
  | true => exact ⟨byHost_refl memory, insertLoaded_safe ready⟩
  | false =>
      have step := byHost_stopped running
      refine ⟨step, closeView_safe (step.sound ready.sound) fun since => ?_⟩
      rcases since_concat.mp since with same | ⟨free, -⟩
      · cases same
      · exact free (.inl rfl)

theorem keeps_click (ready : memory.Ready) (since : Since .enabled (· = .stopped) memory.history)
    (flags : memory.data.enable = true ∧ memory.data.customButtonAction = true) :
    Keeps memory ({ memory with data.floatBtnClick := true }.record .clicked) := by
  have sound : Sound ({ memory with data.floatBtnClick := true }.record .clicked) := by
    apply ready.sound.record rfl (show HostingAction.Meets .clicked memory.history from since)
    · exact fun running => .inr ⟨by decide, running⟩
    · exact fun handled => .inr ⟨by decide, handled⟩
    · have := ready.sound.answers
      simp only [HostingMemory.record, List.count_append, List.count_singleton]
      simp
      omega
    · exact fun _ => ⟨flags.1, flags.2, rfl⟩
  refine ⟨⟨fun _ => sound, rfl, .inr ⟨.clicked, by decide, rfl⟩⟩, sound, ?_, ?_⟩
  · exact fun enabled => since_concat.mpr (.inr ⟨by decide, ready.enable enabled⟩)
  · exact fun loaded => since_concat.mpr (.inr ⟨by decide, ready.appLoaded loaded⟩)

theorem clickButton_safe (ios13 : Bool) (view : Option Nat) (ready : memory.Ready) :
    HostSafe (clickButton ios13 view) memory := by
  have toggles : ∀ memory, Ready memory → HostSafe (toggleGlobalView ios13 view .done) memory :=
    fun _ => toggleGlobalView_safe ios13 view fun _ => hostSafe_done
  have enable_stable : Stable ByApplication fun memory => memory.data.enable = true :=
    fun _ _ step => step.flags.1
  apply safe_ask ready_stable byHost_refl _ (fun memory ready _ => toggles memory ready) ready
  intro memory ready enable
  have since := ready.enable enable
  apply safe_ask ((ready_stable.and (since_stable .enabled)).and enable_stable) byHost_refl _
    (fun memory held _ => toggles memory held.1.1) ⟨⟨ready, since⟩, enable⟩
  intro memory held custom
  have stable := (ready_stable.and (since_stable .enabled)).and flags_stable
  apply safe_ask stable byHost_refl (fun memory held _ => toggles memory held.1.1) _
    ⟨held.1, held.2, custom⟩
  intro memory held _
  apply safe_ask stable byHost_refl _ _ held
  · intro memory held _
    apply hostSafe_act stable (fun memory held => keeps_click held.1.1 held.1.2 held.2) _ held
    exact fun _ => hostSafe_done
  · intro memory held _
    apply hostSafe_act ready_stable
      (fun memory ready => keeps_hidden ready (setHidden_eq false memory)) _ held.1.1
    exact fun _ => hostSafe_done

theorem foregroundTick_safe (ios13 : Bool) (front view : Option Nat) (orientation : Int)
    (ready : memory.Ready) : HostSafe (foregroundTick ios13 front view orientation) memory := by
  have rest : ∀ memory, Ready memory → HostSafe
      (.act (fun memory => { memory with host.lastApp := front })
        (.act (fun memory => { memory with data.curOrientation := orientation }) .done)) memory := by
    intro memory ready
    apply hostSafe_act ready_stable (fun memory ready => keeps_own ready ⟨_, rfl⟩) _ ready
    intro memory ready
    apply hostSafe_act ready_stable _ (fun _ => hostSafe_done) ready
    exact fun memory ready => keeps_data ready rfl rfl rfl rfl
  apply safe_ask ready_stable byHost_refl _ (fun memory ready _ => rest memory ready) ready
  exact fun memory ready _ => toggleGlobalView_safe ios13 view rest ready

theorem hostCode_safe (ios13 : Bool) (block : HostBlock) (ready : memory.Ready) :
    HostSafe (Hosting.hostCode ios13 block) memory := by
  cases block with
  | monitorTick => exact monitorTick_safe ready
  | foregroundTick front view orientation =>
      exact foregroundTick_safe ios13 front view orientation ready
  | clickButton view => exact clickButton_safe ios13 view ready
  | timer2Tick timer view =>
      apply hostSafe_act ready_stable _ (fun _ => hostSafe_done) ready
      intro memory ready
      apply keeps_own ready
      cases view with
      | none => exact ⟨_, rfl⟩
      | some view => exact ⟨_, rfl⟩
  | cancelLoading =>
      apply hostSafe_act ready_stable _ (fun _ => hostSafe_done) ready
      exact fun memory ready => keeps_own ready ⟨_, rfl⟩

/-! ## The steps of the application -/

theorem byApplication_quiet (history : later.history = memory.history)
    (host : later.host = memory.host)
    (alive : later.application.running = true → memory.application.running = true)
    (handled : later.application.appWindowHandled = true →
      memory.application.appWindowHandled = true)
    (enable : later.data.enable = memory.data.enable)
    (custom : memory.data.customButtonAction = true → later.data.customButtonAction = true)
    (appLoaded : later.data.appLoaded = memory.data.appLoaded)
    (click : later.data.floatBtnClick = memory.data.floatBtnClick) : ByApplication memory later where
  sound sound := by
    apply sound.quiet history alive handled (by rw [click])
    exact fun _ raised => ⟨enable.trans raised.1, custom raised.2.1, click.trans raised.2.2⟩
  fresh := by
    constructor <;> intro fresh given <;> rw [history]
    · exact fresh (enable.symm.trans given)
    · exact fresh (appLoaded.symm.trans given)
  flags := ⟨fun given => enable.trans given, custom⟩
  host := host
  grows := .inl history

theorem byApplication_record {action : HostingAction} (sound : memory.Sound → later.Sound)
    (history : later.history = memory.history ++ [action])
    (allowed : action ≠ .stopped ∧ action ≠ .clicked) (host : later.host = memory.host)
    (enable : later.data.enable = true → action = .enabled ∨ memory.data.enable = true)
    (appLoaded : later.data.appLoaded = true → action = .loaded ∨ memory.data.appLoaded = true)
    (flags : (memory.data.enable = true → later.data.enable = true) ∧
      (memory.data.customButtonAction = true → later.data.customButtonAction = true)) :
    ByApplication memory later where
  sound := sound
  fresh := by
    constructor <;> intro fresh given <;> rw [history, since_concat]
    · exact (enable given).imp_right fun before => ⟨allowed.1, fresh before⟩
    · exact (appLoaded given).imp_right fun before => ⟨allowed.1, fresh before⟩
  flags := flags
  host := host
  grows := .inr ⟨action, allowed, history⟩

/-- While a process of the application runs. -/
structure Alive (memory : HostingMemory) : Prop where
  sound : memory.Sound
  running : memory.application.running = true

theorem alive_stable : Stable ByHost Alive := fun _ _ step alive =>
  ⟨step.sound alive.sound, step.application ▸ alive.running⟩

theorem ByBlock.alive (step : ByBlock memory later) (alive : memory.Alive) : later.Alive :=
  ⟨step.sound alive.sound, step.running.trans alive.running⟩

theorem handled_stable : Stable ByHost fun memory => memory.application.appWindowHandled = true :=
  fun _ _ step handled => (congrArg _ step.application).trans handled

/-- A click is open that no answer was given to. -/
def Owes (memory : HostingMemory) : Prop :=
  memory.history.count .answered < memory.history.count .clicked

theorem owes_stable : Stable ByHost Owes := by
  intro memory later step owes
  unfold Owes at owes ⊢
  rcases step.grows with same | ⟨action, allowed, shape⟩
  · rwa [same]
  · rw [shape, List.count_append, List.count_append, List.count_singleton,
      if_neg (by simpa using allowed)]
    omega

/-- The history goes on from `base`, and whatever was open then is settled by now. -/
def SettledSince (base : List HostingAction) (memory : HostingMemory) : Prop :=
  ∃ added, memory.history = base ++ added ∧
    (Since .clicked HostingAction.Settles base → ∃ action ∈ added, action.Settles)

def GoesOn (base : List HostingAction) (memory : HostingMemory) : Prop :=
  ∃ added, memory.history = base ++ added

theorem goesOn_stable (base : List HostingAction) : Stable ByHost (GoesOn base) := by
  rintro memory later step ⟨added, shape⟩
  rcases step.grows with same | ⟨action, -, grown⟩
  · exact ⟨added, same.trans shape⟩
  · exact ⟨added ++ [action], by rw [grown, shape, List.append_assoc]⟩

theorem SettledSince.grows {base : List HostingAction} {may : HostingAction → Prop}
    (settled : SettledSince base memory) (grows : Grows may memory later) :
    SettledSince base later := by
  obtain ⟨added, shape, settles⟩ := settled
  rcases grows with same | ⟨action, -, grown⟩
  · exact ⟨added, same.trans shape, settles⟩
  · refine ⟨added ++ [action], by rw [grown, shape, List.append_assoc], fun since => ?_⟩
    obtain ⟨settler, inside, settles⟩ := settles since
    exact ⟨settler, List.mem_append_left _ inside, settles⟩

theorem settledSince_stable (base : List HostingAction) : Stable ByHost (SettledSince base) :=
  fun _ _ step settled => settled.grows step.grows

theorem settledSince_inside (base : List HostingAction) : Stable ByBlock (SettledSince base) :=
  fun _ _ step settled => settled.grows step.grows

theorem GoesOn.settled {base : List HostingAction} (goesOn : GoesOn base memory)
    (closed : memory.Closed) : SettledSince base memory := by
  obtain ⟨added, shape⟩ := goesOn
  refine ⟨added, shape, fun since => (since.append added).resolve_left fun still => ?_⟩
  rw [← shape] at still
  exact closed still

/-- The application goes on with `code`, and `goal` holds at its end. -/
abbrev ApplicationSafe (goal : HostingMemory → Prop) (code : Code HostingMemory)
    (memory : HostingMemory) : Prop :=
  Safe ByHost ByBlock goal code memory

section
variable {base : List HostingAction} {next : Code HostingMemory}

theorem answerClick_safe (goes : ∀ memory, Alive memory ∧ SettledSince base memory →
      ApplicationSafe (SettledSince base) next memory)
    (alive : memory.Alive) (goesOn : GoesOn base memory) :
    ApplicationSafe (SettledSince base) (answerClick next) memory := by
  have stable := alive_stable.and (goesOn_stable base)
  -- A flag that is down tells that no click is open.
  have other : ∀ memory, Alive memory ∧ GoesOn base memory → ¬memory.Raised →
      ApplicationSafe (SettledSince base) next memory := fun memory held down =>
    goes memory ⟨held.1, held.2.settled fun since => down (held.1.sound.clicks since)⟩
  apply safe_ask stable byBlock_refl _ _ ⟨alive, goesOn⟩
  · intro memory held _
    apply safe_ask stable byBlock_refl _ _ held
    · intro memory held _
      apply safe_ask stable byBlock_refl _ _ held
      · intro memory held click
        have owes : memory.Owes := by
          have := held.1.sound.answers
          rw [click] at this
          exact this
        have step : ∀ memory, (Alive memory ∧ GoesOn base memory) ∧ Owes memory →
            ByBlock memory ({ memory with data.floatBtnClick := false }.record .answered) := by
          intro memory held
          refine ⟨byApplication_record (fun sound => ?_) rfl (by decide) rfl .inr .inr ⟨id, id⟩, rfl⟩
          apply sound.record rfl (show HostingAction.Meets .answered memory.history from held.2)
          · exact fun running => .inr ⟨by decide, running⟩
          · exact fun handled => .inr ⟨by decide, handled⟩
          · have owes := held.2
            unfold Owes at owes
            rw [List.count_append, List.count_append]
            exact owes
          · rintro (same | ⟨free, -⟩)
            · cases same
            · exact absurd (.inr rfl) free
        apply safe_act (stable.and owes_stable) step _ ⟨held, owes⟩
        intro memory held
        -- What runs inside finds the click settled, and leaves it so.
        apply safe_pause (alive_stable.and (settledSince_stable base))
          (Stable.and (fun _ _ => ByBlock.alive) (settledSince_inside base)) goes
        obtain ⟨added, shape⟩ := held.1.2
        refine ⟨(step memory held).alive held.1.1, added ++ [.answered], ?_,
          fun _ => ⟨.answered, by simp, .inr rfl⟩⟩
        rw [HostingMemory.record, shape, List.append_assoc]
      · intro memory held down
        exact other memory held fun raised => by rw [raised.2.2] at down; cases down
    · intro memory held down
      exact other memory held fun raised => by rw [raised.2.1] at down; cases down
  · intro memory held down
    exact other memory held fun raised => by rw [raised.1] at down; cases down

theorem handleWindow_safe (appWindow : Bool)
    (goes : ∀ memory, Alive memory ∧ SettledSince base memory →
      ApplicationSafe (SettledSince base) next memory)
    (init : memory.Alive ∧ SettledSince base memory) :
    ApplicationSafe (SettledSince base) (handleWindow appWindow next) memory := by
  have stable := alive_stable.and (settledSince_stable base)
  apply safe_ask stable byBlock_refl _ (fun memory held _ => goes memory held) init
  intro memory held _
  have step : ∀ memory, Alive memory ∧ SettledSince base memory → ByBlock memory
      ({ memory with application.appWindowHandled := true }.record .handled) := by
    intro memory held
    refine ⟨byApplication_record (fun sound => ?_) rfl (by decide) rfl .inr .inr ⟨id, id⟩, rfl⟩
    exact sound.plain (by decide) rfl (show HostingAction.Meets .handled memory.history from trivial)
      id (fun _ => .inl rfl) rfl id
  apply safe_act stable step _ held
  intro memory held
  exact goes _ ⟨(step memory held).alive held.1, held.2.grows (step memory held).grows⟩

theorem followOrientation_safe
    (goes : ∀ memory, Alive memory ∧ SettledSince base memory →
      ApplicationSafe (SettledSince base) next memory)
    (init : memory.Alive ∧ SettledSince base memory) :
    ApplicationSafe (SettledSince base) (followOrientation next) memory := by
  have stable := alive_stable.and (settledSince_stable base)
  apply safe_askAll stable byBlock_refl _ goes init
  intro memory held
  have copies : ∀ memory, Alive memory ∧ SettledSince base memory → ByBlock memory
      { memory with application.lastOrientation := memory.data.curOrientation } :=
    fun memory _ => ⟨byApplication_quiet rfl rfl id id rfl id rfl rfl, rfl⟩
  apply safe_act stable copies _ held
  intro memory held
  have rotates : ∀ memory, Alive memory ∧ SettledSince base memory → ByBlock memory
      (memory.record (.rotated memory.data.curOrientation)) := by
    intro memory held
    refine ⟨byApplication_record (fun sound => ?_) rfl (by simp) rfl .inr .inr ⟨id, id⟩, rfl⟩
    exact sound.plain (by simp) rfl
      (show HostingAction.Meets (.rotated memory.data.curOrientation) memory.history from trivial)
      id .inr rfl id
  apply safe_act stable rotates _ ⟨(copies memory held).alive held.1, held.2⟩
  intro memory held
  exact goes _ ⟨(rotates memory held).alive held.1, held.2.grows (rotates memory held).grows⟩

theorem reportLoaded_safe (init : memory.Alive ∧ SettledSince base memory) :
    ApplicationSafe (SettledSince base) reportLoaded memory := by
  have stable := alive_stable.and (settledSince_stable base)
  have ends : ∀ memory, Alive memory ∧ SettledSince base memory →
      ApplicationSafe (SettledSince base) .done memory :=
    fun memory held => safe_done stable (fun _ held => held.2) held
  apply safe_ask stable byBlock_refl _ (fun memory held _ => ends memory held) init
  intro memory held given
  have handled := (Bool.and_eq_true_iff.mp given).1
  apply safe_ask (stable.and handled_stable) byBlock_refl _
    (fun memory held _ => ends memory held.1) ⟨held, handled⟩
  intro memory held _
  have step : ∀ memory, (Alive memory ∧ SettledSince base memory) ∧
      memory.application.appWindowHandled = true →
      ByBlock memory ({ memory with data.appLoaded := true }.record .loaded) := by
    intro memory held
    refine ⟨byApplication_record (fun sound => ?_) rfl (by decide) rfl .inr (fun _ => .inl rfl)
      ⟨id, id⟩, rfl⟩
    exact sound.plain (by decide) rfl (show HostingAction.Meets .loaded memory.history from
      ⟨sound.handled held.2, sound.alive held.1.1.running⟩) id .inr rfl id
  apply safe_act (stable.and handled_stable) step _ held
  intro memory held
  exact ends _ ⟨(step memory held).alive held.1.1, held.1.2.grows (step memory held).grows⟩

theorem applicationTick_safe (appWindow : Bool) (alive : memory.Alive) :
    ApplicationSafe (SettledSince memory.history) (applicationTick appWindow) memory := by
  apply answerClick_safe _ alive ⟨[], (List.append_nil _).symm⟩
  intro memory held
  apply handleWindow_safe appWindow _ held
  intro memory held
  apply followOrientation_safe _ held
  exact fun memory held => reportLoaded_safe held

end

theorem applicationCode_safe (block : ApplicationBlock) (alive : memory.Alive) :
    ApplicationSafe (fun _ => True) (Hosting.applicationCode block) memory := by
  have ends : ∀ memory, Alive memory → ApplicationSafe (fun _ => True) .done memory :=
    fun _ alive => safe_done alive_stable (fun _ _ => trivial) alive
  cases block with
  | applicationTick appWindow => exact (applicationTick_safe appWindow alive).mono fun _ _ => trivial
  | setGlobalView =>
      have step : ∀ memory, Alive memory → ByBlock memory
          ({ memory with data.enable := true, application.shares := true }.record .enabled) := by
        intro memory alive
        refine ⟨byApplication_record (fun sound => ?_) rfl (by decide) rfl (fun _ => .inl rfl) .inr
          ⟨fun _ => rfl, id⟩, rfl⟩
        exact sound.plain (by decide) rfl
          (show HostingAction.Meets .enabled memory.history from trivial) id .inr rfl
          fun raised => ⟨rfl, raised.2⟩
      apply safe_act alive_stable step _ alive
      exact fun memory alive => ends _ ((step memory alive).alive alive)
  | setButtonAction =>
      have step : ∀ memory, Alive memory →
          ByBlock memory { memory with data.customButtonAction := true } :=
        fun memory _ => ⟨byApplication_quiet rfl rfl id id rfl (fun _ => rfl) rfl rfl, rfl⟩
      apply safe_act alive_stable step _ alive
      exact fun memory alive => ends _ ((step memory alive).alive alive)
  | setWindowVisible visible =>
      have raises : ∀ memory, Alive memory →
          ByBlock memory { memory with data.setWindowVisible := true } :=
        fun memory _ => ⟨byApplication_quiet rfl rfl id id rfl id rfl rfl, rfl⟩
      have stores : ∀ memory, Alive memory →
          ByBlock memory { memory with data.windowVisibleState := visible } :=
        fun memory _ => ⟨byApplication_quiet rfl rfl id id rfl id rfl rfl, rfl⟩
      apply safe_askAll alive_stable byBlock_refl _ ends alive
      intro memory alive
      apply safe_act alive_stable raises _ alive
      intro memory alive
      apply safe_act alive_stable stores _ ((raises memory alive).alive alive)
      exact fun memory alive => ends _ ((stores memory alive).alive alive)

/-! ## What happens around both -/

variable (memory) in
theorem byApplication_launch : ByApplication memory
    ({ memory with application := { running := true } }.record .launched) := by
  refine byApplication_record (fun sound => ?_) rfl (by decide) rfl .inr .inr ⟨id, id⟩
  apply sound.record rfl (show HostingAction.Meets .launched memory.history from trivial)
  · exact fun _ => .inl rfl
  · exact fun handled => nomatch handled
  · have := sound.answers
    rw [List.count_append, List.count_append]
    exact this
  · rintro (same | ⟨-, raised⟩)
    · cases same
    · exact raised

variable (memory) in
theorem byApplication_exit : ByApplication memory { memory with application := {} } :=
  byApplication_quiet rfl rfl (fun running => nomatch running) (fun handled => nomatch handled) rfl id
    rfl rfl

end

end HostingMemory

namespace Hosting
open HostingMemory

/-! ## Runs -/

/-- Every block is on its way. The application's own one has a goal, and waits for the one inside. -/
structure Good (goal : HostingMemory → Prop) (s : Hosting) : Prop where
  sound : s.memory.Sound
  host : HostSafe s.host s.memory
  application : ApplicationSafe goal s.application s.memory
  nested : ApplicationSafe (fun _ => True) s.nested s.memory
  waits : s.nested = .done ∨ ∃ next, s.application = .pause next

/-- There is another process of the application behind it, or none. -/
def Replaces : HostingEvent → Prop
  | .launch => True
  | .exit => True
  | _ => False

theorem done_safe (memory : HostingMemory) : ApplicationSafe (fun _ => True) .done memory :=
  fun _ _ => trivial

theorem init_good : Good (fun _ => True) {} := by
  have sound : Sound {} := by
    constructor
    · exact fun action => whenever_nil
    · exact fun running => nomatch running
    · exact fun handled => nomatch handled
    · exact le_refl _
    · exact fun since => absurd since since_nil
  refine ⟨sound, ?_, done_safe _, done_safe _, .inl rfl⟩
  apply hostSafe_done
  exact ⟨sound, (fun given => nomatch given), (fun given => nomatch given)⟩

theorem running_of_runs {memory : HostingMemory} {block : ApplicationBlock}
    (runs : applicationRuns memory block = true) : memory.application.running = true := by
  cases block with
  | setGlobalView => exact runs
  | applicationTick appWindow => exact (Bool.and_eq_true_iff.mp runs).1
  | setButtonAction => exact (Bool.and_eq_true_iff.mp runs).1
  | setWindowVisible visible => exact (Bool.and_eq_true_iff.mp runs).1

section
variable {goal : HostingMemory → Prop} {s : Hosting} (ios13 : Bool)

/-- A block starts with what the one before it has reached. -/
theorem startApplication_good (stable : Code.Stable ByHost goal) (stable' : Code.Stable ByBlock goal)
    (block : ApplicationBlock) (running : s.memory.application.running = true) (good : s.Good goal) :
    (s.startApplication block).Good goal := by
  have safe := applicationCode_safe block ⟨good.sound, running⟩
  unfold startApplication
  split
  · rename_i ended
    have application := good.application
    rw [Code.isDone_iff.mp ended] at application
    have keeps := safe.keeps stable stable' application.reached
    refine { good with application := keeps.mono fun _ held => held.2, waits := ?_ }
    rcases good.waits with rested | ⟨next, paused⟩
    · exact .inl rested
    · rw [paused] at ended
      cases ended
  · split
    · rename_i inside
      have paused := (Bool.and_eq_true_iff.mp (Bool.and_eq_true_iff.mp inside).1).1
      exact { good with nested := safe, waits := .inr (Code.isPaused_iff.mp paused) }
    · exact good

theorem advanceApplication_good (good : s.Good goal) : s.advanceApplication.Good goal := by
  unfold advanceApplication
  split
  · rename_i rested
    obtain ⟨stepped, application⟩ := good.application.advance byBlock_refl
    have ended := Code.isDone_iff.mp rested
    refine ⟨stepped.sound good.sound, good.host.disturbed stepped.toByApplication, application, ?_,
      .inl ended⟩
    rw [ended]
    exact done_safe _
  · rename_i goes
    obtain ⟨stepped, nested⟩ := good.nested.advance byBlock_refl
    rcases good.waits with rested | ⟨next, paused⟩
    · exact absurd (Code.isDone_iff.mpr rested) goes
    · have application := good.application
      rw [paused] at application
      refine ⟨stepped.sound good.sound, good.host.disturbed stepped.toByApplication, ?_, nested,
        .inr ⟨next, paused⟩⟩
      rw [paused]
      exact application.interrupted stepped

theorem step_keeps (stable : Code.Stable ByHost goal) (stable' : Code.Stable ByBlock goal)
    (event : HostingEvent) (good : s.Good goal) (stays : ¬Replaces event) :
    (step ios13 event s).Good goal := by
  cases event with
  | hostStarts block =>
      rw [step]
      split
      · rename_i starts
        have ended := Code.isDone_iff.mp (Bool.and_eq_true_iff.mp starts).1
        have host := good.host
        rw [ended] at host
        exact { good with host := hostCode_safe ios13 block host.reached }
      · exact good
  | host =>
      obtain ⟨stepped, host⟩ := good.host.advance byHost_refl
      exact ⟨stepped.sound good.sound, host, good.application.disturbed stepped,
        good.nested.disturbed stepped, good.waits⟩
  | applicationStarts block =>
      rw [step]
      split
      · rename_i runs
        exact startApplication_good stable stable' block (running_of_runs runs) good
      · exact good
  | application => exact advanceApplication_good good
  | statusBar orientation =>
      have seen : ByHost s.memory { s.memory with statusBarOrientation := orientation } :=
        byHost_quiet rfl rfl (le_refl _) fun _ raised => raised
      have seen' : ByApplication s.memory { s.memory with statusBarOrientation := orientation } :=
        byApplication_quiet rfl rfl id id rfl id rfl rfl
      exact ⟨seen.sound good.sound, good.host.disturbed seen', good.application.disturbed seen,
        good.nested.disturbed seen, good.waits⟩
  | launch => exact absurd trivial stays
  | exit => exact absurd trivial stays

theorem step_good (event : HostingEvent) (s : Hosting) (good : s.Good fun _ => True) :
    (step ios13 event s).Good fun _ => True := by
  by_cases stays : Replaces event
  · cases event with
    | launch =>
        rw [step]
        split
        · exact good
        · have launched := byApplication_launch s.memory
          exact ⟨launched.sound good.sound, good.host.disturbed launched, done_safe _, done_safe _,
            .inl rfl⟩
    | exit =>
        have ended := byApplication_exit s.memory
        exact ⟨ended.sound good.sound, good.host.disturbed ended, done_safe _, done_safe _, .inl rfl⟩
    | hostStarts block => cases stays
    | host => cases stays
    | applicationStarts block => cases stays
    | application => cases stays
    | statusBar orientation => cases stays
  · exact step_keeps ios13 (fun _ _ _ _ => trivial) (fun _ _ _ _ => trivial) event good stays

theorem run_good (events : List HostingEvent) :
    (execute (step ios13) events {}).Good fun _ => True :=
  execute_invariant (Good fun _ => True) (step_good ios13) events init_good

end

/-- The application starts and sets the button's action; two clicks, the first one for the view. -/
def twoClicks : List HostingEvent :=
  [.launch, .applicationStarts .setGlobalView, .application, .applicationStarts .setButtonAction,
    .application, .hostStarts (.clickButton (some 7))] ++ List.replicate 7 .host ++
    [.hostStarts (.clickButton none)] ++ List.replicate 5 .host ++
    [.hostStarts .monitorTick] ++ List.replicate 5 .host

/-- The page answers the click, and hides the window before it comes back. -/
def answersInside : List HostingEvent :=
  List.replicate 4 .application ++ [.applicationStarts (.setWindowVisible false)] ++
    List.replicate 12 .application

example : (execute (step true) (twoClicks ++ .applicationStarts (.applicationTick true) ::
    answersInside) {}).memory.history =
      [.launched, .enabled, .shown, .clicked, .answered, .handled, .loaded] := by decide +kernel

end Hosting

end H5GG

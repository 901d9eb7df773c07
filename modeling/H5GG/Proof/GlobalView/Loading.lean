import H5GG.Proof.GlobalView.Hosting

/-!
# How the view of a starting application comes to be inserted
-/

namespace H5GG
namespace HostingMemory
open Code

/-! ## While the application and its view stay -/

/-- SpringBoard waits for `view` with an application that runs upright. -/
structure Waits (view : Nat) (upright : Int) (memory : HostingMemory) : Prop where
  monitoring : memory.host.monitoring = true
  hostView : memory.host.hostView = some view
  running : memory.application.running = true
  shares : memory.application.shares = true
  enable : memory.data.enable = true
  curOrientation : memory.data.curOrientation = upright
  statusBarOrientation : memory.statusBarOrientation = upright

/-- What has been reached once stays so. -/
structure Reached (view : Nat) (memory later : HostingMemory) : Prop where
  viewHosted : memory.data.viewHosted = true → later.data.viewHosted = true
  handled : memory.application.appWindowHandled = true →
    later.application.appWindowHandled = true
  appLoaded : memory.data.appLoaded = true → later.data.appLoaded = true
  inserted : view ∈ memory.host.subviews → view ∈ later.host.subviews

def Onward (view : Nat) (upright : Int) (memory later : HostingMemory) : Prop :=
  memory.Waits view upright → later.Waits view upright ∧ Reached view memory later

section
variable {view : Nat} {upright : Int} {memory later : HostingMemory} {next : Code HostingMemory}
  {known known' goal : HostingMemory → Prop}

theorem onward_refl (memory : HostingMemory) : Onward view upright memory memory :=
  fun waits => ⟨waits, id, id, id, id⟩

/-- Something that stays once it is reached. -/
def Lasts (view : Nat) (upright : Int) (holds : HostingMemory → Prop) : Prop :=
  ∀ memory later, memory.Waits view upright → Reached view memory later → holds memory → holds later

theorem Lasts.stable (lasts : Lasts view upright known) :
    Stable (Onward view upright) fun memory => Waits view upright memory ∧ known memory := by
  intro memory later step held
  obtain ⟨waits, reached⟩ := step held.1
  exact ⟨waits, lasts memory later held.1 reached held.2⟩

theorem Lasts.and (lasts : Lasts view upright known) (lasts' : Lasts view upright known') :
    Lasts view upright fun memory => known memory ∧ known' memory :=
  fun memory later waits reached held =>
    ⟨lasts memory later waits reached held.1, lasts' memory later waits reached held.2⟩

theorem Lasts.imp (given : Prop) (lasts : Lasts view upright known) :
    Lasts view upright fun memory => given → known memory :=
  fun memory later waits reached held premise => lasts memory later waits reached (held premise)

theorem always_lasts : Lasts view upright fun _ => True := fun _ _ _ _ _ => trivial

theorem hosted_lasts : Lasts view upright fun memory => memory.data.viewHosted = true :=
  fun _ _ _ reached => reached.viewHosted

theorem handled_lasts : Lasts view upright fun memory =>
    memory.application.appWindowHandled = true :=
  fun _ _ _ reached => reached.handled

theorem loaded_lasts : Lasts view upright fun memory => memory.data.appLoaded = true :=
  fun _ _ _ reached => reached.appLoaded

theorem inserted_lasts : Lasts view upright fun memory => view ∈ memory.host.subviews :=
  fun _ _ _ reached => reached.inserted

/-- A process that goes on with `code` reaches `goal` while SpringBoard waits. -/
abbrev Leads (view : Nat) (upright : Int) (goal : HostingMemory → Prop) (code : Code HostingMemory)
    (memory : HostingMemory) : Prop :=
  Safe (Onward view upright) (Onward view upright)
    (fun memory => Waits view upright memory ∧ goal memory) code memory

theorem leads_done (lasts : Lasts view upright known) (enough : ∀ memory, known memory → goal memory)
    (init : Waits view upright memory ∧ known memory) : Leads view upright goal .done memory :=
  safe_done lasts.stable (fun memory held => ⟨held.1, enough memory held.2⟩) init

/-- What is known before stays known. -/
theorem leads_act {effect : HostingMemory → HostingMemory} (lasts : Lasts view upright known)
    (onward : ∀ memory, Onward view upright memory (effect memory))
    (goes : ∀ memory, Waits view upright memory ∧ known memory → Leads view upright goal next memory)
    (init : Waits view upright memory ∧ known memory) :
    Leads view upright goal (.act effect next) memory := by
  apply safe_act lasts.stable (fun memory _ => onward memory) _ init
  intro memory held
  obtain ⟨waits, reached⟩ := onward memory held.1
  exact goes _ ⟨waits, lasts memory _ held.1 reached held.2⟩

variable (known') in
/-- Something new is known behind the access. -/
theorem leads_learn {effect : HostingMemory → HostingMemory} (lasts : Lasts view upright known)
    (onward : ∀ memory, Onward view upright memory (effect memory))
    (learns : ∀ memory, Waits view upright memory → known memory → known' (effect memory))
    (goes : ∀ memory, Waits view upright memory ∧ known' memory → Leads view upright goal next memory)
    (init : Waits view upright memory ∧ known memory) :
    Leads view upright goal (.act effect next) memory := by
  apply safe_act lasts.stable (fun memory _ => onward memory) _ init
  intro memory held
  exact goes _ ⟨(onward memory held.1).1, learns memory held.1 held.2⟩

theorem leads_ask {condition : HostingMemory → Bool} {yes no : Code HostingMemory}
    (lasts : Lasts view upright known)
    (goes : ∀ memory, Waits view upright memory → known memory → condition memory = true →
      Leads view upright goal yes memory)
    (other : ∀ memory, Waits view upright memory → known memory → condition memory = false →
      Leads view upright goal no memory)
    (init : Waits view upright memory ∧ known memory) :
    Leads view upright goal (.ask condition yes no) memory :=
  safe_ask lasts.stable onward_refl (fun memory held => goes memory held.1 held.2)
    (fun memory held => other memory held.1 held.2) init

/-! ## The blocks of SpringBoard -/

theorem onward_hidden (own : ∃ hidden, later = { memory with host.hidden := hidden }) :
    Onward view upright memory later := by
  obtain ⟨hidden, rfl⟩ := own
  exact fun waits => ⟨{ waits with }, id, id, id, id⟩

theorem hasSuperview_eq (waits : memory.Waits view upright) :
    memory.hasSuperview = decide (view ∈ memory.host.subviews) := by
  rw [hasSuperview, waits.hostView]
  rfl

theorem insertView_eq (waits : memory.Waits view upright) : memory.insertView =
    { memory with
      host.alertloading := false
      host.subviews := memory.host.subviews.filter (· ≠ view) ++ [view] }.record .inserted := by
  unfold insertView addSubview
  rw [waits.hostView]

theorem onward_insertView (memory : HostingMemory) :
    Onward view upright memory memory.insertView := by
  intro waits
  rw [insertView_eq waits]
  exact ⟨{ waits with }, id, id, id, fun _ => by simp [HostingMemory.record]⟩

theorem toggleGlobalView_leads (ios13 : Bool) (opened : Option Nat)
    (lasts : Lasts view upright known)
    (goes : ∀ memory, Waits view upright memory ∧ known memory → Leads view upright goal next memory)
    (init : Waits view upright memory ∧ known memory) :
    Leads view upright goal (toggleGlobalView ios13 opened next) memory := by
  have monitors : ∀ memory, Onward view upright memory { memory with host.monitoring := true } :=
    fun memory waits => ⟨{ waits with monitoring := rfl }, id, id, id, id⟩
  apply leads_act lasts monitors _ init
  intro memory init
  apply leads_ask lasts _ _ init
  · intro memory waits _ none'
    rw [waits.hostView] at none'
    simp at none'
  · intro memory waits held _
    exact leads_act lasts (fun memory => onward_hidden (toggleHidden_eq memory)) goes ⟨waits, held⟩

theorem showWindow_leads (lasts : Lasts view upright known)
    (init : Waits view upright memory ∧ known memory) :
    Leads view upright known showWindow memory := by
  have ends : ∀ memory, Waits view upright memory ∧ known memory →
      Leads view upright known .done memory := fun _ => leads_done lasts fun _ => id
  have lowers : ∀ memory, Onward view upright memory { memory with data.setWindowVisible := false } :=
    fun memory waits => ⟨{ waits with }, id, id, id, id⟩
  apply leads_ask lasts _ (fun memory waits held _ => ends memory ⟨waits, held⟩) init
  intro memory waits held _
  apply leads_act lasts (fun memory => onward_hidden (setHidden_eq _ memory)) _ ⟨waits, held⟩
  exact fun _ => leads_act lasts lowers ends

/-- A tick announces the view, and inserts it if the application is known to have loaded. -/
theorem monitorTick_leads (loaded : Prop)
    (init : Waits view upright memory ∧ (loaded → memory.data.appLoaded = true)) :
    Leads view upright
      (fun memory => memory.data.viewHosted = true ∧ (loaded → view ∈ memory.host.subviews))
      monitorTick memory := by
  have known_lasts : Lasts view upright fun memory =>
      memory.data.viewHosted = true ∧ (loaded → memory.data.appLoaded = true) :=
    hosted_lasts.and (loaded_lasts.imp loaded)
  have goal_lasts : Lasts view upright fun memory =>
      memory.data.viewHosted = true ∧ (loaded → view ∈ memory.host.subviews) :=
    hosted_lasts.and (inserted_lasts.imp loaded)
  have hosts : ∀ memory, Onward view upright memory { memory with data.viewHosted := true } :=
    fun memory waits => ⟨{ waits with }, fun _ => rfl, id, id, id⟩
  apply leads_ask (loaded_lasts.imp loaded) _ _ init
  · intro memory waits held _
    apply leads_learn (fun memory => memory.data.viewHosted = true ∧
      (loaded → memory.data.appLoaded = true)) (loaded_lasts.imp loaded) hosts
      (fun memory _ held => ⟨rfl, held⟩) _ ⟨waits, held⟩
    intro memory init
    apply safe_access known_lasts.stable _ init
    intro memory held
    unfold askRunning
    rw [held.1.running]
    refine ⟨onward_refl memory, ?_⟩
    apply leads_ask known_lasts _ _ held
    · intro memory waits held _
      apply leads_ask known_lasts _ _ ⟨waits, held⟩
      · intro memory waits held _
        apply leads_ask known_lasts _ _ ⟨waits, held⟩
        · intro memory waits held _
          apply leads_learn _ known_lasts onward_insertView _ (fun _ => showWindow_leads goal_lasts)
            ⟨waits, held⟩
          intro memory waits held
          rw [insertView_eq waits]
          exact ⟨held.1, fun _ => by simp [HostingMemory.record]⟩
        · intro memory waits held unloaded
          apply showWindow_leads goal_lasts
          refine ⟨waits, held.1, fun given => ?_⟩
          rw [held.2 given] at unloaded
          cases unloaded
      · intro memory waits _ off
        rw [waits.enable] at off
        cases off
    · intro memory waits held there
      apply showWindow_leads goal_lasts
      rw [hasSuperview_eq waits] at there
      exact ⟨waits, held.1, fun _ => by simpa using there⟩
  · intro memory waits _ none'
    rw [waits.hostView] at none'
    cases none'

/-! ## The blocks of the application -/

section
variable {hosted : Prop}

theorem answerClick_leads (lasts : Lasts view upright known)
    (goes : ∀ memory, Waits view upright memory ∧ known memory → Leads view upright goal next memory)
    (init : Waits view upright memory ∧ known memory) :
    Leads view upright goal (answerClick next) memory := by
  have answers : ∀ memory, Onward view upright memory
      ({ memory with data.floatBtnClick := false }.record .answered) :=
    fun memory waits => ⟨{ waits with }, id, id, id, id⟩
  apply safe_askAll lasts.stable onward_refl _ goes init
  intro memory init
  apply leads_act lasts answers _ init
  exact fun memory init => safe_pause lasts.stable lasts.stable goes init

theorem handleWindow_leads (appWindow : Bool)
    (window : hosted → appWindow = true)
    (goes : ∀ memory, Waits view upright memory ∧
      (hosted → memory.application.appWindowHandled = true) → Leads view upright goal next memory)
    (init : Waits view upright memory ∧ (hosted → memory.data.viewHosted = true)) :
    Leads view upright goal (handleWindow appWindow next) memory := by
  have lasts : Lasts view upright fun memory => hosted → memory.data.viewHosted = true :=
    hosted_lasts.imp hosted
  have handles : ∀ memory, Onward view upright memory
      ({ memory with application.appWindowHandled := true }.record .handled) :=
    fun memory waits => ⟨{ waits with }, id, fun _ => rfl, id, id⟩
  apply leads_ask lasts _ _ init
  · intro memory waits held _
    exact leads_learn _ lasts handles (fun _ _ _ _ => rfl) goes ⟨waits, held⟩
  · intro memory waits held still
    apply goes memory
    refine ⟨waits, fun given => ?_⟩
    rw [held given, window given] at still
    simpa using still

theorem followOrientation_leads (lasts : Lasts view upright known)
    (goes : ∀ memory, Waits view upright memory ∧ known memory → Leads view upright goal next memory)
    (init : Waits view upright memory ∧ known memory) :
    Leads view upright goal (followOrientation next) memory := by
  have copies : ∀ memory, Onward view upright memory
      { memory with application.lastOrientation := memory.data.curOrientation } :=
    fun memory waits => ⟨{ waits with }, id, id, id, id⟩
  have rotates : ∀ memory, Onward view upright memory
      (memory.record (.rotated memory.data.curOrientation)) :=
    fun memory waits => ⟨{ waits with }, id, id, id, id⟩
  apply safe_askAll lasts.stable onward_refl _ goes init
  intro memory init
  apply leads_act lasts copies _ init
  exact fun _ => leads_act lasts rotates goes

theorem reportLoaded_leads
    (init : Waits view upright memory ∧ (hosted → memory.application.appWindowHandled = true)) :
    Leads view upright (fun memory => hosted → memory.data.appLoaded = true) reportLoaded memory := by
  have lasts : Lasts view upright fun memory => hosted → memory.application.appWindowHandled = true :=
    handled_lasts.imp hosted
  have ends : ∀ memory, Waits view upright memory ∧ (hosted → memory.data.appLoaded = true) →
      Leads view upright (fun memory => hosted → memory.data.appLoaded = true) .done memory :=
    fun _ => leads_done (loaded_lasts.imp hosted) fun _ => id
  have reports : ∀ memory, Onward view upright memory
      ({ memory with data.appLoaded := true }.record .loaded) :=
    fun memory waits => ⟨{ waits with }, id, id, fun _ => rfl, id⟩
  apply leads_ask lasts _ _ init
  · intro memory waits held _
    apply leads_ask lasts _ _ ⟨waits, held⟩
    · intro memory waits held _
      exact leads_learn _ lasts reports (fun _ _ _ _ => rfl) ends ⟨waits, held⟩
    · intro memory waits _ turned
      rw [waits.statusBarOrientation, waits.curOrientation] at turned
      simp at turned
  · intro memory waits held already
    apply ends memory
    refine ⟨waits, fun given => ?_⟩
    rw [held given] at already
    simpa using already

variable (hosted) in
/-- A tick with a window reports that the application has loaded, if the view is known to be there. -/
theorem applicationTick_leads (appWindow : Bool) (window : hosted → appWindow = true)
    (init : Waits view upright memory ∧ (hosted → memory.data.viewHosted = true)) :
    Leads view upright (fun memory => hosted → memory.data.appLoaded = true)
      (applicationTick appWindow) memory := by
  apply answerClick_leads (hosted_lasts.imp hosted) _ init
  intro memory init
  apply handleWindow_leads appWindow window _ init
  intro memory init
  apply followOrientation_leads (handled_lasts.imp hosted) _ init
  exact fun memory init => reportLoaded_leads init

end

/-! ## Every block -/

theorem onward_click (memory : HostingMemory) : Onward view upright memory
    ({ memory with data.floatBtnClick := true }.record .clicked) :=
  fun waits => ⟨{ waits with }, id, id, id, id⟩

theorem leads_end (memory : HostingMemory) (init : Waits view upright memory ∧ True) :
    Leads view upright (fun _ => True) .done memory :=
  leads_done always_lasts (fun _ => id) init

theorem toggleGlobalView_goes (ios13 : Bool) (opened : Option Nat) (memory : HostingMemory)
    (init : Waits view upright memory ∧ True) :
    Leads view upright (fun _ => True) (toggleGlobalView ios13 opened .done) memory :=
  toggleGlobalView_leads ios13 opened always_lasts leads_end init

theorem clickButton_leads (ios13 : Bool) (opened : Option Nat)
    (init : Waits view upright memory ∧ True) :
    Leads view upright (fun _ => True) (clickButton ios13 opened) memory := by
  apply safe_askAll always_lasts.stable onward_refl _ (toggleGlobalView_goes ios13 opened) init
  intro memory init
  apply leads_ask always_lasts _ _ init
  · exact fun memory waits held _ => toggleGlobalView_goes ios13 opened memory ⟨waits, held⟩
  · intro memory waits held _
    apply leads_ask always_lasts _ _ ⟨waits, held⟩
    · exact fun memory waits held _ => leads_act always_lasts onward_click leads_end ⟨waits, held⟩
    · intro memory waits held _
      exact leads_act always_lasts (fun memory => onward_hidden (setHidden_eq false memory)) leads_end
        ⟨waits, held⟩

theorem foregroundTick_leads (ios13 : Bool) (front opened : Option Nat)
    (init : Waits view upright memory ∧ True) :
    Leads view upright (fun _ => True) (foregroundTick ios13 front opened upright) memory := by
  have fronts : ∀ memory, Onward view upright memory { memory with host.lastApp := front } :=
    fun memory waits => ⟨{ waits with }, id, id, id, id⟩
  have turns : ∀ memory, Onward view upright memory { memory with data.curOrientation := upright } :=
    fun memory waits => ⟨{ waits with curOrientation := rfl }, id, id, id, id⟩
  have rest : ∀ memory, Waits view upright memory ∧ True → Leads view upright (fun _ => True)
      (.act (fun memory => { memory with host.lastApp := front })
        (.act (fun memory => { memory with data.curOrientation := upright }) .done)) memory :=
    fun _ => leads_act always_lasts fronts fun _ => leads_act always_lasts turns leads_end
  apply leads_ask always_lasts _ (fun memory waits held _ => rest memory ⟨waits, held⟩) init
  exact fun memory waits held _ => toggleGlobalView_leads ios13 opened always_lasts rest ⟨waits, held⟩

theorem applicationCode_leads (block : ApplicationBlock) (init : Waits view upright memory ∧ True) :
    Leads view upright (fun _ => True) (Hosting.applicationCode block) memory := by
  cases block with
  | setGlobalView =>
      apply leads_act always_lasts _ leads_end init
      exact fun memory waits => ⟨{ waits with enable := rfl, shares := rfl }, id, id, id, id⟩
  | applicationTick appWindow =>
      exact (applicationTick_leads False appWindow False.elim ⟨init.1, False.elim⟩).mono
        fun memory held => ⟨held.1, trivial⟩
  | setButtonAction =>
      apply leads_act always_lasts _ leads_end init
      exact fun memory waits => ⟨{ waits with }, id, id, id, id⟩
  | setWindowVisible visible =>
      have raises : ∀ memory,
          Onward view upright memory { memory with data.setWindowVisible := true } :=
        fun memory waits => ⟨{ waits with }, id, id, id, id⟩
      have stores : ∀ memory,
          Onward view upright memory { memory with data.windowVisibleState := visible } :=
        fun memory waits => ⟨{ waits with }, id, id, id, id⟩
      apply safe_askAll always_lasts.stable onward_refl _ leads_end init
      exact fun _ => leads_act always_lasts raises fun _ => leads_act always_lasts stores leads_end

end

end HostingMemory

namespace Hosting
open HostingMemory

/-! ## Runs in which the application stays -/

inductive Process
  | host
  | application
  /-- What runs inside a block of the application. -/
  | nested
  deriving DecidableEq

def code (s : Hosting) : Process → Code HostingMemory
  | .host => s.host
  | .application => s.application
  | .nested => s.nested

section
variable (s : Hosting) (memory : HostingMemory) (block : Code HostingMemory)

theorem code_host : ∀ process ≠ .host, code { s with memory, host := block } process = s.code process
  | .host, other => absurd rfl other
  | .application, _ => rfl
  | .nested, _ => rfl

theorem code_application :
    ∀ process ≠ .application, code { s with memory, application := block } process = s.code process
  | .host, _ => rfl
  | .application, other => absurd rfl other
  | .nested, _ => rfl

theorem code_nested :
    ∀ process ≠ .nested, code { s with memory, nested := block } process = s.code process
  | .host, _ => rfl
  | .application, _ => rfl
  | .nested, other => absurd rfl other

end

/-- The application stays, nothing turns, and no timer brings another view. -/
def Calm (upright : Int) : HostingEvent → Prop
  | .launch => False
  | .exit => False
  | .statusBar orientation => orientation = upright
  | .hostStarts (.foregroundTick _ _ orientation) => orientation = upright
  | .hostStarts (.timer2Tick _ _) => False
  | _ => True

/-- Each process is on its way to a goal while SpringBoard waits. -/
structure Going (view : Nat) (upright : Int) (goals : Process → HostingMemory → Prop) (s : Hosting) :
    Prop where
  waits : s.memory.Waits view upright
  leads : ∀ process, Leads view upright (goals process) (s.code process) s.memory

section
variable {view : Nat} {upright : Int} {goals : Process → HostingMemory → Prop} {s : Hosting}
  {known reached : HostingMemory → Prop} (ios13 : Bool)

theorem going_idle (waits : s.memory.Waits view upright) (idle : ∀ process, s.code process = .done) :
    Going view upright (fun _ _ => True) s where
  waits := waits
  leads process := by
    rw [idle process]
    exact leads_end _ ⟨waits, trivial⟩

theorem hostCode_leads (block : HostBlock) (calm : Calm upright (.hostStarts block))
    (waits : s.memory.Waits view upright) :
    Leads view upright (fun _ => True) (hostCode ios13 block) s.memory := by
  cases block with
  | monitorTick =>
      exact (monitorTick_leads False ⟨waits, False.elim⟩).mono fun memory held => ⟨held.1, trivial⟩
  | foregroundTick front opened orientation =>
      obtain rfl : orientation = upright := calm
      exact foregroundTick_leads ios13 front opened ⟨waits, trivial⟩
  | clickButton opened => exact clickButton_leads ios13 opened ⟨waits, trivial⟩
  | timer2Tick timer opened => exact calm.elim
  | cancelLoading =>
      apply leads_act always_lasts _ leads_end ⟨waits, trivial⟩
      exact fun memory waits => ⟨{ waits with }, id, id, id, id⟩

/-- One access of a process, with the other one left where it is. -/
theorem Going.advance (going : s.Going view upright goals) (process : Process) {t : Hosting}
    (memory : t.memory = ((s.code process).advance s.memory).1)
    (next : t.code process = ((s.code process).advance s.memory).2)
    (other : ∀ process' ≠ process, t.code process' = s.code process') :
    t.Going view upright goals ∧ Reached view s.memory t.memory := by
  obtain ⟨onward, leads⟩ := (going.leads process).advance onward_refl
  rw [← memory] at onward leads
  rw [← next] at leads
  obtain ⟨waits, reached⟩ := onward going.waits
  refine ⟨⟨waits, fun process' => ?_⟩, reached⟩
  by_cases same : process' = process
  · rw [same]
    exact leads
  · rw [other process' same]
    exact (going.leads process').disturbed onward

/-- A process that has reached its goal keeps it in another block. -/
theorem Going.start (going : s.Going view upright goals) (process : Process)
    (lasts : Lasts view upright (goals process)) {t : Hosting} (memory : t.memory = s.memory) (ended : (s.code process).isDone = true)
    (leads : Leads view upright (fun _ => True) (t.code process) s.memory)
    (other : ∀ process' ≠ process, t.code process' = s.code process') :
    t.Going view upright goals := by
  refine ⟨memory ▸ going.waits, fun process' => ?_⟩
  rw [memory]
  by_cases same : process' = process
  · rw [same]
    have reached := going.leads process
    rw [Code.isDone_iff.mp ended] at reached
    exact (leads.keeps lasts.stable lasts.stable reached.reached).mono fun _ held => held.2
  · rw [other process' same]
    exact going.leads process'

theorem startApplication_going (block : ApplicationBlock) (going : s.Going view upright goals)
    (lasts : ∀ process, Lasts view upright (goals process)) :
    (s.startApplication block).Going view upright goals ∧
      (s.startApplication block).memory = s.memory := by
  have leads := applicationCode_leads block ⟨going.waits, trivial⟩
  unfold startApplication
  split
  · rename_i ended
    exact ⟨going.start .application (lasts _) rfl ended leads (code_application s s.memory _), rfl⟩
  · split
    · rename_i inside
      have ended := (Bool.and_eq_true_iff.mp (Bool.and_eq_true_iff.mp inside).1).2
      exact ⟨going.start .nested (lasts _) rfl ended leads (code_nested s s.memory _), rfl⟩
    · exact ⟨going, rfl⟩

theorem advanceApplication_going (going : s.Going view upright goals) :
    s.advanceApplication.Going view upright goals ∧
      Reached view s.memory s.advanceApplication.memory := by
  unfold advanceApplication
  split
  · exact going.advance .application rfl rfl (code_application s _ _)
  · exact going.advance .nested rfl rfl (code_nested s _ _)

theorem step_going (event : HostingEvent) (going : s.Going view upright goals)
    (calm : Calm upright event) (lasts : ∀ process, Lasts view upright (goals process)) :
    (step ios13 event s).Going view upright goals ∧
      Reached view s.memory (step ios13 event s).memory := by
  have still : Reached view s.memory s.memory := ⟨id, id, id, id⟩
  cases event with
  | hostStarts block =>
      rw [step]
      split
      · rename_i starts
        have leads := hostCode_leads ios13 block calm going.waits
        have ended := (Bool.and_eq_true_iff.mp starts).1
        exact ⟨going.start .host (lasts _) rfl ended leads (code_host s s.memory _), still⟩
      · exact ⟨going, still⟩
  | applicationStarts block =>
      rw [step]
      split
      · obtain ⟨begun, same⟩ := startApplication_going block going lasts
        exact ⟨begun, same ▸ still⟩
      · exact ⟨going, still⟩
  | host => exact going.advance .host rfl rfl (code_host s _ _)
  | application => exact advanceApplication_going going
  | statusBar orientation =>
      obtain rfl : orientation = upright := calm
      have onward : Onward view orientation s.memory
          { s.memory with statusBarOrientation := orientation } :=
        fun waits => ⟨{ waits with statusBarOrientation := rfl }, id, id, id, id⟩
      obtain ⟨waits, reached⟩ := onward going.waits
      exact ⟨⟨waits, fun process => (going.leads process).disturbed onward⟩, reached⟩
  | launch => exact calm.elim
  | exit => exact calm.elim

theorem run_going (lasts : Lasts view upright known) (events : List HostingEvent)
    (calm : ∀ event ∈ events, Calm upright event)
    (lasting : ∀ process, Lasts view upright (goals process))
    (going : s.Going view upright goals) (held : known s.memory) :
    (execute (step ios13) events s).Going view upright goals ∧
      known (execute (step ios13) events s).memory := by
  apply (along_of_mem events s calm).execute
    (fun s => s.Going view upright goals ∧ known s.memory) _ ⟨going, held⟩
  rintro event s ⟨going, held⟩ calm
  obtain ⟨going', reached⟩ := step_going ios13 event going calm lasting
  exact ⟨going', lasts _ _ going.waits reached held⟩

/-- The events contain a whole run of the block that `start` starts. -/
def Completes (process : Process) (start : HostingEvent) (s : Hosting) (events : List HostingEvent) :
    Prop :=
  ∃ before during after, events = before ++ start :: (during ++ after) ∧
    ((execute (step ios13) before s).code process).isDone = true ∧
    ((execute (step ios13) (before ++ start :: during) s).code process).isDone = true

variable (process : Process) (start : HostingEvent)

/-- What the block leads to is reached, and stays. -/
theorem completes_reached (lasts : Lasts view upright known) (lasts' : Lasts view upright reached)
    (leads : ∀ t : Hosting, t.memory.Waits view upright → known t.memory →
      (t.code process).isDone = true →
      Leads view upright reached ((step ios13 start t).code process) (step ios13 start t).memory)
    (calm : Calm upright start) {events : List HostingEvent}
    (calms : ∀ event ∈ events, Calm upright event) (completes : Completes ios13 process start s events)
    (going : s.Going view upright fun _ _ => True) (held : known s.memory) :
    (execute (step ios13) events s).Going view upright (fun _ _ => True) ∧
      reached (execute (step ios13) events s).memory := by
  obtain ⟨before, during, after, rfl, idle, ended⟩ := completes
  simp only [List.forall_mem_append, List.forall_mem_cons] at calms
  rw [execute_append, execute_cons, execute_append]
  rw [execute_append, execute_cons] at ended
  have free : ∀ _ : Process, Lasts view upright fun _ => True := fun _ => always_lasts
  obtain ⟨going, held⟩ := run_going ios13 lasts before calms.1 free going held
  generalize execute (step ios13) before s = t at going held idle ended ⊢
  -- From here on its own process has a goal, and the other ones have none.
  have began := (step_going ios13 start going calm free).1
  have tracked : (step ios13 start t).Going view upright
      (fun other => if other = process then reached else fun _ => True) := by
    refine ⟨began.waits, fun other => ?_⟩
    by_cases same : other = process
    · subst same
      rw [if_pos rfl]
      exact leads t going.waits held idle
    · rw [if_neg same]
      exact began.leads other
  have lasting : ∀ other,
      Lasts view upright (if other = process then reached else fun _ => True) := by
    intro other
    split
    · exact lasts'
    · exact always_lasts
  have runs := (run_going ios13 always_lasts during calms.2.2.1 lasting tracked trivial).1
  generalize execute (step ios13) during (step ios13 start t) = u at runs ended ⊢
  have reach := runs.leads process
  rw [if_pos rfl, Code.isDone_iff.mp ended] at reach
  have rested : u.Going view upright fun _ _ => True :=
    ⟨runs.waits, fun other => (runs.leads other).mono fun memory held => ⟨held.1, trivial⟩⟩
  exact run_going ios13 lasts' after calms.2.2.2 free rested reach.reached.2

end

/-- SpringBoard waits for an application that has just been adopted, and that has a click to answer. -/
def waiting : Hosting where
  memory :=
    { data := { enable := true, customButtonAction := true, floatBtnClick := true }
      host := { monitoring := true, hostView := some 7, alertloading := true }
      application := { running := true, shares := true } }

def hostTick (accesses : Nat) : List HostingEvent :=
  .hostStarts .monitorTick :: List.replicate accesses .host

/-- The page asks for its window before it comes back. -/
def showsInside : List HostingEvent :=
  List.replicate 4 .application ++ [.applicationStarts (.setWindowVisible true)] ++
    List.replicate 12 .application

end Hosting
end H5GG

import H5GG.Library.Interference
import H5GG.Library.Machine

/-!
# The view of an application in SpringBoard

`toggleGlobalView`, the floating button and the two timers of `globalview.mm`, and the monitor of
`Tweak.mm`, with the flags of `GVData` that they share. A block of either process makes one access
after the other; the run loops start a block when the one before it has ended. The monitor's block
turns the run loop itself, in `evalJS`, so that other blocks of the application run inside it.
-/

namespace H5GG

/-- The fields of `GVData` that the blocks read. -/
structure HostingData where
  enable : Bool := false
  appLoaded : Bool := false
  viewHosted : Bool := false
  floatBtnClick : Bool := false
  customButtonAction : Bool := false
  setWindowVisible : Bool := false
  windowVisibleState : Bool := false
  curOrientation : Int := 0
  deriving DecidableEq, Repr

/-- SpringBoard's own variables. Views and timers are known by numbers. -/
structure HostingHost where
  /-- Whether `toggleGlobalView` has made its timer. -/
  monitoring : Bool := false
  hostView : Option Nat := none
  /-- The views in `GlobalView`, and those that are hidden. -/
  subviews : List Nat := []
  hidden : List Nat := []
  alertloading : Bool := false
  timer2 : Option Nat := none
  /-- The timers that still fire, of those that `timer2` was set to. -/
  valid : List Nat := []
  created : Nat := 0
  lastApp : Option Nat := none
  deriving DecidableEq, Repr

/-- The application's own variables, while there is a process of it. -/
structure HostingApplication where
  running : Bool := false
  /-- Whether `PGVSharedData` is SpringBoard's. -/
  shares : Bool := false
  appWindowHandled : Bool := false
  lastOrientation : Int := 0
  deriving DecidableEq, Repr

inductive HostingAction
  /-- A process of the application begins. -/
  | launched
  /-- It sets `enable`. -/
  | enabled
  /-- It makes its window transparent. -/
  | handled
  | rotated (orientation : Int)
  /-- It sets `appLoaded`. -/
  | loaded
  /-- It calls `h5gg_onButtonClick`. -/
  | answered
  /-- SpringBoard finds that there is no process. -/
  | stopped
  /-- It sets `floatBtnClick`. -/
  | clicked
  /-- It shows a view when it is asked for. -/
  | shown
  /-- It shows a view that it has waited for. -/
  | inserted
  deriving DecidableEq, Repr

/-- What the blocks of both processes work on. -/
structure HostingMemory where
  data : HostingData := {}
  host : HostingHost := {}
  application : HostingApplication := {}
  statusBarOrientation : Int := 0
  history : List HostingAction := []
  deriving DecidableEq, Repr

namespace HostingMemory

def record (action : HostingAction) (memory : HostingMemory) : HostingMemory :=
  { memory with history := memory.history ++ [action] }

/-! ## `toggleGlobalView` -/

def isShown (memory : HostingMemory) : Bool :=
  memory.host.hostView.any fun view => view ∉ memory.host.hidden

def hasSuperview (memory : HostingMemory) : Bool :=
  memory.host.hostView.any (· ∈ memory.host.subviews)

/-- `[GlobalView addSubview:hostView]`. -/
def addSubview (action : HostingAction) (memory : HostingMemory) : HostingMemory :=
  match memory.host.hostView with
  | none => memory
  | some view =>
      { memory with
        host.subviews := memory.host.subviews.filter (· ≠ view) ++ [view] }.record action

def setHidden (hidden : Bool) (memory : HostingMemory) : HostingMemory :=
  match memory.host.hostView with
  | none => memory
  | some view =>
      let others := memory.host.hidden.filter (· ≠ view)
      { memory with host.hidden := if hidden then others ++ [view] else others }

def scheduleTimer2 (memory : HostingMemory) : HostingMemory :=
  { memory with
    host.timer2 := some memory.host.created
    host.valid := memory.host.valid ++ [memory.host.created]
    host.created := memory.host.created + 1 }

def invalidateTimer2 (memory : HostingMemory) : HostingMemory :=
  { memory with
    host.timer2 := none
    host.valid := memory.host.valid.filter fun timer => some timer ≠ memory.host.timer2 }

/-- With the view that there is for the application; before iOS 13 it may come later. -/
def openView (ios13 : Bool) (view : Option Nat) (enabled : Bool) (memory : HostingMemory) :
    HostingMemory :=
  let memory := { memory with host.hostView := view }
  let memory := if ios13 then memory else memory.scheduleTimer2
  if enabled && (ios13 || view.isSome) then memory.addSubview .shown
  else { memory with host.alertloading := true }

def toggleHidden (memory : HostingMemory) : HostingMemory :=
  if memory.hasSuperview then memory.setHidden memory.isShown else memory

def toggleGlobalView (ios13 : Bool) (view : Option Nat) (next : Code HostingMemory) :
    Code HostingMemory :=
  .act (fun memory => { memory with host.monitoring := true }) <|
  .ask (fun memory => memory.host.hostView = none)
    (.ask (·.data.enable) (.act (openView ios13 view true) next)
      (.act (openView ios13 view false) next))
    (.act toggleHidden next)

/-! ## The blocks of SpringBoard -/

/-- `GVSharedData = GVDataDefaultMake()`, field by field. -/
def resetData : List (HostingMemory → HostingMemory) :=
  [fun memory => { memory with data.enable := false },
   fun memory => { memory with data.appLoaded := false },
   fun memory => { memory with data.viewHosted := false },
   fun memory => { memory with data.floatBtnClick := false },
   fun memory => { memory with data.customButtonAction := false },
   fun memory => { memory with data.setWindowVisible := false },
   fun memory => { memory with data.windowVisibleState := false },
   fun memory => { memory with data.curOrientation := 0 }]

def removeView (memory : HostingMemory) : HostingMemory :=
  { memory with
    host.hostView := none
    host.subviews := memory.host.subviews.filter fun view => some view ≠ memory.host.hostView }

def insertView (memory : HostingMemory) : HostingMemory :=
  { memory with host.alertloading := false }.addSubview .inserted

/-- `appToHost && appToHost.processState`, which is taken to tell at once when the process is gone. -/
def askRunning (memory : HostingMemory) : Bool × HostingMemory :=
  (memory.application.running,
    if memory.application.running then memory else memory.record .stopped)

def showWindow : Code HostingMemory :=
  .ask (·.data.setWindowVisible)
    (.act (fun memory => memory.setHidden (!memory.data.windowVisibleState)) <|
     .act (fun memory => { memory with data.setWindowVisible := false }) .done)
    .done

def insertLoaded : Code HostingMemory :=
  .askAll [fun memory => !memory.hasSuperview, (·.data.enable), (·.data.appLoaded)]
    (.act insertView showWindow) showWindow

def closeView : Code HostingMemory :=
  .actAll resetData (.act removeView showWindow)

/-- The timer of `toggleGlobalView`. -/
def monitorTick : Code HostingMemory :=
  .ask (fun memory => memory.host.hostView.isSome)
    (.act (fun memory => { memory with data.viewHosted := true }) <|
     .access askRunning fun running => bif running then insertLoaded else closeView)
    .done

/-- Whether the view goes away because another application comes to the front. -/
def dismisses (front : Option Nat) (memory : HostingMemory) : Bool :=
  memory.host.lastApp ≠ front && memory.isShown &&
    ((memory.host.lastApp.isSome && front.isSome) || front.isNone)

def foregroundTick (ios13 : Bool) (front view : Option Nat) (orientation : Int) :
    Code HostingMemory :=
  let rest : Code HostingMemory :=
    .act (fun memory => { memory with host.lastApp := front }) <|
    .act (fun memory => { memory with data.curOrientation := orientation }) .done
  .ask (dismisses front) (toggleGlobalView ios13 view rest) rest

def clickButton (ios13 : Bool) (view : Option Nat) : Code HostingMemory :=
  .askAll [(·.data.enable), (·.data.customButtonAction)]
    (.ask (fun memory => memory.host.hostView = none) (toggleGlobalView ios13 view .done) <|
     .ask isShown
       (.act (fun memory => { memory with data.floatBtnClick := true }.record .clicked) .done)
       (.act (setHidden false) .done))
    (toggleGlobalView ios13 view .done)

/-- The block of `timer2`, which there is before iOS 13. -/
def timer2Tick (view : Option Nat) : Code HostingMemory :=
  .act (fun memory =>
    let memory := { memory with host.hostView := view }
    if view.isSome then memory.invalidateTimer2 else memory) .done

def cancelLoading : Code HostingMemory :=
  .act (fun memory => { memory with host.alertloading := false }.invalidateTimer2) .done

/-! ## The blocks of the application -/

def setGlobalView : Code HostingMemory :=
  .act (fun memory =>
    { memory with data.enable := true, application.shares := true }.record .enabled) .done

/-- `evalJS` comes back when the page has answered. -/
def answerClick (next : Code HostingMemory) : Code HostingMemory :=
  .askAll [(·.data.enable), (·.data.customButtonAction), (·.data.floatBtnClick)]
    (.act (fun memory => { memory with data.floatBtnClick := false }.record .answered) <|
     .pause next) next

def handleWindow (appWindow : Bool) (next : Code HostingMemory) : Code HostingMemory :=
  .ask (fun memory => !memory.application.appWindowHandled && memory.data.viewHosted && appWindow)
    (.act (fun memory =>
      { memory with application.appWindowHandled := true }.record .handled) next) next

def followOrientation (next : Code HostingMemory) : Code HostingMemory :=
  .askAll [(·.data.viewHosted),
      fun memory => memory.application.lastOrientation ≠ memory.data.curOrientation]
    (.act (fun memory => { memory with application.lastOrientation := memory.data.curOrientation }) <|
     .act (fun memory => memory.record (.rotated memory.data.curOrientation)) next) next

def reportLoaded : Code HostingMemory :=
  .askAll [fun memory => memory.application.appWindowHandled && !memory.data.appLoaded,
      fun memory => memory.statusBarOrientation = memory.data.curOrientation]
    (.act (fun memory => { memory with data.appLoaded := true }.record .loaded) .done) .done

/-- One tick of the monitor that `H5GGSetGlobalView` starts. -/
def applicationTick (appWindow : Bool) : Code HostingMemory :=
  answerClick <| handleWindow appWindow <| followOrientation reportLoaded

def setButtonAction : Code HostingMemory :=
  .act (fun memory => { memory with data.customButtonAction := true }) .done

def setWindowVisible (visible : Bool) : Code HostingMemory :=
  .askAll [(·.data.enable), (·.data.viewHosted)]
    (.act (fun memory => { memory with data.setWindowVisible := true }) <|
     .act (fun memory => { memory with data.windowVisibleState := visible }) .done) .done

end HostingMemory

/-! ## Runs -/

inductive HostBlock
  | monitorTick
  | foregroundTick (front view : Option Nat) (orientation : Int)
  | clickButton (view : Option Nat)
  | timer2Tick (timer : Nat) (view : Option Nat)
  | cancelLoading
  deriving DecidableEq, Repr

inductive ApplicationBlock
  | setGlobalView
  | applicationTick (appWindow : Bool)
  | setButtonAction
  | setWindowVisible (visible : Bool)
  deriving DecidableEq, Repr

inductive HostingEvent
  | hostStarts (block : HostBlock)
  | host
  | applicationStarts (block : ApplicationBlock)
  | application
  | launch
  | exit
  | statusBar (orientation : Int)
  deriving DecidableEq, Repr

structure Hosting where
  memory : HostingMemory := {}
  host : Code HostingMemory := .done
  application : Code HostingMemory := .done
  /-- The block that runs inside a block of the application. -/
  nested : Code HostingMemory := .done

namespace Hosting
open HostingMemory

def hostCode (ios13 : Bool) : HostBlock → Code HostingMemory
  | .monitorTick => monitorTick
  | .foregroundTick front view orientation => foregroundTick ios13 front view orientation
  | .clickButton view => clickButton ios13 view
  | .timer2Tick _ view => timer2Tick view
  | .cancelLoading => cancelLoading

def hostRuns (memory : HostingMemory) : HostBlock → Bool
  | .monitorTick => memory.host.monitoring
  | .timer2Tick timer _ => timer ∈ memory.host.valid
  | _ => true

def applicationCode : ApplicationBlock → Code HostingMemory
  | .setGlobalView => setGlobalView
  | .applicationTick appWindow => applicationTick appWindow
  | .setButtonAction => setButtonAction
  | .setWindowVisible visible => setWindowVisible visible

/-- Only with SpringBoard's `GVData` a block of the application is of interest. -/
def applicationRuns (memory : HostingMemory) : ApplicationBlock → Bool
  | .setGlobalView => memory.application.running
  | _ => memory.application.running && memory.application.shares

/-- A timer does not fire while its block runs. -/
def runsInside : ApplicationBlock → Bool
  | .applicationTick _ => false
  | _ => true

def startApplication (block : ApplicationBlock) (s : Hosting) : Hosting :=
  if s.application.isDone then { s with application := applicationCode block }
  else if s.application.isPaused && s.nested.isDone && runsInside block then
    { s with nested := applicationCode block }
  else s

/-- The block inside comes first. -/
def advanceApplication (s : Hosting) : Hosting :=
  if s.nested.isDone then
    { s with
      memory := (s.application.advance s.memory).1
      application := (s.application.advance s.memory).2 }
  else
    { s with memory := (s.nested.advance s.memory).1, nested := (s.nested.advance s.memory).2 }

def step (ios13 : Bool) : HostingEvent → Hosting → Hosting
  | .hostStarts block, s =>
      if s.host.isDone && hostRuns s.memory block then { s with host := hostCode ios13 block } else s
  | .host, s =>
      { s with memory := (s.host.advance s.memory).1, host := (s.host.advance s.memory).2 }
  | .applicationStarts block, s =>
      if applicationRuns s.memory block then s.startApplication block else s
  | .application, s => s.advanceApplication
  | .launch, s =>
      if s.memory.application.running then s
      else
        { s with
          memory := { s.memory with application := { running := true } }.record .launched
          application := .done
          nested := .done }
  | .exit, s =>
      { s with
        memory := { s.memory with application := {} }
        application := .done
        nested := .done }
  | .statusBar orientation, s => { s with memory.statusBarOrientation := orientation }

end Hosting

end H5GG

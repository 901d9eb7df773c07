import H5GG.Library.Machine

/-!
# The window's visibility in shared memory

The application's `setWindowVisible` action and the host's timer, one access to `GVData` at a time.
The bridge runs the actions one after the other.
-/

namespace H5GG

/-- The fields of `GVData` that the action and the timer use. -/
structure GVData where
  enable : Bool := false
  viewHosted : Bool := false
  setWindowVisible : Bool := false
  windowVisibleState : Bool := false
  deriving DecidableEq, Repr

/-- Where the application stands in an action. -/
inductive Request
  | idle
  | checked (visible : Bool)
  | flagged (visible : Bool)
  deriving DecidableEq, Repr

/-- Where the timer stands in a tick, between its accesses. -/
inductive Poll
  | idle
  | hosted
  | tested
  | shown
  deriving DecidableEq, Repr

structure Mailbox where
  shared : GVData := {}
  /-- `hostView.hidden`. -/
  hidden : Bool := false
  request : Request := .idle
  poll : Poll := .idle
  /-- The visibility asked for last. -/
  asked : Option Bool := none
  deriving DecidableEq, Repr

inductive MailboxEvent
  | setWindowVisible (visible : Bool)
  | application
  | host
  deriving DecidableEq, Repr

namespace Mailbox

/-- The mailbox of an application that the host shows. -/
def hosted (hidden : Bool) : Mailbox := { shared := { enable := true, viewHosted := true }, hidden }

def applicationStep (s : Mailbox) : Mailbox :=
  match s.request with
  | .idle => s
  | .checked visible =>
      { s with shared.setWindowVisible := true, request := .flagged visible }
  | .flagged visible =>
      { s with shared.windowVisibleState := visible, request := .idle }

/-- The timer's block with `hostView` present and the application running. -/
def hostStep (s : Mailbox) : Mailbox :=
  match s.poll with
  | .idle => { s with shared.viewHosted := true, poll := .hosted }
  | .hosted => { s with poll := if s.shared.setWindowVisible then .tested else .idle }
  | .tested => { s with hidden := !s.shared.windowVisibleState, poll := .shown }
  | .shown => { s with shared.setWindowVisible := false, poll := .idle }

def step : MailboxEvent → Mailbox → Mailbox
  | .setWindowVisible visible, s =>
      match s.request with
      | .idle =>
          -- An application that is not hosted shows its own window and leaves the mailbox alone.
          if s.shared.enable && s.shared.viewHosted then
            { s with request := .checked visible, asked := some visible }
          else s
      | _ => s
  | .application, s => s.applicationStep
  | .host, s => s.hostStep

end Mailbox

end H5GG

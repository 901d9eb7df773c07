import Mathlib.Data.List.Basic

/-!
# The script bridge

`FloatMenu.mm`. The run loop delivers one message after another, and another one inside a dispatch
that spins the run loop itself. A handler that was given the id of a call resolves it in some
later turn, and every handler that is left does so in the end.
-/

namespace H5GG

abbrev CallId := Nat

/-- What the code that a message calls does, up to its return or exception. -/
inductive Dispatch (Reply : Type)
  | returns (reply : Reply)
  /-- `deferCurrentCall`, with a handler that will resolve the id by `reply`. -/
  | defers (reply : Reply) (rest : Dispatch Reply)
  | fires (index : Nat) (rest : Dispatch Reply)
  /-- A nested turn of the run loop delivers another message. -/
  | receives (callId : CallId) (body rest : Dispatch Reply)
  deriving Repr

inductive Turn (Reply : Type)
  | receives (callId : CallId) (body : Dispatch Reply)
  | fires (index : Nat)
  deriving Repr

/-- Who resolves a call: the message whose dispatch returned, or a handler that the dispatch of
that message left behind. -/
inductive Resolver
  | dispatch (owner : CallId)
  | handler (owner : CallId)
  deriving DecidableEq, Repr

structure Resolution (Reply : Type) where
  callId : CallId
  resolver : Resolver
  reply : Reply
  deriving DecidableEq, Repr

/-- `pendingCallId` and `hasPendingCallback`, the handlers that wait, the calls of
`resolveCallId` so far, and what `deferCurrentCall` returned to the dispatch of which message. -/
structure FloatMenu (Reply : Type) where
  pendingCallId : Option CallId := none
  hasPendingCallback : Bool := false
  handlers : List (Resolution Reply) := []
  resolved : List (Resolution Reply) := []
  deferrals : List (CallId × Option CallId) := []
  deriving DecidableEq, Repr

namespace FloatMenu
variable {Reply : Type} (menu : FloatMenu Reply)

def resolveCallId (resolution : Resolution Reply) : FloatMenu Reply :=
  { menu with resolved := menu.resolved ++ [resolution] }

def deferCurrentCall : Option CallId × FloatMenu Reply :=
  match menu.pendingCallId with
  | none => (none, menu)
  | some callId => (some callId, { menu with hasPendingCallback := true })

/-- A call of `deferCurrentCall` by the dispatch of `owner`; without an id it sets up no handler. -/
def deferFrom (owner : CallId) (reply : Reply) : FloatMenu Reply :=
  let (callId, menu) := menu.deferCurrentCall
  { menu with
    handlers := menu.handlers ++ (callId.map (⟨·, .handler owner, reply⟩)).toList
    deferrals := menu.deferrals ++ [(owner, callId)] }

def fireHandler (index : Nat) : FloatMenu Reply :=
  match menu.handlers[index]? with
  | none => menu
  | some handler => { menu with handlers := menu.handlers.eraseIdx index }.resolveCallId handler

/-- `userContentController:didReceiveScriptMessage:` up to the dispatch. -/
def beginCall (callId : CallId) : FloatMenu Reply :=
  { menu with pendingCallId := some callId, hasPendingCallback := false }

/-- The rest of it, from the reply of the dispatch on. -/
def endCall (callId : CallId) (reply : Reply) : FloatMenu Reply :=
  if menu.hasPendingCallback then { menu with pendingCallId := none }
  else { menu with pendingCallId := none }.resolveCallId ⟨callId, .dispatch callId, reply⟩

end FloatMenu

namespace Dispatch
variable {Reply : Type}

def run (owner : CallId) : Dispatch Reply → FloatMenu Reply → Reply × FloatMenu Reply
  | returns reply, menu => (reply, menu)
  | defers reply rest, menu => run owner rest (menu.deferFrom owner reply)
  | fires index rest, menu => run owner rest (menu.fireHandler index)
  | receives callId body rest, menu =>
      let (reply, inner) := run callId body (menu.beginCall callId)
      run owner rest (inner.endCall callId reply)

end Dispatch

namespace FloatMenu
variable {Reply : Type}

def didReceiveScriptMessage (callId : CallId) (body : Dispatch Reply) (menu : FloatMenu Reply) :
    FloatMenu Reply :=
  let (reply, inner) := body.run callId (menu.beginCall callId)
  inner.endCall callId reply

def turn (menu : FloatMenu Reply) : Turn Reply → FloatMenu Reply
  | .receives callId body => menu.didReceiveScriptMessage callId body
  | .fires index => menu.fireHandler index

def fireAll (menu : FloatMenu Reply) : FloatMenu Reply :=
  menu.handlers.foldl resolveCallId { menu with handlers := [] }

def session (turns : List (Turn Reply)) : FloatMenu Reply :=
  (turns.foldl turn {}).fireAll

end FloatMenu

end H5GG

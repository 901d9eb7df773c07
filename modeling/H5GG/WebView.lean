import H5GG.Bridge

/-!
# The page's end of the bridge

`_bridgeSource` in `FloatMenu.mm`, run anew in each document, the two queues between the page and
the native side, and the dispatches that are under way, one step at a time.
-/

namespace H5GG

/-- What the page hands to `window.__h5gg_native`. -/
inductive Posting
  | message
  /-- The method is no string or the arguments are no array. -/
  | malformed
  /-- `postMessage` throws on the arguments, inside the executor of the promise. -/
  | uncloneable
  deriving DecidableEq, Repr

inductive WebEvent (Reply : Type)
  | calls (posting : Posting)
  /-- The run loop delivers the next message, to an idle menu or inside a dispatch that spins it. -/
  | receives (invalid : Reply)
  | defers (reply : Reply)
  | fires (index : Nat)
  | returns (reply : Reply)
  /-- The page runs the next `window.__h5gg_onResult` script. -/
  | evaluates
  | reloads
  deriving Repr

/-- A message whose dispatch is under way, and whether `deferCurrentCall` gave it an id. -/
structure Dispatching where
  callId : CallId
  deferred : Bool := false
  deriving DecidableEq, Repr

/-- `_id` and the keys of `_cb` in the current document, the messages on their way with whether the
native side will dispatch them, the dispatches under way, the innermost first, and how many scripts
of `menu.resolved` the page has run. The rest is history: the callbacks that ran, the promises that
the exception of `postMessage` rejected, and the calls whose dispatch ended without a reply. -/
structure WebView (Reply : Type) where
  document : Nat := 0
  id : CallId := 0
  cb : List CallId := []
  posted : List (CallId × Bool) := []
  menu : FloatMenu Reply := {}
  dispatching : List Dispatching := []
  ran : Nat := 0
  settled : List (Nat × Resolution Reply) := []
  thrown : List CallId := []
  lost : List CallId := []
  deriving DecidableEq, Repr

namespace WebView
variable {Reply : Type} (view : WebView Reply)

/-- `window.__h5gg_native`. -/
def native (posting : Posting) : WebView Reply :=
  let callId := view.id + 1
  let view := { view with id := callId, cb := view.cb ++ [callId] }
  match posting with
  | .message => { view with posted := view.posted ++ [(callId, true)] }
  | .malformed => { view with posted := view.posted ++ [(callId, false)] }
  | .uncloneable => { view with thrown := view.thrown ++ [callId] }

/-- `userContentController:didReceiveScriptMessage:` up to the dispatch; `invalid` is the error
`Invalid bridge message`. -/
def receive (invalid : Reply) : WebView Reply :=
  match view.posted with
  | [] => view
  | (callId, false) :: posted =>
      { view with posted, menu := view.menu.resolveCallId ⟨callId, .dispatch callId, invalid⟩ }
  | (callId, true) :: posted =>
      { view with
        posted
        menu := view.menu.beginCall callId
        dispatching := ⟨callId, false⟩ :: view.dispatching }

/-- `deferCurrentCall` in the innermost dispatch. -/
def defer (reply : Reply) : WebView Reply :=
  match view.dispatching with
  | [] => view
  | inner :: outer =>
      { view with
        menu := view.menu.deferFrom inner.callId reply
        dispatching :=
          { inner with deferred := inner.deferred || view.menu.pendingCallId.isSome } :: outer }

def fire (index : Nat) : WebView Reply :=
  { view with menu := view.menu.fireHandler index }

/-- The rest of `userContentController:didReceiveScriptMessage:`, in the innermost dispatch. -/
def finishCall (reply : Reply) : WebView Reply :=
  match view.dispatching with
  | [] => view
  | inner :: outer =>
      { view with
        menu := view.menu.endCall inner.callId reply
        dispatching := outer
        lost :=
          if view.menu.hasPendingCallback && !inner.deferred then view.lost ++ [inner.callId]
          else view.lost }

/-- `window.__h5gg_onResult`. -/
def onResult (resolution : Resolution Reply) : WebView Reply :=
  if resolution.callId ∈ view.cb then
    { view with
      cb := view.cb.filter (· ≠ resolution.callId)
      settled := view.settled ++ [(view.document, resolution)] }
  else view

def evaluate : WebView Reply :=
  match view.menu.resolved[view.ran]? with
  | none => view
  | some resolution => { view with ran := view.ran + 1 }.onResult resolution

/-- A new document runs `_bridgeSource`; what is under way stays. -/
def reload : WebView Reply :=
  { view with document := view.document + 1, id := 0, cb := [], thrown := [], lost := [] }

def step : WebEvent Reply → WebView Reply → WebView Reply
  | .calls posting, view => view.native posting
  | .receives invalid, view => view.receive invalid
  | .defers reply, view => view.defer reply
  | .fires index, view => view.fire index
  | .returns reply, view => view.finishCall reply
  | .evaluates, view => view.evaluate
  | .reloads, view => view.reload

/-- Nothing is on its way, under way or waiting. -/
def AtRest : Prop :=
  view.posted = [] ∧ view.dispatching = [] ∧ view.menu.handlers = [] ∧
    view.ran = view.menu.resolved.length

instance : Decidable view.AtRest :=
  inferInstanceAs (Decidable (_ ∧ _ ∧ _ ∧ _))

end WebView

end H5GG

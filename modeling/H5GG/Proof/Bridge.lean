import H5GG.Bridge
import Mathlib.Data.List.Perm.Basic

/-!
# Settling of calls
-/

namespace H5GG
variable {Reply : Type}

namespace Dispatch

def calls : Dispatch Reply → List (CallId × Dispatch Reply)
  | returns _ => []
  | defers _ rest => calls rest
  | fires _ rest => calls rest
  | receives callId body rest => (callId, body) :: calls body ++ calls rest

def returned : Dispatch Reply → Reply
  | returns reply => reply
  | defers _ rest => returned rest
  | fires _ rest => returned rest
  | receives _ _ rest => returned rest

def deferred : Dispatch Reply → List Reply
  | returns _ => []
  | defers reply rest => reply :: deferred rest
  | fires _ rest => deferred rest
  | receives _ _ rest => deferred rest

/-- Those of them that come before any nested message. -/
def deferredFirst : Dispatch Reply → List Reply
  | returns _ => []
  | defers reply rest => reply :: deferredFirst rest
  | fires _ rest => deferredFirst rest
  | receives _ _ _ => []

def lastReceived : Dispatch Reply → Option (CallId × Dispatch Reply)
  | returns _ => none
  | defers _ rest => lastReceived rest
  | fires _ rest => lastReceived rest
  | receives callId body rest => (lastReceived rest).or (some (callId, body))

/-- `hasPendingCallback` behind a dispatch. -/
def hasAfter : Dispatch Reply → Option CallId → Bool → Bool
  | returns _, _, has => has
  | defers _ rest, pending, has => hasAfter rest pending (has || pending.isSome)
  | fires _ rest, pending, has => hasAfter rest pending has
  | receives callId body rest, _, _ => hasAfter rest none (hasAfter body (some callId) false)

/-- The resolutions that a dispatch brings about, now or through the handlers it leaves. -/
def resolutions (owner : CallId) : Dispatch Reply → Option CallId → List (Resolution Reply)
  | returns _, _ => []
  | defers reply rest, pending =>
      (pending.map (⟨·, .handler owner, reply⟩)).toList ++ resolutions owner rest pending
  | fires _ rest, pending => resolutions owner rest pending
  | receives callId body rest, _ =>
      resolutions callId body (some callId) ++
        (if hasAfter body (some callId) false then []
          else [⟨callId, .dispatch callId, returned body⟩]) ++ resolutions owner rest none

def deferrals (owner : CallId) : Dispatch Reply → Option CallId → List (CallId × Option CallId)
  | returns _, _ => []
  | defers _ rest, pending => (owner, pending) :: deferrals owner rest pending
  | fires _ rest, pending => deferrals owner rest pending
  | receives callId body rest, _ =>
      deferrals callId body (some callId) ++ deferrals owner rest none

end Dispatch

def callResolutions (call : CallId × Dispatch Reply) : List (Resolution Reply) :=
  call.2.resolutions call.1 (some call.1) ++
    if call.2.hasAfter (some call.1) false then []
    else [⟨call.1, .dispatch call.1, call.2.returned⟩]

def callDeferrals (call : CallId × Dispatch Reply) : List (CallId × Option CallId) :=
  call.2.deferrals call.1 (some call.1)

namespace FloatMenu

/-- What has been resolved, and what the handlers that wait will resolve. -/
def settling (menu : FloatMenu Reply) : List (Resolution Reply) :=
  menu.resolved ++ menu.handlers

theorem fireHandler_settling (menu : FloatMenu Reply) (index : Nat) :
    (menu.fireHandler index).settling.Perm menu.settling := by
  unfold fireHandler
  cases found : menu.handlers[index]? with
  | none => exact .refl _
  | some handler =>
      obtain ⟨inside, rfl⟩ := List.getElem?_eq_some_iff.mp found
      simp only [settling, resolveCallId, List.append_assoc, List.singleton_append]
      exact (List.getElem_cons_eraseIdx_perm inside).append_left menu.resolved

theorem fireHandler_same (menu : FloatMenu Reply) (index : Nat) :
    (menu.fireHandler index).pendingCallId = menu.pendingCallId ∧
      (menu.fireHandler index).hasPendingCallback = menu.hasPendingCallback ∧
      (menu.fireHandler index).deferrals = menu.deferrals := by
  unfold fireHandler
  split <;> exact ⟨rfl, rfl, rfl⟩

theorem deferFrom_settling (menu : FloatMenu Reply) (owner : CallId) (reply : Reply) :
    (menu.deferFrom owner reply).settling = menu.settling ++
      (menu.pendingCallId.map (⟨·, .handler owner, reply⟩)).toList := by
  unfold deferFrom deferCurrentCall settling
  cases menu.pendingCallId <;> simp

theorem deferFrom_same (menu : FloatMenu Reply) (owner : CallId) (reply : Reply) :
    (menu.deferFrom owner reply).pendingCallId = menu.pendingCallId ∧
      (menu.deferFrom owner reply).hasPendingCallback =
        (menu.hasPendingCallback || menu.pendingCallId.isSome) ∧
      (menu.deferFrom owner reply).deferrals =
        menu.deferrals ++ [(owner, menu.pendingCallId)] := by
  unfold deferFrom deferCurrentCall
  cases pending : menu.pendingCallId <;> simp [pending]

theorem endCall_settling (menu : FloatMenu Reply) (callId : CallId) (reply : Reply) :
    (menu.endCall callId reply).settling.Perm (menu.settling ++
      if menu.hasPendingCallback then [] else [⟨callId, .dispatch callId, reply⟩]) := by
  unfold endCall
  split
  · rw [List.append_nil]
    exact .refl _
  · simp only [settling, resolveCallId, List.append_assoc]
    exact List.perm_append_comm.append_left menu.resolved

theorem endCall_same (menu : FloatMenu Reply) (callId : CallId) (reply : Reply) :
    (menu.endCall callId reply).pendingCallId = none ∧
      (menu.endCall callId reply).hasPendingCallback = menu.hasPendingCallback ∧
      (menu.endCall callId reply).deferrals = menu.deferrals := by
  unfold endCall
  split <;> exact ⟨rfl, rfl, rfl⟩

end FloatMenu

/-- A dispatch settles what `resolutions` says, whatever the state it starts from. -/
theorem run_spec (d : Dispatch Reply) (owner : CallId) (menu : FloatMenu Reply) :
    (d.run owner menu).1 = d.returned ∧
      (d.run owner menu).2.hasPendingCallback =
        d.hasAfter menu.pendingCallId menu.hasPendingCallback ∧
      (d.run owner menu).2.settling.Perm
        (menu.settling ++ d.resolutions owner menu.pendingCallId) ∧
      (d.run owner menu).2.deferrals =
        menu.deferrals ++ d.deferrals owner menu.pendingCallId := by
  induction d generalizing owner menu with
  | returns reply => simp [Dispatch.run, Dispatch.returned, Dispatch.hasAfter,
      Dispatch.resolutions, Dispatch.deferrals]
  | defers reply rest ih =>
      obtain ⟨value, has, settles, defers⟩ := ih owner (menu.deferFrom owner reply)
      obtain ⟨pending, flag, logged⟩ := menu.deferFrom_same owner reply
      rw [pending] at has settles defers
      rw [flag] at has
      rw [FloatMenu.deferFrom_settling, List.append_assoc] at settles
      rw [logged, List.append_assoc] at defers
      exact ⟨value, has, settles, defers⟩
  | fires index rest ih =>
      obtain ⟨value, has, settles, defers⟩ := ih owner (menu.fireHandler index)
      obtain ⟨pending, flag, logged⟩ := menu.fireHandler_same index
      rw [pending] at has settles defers
      rw [flag] at has
      rw [logged] at defers
      exact ⟨value, has, settles.trans ((menu.fireHandler_settling index).append_right _), defers⟩
  | receives callId body rest ihBody ihRest =>
      obtain ⟨value, has, settles, defers⟩ := ihBody callId (menu.beginCall callId)
      simp only [Dispatch.run]
      generalize inner : body.run callId (menu.beginCall callId) = after at value has settles defers
      obtain ⟨reply, inside⟩ := after
      dsimp only at value has settles defers ⊢
      subst value
      obtain ⟨value', has', settles', defers'⟩ :=
        ihRest owner (inside.endCall callId body.returned)
      obtain ⟨pending, flag, logged⟩ := inside.endCall_same callId body.returned
      have ended := inside.endCall_settling callId body.returned
      rw [pending] at has' settles' defers'
      rw [flag, has] at has'
      rw [logged, defers, List.append_assoc] at defers'
      rw [has] at ended
      refine ⟨value', has', ?_, defers'⟩
      refine settles'.trans ?_
      simp only [Dispatch.resolutions]
      rw [← List.append_assoc menu.settling, ← List.append_assoc menu.settling]
      exact (ended.trans (settles.append_right _)).append_right _

namespace FloatMenu

theorem didReceiveScriptMessage_spec (menu : FloatMenu Reply) (callId : CallId)
    (body : Dispatch Reply) :
    (menu.didReceiveScriptMessage callId body).settling.Perm
        (menu.settling ++ callResolutions (callId, body)) ∧
      (menu.didReceiveScriptMessage callId body).deferrals =
        menu.deferrals ++ callDeferrals (callId, body) := by
  obtain ⟨value, has, settles, defers⟩ := run_spec body callId (menu.beginCall callId)
  simp only [didReceiveScriptMessage]
  generalize body.run callId (menu.beginCall callId) = after at value has settles defers
  obtain ⟨reply, inside⟩ := after
  dsimp only at value has settles defers ⊢
  subst value
  have ended := inside.endCall_settling callId body.returned
  rw [has] at ended
  refine ⟨?_, ?_⟩
  · simp only [callResolutions]
    rw [← List.append_assoc menu.settling]
    exact ended.trans (settles.append_right _)
  · rw [(inside.endCall_same callId body.returned).2.2, defers]
    rfl

end FloatMenu

/-! ### Whole sessions -/

/-- The messages that the outermost run loop delivers. -/
def outerCalls (turns : List (Turn Reply)) : List (CallId × Dispatch Reply) :=
  turns.filterMap fun
    | .receives callId body => some (callId, body)
    | .fires _ => none

def sessionCalls (turns : List (Turn Reply)) : List (CallId × Dispatch Reply) :=
  (outerCalls turns).flatMap fun call => call :: call.2.calls

theorem foldl_turn_spec (turns : List (Turn Reply)) (menu : FloatMenu Reply) :
    (turns.foldl FloatMenu.turn menu).settling.Perm
        (menu.settling ++ (outerCalls turns).flatMap callResolutions) ∧
      (turns.foldl FloatMenu.turn menu).deferrals =
        menu.deferrals ++ (outerCalls turns).flatMap callDeferrals := by
  induction turns generalizing menu with
  | nil => simp [outerCalls]
  | cons turn rest ih =>
      rw [List.foldl_cons]
      obtain ⟨settles, defers⟩ := ih (menu.turn turn)
      cases turn with
      | receives callId body =>
          obtain ⟨here, logged⟩ := menu.didReceiveScriptMessage_spec callId body
          have calls : outerCalls (.receives callId body :: rest) =
              (callId, body) :: outerCalls rest := rfl
          rw [calls, List.flatMap_cons, List.flatMap_cons, ← List.append_assoc, ← List.append_assoc]
          refine ⟨settles.trans (here.append_right _), ?_⟩
          rw [defers, FloatMenu.turn, logged]
      | fires index =>
          have calls : outerCalls (.fires index :: rest) = outerCalls rest := rfl
          rw [calls]
          refine ⟨settles.trans ((menu.fireHandler_settling index).append_right _), ?_⟩
          rw [defers, FloatMenu.turn, (menu.fireHandler_same index).2.2]

theorem fireAll_spec (menu : FloatMenu Reply) :
    menu.fireAll.resolved = menu.settling ∧ menu.fireAll.deferrals = menu.deferrals := by
  have walked : ∀ (handlers : List (Resolution Reply)) (menu : FloatMenu Reply),
      (handlers.foldl FloatMenu.resolveCallId menu).resolved = menu.resolved ++ handlers ∧
        (handlers.foldl FloatMenu.resolveCallId menu).deferrals = menu.deferrals := by
    intro handlers
    induction handlers with
    | nil => simp
    | cons handler rest ih =>
        intro menu
        obtain ⟨resolved, deferrals⟩ := ih (menu.resolveCallId handler)
        rw [List.foldl_cons, resolved, deferrals]
        simp [FloatMenu.resolveCallId]
  exact walked menu.handlers { menu with handlers := [] }

theorem session_spec (turns : List (Turn Reply)) :
    (FloatMenu.session turns).resolved.Perm ((outerCalls turns).flatMap callResolutions) ∧
      (FloatMenu.session turns).deferrals = (outerCalls turns).flatMap callDeferrals := by
  obtain ⟨settles, defers⟩ := foldl_turn_spec turns {}
  obtain ⟨resolved, deferrals⟩ := fireAll_spec (turns.foldl FloatMenu.turn {})
  exact ⟨resolved ▸ settles, deferrals.trans defers⟩

/-! ### What each call contributes -/

namespace Dispatch

def ownResolutions (call : CallId × Dispatch Reply) : List (Resolution Reply) :=
  call.2.deferredFirst.map (⟨call.1, .handler call.1, ·⟩) ++
    if call.2.hasAfter (some call.1) false then []
    else [⟨call.1, .dispatch call.1, call.2.returned⟩]

/-- The deferrals of one message alone: those behind a nested message are given no id. -/
def ownDeferrals (call : CallId × Dispatch Reply) : List (CallId × Option CallId) :=
  call.2.deferredFirst.map (fun _ => (call.1, some call.1)) ++
    (call.2.deferred.drop call.2.deferredFirst.length).map fun _ => (call.1, none)

theorem deferredFirst_starts (d : Dispatch Reply) : d.deferredFirst <+: d.deferred := by
  induction d with
  | returns reply => exact List.prefix_refl []
  | defers reply rest ih => exact (List.prefix_cons_inj reply).mpr ih
  | fires index rest ih => exact ih
  | receives callId body rest _ _ => exact List.nil_prefix

theorem resolutions_perm (d : Dispatch Reply) (owner : CallId) (pending : Option CallId) :
    (d.resolutions owner pending).Perm
      (pending.elim [] (fun callId => d.deferredFirst.map (⟨callId, .handler owner, ·⟩)) ++
        d.calls.flatMap ownResolutions) := by
  induction d generalizing owner pending with
  | returns reply => cases pending <;> simp [resolutions, deferredFirst, calls]
  | defers reply rest ih =>
      cases pending with
      | none => exact ih owner none
      | some callId => exact (ih owner (some callId)).cons _
  | fires index rest ih => exact ih owner pending
  | receives callId body rest ihBody ihRest =>
      have inner := ihBody callId (some callId)
      have later := ihRest owner none
      simp only [Option.elim_some, Option.elim_none, List.nil_append] at inner later
      have none_first : pending.elim [] (fun callId' => (receives callId body rest).deferredFirst.map
          (Resolution.mk callId' (.handler owner))) = [] := by cases pending <;> rfl
      rw [none_first, List.nil_append]
      simp only [resolutions, calls, List.cons_append, List.flatMap_cons, List.flatMap_append,
        ownResolutions]
      refine ((inner.append_right _).append later).trans ?_
      simp only [List.append_assoc]
      refine List.Perm.append_left _ ?_
      rw [← List.append_assoc, ← List.append_assoc]
      exact List.perm_append_comm.append_right _

theorem deferrals_perm (d : Dispatch Reply) (owner : CallId) (pending : Option CallId) :
    (d.deferrals owner pending).Perm
      (d.deferredFirst.map (fun _ => (owner, pending)) ++
        (d.deferred.drop d.deferredFirst.length).map (fun _ => (owner, none)) ++
        d.calls.flatMap ownDeferrals) := by
  induction d generalizing owner pending with
  | returns reply => simp [deferrals, deferredFirst, deferred, calls]
  | defers reply rest ih =>
      simpa [deferrals, deferredFirst, deferred, calls] using ih owner pending
  | fires index rest ih => exact ih owner pending
  | receives callId body rest ihBody ihRest =>
      have inner := ihBody callId (some callId)
      have later := ihRest owner none
      -- without an id the deferrals in front of a nested message are like those behind it
      have unowned : rest.deferredFirst.map (fun _ => (owner, (none : Option CallId))) ++
          (rest.deferred.drop rest.deferredFirst.length).map (fun _ => (owner, none)) =
          rest.deferred.map fun _ => (owner, none) := by
        obtain ⟨behind, split⟩ := rest.deferredFirst_starts
        rw [← split, List.drop_left, List.map_append]
      rw [unowned] at later
      simp only [deferrals, calls, deferred, deferredFirst, List.map_nil, List.nil_append,
        List.length_nil, List.drop_zero, List.cons_append, List.flatMap_cons, List.flatMap_append,
        ownDeferrals]
      refine (inner.append later).trans ?_
      rw [← List.append_assoc, ← List.append_assoc, ← List.append_assoc]
      refine List.Perm.append_right _ ?_
      rw [← List.append_assoc]
      refine List.perm_append_comm.trans (List.Perm.of_eq ?_)
      simp only [List.append_assoc]

theorem hasAfter_eq (d : Dispatch Reply) (pending : Option CallId) (has : Bool) :
    d.hasAfter pending has = match d.lastReceived with
      | some nested => nested.2.hasAfter (some nested.1) false
      | none => has || (pending.isSome && !d.deferred.isEmpty) := by
  induction d generalizing pending has with
  | returns reply => simp [hasAfter, lastReceived, deferred]
  | defers reply rest ih =>
      simp only [hasAfter, lastReceived, deferred]
      rw [ih]
      cases rest.lastReceived with
      | some nested => rfl
      | none => cases has <;> cases pending <;> simp
  | fires index rest ih => exact ih pending has
  | receives callId body rest _ ihRest =>
      simp only [hasAfter, lastReceived]
      rw [ihRest]
      cases rest.lastReceived with
      | some nested => rfl
      | none => simp

theorem lastReceived_mem (d : Dispatch Reply) (nested : CallId × Dispatch Reply)
    (last : d.lastReceived = some nested) : nested ∈ d.calls := by
  induction d with
  | returns reply => cases last
  | defers reply rest ih => exact ih last
  | fires index rest ih => exact ih last
  | receives callId body rest _ ihRest =>
      simp only [lastReceived, Option.or_eq_some_iff] at last
      rw [calls, List.cons_append, List.mem_cons, List.mem_append]
      rcases last with later | ⟨_, here⟩
      · exact .inr (.inr (ihRest later))
      · exact .inl (Option.some.inj here).symm

theorem calls_mono (d : Dispatch Reply) (call : CallId × Dispatch Reply) (inside : call ∈ d.calls) :
    call.2.calls ⊆ d.calls := by
  induction d with
  | returns reply => cases inside
  | defers reply rest ih => exact ih inside
  | fires index rest ih => exact ih inside
  | receives callId body rest ihBody ihRest =>
      simp only [calls, List.cons_append, List.mem_cons, List.mem_append] at inside
      intro nested within
      rw [calls, List.cons_append, List.mem_cons, List.mem_append]
      rcases inside with rfl | inBody | inRest
      · exact .inr (.inl within)
      · exact .inr (.inl (ihBody inBody within))
      · exact .inr (.inr (ihRest inRest within))

/-- A dispatch that defers only before any nested message, and whose last nested message defers
if and only if it does itself. -/
def Undisturbed (d : Dispatch Reply) : Prop :=
  d.deferredFirst = d.deferred ∧
    ∀ nested, d.lastReceived = some nested → (nested.2.deferred = [] ↔ d.deferred = [])

def Flagged (call : CallId × Dispatch Reply) : Prop :=
  call.2.hasAfter (some call.1) false = !call.2.deferred.isEmpty

theorem flagged_iff (call : CallId × Dispatch Reply)
    (nested : ∀ inner, call.2.lastReceived = some inner → Flagged inner) :
    Flagged call ↔ ∀ inner, call.2.lastReceived = some inner →
      (inner.2.deferred = [] ↔ call.2.deferred = []) := by
  unfold Flagged
  rw [hasAfter_eq]
  cases last : call.2.lastReceived with
  | none => simp
  | some inner =>
      have flag : inner.2.hasAfter (some inner.1) false = !inner.2.deferred.isEmpty :=
        nested inner last
      simp only [flag, Option.some.injEq, forall_eq']
      cases inner.2.deferred <;> cases call.2.deferred <;> simp

theorem flagged_of_undisturbed (d : Dispatch Reply)
    (undisturbed : ∀ call ∈ d.calls, Undisturbed call.2) : ∀ call ∈ d.calls, Flagged call := by
  induction d with
  | returns reply => exact fun _ none => nomatch none
  | defers reply rest ih => exact ih undisturbed
  | fires index rest ih => exact ih undisturbed
  | receives callId body rest ihBody ihRest =>
      simp only [calls, List.cons_append, List.mem_cons, List.mem_append] at undisturbed ⊢
      have inner := ihBody fun call inside => undisturbed call (.inr (.inl inside))
      rintro call (rfl | inBody | inRest)
      · exact (flagged_iff _ fun nested last => inner nested (lastReceived_mem body nested last)).mpr
          (undisturbed _ (.inl rfl)).2
      · exact inner call inBody
      · exact ihRest (fun call inside => undisturbed call (.inr (.inr inside))) call inRest

end Dispatch

theorem sessionCalls_closed (turns : List (Turn Reply)) (call inner : CallId × Dispatch Reply)
    (received : call ∈ sessionCalls turns) (nested : inner ∈ call.2.calls) :
    inner ∈ sessionCalls turns := by
  obtain ⟨outer, first, inside⟩ := List.mem_flatMap.mp received
  refine List.mem_flatMap.mpr ⟨outer, first, List.mem_cons_of_mem outer ?_⟩
  rcases List.mem_cons.mp inside with rfl | deeper
  · exact nested
  · exact outer.2.calls_mono call deeper nested

theorem sessionCalls_flagged (turns : List (Turn Reply))
    (undisturbed : ∀ call ∈ sessionCalls turns, call.2.Undisturbed) (call : CallId × Dispatch Reply)
    (received : call ∈ sessionCalls turns) : Dispatch.Flagged call := by
  have inner : ∀ nested ∈ call.2.calls, Dispatch.Flagged nested :=
    call.2.flagged_of_undisturbed fun nested inside =>
      undisturbed nested (sessionCalls_closed turns call nested received inside)
  exact (Dispatch.flagged_iff call fun nested last =>
    inner nested (call.2.lastReceived_mem nested last)).mpr (undisturbed call received).2

theorem session_perm (turns : List (Turn Reply)) :
    (FloatMenu.session turns).resolved.Perm
        ((sessionCalls turns).flatMap Dispatch.ownResolutions) ∧
      (FloatMenu.session turns).deferrals.Perm
        ((sessionCalls turns).flatMap Dispatch.ownDeferrals) := by
  obtain ⟨settles, defers⟩ := session_spec turns
  refine ⟨settles.trans ?_, defers ▸ ?_⟩
  · rw [sessionCalls, List.flatMap_assoc]
    refine List.Perm.flatMap_left _ fun call _ => ?_
    rw [List.flatMap_cons]
    refine ((call.2.resolutions_perm call.1 (some call.1)).append_right _).trans ?_
    simp only [Option.elim_some, Dispatch.ownResolutions, List.append_assoc]
    exact List.perm_append_comm.append_left _
  · rw [sessionCalls, List.flatMap_assoc]
    refine List.Perm.flatMap_left _ fun call _ => ?_
    exact call.2.deferrals_perm call.1 (some call.1)

theorem ownResolutions_callId (call : CallId × Dispatch Reply) (resolution : Resolution Reply)
    (settled : resolution ∈ Dispatch.ownResolutions call) : resolution.callId = call.1 := by
  rcases List.mem_append.mp settled with handled | returned
  · obtain ⟨reply, _, rfl⟩ := List.mem_map.mp handled
    rfl
  · split at returned
    · cases returned
    · rw [List.mem_singleton.mp returned]

theorem session_resolved_filter (turns : List (Turn Reply))
    (distinct : ((sessionCalls turns).map Prod.fst).Nodup) (call : CallId × Dispatch Reply)
    (received : call ∈ sessionCalls turns) :
    ((FloatMenu.session turns).resolved.filter (·.callId = call.1)).Perm
      (Dispatch.ownResolutions call) := by
  refine ((session_perm turns).1.filter _).trans ?_
  rw [List.filter_flatMap]
  generalize sessionCalls turns = calls at distinct received
  induction calls with
  | nil => cases received
  | cons first rest ih =>
      obtain ⟨fresh, distinct⟩ := List.nodup_cons.mp distinct
      have own : ∀ other : CallId × Dispatch Reply, other.1 = call.1 →
          (Dispatch.ownResolutions other).filter (·.callId = call.1) =
            Dispatch.ownResolutions other := fun other same =>
        List.filter_eq_self.mpr fun resolution settled =>
          decide_eq_true ((ownResolutions_callId other resolution settled).trans same)
      have others : ∀ other : CallId × Dispatch Reply, other.1 ≠ call.1 →
          (Dispatch.ownResolutions other).filter (·.callId = call.1) = [] := fun other different =>
        List.filter_eq_nil_iff.mpr fun resolution settled equal =>
          different ((ownResolutions_callId other resolution settled).symm.trans
            (of_decide_eq_true equal))
      rw [List.flatMap_cons]
      rcases List.mem_cons.mp received with rfl | later
      · have none_later : rest.flatMap (fun other =>
            (Dispatch.ownResolutions other).filter (·.callId = call.1)) = [] :=
          List.flatMap_eq_nil_iff.mpr fun other inside => others other fun same =>
            fresh (same ▸ List.mem_map_of_mem inside)
        rw [own call rfl, none_later, List.append_nil]
      · rw [others first fun same => fresh (same ▸ List.mem_map_of_mem later), List.nil_append]
        exact ih distinct later

def promisedResolution (call : CallId × Dispatch Reply) : Resolution Reply :=
  match call.2.deferred with
  | [] => ⟨call.1, .dispatch call.1, call.2.returned⟩
  | reply :: _ => ⟨call.1, .handler call.1, reply⟩

/-- Every call of a session is resolved once, by the outcome of its own dispatch, and every
`deferCurrentCall` returns the id of the message whose dispatch called it. -/
def SettlesOnce (turns : List (Turn Reply)) : Prop :=
  (∀ call ∈ sessionCalls turns,
      (FloatMenu.session turns).resolved.filter (·.callId = call.1) = [promisedResolution call]) ∧
    ∀ deferral ∈ (FloatMenu.session turns).deferrals, deferral.2 = some deferral.1

theorem ownResolutions_eq_iff (call : CallId × Dispatch Reply)
    (first : call.2.deferredFirst = call.2.deferred) (once : call.2.deferred.length ≤ 1) :
    Dispatch.ownResolutions call = [promisedResolution call] ↔ Dispatch.Flagged call := by
  unfold Dispatch.ownResolutions promisedResolution Dispatch.Flagged
  rw [first]
  match deferred : call.2.deferred, once with
  | [], _ => cases call.2.hasAfter (some call.1) false <;> simp
  | [reply], _ => cases call.2.hasAfter (some call.1) false <;> simp

theorem ownDeferrals_owned_iff (call : CallId × Dispatch Reply) :
    (∀ deferral ∈ Dispatch.ownDeferrals call, deferral.2 = some deferral.1) ↔
      call.2.deferredFirst = call.2.deferred := by
  obtain ⟨behind, split⟩ := call.2.deferredFirst_starts
  unfold Dispatch.ownDeferrals
  rw [← split, List.drop_left]
  cases behind with
  | nil => simp
  | cons reply behind =>
      refine iff_of_false (fun owned => ?_) (by simp)
      cases owned (call.1, none) (by simp)

theorem settlesOnce_iff (turns : List (Turn Reply))
    (distinct : ((sessionCalls turns).map Prod.fst).Nodup)
    (once : ∀ call ∈ sessionCalls turns, call.2.deferred.length ≤ 1) :
    SettlesOnce turns ↔ ∀ call ∈ sessionCalls turns, call.2.Undisturbed := by
  have resolved : ∀ call ∈ sessionCalls turns,
      (FloatMenu.session turns).resolved.filter (·.callId = call.1) = [promisedResolution call] ↔
        Dispatch.ownResolutions call = [promisedResolution call] := fun call received => by
    have own := session_resolved_filter turns distinct call received
    rw [← List.perm_singleton, ← List.perm_singleton]
    exact ⟨own.symm.trans, own.trans⟩
  have deferred : (∀ deferral ∈ (FloatMenu.session turns).deferrals,
      deferral.2 = some deferral.1) ↔
        ∀ call ∈ sessionCalls turns, call.2.deferredFirst = call.2.deferred := by
    simp only [(session_perm turns).2.mem_iff, List.mem_flatMap, ← ownDeferrals_owned_iff]
    exact ⟨fun owned call received deferral own => owned deferral ⟨call, received, own⟩,
      fun owned deferral ⟨call, received, own⟩ => owned call received deferral own⟩
  unfold SettlesOnce
  rw [deferred]
  constructor
  · rintro ⟨settled, first⟩ call received
    have flagged : ∀ call ∈ sessionCalls turns, Dispatch.Flagged call := fun call received =>
      (ownResolutions_eq_iff call (first call received) (once call received)).mp
        ((resolved call received).mp (settled call received))
    refine ⟨first call received, (Dispatch.flagged_iff call fun inner last => ?_).mp
      (flagged call received)⟩
    exact flagged inner (sessionCalls_closed turns call inner received
      (call.2.lastReceived_mem inner last))
  · intro undisturbed
    refine ⟨fun call received => ?_, fun call received => (undisturbed call received).1⟩
    refine (resolved call received).mpr ((ownResolutions_eq_iff call (undisturbed call received).1
      (once call received)).mpr ?_)
    exact sessionCalls_flagged turns undisturbed call received

theorem settlesOnce_nested : SettlesOnce
    ([.receives 0 (.defers 10 (.receives 1 (.defers 11 (.returns 0)) (.returns 0))),
      .fires 1, .receives 2 (.returns 12)] : List (Turn Nat)) :=
  (settlesOnce_iff _ (by decide) (by decide)).mpr (by
    simp only [sessionCalls, outerCalls, Dispatch.calls, List.filterMap_cons, List.filterMap_nil,
      List.flatMap_cons, List.flatMap_nil, List.append_nil, List.nil_append, List.cons_append,
      List.forall_mem_cons, Dispatch.Undisturbed, Dispatch.deferredFirst, Dispatch.lastReceived]
    simp [Dispatch.deferred])

/-- A modal dialog lets a message in that returns at once: the id of the outer message is gone
when its dispatch defers, and no handler resolves it. -/
theorem not_settlesOnce : ¬ ∀ turns : List (Turn Nat),
    ((sessionCalls turns).map Prod.fst).Nodup →
      (∀ call ∈ sessionCalls turns, call.2.deferred.length ≤ 1) → SettlesOnce turns := by
  intro settles
  have lost := (settles [.receives 0 (.receives 1 (.returns 11) (.defers 10 (.returns 0)))]
    (by decide) (by decide)).2 (0, none) (by decide)
  cases lost

end H5GG

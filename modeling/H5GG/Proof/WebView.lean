import H5GG.WebView
import H5GG.Proof.Bridge
import H5GG.Library.Machine
import Mathlib.Data.List.Nodup

/-!
# Promises of a page
-/

namespace H5GG
variable {Reply : Type}

def Resolver.owner : Resolver → CallId
  | .dispatch owner => owner
  | .handler owner => owner

namespace FloatMenu

theorem fireHandler_cases (menu : FloatMenu Reply) (index : Nat) :
    menu.fireHandler index = menu ∨ ∃ handler ∈ menu.handlers,
      menu.fireHandler index =
        { menu with
          handlers := menu.handlers.eraseIdx index
          resolved := menu.resolved ++ [handler] } ∧
      ∀ waiting ∈ menu.handlers, waiting = handler ∨ waiting ∈ menu.handlers.eraseIdx index := by
  unfold fireHandler
  cases found : menu.handlers[index]? with
  | none => exact .inl rfl
  | some handler =>
      obtain ⟨inside, rfl⟩ := List.getElem?_eq_some_iff.mp found
      apply Or.inr
      refine ⟨_, List.getElem_mem inside, rfl, fun waiting among => ?_⟩
      apply List.mem_cons.mp
      exact (List.getElem_cons_eraseIdx_perm inside).mem_iff.mpr among

theorem deferFrom_cases (menu : FloatMenu Reply) (owner : CallId) (reply : Reply) :
    (menu.pendingCallId = none ∧ menu.deferFrom owner reply =
        { menu with deferrals := menu.deferrals ++ [(owner, none)] }) ∨
      ∃ callId, menu.pendingCallId = some callId ∧ menu.deferFrom owner reply =
        { menu with
          hasPendingCallback := true
          handlers := menu.handlers ++ [⟨callId, .handler owner, reply⟩]
          deferrals := menu.deferrals ++ [(owner, some callId)] } := by
  unfold deferFrom deferCurrentCall
  cases pending : menu.pendingCallId with
  | none => exact .inl (by simp [pending])
  | some callId => exact .inr ⟨callId, by simp⟩

theorem endCall_cases (menu : FloatMenu Reply) (callId : CallId) (reply : Reply) :
    (menu.hasPendingCallback = true ∧ menu.endCall callId reply =
        { menu with pendingCallId := none }) ∨
      (menu.hasPendingCallback = false ∧ menu.endCall callId reply =
        { menu with
          pendingCallId := none
          resolved := menu.resolved ++ [⟨callId, .dispatch callId, reply⟩] }) := by
  unfold endCall
  cases menu.hasPendingCallback with
  | true => exact .inl ⟨rfl, rfl⟩
  | false => exact .inr ⟨rfl, rfl⟩

end FloatMenu

namespace WebView

/-- What a page keeps in any run: `pendingCallId` names the innermost dispatch, whatever resolves a
call comes from its own dispatch, and the callbacks that ran are off `_cb`. -/
structure Settles (view : WebView Reply) : Prop where
  pending : ∀ callId, view.menu.pendingCallId = some callId →
    ∃ inner outer, view.dispatching = inner :: outer ∧ inner.callId = callId
  own : ∀ resolution ∈ view.menu.settling, resolution.resolver.owner = resolution.callId
  counted : ∀ callId ∈ view.cb, 1 ≤ callId ∧ callId ≤ view.id
  settledCalls : ∀ settled ∈ view.settled, settled.2 ∈ view.menu.resolved ∧
    (settled.1 < view.document ∨ settled.1 = view.document ∧ settled.2.callId ∉ view.cb ∧
      settled.2.callId ≤ view.id)
  once : (view.settled.map fun settled => (settled.1, settled.2.callId)).Nodup

theorem settles_init : ({} : WebView Reply).Settles :=
  ⟨nofun, nofun, nofun, nofun, .nil⟩

namespace Settles
variable {view : WebView Reply}

/-- Only the queues, the dispatches and the native side move. -/
theorem of_native (settles : view.Settles) {after : WebView Reply}
    (pending : ∀ callId, after.menu.pendingCallId = some callId →
      ∃ inner outer, after.dispatching = inner :: outer ∧ inner.callId = callId)
    (own : ∀ resolution ∈ after.menu.settling,
      resolution ∈ view.menu.settling ∨ resolution.resolver.owner = resolution.callId)
    (grows : ∀ resolution ∈ view.menu.resolved, resolution ∈ after.menu.resolved)
    (same : after.document = view.document ∧ after.id = view.id ∧ after.cb = view.cb ∧
      after.settled = view.settled) : after.Settles := by
  obtain ⟨document, id, cb, settled⟩ := same
  refine ⟨pending, fun resolution among => ?_, ?_, ?_, ?_⟩
  · exact (own resolution among).elim (settles.own resolution) fun owned => owned
  · rw [cb, id]
    exact settles.counted
  · rw [settled, document, cb, id]
    intro past among
    obtain ⟨resolved, stays⟩ := settles.settledCalls past among
    exact ⟨grows _ resolved, stays⟩
  · rw [settled]
    exact settles.once

theorem native (settles : view.Settles) (posting : Posting) : (view.native posting).Settles := by
  have kept : ∀ settled ∈ view.settled, settled.2 ∈ view.menu.resolved ∧
      (settled.1 < view.document ∨ settled.1 = view.document ∧
        settled.2.callId ∉ view.cb ++ [view.id + 1] ∧ settled.2.callId ≤ view.id + 1) := by
    intro settled among
    obtain ⟨resolved, past | ⟨here, off, under⟩⟩ := settles.settledCalls settled among
    · exact ⟨resolved, .inl past⟩
    · refine ⟨resolved, .inr ⟨here, ?_, Nat.le_succ_of_le under⟩⟩
      rw [List.mem_append, List.mem_singleton]
      exact fun inside => inside.elim off (Nat.ne_of_lt (Nat.lt_succ_of_le under))
  have counted : ∀ callId ∈ view.cb ++ [view.id + 1], 1 ≤ callId ∧ callId ≤ view.id + 1 := by
    intro callId inside
    rcases List.mem_append.mp inside with old | new
    · exact ⟨(settles.counted callId old).1, Nat.le_succ_of_le (settles.counted callId old).2⟩
    · rw [List.mem_singleton.mp new]
      exact ⟨Nat.le_add_left 1 view.id, Nat.le_refl _⟩
  cases posting <;> exact ⟨settles.pending, settles.own, counted, kept, settles.once⟩

theorem receive (settles : view.Settles) (invalid : Reply) : (view.receive invalid).Settles := by
  unfold WebView.receive
  split
  · exact settles
  · apply settles.of_native
    · exact settles.pending
    · intro resolution among
      simp only [FloatMenu.settling, FloatMenu.resolveCallId, List.mem_append,
        List.mem_singleton] at among ⊢
      rcases among with (old | rfl) | waiting
      · exact .inl (.inl old)
      · exact .inr rfl
      · exact .inl (.inr waiting)
    · exact fun resolution among => List.mem_append_left _ among
    · exact ⟨rfl, rfl, rfl, rfl⟩
  · apply settles.of_native
    · intro callId pending
      exact ⟨_, _, rfl, Option.some.inj pending⟩
    · exact fun resolution among => .inl among
    · exact fun resolution among => among
    · exact ⟨rfl, rfl, rfl, rfl⟩

theorem defer (settles : view.Settles) (reply : Reply) : (view.defer reply).Settles := by
  unfold WebView.defer
  split
  · exact settles
  · rename_i inner outer under
    have same := view.menu.deferFrom_same inner.callId reply
    apply settles.of_native
    · intro callId pending
      obtain ⟨first, later, shape, named⟩ := settles.pending callId (same.1 ▸ pending)
      rw [under, List.cons.injEq] at shape
      exact ⟨_, _, rfl, shape.1 ▸ named⟩
    · intro resolution among
      rw [FloatMenu.deferFrom_settling, List.mem_append, Option.mem_toList,
        Option.map_eq_some_iff] at among
      rcases among with old | ⟨callId, pending, rfl⟩
      · exact .inl old
      · obtain ⟨first, later, shape, named⟩ := settles.pending callId pending
        rw [under, List.cons.injEq] at shape
        exact .inr (shape.1 ▸ named)
    · rcases view.menu.deferFrom_cases inner.callId reply with ⟨-, shape⟩ | ⟨callId, -, shape⟩ <;>
        exact fun resolution among => shape ▸ among
    · exact ⟨rfl, rfl, rfl, rfl⟩

theorem fire (settles : view.Settles) (index : Nat) : (view.fire index).Settles := by
  apply settles.of_native
  · exact (view.menu.fireHandler_same index).1 ▸ settles.pending
  · exact fun resolution among => .inl ((view.menu.fireHandler_settling index).mem_iff.mp among)
  · intro resolution among
    rw [WebView.fire]
    rcases view.menu.fireHandler_cases index with same | ⟨handler, -, shape, -⟩
    · exact same.symm ▸ among
    · exact shape ▸ List.mem_append_left _ among
  · exact ⟨rfl, rfl, rfl, rfl⟩

theorem finishCall (settles : view.Settles) (reply : Reply) : (view.finishCall reply).Settles := by
  unfold WebView.finishCall
  split
  · exact settles
  · rename_i inner outer under
    apply settles.of_native
    · intro callId pending
      rw [(view.menu.endCall_same inner.callId reply).1] at pending
      cases pending
    · intro resolution among
      rcases List.mem_append.mp ((view.menu.endCall_settling inner.callId reply).mem_iff.mp among)
        with old | new
      · exact .inl old
      · split at new
        · cases new
        · exact .inr (List.mem_singleton.mp new ▸ rfl)
    · intro resolution among
      rcases view.menu.endCall_cases inner.callId reply with ⟨-, shape⟩ | ⟨-, shape⟩
      · exact shape ▸ among
      · exact shape ▸ List.mem_append_left _ among
    · exact ⟨rfl, rfl, rfl, rfl⟩

theorem evaluate (settles : view.Settles) : view.evaluate.Settles := by
  unfold WebView.evaluate
  split
  · exact settles
  · rename_i resolution found
    unfold onResult
    split
    · rename_i inside
      have among : resolution ∈ view.menu.resolved := List.mem_of_getElem? found
      have fresh : ∀ past ∈ view.settled,
          (past.1, past.2.callId) ≠ (view.document, resolution.callId) := by
        intro past kept same
        obtain ⟨here, named⟩ := Prod.mk.inj same
        rcases (settles.settledCalls past kept).2 with before | ⟨-, off, -⟩
        · exact absurd here (Nat.ne_of_lt before)
        · exact off (named ▸ inside)
      refine ⟨settles.pending, settles.own, ?_, ?_, ?_⟩
      · exact fun callId kept => settles.counted callId (List.mem_of_mem_filter kept)
      · intro past kept
        rcases List.mem_append.mp kept with old | new
        · obtain ⟨resolved, before | ⟨here, off, under⟩⟩ := settles.settledCalls past old
          · exact ⟨resolved, .inl before⟩
          · exact ⟨resolved, .inr ⟨here, fun left => off (List.mem_of_mem_filter left), under⟩⟩
        · rw [List.mem_singleton.mp new]
          refine ⟨among, .inr ⟨rfl, ?_, (settles.counted _ inside).2⟩⟩
          simp [List.mem_filter]
      · rw [List.map_append, List.nodup_append]
        refine ⟨settles.once, List.nodup_singleton _, ?_⟩
        intro key kept last only
        obtain ⟨past, old, rfl⟩ := List.mem_map.mp kept
        rw [List.mem_singleton.mp only]
        exact fresh past old
    · exact ⟨settles.pending, settles.own, settles.counted, settles.settledCalls, settles.once⟩

theorem reload (settles : view.Settles) : view.reload.Settles := by
  refine ⟨settles.pending, settles.own, nofun, fun past kept => ?_, settles.once⟩
  obtain ⟨resolved, stays⟩ := settles.settledCalls past kept
  refine ⟨resolved, .inl (Nat.lt_succ_of_le ?_)⟩
  exact stays.elim Nat.le_of_lt fun here => Nat.le_of_eq here.1

end Settles

theorem settles_step (event : WebEvent Reply) (view : WebView Reply) (settles : view.Settles) :
    (step event view).Settles := by
  cases event with
  | calls posting => exact settles.native posting
  | receives invalid => exact settles.receive invalid
  | defers reply => exact settles.defer reply
  | fires index => exact settles.fire index
  | returns reply => exact settles.finishCall reply
  | evaluates => exact settles.evaluate
  | reloads => exact settles.reload

theorem settles_run (events : List (WebEvent Reply)) : (execute step events {}).Settles :=
  execute_invariant Settles settles_step events settles_init

/-- A call that no reply has been given for. -/
def Unanswered (view : WebView Reply) (callId : CallId) : Prop :=
  callId ∈ view.thrown ∨ callId ∈ view.lost ∨ callId ∈ view.posted.map Prod.fst ∨
    ⟨callId, false⟩ ∈ view.dispatching

/-- The calls that no reply has been given for, and those that are being dispatched. -/
def names (view : WebView Reply) : List CallId :=
  view.dispatching.map Dispatching.callId ++ (view.posted.map Prod.fst ++ (view.thrown ++ view.lost))

/-- What a document keeps that was loaded when the native side had resolved `base` calls and the
callbacks `before` had run. -/
structure InDocument (base : Nat) (before : List (Nat × Resolution Reply)) (view : WebView Reply) :
    Prop where
  started : base ≤ view.ran ∧ view.ran ≤ view.menu.resolved.length
  numbered : ∀ callId, 1 ≤ callId → callId ≤ view.id →
    callId ∈ view.cb ∨ ∃ settled ∈ view.settled,
      settled.1 = view.document ∧ settled.2.callId = callId
  settledHere : ∀ settled ∈ view.settled, settled ∈ before ∨
    settled.1 = view.document ∧ settled.2 ∈ view.menu.resolved.drop base
  awaited : ∀ callId ∈ view.cb, view.Unanswered callId ∨
    ∃ resolution ∈ view.menu.handlers ++ view.menu.resolved.drop view.ran,
      resolution.callId = callId
  waits : ∀ callId, view.Unanswered callId → callId ∈ view.cb
  answered : ∀ resolution ∈ view.menu.handlers ++ view.menu.resolved.drop base,
    ¬ view.Unanswered resolution.callId ∧ resolution.callId ≤ view.id
  apart : view.names.Nodup
  named : ∀ callId ∈ view.names, callId ≤ view.id

theorem Unanswered.named {view : WebView Reply} {callId : CallId}
    (open' : view.Unanswered callId) : callId ∈ view.names := by
  simp only [names, List.mem_append]
  rcases open' with thrown | lost | posted | running
  · exact .inr (.inr (.inl thrown))
  · exact .inr (.inr (.inr lost))
  · exact .inr (.inl posted)
  · exact .inl (List.mem_map_of_mem running)

theorem inDocument_reload {view : WebView Reply} (rest : view.AtRest) :
    view.reload.InDocument view.menu.resolved.length view.settled := by
  obtain ⟨posted, dispatching, handlers, ran⟩ := rest
  have none (callId : CallId) : ¬ view.reload.Unanswered callId := by
    simp [Unanswered, reload, posted, dispatching]
  refine ⟨⟨Nat.le_of_eq ran.symm, Nat.le_of_eq ran⟩, fun callId low high => ?_,
    fun settled among => .inl among, nofun, fun callId unanswered => absurd unanswered (none callId),
    ?_, ?_, ?_⟩
  · exact absurd (Nat.le_trans low high) (Nat.not_succ_le_zero 0)
  · simp [reload, handlers]
  · simp [names, reload, posted, dispatching]
  · simp [names, reload, posted, dispatching]

theorem native_unanswered (view : WebView Reply) (posting : Posting) (callId : CallId) :
    (view.native posting).Unanswered callId ↔
      view.Unanswered callId ∨ callId = view.id + 1 := by
  cases posting <;> simp only [Unanswered, WebView.native, List.map_append, List.mem_append,
    List.map_cons, List.map_nil, List.mem_singleton]
  all_goals grind

theorem native_names (view : WebView Reply) (posting : Posting) :
    (view.native posting).names.Perm ((view.id + 1) :: view.names) := by
  cases posting <;> simp only [WebView.native, names, List.map_append, List.map_cons, List.map_nil]
  all_goals grind

namespace InDocument
variable {view : WebView Reply} {base : Nat} {before : List (Nat × Resolution Reply)}

theorem native (within : view.InDocument base before) (posting : Posting) :
    (view.native posting).InDocument base before := by
  have fresh : view.id + 1 ∉ view.names := fun old =>
    absurd (within.named _ old) (Nat.not_succ_le_self view.id)
  have state : (view.native posting).id = view.id + 1 ∧
      (view.native posting).cb = view.cb ++ [view.id + 1] ∧
      (view.native posting).menu = view.menu ∧ (view.native posting).ran = view.ran ∧
      (view.native posting).settled = view.settled ∧
      (view.native posting).document = view.document := by
    cases posting <;> exact ⟨rfl, rfl, rfl, rfl, rfl, rfl⟩
  obtain ⟨id, cb, menu, ran, settled, document⟩ := state
  constructor
  case started =>
    rw [ran, menu]
    exact within.started
  case numbered =>
    rw [cb, settled, document, id]
    intro callId low high
    rcases Nat.lt_or_eq_of_le high with old | rfl
    · exact (within.numbered callId low (Nat.le_of_lt_succ old)).imp_left (List.mem_append_left _)
    · exact .inl (List.mem_append_right _ (.head []))
  case settledHere =>
    rw [settled, document, menu]
    exact within.settledHere
  case awaited =>
    rw [cb, menu, ran]
    intro callId kept
    rw [native_unanswered]
    rcases List.mem_append.mp kept with old | new
    · exact (within.awaited callId old).imp_left .inl
    · exact .inl (.inr (List.mem_singleton.mp new))
  case waits =>
    intro callId unanswered
    rw [cb]
    rcases (native_unanswered view posting callId).mp unanswered with old | rfl
    · exact List.mem_append_left _ (within.waits callId old)
    · exact List.mem_append_right _ (.head [])
  case answered =>
    rw [menu, id]
    intro resolution among
    obtain ⟨closed, under⟩ := within.answered resolution among
    rw [native_unanswered]
    refine ⟨?_, Nat.le_succ_of_le under⟩
    exact fun unanswered => unanswered.elim closed (Nat.ne_of_lt (Nat.lt_succ_of_le under))
  case apart =>
    rw [(native_names view posting).nodup_iff]
    exact List.nodup_cons.mpr ⟨fresh, within.apart⟩
  case named =>
    intro callId among
    rw [id]
    rcases List.mem_cons.mp ((native_names view posting).mem_iff.mp among) with rfl | old
    · exact Nat.le_refl _
    · exact Nat.le_succ_of_le (within.named callId old)

/-- Only the queues, the dispatches and the native side move. -/
theorem of_native (within : view.InDocument base before) (added : List (Resolution Reply))
    {after : WebView Reply}
    (same : after.document = view.document ∧ after.id = view.id ∧ after.cb = view.cb ∧
      after.settled = view.settled ∧ after.ran = view.ran)
    (resolved : after.menu.resolved = view.menu.resolved ++ added)
    (names : after.names.Subperm view.names)
    (closes : ∀ callId, after.Unanswered callId → view.Unanswered callId)
    (answers : ∀ callId, view.Unanswered callId → after.Unanswered callId ∨
      ∃ resolution ∈ after.menu.handlers ++ added, resolution.callId = callId)
    (carries : ∀ handler ∈ view.menu.handlers, handler ∈ after.menu.handlers ++ added)
    (fresh : ∀ resolution ∈ after.menu.handlers ++ added, resolution ∈ view.menu.handlers ∨
      ¬ after.Unanswered resolution.callId ∧ resolution.callId ≤ view.id) :
    after.InDocument base before := by
  obtain ⟨document, id, cb, settled, ran⟩ := same
  obtain ⟨low, high⟩ := within.started
  have sinceRan : after.menu.resolved.drop view.ran = view.menu.resolved.drop view.ran ++ added := by
    rw [resolved, List.drop_append_of_le_length high]
  have sinceBase : after.menu.resolved.drop base = view.menu.resolved.drop base ++ added := by
    rw [resolved, List.drop_append_of_le_length (Nat.le_trans low high)]
  constructor
  case started =>
    rw [ran, resolved, List.length_append]
    exact ⟨low, Nat.le_add_right_of_le high⟩
  case numbered =>
    rw [cb, settled, document, id]
    exact within.numbered
  case settledHere =>
    rw [settled, document, sinceBase]
    intro past among
    refine (within.settledHere past among).imp_right fun here => ⟨here.1, ?_⟩
    exact List.mem_append_left _ here.2
  case awaited =>
    rw [cb, ran, sinceRan]
    intro callId kept
    have moved : ∀ resolution ∈ after.menu.handlers ++ added,
        resolution ∈ after.menu.handlers ++ (view.menu.resolved.drop view.ran ++ added) := by
      grind
    rcases within.awaited callId kept with unanswered | ⟨resolution, among, rfl⟩
    · apply (answers callId unanswered).imp_right
      exact fun ⟨resolution, among, named⟩ => ⟨resolution, moved resolution among, named⟩
    · refine .inr ⟨resolution, ?_, rfl⟩
      rcases List.mem_append.mp among with waiting | unrun
      · exact moved resolution (carries resolution waiting)
      · exact List.mem_append_right _ (List.mem_append_left _ unrun)
  case waits =>
    rw [cb]
    exact fun callId unanswered => within.waits callId (closes callId unanswered)
  case answered =>
    rw [id, sinceBase]
    intro resolution among
    have old (kept : resolution ∈ view.menu.handlers ++ view.menu.resolved.drop base) :
        ¬ after.Unanswered resolution.callId ∧ resolution.callId ≤ view.id := by
      obtain ⟨closed, under⟩ := within.answered resolution kept
      exact ⟨fun unanswered => closed (closes _ unanswered), under⟩
    have split : resolution ∈ after.menu.handlers ++ added ∨
        resolution ∈ view.menu.resolved.drop base := by grind
    rcases split with new | past
    · exact (fresh resolution new).elim (fun waiting => old (List.mem_append_left _ waiting)) fun h => h
    · exact old (List.mem_append_right _ past)
  case apart =>
    obtain ⟨list, perm, sub⟩ := names
    exact perm.nodup_iff.mp (within.apart.sublist sub)
  case named =>
    rw [id]
    exact fun callId among => within.named callId (names.subset among)

/-- The innermost dispatch is of no call that waits elsewhere. -/
theorem inner_apart (within : view.InDocument base before) {inner : Dispatching}
    {outer : List Dispatching} (under : view.dispatching = inner :: outer) :
    ¬ { view with dispatching := outer }.Unanswered inner.callId := by
  intro unanswered
  have apart := within.apart
  simp only [names, under, List.map_cons, List.cons_append] at apart
  exact (List.nodup_cons.mp apart).1 unanswered.named

theorem receive (within : view.InDocument base before) (invalid : Reply) :
    (view.receive invalid).InDocument base before := by
  unfold WebView.receive
  split
  · exact within
  · rename_i callId posted front
    have shape : view.names.Perm (callId :: { view with posted }.names) := by
      simp only [names, front, List.map_cons, List.cons_append]
      exact List.perm_middle
    have apart := List.nodup_cons.mp (shape.nodup_iff.mp within.apart)
    apply within.of_native [⟨callId, .dispatch callId, invalid⟩]
    · exact ⟨rfl, rfl, rfl, rfl, rfl⟩
    · rfl
    · exact (List.sublist_cons_self _ _).subperm.trans shape.symm.subperm
    · intro other
      simp only [Unanswered, front, List.map_cons, List.mem_cons]
      grind
    · intro other unanswered
      by_cases first : other = callId
      · exact .inr ⟨_, List.mem_append_right _ (.head []), first.symm⟩
      · simp only [Unanswered, front, List.map_cons, List.mem_cons] at unanswered ⊢
        grind
    · exact fun handler waiting => List.mem_append_left _ waiting
    · intro resolution new
      apply (List.mem_append.mp new).imp_right
      intro only
      rw [List.mem_singleton.mp only]
      exact ⟨fun unanswered => apart.1 unanswered.named, within.named callId (shape.symm.subset (.head _))⟩
  · rename_i callId posted front
    apply within.of_native []
    · exact ⟨rfl, rfl, rfl, rfl, rfl⟩
    · exact (List.append_nil _).symm
    · simp only [WebView.names, front, List.map_cons, List.cons_append]
      exact List.perm_middle.symm.subperm
    · intro other
      simp only [Unanswered, front, List.map_cons, List.mem_cons, Dispatching.mk.injEq]
      grind
    · intro other
      simp only [Unanswered, front, List.map_cons, List.mem_cons, Dispatching.mk.injEq]
      grind
    · exact fun handler waiting => List.mem_append_left _ waiting
    · exact fun resolution waiting => .inl (List.append_nil view.menu.handlers ▸ waiting)

theorem defer (within : view.InDocument base before) (settles : view.Settles) (reply : Reply) :
    (view.defer reply).InDocument base before := by
  unfold WebView.defer
  split
  · exact within
  · rename_i inner outer under
    have apart := within.inner_apart under
    have same : inner.callId ∈ view.names := by simp [WebView.names, under]
    rcases view.menu.deferFrom_cases inner.callId reply with ⟨pending, shape⟩ | ⟨callId, pending, shape⟩
    · rw [shape, pending, Option.isSome_none, Bool.or_false]
      apply within.of_native []
      · exact ⟨rfl, rfl, rfl, rfl, rfl⟩
      · exact (List.append_nil _).symm
      · simp only [WebView.names, under]
        exact List.Subperm.refl _
      · exact fun other unanswered => by simpa only [Unanswered, under] using unanswered
      · exact fun other unanswered => .inl (by simpa only [Unanswered, under] using unanswered)
      · exact fun handler waiting => List.mem_append_left _ waiting
      · exact fun resolution waiting => .inl (List.append_nil view.menu.handlers ▸ waiting)
    · obtain ⟨first, later, head, own⟩ := settles.pending callId pending
      rw [under, List.cons.injEq] at head
      obtain ⟨rfl, rfl⟩ := head
      rw [shape, pending, Option.isSome_some, Bool.or_true]
      apply within.of_native []
      · exact ⟨rfl, rfl, rfl, rfl, rfl⟩
      · exact (List.append_nil _).symm
      · simp only [WebView.names, under]
        exact List.Subperm.refl _
      · intro other
        simp only [Unanswered, under, List.mem_cons]
        grind
      · intro other unanswered
        by_cases first : other = callId
        · refine .inr ⟨⟨callId, .handler inner.callId, reply⟩, ?_, first.symm⟩
          simp
        · simp only [Unanswered, under, List.mem_cons] at unanswered ⊢
          grind
      · grind
      · intro resolution among
        simp only [List.append_nil, List.mem_append, List.mem_singleton] at among
        apply among.imp_right
        rintro rfl
        rw [← own]
        refine ⟨fun unanswered => apart ?_, within.named _ same⟩
        simp only [Unanswered, List.mem_cons] at unanswered ⊢
        grind

theorem fire (within : view.InDocument base before) (index : Nat) :
    (view.fire index).InDocument base before := by
  unfold WebView.fire
  rcases view.menu.fireHandler_cases index with same | ⟨handler, waiting, shape, left⟩
  · rw [same]
    exact within
  · rw [shape]
    apply within.of_native [handler]
    · exact ⟨rfl, rfl, rfl, rfl, rfl⟩
    · rfl
    · exact List.Subperm.refl _
    · exact fun other unanswered => unanswered
    · exact fun other unanswered => .inl unanswered
    · grind
    · intro resolution among
      rcases List.mem_append.mp among with kept | only
      · exact .inl (List.mem_of_mem_eraseIdx kept)
      · exact .inl (List.mem_singleton.mp only ▸ waiting)

theorem finishCall (within : view.InDocument base before) (reply : Reply) :
    (view.finishCall reply).InDocument base before := by
  unfold WebView.finishCall
  split
  · exact within
  · rename_i inner outer under
    have apart := within.inner_apart under
    have same : inner.callId ∈ view.names := by simp [WebView.names, under]
    rcases view.menu.endCall_cases inner.callId reply with ⟨has, shape⟩ | ⟨has, shape⟩
    · rw [shape, has, Bool.true_and]
      apply within.of_native []
      · exact ⟨rfl, rfl, rfl, rfl, rfl⟩
      · exact (List.append_nil _).symm
      · simp only [WebView.names, under, List.map_cons, List.cons_append]
        cases inner.deferred with
        | true => exact (List.sublist_cons_self _ _).subperm
        | false =>
            apply List.Perm.subperm
            grind
      · intro other unanswered
        cases deferred : inner.deferred with
        | true =>
            simp only [Unanswered, deferred, under, List.mem_cons] at unanswered ⊢
            grind
        | false =>
            have first : inner = ⟨inner.callId, false⟩ := by rw [← deferred]
            simp only [Unanswered, under, List.mem_cons] at unanswered ⊢
            grind
      · intro other unanswered
        apply Or.inl
        simp only [Unanswered, under, List.mem_cons] at unanswered ⊢
        grind
      · exact fun handler waiting => List.mem_append_left _ waiting
      · exact fun resolution waiting => .inl (List.append_nil view.menu.handlers ▸ waiting)
    · rw [shape, has, Bool.false_and]
      apply within.of_native [⟨inner.callId, .dispatch inner.callId, reply⟩]
      · exact ⟨rfl, rfl, rfl, rfl, rfl⟩
      · rfl
      · simp only [WebView.names, under, List.map_cons, List.cons_append]
        exact (List.sublist_cons_self _ _).subperm
      · intro other
        simp only [Unanswered, under, List.mem_cons]
        grind
      · intro other unanswered
        by_cases first : other = inner.callId
        · exact .inr ⟨_, List.mem_append_right _ (.head []), first.symm⟩
        · simp only [Unanswered, under, List.mem_cons] at unanswered ⊢
          grind
      · exact fun handler waiting => List.mem_append_left _ waiting
      · intro resolution new
        apply (List.mem_append.mp new).imp_right
        intro only
        rw [List.mem_singleton.mp only]
        exact ⟨apart, within.named _ same⟩

theorem evaluate (within : view.InDocument base before) :
    view.evaluate.InDocument base before := by
  unfold WebView.evaluate
  split
  · exact within
  · rename_i resolution found
    obtain ⟨low, high⟩ := within.started
    obtain ⟨inside, read⟩ := List.getElem?_eq_some_iff.mp found
    have next : view.menu.resolved.drop view.ran =
        resolution :: view.menu.resolved.drop (view.ran + 1) := by
      rw [← read]
      exact List.drop_eq_getElem_cons inside
    have started : base ≤ view.ran + 1 ∧ view.ran + 1 ≤ view.menu.resolved.length :=
      ⟨Nat.le_succ_of_le low, inside⟩
    have since : resolution ∈ view.menu.resolved.drop base := by
      rw [← Nat.add_sub_of_le low, ← List.drop_drop] at next
      exact List.mem_of_mem_drop (next ▸ List.mem_cons_self)
    have closed := (within.answered resolution (List.mem_append_right _ since)).1
    have awaited : ∀ callId ∈ view.cb, callId ≠ resolution.callId → view.Unanswered callId ∨
        ∃ other ∈ view.menu.handlers ++ view.menu.resolved.drop (view.ran + 1),
          other.callId = callId := by
      intro callId kept apart
      apply (within.awaited callId kept).imp_right
      rintro ⟨other, among, rfl⟩
      refine ⟨other, ?_, rfl⟩
      rw [next] at among
      grind
    unfold onResult
    split
    · constructor
      case started => exact started
      case numbered =>
        intro callId low high
        by_cases first : callId = resolution.callId
        · exact .inr ⟨_, List.mem_append_right _ (.head []), rfl, first.symm⟩
        · apply (within.numbered callId low high).imp
          · exact fun kept => List.mem_filter.mpr ⟨kept, by simpa using first⟩
          · exact fun ⟨past, among, same⟩ => ⟨past, List.mem_append_left _ among, same⟩
      case settledHere =>
        intro past among
        rcases List.mem_append.mp among with old | new
        · exact within.settledHere past old
        · rw [List.mem_singleton.mp new]
          exact .inr ⟨rfl, since⟩
      case awaited =>
        intro callId kept
        obtain ⟨kept, apart⟩ := List.mem_filter.mp kept
        exact awaited callId kept (by simpa using apart)
      case waits =>
        intro callId unanswered
        apply List.mem_filter.mpr
        refine ⟨within.waits callId unanswered, ?_⟩
        rw [decide_eq_true_iff]
        rintro rfl
        exact closed unanswered
      case answered => exact within.answered
      case apart => exact within.apart
      case named => exact within.named
    · rename_i off
      constructor
      case started => exact started
      case numbered => exact within.numbered
      case settledHere => exact within.settledHere
      case awaited => exact fun callId kept => awaited callId kept fun same => off (same ▸ kept)
      case waits => exact within.waits
      case answered => exact within.answered
      case apart => exact within.apart
      case named => exact within.named

end InDocument

theorem inDocument_step {base : Nat} {before : List (Nat × Resolution Reply)}
    (event : WebEvent Reply) (view : WebView Reply)
    (good : view.Settles ∧ view.InDocument base before) (stays : event ≠ .reloads) :
    (step event view).Settles ∧ (step event view).InDocument base before := by
  obtain ⟨settles, within⟩ := good
  refine ⟨settles_step event view settles, ?_⟩
  cases event with
  | calls posting => exact within.native posting
  | receives invalid => exact within.receive invalid
  | defers reply => exact within.defer settles reply
  | fires index => exact within.fire index
  | returns reply => exact within.finishCall reply
  | evaluates => exact within.evaluate
  | reloads => exact absurd rfl stays

/-- From a load at rest on, until the next one. -/
theorem inDocument_run {view : WebView Reply} (settles : view.Settles) (rest : view.AtRest)
    (events : List (WebEvent Reply)) (stays : ∀ event ∈ events, event ≠ .reloads) :
    (execute step events view.reload).InDocument view.menu.resolved.length view.settled :=
  (Along.execute _ inDocument_step ⟨settles.reload, inDocument_reload rest⟩
    (along_of_mem events view.reload stays)).2

/-- The callbacks of a promise run at most once, whenever the page reloads and however messages
nest, and with a reply that the dispatch of a message of its number gave. -/
theorem callbacks_once (events : List (WebEvent Reply)) :
    ((execute step events {}).settled.map fun settled => (settled.1, settled.2.callId)).Nodup ∧
      ∀ settled ∈ (execute step events {}).settled,
        settled.2 ∈ (execute step events {}).menu.resolved ∧
          settled.2.resolver.owner = settled.2.callId := by
  have settles := settles_run events
  refine ⟨settles.once, fun settled among => ?_⟩
  have resolved := (settles.settledCalls settled among).1
  exact ⟨resolved, settles.own settled.2 (List.mem_append_left _ resolved)⟩

/-- What the promises of a document have come to, which was loaded in the state `start`. -/
structure PromisesKept (start view : WebView Reply) : Prop where
  own : ∀ settled ∈ view.settled, settled ∈ start.settled ∨
    settled.1 = view.document ∧ settled.2 ∈ view.menu.resolved.drop start.menu.resolved.length ∧
      settled.2.resolver.owner = settled.2.callId
  once : ∀ callId, 1 ≤ callId → callId ≤ view.id → (callId ∉ view.cb ↔
    ∃! settled, settled ∈ view.settled ∧ settled.1 = view.document ∧ settled.2.callId = callId)
  left : view.AtRest → ∀ callId, callId ∈ view.cb ↔ callId ∈ view.thrown ∨ callId ∈ view.lost

theorem Settles.unique {view : WebView Reply} (settles : view.Settles)
    {first second : Nat × Resolution Reply} (one : first ∈ view.settled)
    (other : second ∈ view.settled) (document : first.1 = second.1)
    (callId : first.2.callId = second.2.callId) : first = second :=
  List.inj_on_of_nodup_map settles.once one other (Prod.ext document callId)

theorem InDocument.left {view : WebView Reply} {base : Nat}
    {before : List (Nat × Resolution Reply)} (within : view.InDocument base before)
    (rest : view.AtRest) (callId : CallId) :
    callId ∈ view.cb ↔ callId ∈ view.thrown ∨ callId ∈ view.lost := by
  obtain ⟨posted, dispatching, handlers, ran⟩ := rest
  have unanswered : view.Unanswered callId ↔ callId ∈ view.thrown ∨ callId ∈ view.lost := by
    simp [Unanswered, posted, dispatching]
  rw [← unanswered]
  refine ⟨fun kept => ?_, within.waits callId⟩
  rcases within.awaited callId kept with waits | ⟨resolution, among, -⟩
  · exact waits
  · simp [handlers, ran] at among

/-- The run `events` in the document that is loaded behind the run `earlier`. -/
def documentRun (earlier events : List (WebEvent Reply)) : WebView Reply :=
  execute step events (execute step earlier {}).reload

theorem promises_kept (earlier events : List (WebEvent Reply))
    (rest : (execute step earlier {}).AtRest) (stays : ∀ event ∈ events, event ≠ .reloads) :
    PromisesKept (execute step earlier {}) (documentRun earlier events) := by
  have settles := settles_run (earlier ++ .reloads :: events)
  rw [execute_append, execute_cons] at settles
  have within := inDocument_run (settles_run earlier) rest events stays
  constructor
  case own =>
    intro settled among
    apply (within.settledHere settled among).imp_right
    intro ⟨here, since⟩
    have resolved := (settles.settledCalls settled among).1
    exact ⟨here, since, settles.own settled.2 (List.mem_append_left _ resolved)⟩
  case once =>
    intro callId low high
    constructor
    · intro off
      obtain ⟨settled, among, here, named⟩ := (within.numbered callId low high).resolve_left off
      refine ⟨settled, ⟨among, here, named⟩, fun other same => ?_⟩
      exact settles.unique same.1 among (same.2.1.trans here.symm) (same.2.2.trans named.symm)
    · rintro ⟨settled, ⟨among, here, rfl⟩, -⟩
      rcases (settles.settledCalls settled among).2 with before | ⟨-, off, -⟩
      · exact absurd here (Nat.ne_of_lt before)
      · exact off
  case left => exact within.left

theorem promises_kept_nested :
    PromisesKept (execute step [.calls .uncloneable] {}) (documentRun [.calls .uncloneable]
      [.calls .message, .calls .message, .receives 0, .receives 0, .defers 7, .returns 5,
        .returns 3, .fires 0, .evaluates]) :=
  promises_kept [.calls .uncloneable]
    [.calls .message, .calls .message, .receives 0, .receives 0, .defers 7, .returns 5,
      .returns 3, .fires 0, .evaluates] (by decide) (by simp)

-- Behind a reload that is not at rest, a reply to the old document settles a promise of the new
-- one, whose message is still on its way.
example : (execute step [.calls .message, .receives 0, .defers 7, .returns 0, .reloads,
      .calls .message, .fires 0, .evaluates] ({} : WebView Nat)).settled =
    [(1, ⟨1, .handler 1, 7⟩)] := by
  decide

/-- The run loop delivers a message to an idle menu only, and the page stays. -/
def Serial (event : WebEvent Reply) (view : WebView Reply) : Prop :=
  match event with
  | .receives _ => view.dispatching = []
  | .reloads => False
  | _ => True

/-- One dispatch at most, which has deferred its reply where the native side thinks so. -/
structure OneAtATime (view : WebView Reply) : Prop where
  single : view.dispatching.length ≤ 1
  deferred : ∀ inner ∈ view.dispatching, view.menu.hasPendingCallback = true →
    inner.deferred = true
  lost : view.lost = []

theorem OneAtATime.alone {view : WebView Reply} (one : view.OneAtATime) {inner : Dispatching}
    {outer : List Dispatching} (under : view.dispatching = inner :: outer) :
    outer = [] ∧ (view.menu.hasPendingCallback = true → inner.deferred = true) := by
  obtain ⟨single, deferred, -⟩ := one
  rw [under] at single deferred
  exact ⟨List.length_eq_zero_iff.mp (Nat.le_zero.mp (Nat.le_of_succ_le_succ single)),
    deferred inner List.mem_cons_self⟩

theorem oneAtATime_step (event : WebEvent Reply) (view : WebView Reply) (one : view.OneAtATime)
    (serial : Serial event view) : (step event view).OneAtATime := by
  have ⟨single, deferred, lost⟩ := one
  cases event with
  | calls posting => cases posting <;> exact ⟨single, deferred, lost⟩
  | receives invalid =>
      have idle : view.dispatching = [] := serial
      simp only [step, receive]
      split
      · exact ⟨single, deferred, lost⟩
      · exact ⟨single, deferred, lost⟩
      · refine ⟨by simp [idle], ?_, lost⟩
        intro inner _ has
        cases has
  | defers reply =>
      simp only [step, defer]
      split
      · exact ⟨single, deferred, lost⟩
      · rename_i inner outer under
        obtain ⟨rfl, waits⟩ := one.alone under
        refine ⟨Nat.le_refl 1, ?_, lost⟩
        intro frame among has
        rw [List.mem_singleton.mp among]
        simp only [view.menu.deferFrom_same inner.callId reply, Bool.or_eq_true] at has ⊢
        exact has.imp_left waits
  | fires index =>
      refine ⟨single, ?_, lost⟩
      simp only [step, fire, view.menu.fireHandler_same index]
      exact deferred
  | returns reply =>
      simp only [step, finishCall]
      split
      · exact ⟨single, deferred, lost⟩
      · rename_i inner outer under
        obtain ⟨rfl, waits⟩ := one.alone under
        refine ⟨Nat.zero_le 1, nofun, ?_⟩
        have kept : (view.menu.hasPendingCallback && !inner.deferred) = false := by
          cases has : view.menu.hasPendingCallback with
          | false => rfl
          | true => rw [waits has]; rfl
        simp [kept, lost]
  | evaluates =>
      simp only [step, evaluate, onResult]
      split
      · exact ⟨single, deferred, lost⟩
      · split <;> exact ⟨single, deferred, lost⟩
  | reloads => exact serial.elim

theorem serial_stays (events : List (WebEvent Reply)) (view : WebView Reply)
    (serial : Along step Serial events view) : ∀ event ∈ events, event ≠ .reloads := by
  induction events generalizing view with
  | nil => exact nofun
  | cons event rest ih =>
      rw [List.forall_mem_cons]
      refine ⟨?_, ih _ serial.2⟩
      rintro rfl
      exact serial.1

/-- Without nested messages every promise of a document settles exactly once, with a reply of its
own call, except those that `postMessage` threw for. -/
theorem serial_promises_settle (earlier events : List (WebEvent Reply))
    (rest : (execute step earlier {}).AtRest)
    (serial : Along step Serial events (execute step earlier {}).reload)
    (done : (documentRun earlier events).AtRest) (callId : CallId) (low : 1 ≤ callId)
    (high : callId ≤ (documentRun earlier events).id)
    (sent : callId ∉ (documentRun earlier events).thrown) :
    ∃! settled, settled ∈ (documentRun earlier events).settled ∧
      settled.1 = (documentRun earlier events).document ∧ settled.2.callId = callId := by
  have kept := promises_kept earlier events rest (serial_stays events _ serial)
  have one : (documentRun earlier events).OneAtATime := by
    apply Along.execute OneAtATime oneAtATime_step _ serial
    exact ⟨by simp [reload, rest.2.1], by simp [reload, rest.2.1], rfl⟩
  apply (kept.once callId low high).mp
  rw [kept.left done, one.lost]
  exact fun thrown => thrown.elim sent (List.not_mem_nil)

theorem serial_promises_settle_deferred :
    ∃! settled, settled ∈ (documentRun [.calls .uncloneable] [.calls .message, .receives 0,
        .defers 7, .returns 0, .fires 0, .evaluates]).settled ∧
      settled.1 = 1 ∧ settled.2.callId = 1 :=
  serial_promises_settle [.calls .uncloneable]
    [.calls .message, .receives 0, .defers 7, .returns 0, .fires 0, .evaluates]
    (by decide) ⟨trivial, rfl, trivial, trivial, trivial, trivial, trivial⟩ (by decide) 1 (by decide)
    (by decide) (by decide)

end WebView

/-! ## The native side as a recursion over nested dispatches -/

namespace Dispatch

/-- The calls whose messages a dispatch receives, in order. -/
def messages : Dispatch Reply → List CallId
  | returns _ => []
  | defers _ rest => messages rest
  | fires _ rest => messages rest
  | receives callId body rest => callId :: (messages body ++ messages rest)

def events (invalid : Reply) : Dispatch Reply → List (WebEvent Reply)
  | returns reply => [.returns reply]
  | defers reply rest => .defers reply :: events invalid rest
  | fires index rest => .fires index :: events invalid rest
  | receives _ body rest => .receives invalid :: (events invalid body ++ events invalid rest)

end Dispatch

namespace Turn

def messages : Turn Reply → List CallId
  | receives callId body => callId :: body.messages
  | fires _ => []

def events (invalid : Reply) : Turn Reply → List (WebEvent Reply)
  | receives _ body => .receives invalid :: body.events invalid
  | fires index => [.fires index]

end Turn

namespace WebView

/-- Where a run has brought the native side, its dispatches and its queue. -/
structure Reaches (view : WebView Reply) (menu : FloatMenu Reply) (dispatching : List Dispatching)
    (posted : List (CallId × Bool)) : Prop where
  menu : view.menu = menu
  dispatching : view.dispatching = dispatching
  posted : view.posted = posted

theorem run_dispatch (invalid : Reply) (body : Dispatch Reply) (view : WebView Reply)
    {inner : Dispatching} {outer : List Dispatching} {later : List (CallId × Bool)}
    (under : view.dispatching = inner :: outer)
    (posted : view.posted = body.messages.map (·, true) ++ later) :
    (execute step (body.events invalid) view).Reaches
      ((body.run inner.callId view.menu).2.endCall inner.callId
        (body.run inner.callId view.menu).1) outer later := by
  induction body generalizing view inner outer later with
  | returns reply =>
      simp only [Dispatch.events, execute_cons, step, finishCall, under, Dispatch.run]
      exact ⟨rfl, rfl, posted⟩
  | defers reply rest ih =>
      rw [Dispatch.events, execute_cons, Dispatch.run]
      have next : (step (.defers reply) view).dispatching =
          { inner with deferred := inner.deferred || view.menu.pendingCallId.isSome } :: outer := by
        simp only [step, defer, under]
      have menu : (step (.defers reply) view).menu = view.menu.deferFrom inner.callId reply := by
        simp only [step, defer, under]
      have same : (step (.defers reply) view).posted = view.posted := by
        simp only [step, defer, under]
      have rest := ih _ next (same.trans posted)
      rwa [menu] at rest
  | fires index rest ih =>
      rw [Dispatch.events, execute_cons, Dispatch.run]
      exact ih (view.fire index) under posted
  | receives callId body rest ihBody ihRest =>
      rw [Dispatch.messages, List.map_cons, List.map_append, List.cons_append,
        List.append_assoc] at posted
      rw [Dispatch.events, execute_cons, execute_append, Dispatch.run]
      have next : step (.receives invalid) view =
          { view with
            posted := body.messages.map (·, true) ++ (rest.messages.map (·, true) ++ later)
            menu := view.menu.beginCall callId
            dispatching := ⟨callId, false⟩ :: view.dispatching } := by
        simp only [step, receive, posted]
      obtain ⟨menu, dispatching, left⟩ := ihBody (step (.receives invalid) view)
        (congrArg WebView.dispatching next) (congrArg WebView.posted next)
      have rest := ihRest _ (dispatching.trans under) left
      rwa [menu, congrArg WebView.menu next] at rest

/-- Step by step the native side does what the recursion over the nested dispatches says. -/
theorem run_turns (invalid : Reply) (turns : List (Turn Reply)) (view : WebView Reply)
    (later : List (CallId × Bool)) (idle : view.dispatching = [])
    (posted : view.posted = (turns.flatMap Turn.messages).map (·, true) ++ later) :
    (execute step (turns.flatMap (Turn.events invalid)) view).Reaches
      (turns.foldl FloatMenu.turn view.menu) [] later := by
  induction turns generalizing view with
  | nil => exact ⟨rfl, idle, posted⟩
  | cons turn turns ih =>
      rw [List.flatMap_cons, List.map_append, List.append_assoc] at posted
      rw [List.flatMap_cons, execute_append, List.foldl_cons]
      cases turn with
      | fires index => exact ih (view.fire index) idle posted
      | receives callId body =>
          rw [Turn.messages, List.map_cons, List.cons_append] at posted
          have next : step (.receives invalid) view =
              { view with
                posted := body.messages.map (·, true) ++
                  ((turns.flatMap Turn.messages).map (·, true) ++ later)
                menu := view.menu.beginCall callId
                dispatching := [⟨callId, false⟩] } := by
            simp only [step, receive, posted, idle]
          rw [Turn.events, execute_cons]
          obtain ⟨menu, dispatching, left⟩ := run_dispatch invalid body (step (.receives invalid) view)
            (congrArg WebView.dispatching next) (congrArg WebView.posted next)
          have rest := ih _ dispatching left
          rwa [menu, congrArg WebView.menu next] at rest

/-- Message 3 is delivered inside the dispatch of message 2 and leaves a handler. -/
theorem run_turns_nested :
    (execute step
        ([.receives 2 (.receives 3 (.defers 7 (.returns 6)) (.returns 5)), .receives 4 (.returns 8),
          .fires 0].flatMap (Turn.events 0))
        ({ posted := [(2, true), (3, true), (4, true), (9, false)] } : WebView Nat)).Reaches
      ([Turn.receives 2 (.receives 3 (.defers 7 (.returns 6)) (.returns 5)),
        .receives 4 (.returns 8), .fires 0].foldl FloatMenu.turn {}) [] [(9, false)] :=
  run_turns 0
    [.receives 2 (.receives 3 (.defers 7 (.returns 6)) (.returns 5)), .receives 4 (.returns 8),
      .fires 0]
    { posted := [(2, true), (3, true), (4, true), (9, false)] } [(9, false)] rfl rfl

end WebView
end H5GG

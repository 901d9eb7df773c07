import H5GG.TargetSwitch
import H5GG.Proof.Freezer
import H5GG.Proof.OutOfMemory

/-!
# Frozen values stay with their target
-/

namespace H5GG
open Validation

namespace MemorySession

def Serves (target : TargetProcess) (session : MemorySession) : Prop := session.target = target

theorem search_serves (system : System) (call : FacadeCall) (session : MemorySession)
    (other : ∀ pid, call ≠ .setTargetProc pid) (other' : call ≠ .getTargetStatus) :
    Serves session.target (MemorySession.call (system, call) session) := by
  cases call with
  | setTargetProc pid => exact absurd rfl (other pid)
  | getTargetStatus => exact absurd rfl other'
  | clearResults => rfl
  | setFloatTolerance value =>
      refine settle_of rfl fun after success => ?_
      simp only [setFloatTolerance, bind_eq_ok, pure_eq_ok] at success
      obtain ⟨bits, -, rfl⟩ := success
      rfl
  | searchNumber value type memoryFrom memoryTo =>
      refine settle_of rfl fun after success => ?_
      simp only [searchNumber, bind_eq_ok, pure_eq_ok] at success
      obtain ⟨request, -, rfl⟩ := success
      rfl
  | searchNearby value type range =>
      refine settle_of rfl fun after success => ?_
      simp only [searchNearby, bind_eq_ok, pure_eq_ok] at success
      obtain ⟨request, -, rfl⟩ := success
      rfl
  | searchChange type =>
      refine settle_of rfl fun after success => ?_
      simp only [searchChange, bind_eq_ok, pure_eq_ok] at success
      obtain ⟨-, -, -, -, rfl⟩ := success
      rfl
  | searchHex hex memoryFrom memoryTo =>
      refine settle_of rfl fun after success => ?_
      simp only [searchHex, bind_eq_ok, pure_eq_ok] at success
      obtain ⟨-, -, -, -, -, -, -, -, -, -, rfl⟩ := success
      rfl
  | searchFilter value type mode =>
      refine settle_of rfl fun after success => ?_
      cases reply : searchFilter system value type mode session with
      | error alert => simp [reply, Except.map] at success
      | ok kept =>
          rw [reply] at success
          cases success
          simp only [searchFilter, bind_eq_ok, pure_eq_ok] at reply
          obtain ⟨-, -, -, -, -, -, -, -, -, -, rfl⟩ := reply
          rfl

theorem callThrows_target {system : System} {session : MemorySession} {search : FailingSearch}
    {aftermath : Aftermath} (thrown : session.callThrows system search = some aftermath) :
    aftermath.session.target = session.target := by
  cases search with
  | searchNumber value type memoryFrom memoryTo swallowed failing =>
      obtain ⟨scanned, values, jjtype, caught, -, -, rfl⟩ := callThrows_searchNumber thrown
      rfl
  | searchNearby value type range failing =>
      obtain ⟨reach, target, jjtype, caught, -, -, rfl⟩ := callThrows_searchNearby thrown
      rfl

end MemorySession

namespace TargetFacade

structure Good (f : TargetFacade) : Prop where
  port : f.enginePort = f.session.target.port
  fresh : f.object < f.created
  freezer : f.freezer.Good
  frozen : ∀ it ∈ f.freezer.entries, f.frozenThrough it.2.numericAddress = some f.current

theorem start_good (target : TargetProcess) : (start target).Good where
  port := rfl
  fresh := Nat.one_pos
  freezer := FreezerController.start_good
  frozen _ inside := (nomatch inside)

theorem clear_good {f : TargetFacade} (good : f.Good) : f.clearFrozenValues.Good :=
  { good with
    freezer := good.freezer.stop
    frozen := fun it inside => by simp [clearFrozenValues] at inside }

theorem replaceSession_good {f : TargetFacade} (good : f.Good) (target : TargetProcess) :
    (f.replaceSession target).Good where
  port := rfl
  fresh := Nat.lt_succ_self f.created
  freezer := good.freezer.stop
  frozen it inside := by simp [replaceSession, clearFrozenValues] at inside

theorem invalidate_good {f : TargetFacade} (good : f.Good) (allocates : Bool) :
    (f.invalidateTargetSession allocates).Good := by
  unfold invalidateTargetSession
  split
  · exact replaceSession_good good {}
  · exact good

theorem setTargetProc_good {f : TargetFacade} (good : f.Good) (system : System)
    (allocations : Allocations) (pid : Int) : (f.setTargetProc system allocations pid).2.Good := by
  have invalidated := invalidate_good good allocations.emptySession
  simp only [setTargetProc]
  split_ifs <;> first | exact good | exact invalidated | exact replaceSession_good ‹_› _

theorem getTargetStatus_good {f : TargetFacade} (good : f.Good) (system : System)
    (allocations : Allocations) : (f.getTargetStatus system allocations).2.Good := by
  simp only [getTargetStatus]
  split
  · exact invalidate_good good allocations.emptySession
  · exact good

theorem Good.search {f : TargetFacade} (good : f.Good) {session : MemorySession}
    (serves : session.target = f.session.target) : ({ f with session } : TargetFacade).Good :=
  { good with
    port := good.port.trans (congrArg TargetProcess.port serves.symm)
    frozen := fun it inside => by
      rw [good.frozen it inside, current, current, serves] }

theorem clearResults_good {f : TargetFacade} (good : f.Good) (allocations : Allocations) :
    (f.clearResults allocations).Good := by
  unfold clearResults
  split
  · exact { good with port := rfl }
  · exact good

theorem freezeValue_good {f : TargetFacade} (good : f.Good) (system : System) (schedules : Bool)
    (address value type : Option NSString) :
    (f.freezeValue system schedules address value type).2.Good := by
  have kept := FreezerController.freezeAddress_good good.freezer
    (f.session.targetIsAvailable system) f.session.target.pid schedules address value type
  obtain same | ⟨entry, made, same⟩ := FreezerController.freezeAddress_eq good.freezer
    (f.session.targetIsAvailable system) f.session.target.pid schedules address value type
  · simp only [freezeValue, same, Bool.false_and, Bool.false_eq_true, if_false]
    exact good
  · rw [same] at kept
    simp only [freezeValue, same, Bool.true_and, decide_eq_true_eq]
    refine ⟨good.port, good.fresh, kept, fun it inside => ?_⟩
    have spelled := FreezerController.entryFor_address made
    obtain ⟨other, old⟩ | rfl := FrozenEntries.mem_setObject.mp inside
    · have apart : FreezerController.parseAddress address ≠ some it.2.numericAddress := by
        intro again
        have equal := Option.some.inj (spelled.symm.trans again)
        rw [good.freezer.key old, (FreezerController.entryFor_parsed made).address, equal] at other
        exact other rfl
      exact (if_neg apart).trans (good.frozen it old)
    · exact if_pos spelled

theorem unfreezeValue_good {f : TargetFacade} (good : f.Good) (address : Option NSString) :
    (f.unfreezeValue address).2.Good :=
  { good with
    freezer := FreezerController.unfreezeAddress_good good.freezer address
    frozen := fun it inside => good.frozen it (FreezerController.unfreezeAddress_entries inside) }

theorem performTick_good {f : TargetFacade} (good : f.Good) (system : System)
    (writer : FrozenWrite → WriterAnswer) : (f.performTick system writer).2.Good :=
  { good with
    freezer := FreezerController.performTick_good good.freezer _ _ writer
    frozen := fun it inside => by
      obtain ⟨old, present, rfl⟩ := List.mem_map.mp inside
      have same := FreezerController.tick_address old.2
        (f.session.targetIsAvailable system) f.session.target.pid writer
      exact same.2.symm ▸ good.frozen old present }

theorem step_good (call : TargetCall) (f : TargetFacade) (good : f.Good) : (step call f).Good := by
  cases call with
  | clearFrozenValues => exact clear_good good
  | unfreezeValue address => exact unfreezeValue_good good address
  | performTick system writer => exact performTick_good good system writer
  | freezeValue system schedules address value type =>
      exact freezeValue_good good system schedules address value type
  | searchThrows system search =>
      simp only [step]
      split
      next => exact good
      next aftermath thrown => exact good.search (MemorySession.callThrows_target thrown)
  | facade system allocations call =>
      have searched := MemorySession.search_serves system call f.session
      cases call with
      | setTargetProc pid => exact setTargetProc_good good system allocations pid
      | getTargetStatus => exact getTargetStatus_good good system allocations
      | clearResults => exact clearResults_good good allocations
      | setFloatTolerance => exact good.search (searched (by simp) (by simp))
      | searchNumber => exact good.search (searched (by simp) (by simp))
      | searchNearby => exact good.search (searched (by simp) (by simp))
      | searchChange => exact good.search (searched (by simp) (by simp))
      | searchHex => exact good.search (searched (by simp) (by simp))
      | searchFilter => exact good.search (searched (by simp) (by simp))

theorem step_object (call : TargetCall) (f : TargetFacade) :
    (step call f).object = f.object ∨ (step call f).freezer.entries = [] := by
  have replaced : ∀ (g : TargetFacade) (target : TargetProcess),
      (g.replaceSession target).freezer.entries = [] := by
    intro g target
    simp [replaceSession, clearFrozenValues]
  have invalidated : ∀ allocates : Bool, (f.invalidateTargetSession allocates).object = f.object ∨
      (f.invalidateTargetSession allocates).freezer.entries = [] := by
    intro allocates
    unfold invalidateTargetSession
    split
    · exact .inr (replaced f {})
    · exact .inl rfl
  cases call with
  | clearFrozenValues => exact .inl rfl
  | unfreezeValue address => exact .inl rfl
  | performTick system writer => exact .inl rfl
  | freezeValue system schedules address value type => exact .inl rfl
  | searchThrows system search =>
      left
      simp only [step]
      split <;> rfl
  | facade system allocations call =>
      cases call with
      | setTargetProc pid =>
          simp only [step, setTargetProc]
          split_ifs <;>
            first | exact .inl rfl | exact .inr (replaced _ _) | exact invalidated _
      | getTargetStatus =>
          simp only [step, getTargetStatus]
          split
          · exact invalidated _
          · exact .inl rfl
      | clearResults =>
          left
          simp only [step, clearResults]
          split <;> rfl
      | setFloatTolerance => exact .inl rfl
      | searchNumber => exact .inl rfl
      | searchNearby => exact .inl rfl
      | searchChange => exact .inl rfl
      | searchHex => exact .inl rfl
      | searchFilter => exact .inl rfl

/-- What holds between the calls of a facade. -/
structure Bound (f : TargetFacade) : Prop where
  /-- The next session object is another one. -/
  fresh : f.object < f.created
  /-- A tick writes through what was current when the entry was frozen. -/
  writes : ∀ system writer, ∀ write ∈ (f.performTick system writer).1,
    f.frozenThrough write.2.address = some write.1
  refused : ∀ system allocations pid, f.session.targetIsAvailable system = true →
    (f.setTargetProc system allocations pid).1 = false →
      (f.setTargetProc system allocations pid).2 = f
  replaced : ∀ call, (step call f).object ≠ f.object → (step call f).freezer.entries = []

theorem setTargetProc_refused {system : System} {allocations : Allocations} {pid : Int}
    {f : TargetFacade} (available : f.session.targetIsAvailable system = true)
    (refused : (f.setTargetProc system allocations pid).1 = false) :
    (f.setTargetProc system allocations pid).2 = f := by
  simp only [setTargetProc, available, Bool.and_true] at refused ⊢
  split_ifs at refused ⊢ <;> rfl

/-- Where nothing fails, the session is what the facade without allocations makes of it. -/
theorem setTargetProc_session (system : System) (engine : Bool) (pid : Int) (f : TargetFacade) :
    ((f.setTargetProc system ⟨true, true, engine⟩ pid).1,
      (f.setTargetProc system ⟨true, true, engine⟩ pid).2.session) =
        f.session.setTargetProc system pid := by
  simp only [setTargetProc, MemorySession.setTargetProc, invalidateTargetSession,
    MemorySession.invalidateTargetSession, Bool.not_true, Bool.false_eq_true, if_true, if_false]
  split_ifs <;> rfl

theorem Good.bound {f : TargetFacade} (good : f.Good) : f.Bound where
  fresh := good.fresh
  writes system writer write made := by
    obtain ⟨frozen, listed, rfl⟩ := List.mem_map.mp made
    obtain ⟨-, it, inside, -, rfl⟩ := ((good.freezer.tick _ _ writer).2 frozen).mp listed
    rw [good.frozen it inside, TargetFacade.current, TargetFacade.writer, good.port]
  refused _ _ _ := setTargetProc_refused
  replaced call other := (step_object call f).resolve_left other

/-- In whatever order targets are switched, searched, frozen and lost, frozen values are written
to the target that they were frozen in, and a target that cannot be had costs nothing. -/
theorem frozenValues_bound (target : TargetProcess) (calls : List TargetCall) :
    (execute step calls (start target)).Bound :=
  (execute_invariant Good step_good calls (start_good target)).bound

end TargetFacade

end H5GG

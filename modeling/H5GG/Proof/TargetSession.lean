import H5GG.Library.Table
import H5GG.TargetSession
import Mathlib.Data.List.Nodup

/-!
# Ports and engines are released once
-/

namespace H5GG

/-- The calls that a target that is still there has to come to. -/
def TargetObject.pending (object : TargetObject) : List Disposal :=
  if object.destroyed then [] else object.target.reset

@[simp] theorem pending_there (target : OwningTarget) :
    TargetObject.pending { target } = target.reset := rfl

def SessionObject.pending (session : SessionObject) : List Disposal :=
  if session.destroyed then [] else session.deleteEngine ++ session.target.reset

/-- The call that a port needs, and the one that an engine needs. -/
def portDue (known : Nat × Option Nat) : List Disposal :=
  match known.2 with
  | some releaser => [.released known.1 releaser]
  | none => []

def engineDue (known : Nat × Option Nat) : List Disposal :=
  match known.2 with
  | some deleter => [.deleted known.1 deleter]
  | none => []

theorem reset_eq (target : OwningTarget) :
    target.reset = if target.port ≠ 0 then portDue (target.port, target.releaser) else [] := by
  unfold OwningTarget.reset portDue
  cases target.releaser with
  | none => simp
  | some releaser => rfl

@[simp] theorem reset_empty : ({} : OwningTarget).reset = [] := rfl

theorem deleteEngine_eq (session : SessionObject) :
    session.deleteEngine =
      session.engine.elim [] fun engine => engineDue (engine, session.engineDeleter) := by
  unfold SessionObject.deleteEngine engineDue
  cases session.engine with
  | none => rfl
  | some engine => cases session.engineDeleter <;> rfl

namespace ObjectHeap

/-- Someone still shows a port. -/
def Reports (heap : ObjectHeap) (port : Nat) : Prop :=
  (∃ object ∈ heap.targets, object.destroyed = false ∧ object.target.port = port) ∨
    ∃ session ∈ heap.sessions, session.destroyed = false ∧ session.target.port = port

def Holds (heap : ObjectHeap) (engine : Nat) : Prop :=
  ∃ session ∈ heap.sessions, session.destroyed = false ∧ session.engine = some engine

/-- Every call that is due is made or pending, no more often than it is due. -/
def Balanced (heap : ObjectHeap) : Prop :=
  ∀ call, tally TargetObject.pending heap.targets call +
    tally SessionObject.pending heap.sessions call + heap.log.count call =
      tally portDue heap.ports call + tally engineDue heap.registered call

/-- A target has its port and its releaser from a construction. -/
def Introduced (heap : ObjectHeap) (target : OwningTarget) : Prop :=
  target.port ≠ 0 → (target.port, target.releaser) ∈ heap.ports

structure Good (heap : ObjectHeap) : Prop where
  balanced : heap.Balanced
  ports : heap.ports.Pairwise fun known other => known.1 = other.1 →
    known.2 = none ∧ other.2 = none
  nonnull : ∀ known ∈ heap.ports, known.1 ≠ 0
  targets : ∀ object ∈ heap.targets, object.destroyed = false → heap.Introduced object.target
  sessions : ∀ session ∈ heap.sessions, session.destroyed = false → heap.Introduced session.target
  engines : (heap.registered.map Prod.fst).Nodup
  current : ∀ index session engine, heap.session? index = some session →
    session.engine = some engine → (engine, session.engineDeleter) ∈ heap.registered
  alone : ∀ left right one other engine, heap.session? left = some one →
    heap.session? right = some other → one.engine = some engine → other.engine = some engine →
      left = right
  order : ∀ session ∈ heap.sessions, session.destroyed = true →
    session.deleteEngine ++ session.target.reset <:+: heap.log

theorem start_good : ({} : ObjectHeap).Good := by
  constructor <;> simp [Balanced, session?]

theorem target?_eq_some {heap : ObjectHeap} {object : Nat} {target : OwningTarget} :
    heap.target? object = some target ↔ heap.targets[object]? = some { target } := by
  rw [target?, Option.bind_eq_some_iff]
  constructor
  · rintro ⟨⟨known, destroyed⟩, found, there⟩
    cases destroyed with
    | true => cases there
    | false =>
        cases there
        exact found
  · exact fun found => ⟨_, found, rfl⟩

theorem session?_eq_some {heap : ObjectHeap} {index : Nat} {session : SessionObject} :
    heap.session? index = some session ↔
      heap.sessions[index]? = some session ∧ session.destroyed = false := by
  rw [session?, Option.bind_eq_some_iff]
  constructor
  · rintro ⟨known, found, there⟩
    split_ifs at there with destroyed
    cases there
    exact ⟨found, by simpa using destroyed⟩
  · rintro ⟨found, there⟩
    exact ⟨session, found, by simp [there]⟩

theorem forall_mem_set {Object : Type} {holds : Object → Prop} {objects : List Object} {place : Nat}
    {new : Object} (old : ∀ object ∈ objects, holds object) (changed : holds new) :
    ∀ object ∈ objects.set place new, holds object := by
  intro object inside
  cases List.mem_or_eq_of_mem_set inside with
  | inl kept => exact old object kept
  | inr same => exact same ▸ changed

theorem session?_concat_some {heap heap' : ObjectHeap} {index : Nat} {new session : SessionObject}
    (sessions : heap'.sessions = heap.sessions ++ [new])
    (found : heap'.session? index = some session) :
    heap.session? index = some session ∨ index = heap.sessions.length ∧ session = new := by
  obtain ⟨entry, there⟩ := session?_eq_some.mp found
  rw [sessions] at entry
  cases getElem?_concat_some entry with
  | inl old => exact .inl (session?_eq_some.mpr ⟨old, there⟩)
  | inr last => exact .inr last

theorem session?_set_some {heap heap' : ObjectHeap} {index place : Nat}
    {new session : SessionObject} (sessions : heap'.sessions = heap.sessions.set place new)
    (found : heap'.session? index = some session) :
    index = place ∧ session = new ∨ index ≠ place ∧ heap.session? index = some session := by
  obtain ⟨entry, there⟩ := session?_eq_some.mp found
  rw [sessions] at entry
  cases getElem?_set_some entry with
  | inl here => exact .inl here
  | inr elsewhere => exact .inr ⟨elsewhere.1, session?_eq_some.mpr ⟨elsewhere.2, there⟩⟩

section
variable {heap : ObjectHeap} (good : heap.Good)
include good

theorem Good.target {object : Nat} {target : OwningTarget}
    (found : heap.target? object = some target) : heap.Introduced target :=
  good.targets _ (List.mem_of_getElem? (target?_eq_some.mp found)) rfl

theorem Good.retarget (targets : List TargetObject) (calls : List Disposal)
    (introduced : ∀ object ∈ targets, object.destroyed = false → heap.Introduced object.target)
    (same : ∀ call, tally TargetObject.pending targets call + calls.count call =
      tally TargetObject.pending heap.targets call) :
    Good { heap with targets, log := heap.log ++ calls } where
  balanced call := by
    have before := good.balanced call
    have moved := same call
    simp only [List.count_append]
    omega
  ports := good.ports
  nonnull := good.nonnull
  targets := introduced
  sessions := good.sessions
  engines := good.engines
  current := good.current
  alone := good.alone
  order session inside destroyed :=
    (good.order session inside destroyed).trans (List.prefix_append _ _).isInfix

theorem Good.set_introduced {object : Nat} {after : TargetObject}
    (introduced : after.destroyed = false → heap.Introduced after.target) :
    ∀ other ∈ heap.targets.set object after, other.destroyed = false →
      heap.Introduced other.target := by
  exact forall_mem_set good.targets introduced

theorem Good.construct (pid : Int) (port : Nat) (releaser : Option Nat)
    (fresh : ∀ known ∈ heap.ports, known.1 = port → known.2 = none ∧ releaser = none) :
    Good (step (.construct pid port releaser) heap) := by
  have grows : ∀ target, heap.Introduced target →
      (step (.construct pid port releaser) heap).Introduced target := by
    intro target introduced nonzero
    have known := introduced nonzero
    simp only [step]
    split_ifs
    · exact List.mem_append_left _ known
    · exact known
  exact {
    balanced := by
      intro call
      have before := good.balanced call
      simp only [step, tally_append, tally_cons, tally_nil, pending_there, reset_eq]
      by_cases nonzero : port ≠ 0
      · rw [if_pos nonzero, if_pos nonzero, tally_append, tally_cons, tally_nil]
        omega
      · rw [if_neg nonzero, if_neg nonzero, List.count_nil]
        omega
    ports := by
      simp only [step]
      split_ifs with nonzero
      · refine List.pairwise_append.mpr ⟨good.ports, List.pairwise_singleton _ _, ?_⟩
        intro known old other new same
        cases List.mem_singleton.mp new
        exact fresh known old same
      · exact good.ports
    nonnull := by
      simp only [step]
      split_ifs with nonzero
      · intro known inside
        cases List.mem_append.mp inside with
        | inl old => exact good.nonnull known old
        | inr new =>
            cases List.mem_singleton.mp new
            exact nonzero
      · exact good.nonnull
    targets := by
      intro object inside there
      cases List.mem_append.mp inside with
      | inl old => exact grows _ (good.targets object old there)
      | inr new =>
          cases List.mem_singleton.mp new
          intro nonzero
          simp only [step, if_pos nonzero]
          exact List.mem_append_right _ (List.mem_singleton.mpr rfl)
    sessions := fun session inside there => grows _ (good.sessions session inside there)
    engines := good.engines
    current := good.current
    alone := good.alone
    order := good.order }

theorem Good.empty_introduced {object : Nat} {destroyed : Bool} :
    ∀ other ∈ heap.targets.set object { target := {}, destroyed }, other.destroyed = false →
      heap.Introduced other.target :=
  good.set_introduced fun _ nonzero => (nonzero rfl).elim

theorem Good.moveConstruct (other : Nat) : Good (step (.moveConstruct other) heap) := by
  simp only [step]
  cases found : heap.target? other with
  | none => exact good
  | some target =>
      have moved := good.retarget (heap.targets.set other { target := {} } ++
        [({ target } : TargetObject)]) [] ?_ ?_
      · rwa [List.append_nil] at moved
      · intro object inside there
        cases List.mem_append.mp inside with
        | inl old => exact good.empty_introduced object old there
        | inr new =>
            cases List.mem_singleton.mp new
            exact good.target found
      · intro call
        have emptied := tally_set TargetObject.pending (target?_eq_some.mp found)
          { target := {} } call
        simp only [tally_append, tally_cons, tally_nil, pending_there, reset_empty,
          List.count_nil] at emptied ⊢
        omega

theorem Good.moveAssign (object other : Nat) : Good (step (.moveAssign object other) heap) := by
  simp only [step]
  cases found : heap.target? object with
  | none => exact good
  | some previous =>
      cases source : heap.target? other with
      | none => exact good
      | some target =>
          dsimp only
          split_ifs with same
          · exact good
          · have taken := tally_set TargetObject.pending (target?_eq_some.mp found)
              { target }
            have still : (heap.targets.set object { target })[other]? = some { target } := by
              rw [List.getElem?_set_ne same]
              exact target?_eq_some.mp source
            have emptied := tally_set TargetObject.pending still { target := {} }
            refine good.retarget ((heap.targets.set object { target }).set other { target := {} })
              previous.reset ?_ ?_
            · refine forall_mem_set (good.set_introduced fun _ => good.target source) ?_
              exact fun _ nonzero => (nonzero rfl).elim
            · intro call
              have first := taken call
              have second := emptied call
              simp only [pending_there, reset_empty, List.count_nil] at first second
              omega

theorem Good.drop {object : Nat} {target : OwningTarget} {destroyed : Bool}
    (found : heap.target? object = some target) :
    Good { heap with
      targets := heap.targets.set object { target := {}, destroyed }
      log := heap.log ++ target.reset } := by
  refine good.retarget _ _ good.empty_introduced fun call => ?_
  have emptied := tally_set TargetObject.pending (target?_eq_some.mp found)
    { target := {}, destroyed } call
  have nothing : TargetObject.pending { target := {}, destroyed } = [] := by
    cases destroyed <;> rfl
  rw [nothing, pending_there, List.count_nil] at emptied
  exact emptied

theorem Good.reset (object : Nat) : Good (step (.reset object) heap) := by
  simp only [step]
  cases found : heap.target? object with
  | none => exact good
  | some target => exact good.drop found

theorem Good.destroy (object : Nat) : Good (step (.destroy object) heap) := by
  simp only [step]
  cases found : heap.target? object with
  | none => exact good
  | some target => exact good.drop found

theorem Good.session {index : Nat} {session : SessionObject}
    (found : heap.session? index = some session) : heap.Introduced session.target :=
  good.sessions _ (List.mem_of_getElem? (session?_eq_some.mp found).1) (session?_eq_some.mp found).2

theorem Good.unheld {engine : Nat} (fresh : ∀ known ∈ heap.registered, engine ≠ known.1)
    {index : Nat} {session : SessionObject} (found : heap.session? index = some session) :
    session.engine ≠ some engine :=
  fun held => fresh _ (good.current index session engine found held) rfl

/-- What registering an engine puts in front of the registrations. -/
def enrolled (engine deleter : Option Nat) : List (Nat × Option Nat) :=
  engine.elim [] fun engine => [(engine, deleter)]

omit good in
theorem tally_enrolled (session : SessionObject) (call : Disposal) :
    tally engineDue (enrolled session.engine session.engineDeleter) call =
      session.deleteEngine.count call := by
  rw [deleteEngine_eq]
  cases session.engine with
  | none => rfl
  | some engine => rw [enrolled, Option.elim_some, tally_cons, tally_nil, Option.elim_some,
      Nat.add_zero]

omit good in
theorem register_fresh (heap : ObjectHeap) {engine deleter : Option Nat}
    (fresh : ∀ known ∈ heap.registered, engine ≠ some known.1) :
    heap.register engine deleter =
      { heap with registered := enrolled engine deleter ++ heap.registered } := by
  cases engine with
  | none => rfl
  | some engine =>
      have others : heap.registered.filter (·.1 ≠ engine) = heap.registered := by
        refine List.filter_eq_self.mpr fun known inside => decide_eq_true ?_
        exact fun same => fresh known inside (congrArg some same.symm)
      simp only [register, others, enrolled, Option.elim_some, List.cons_append, List.nil_append]

theorem Good.enrolled_nodup {engine deleter : Option Nat}
    (fresh : ∀ known ∈ heap.registered, engine ≠ some known.1) :
    ((enrolled engine deleter ++ heap.registered).map Prod.fst).Nodup := by
  cases engine with
  | none => exact good.engines
  | some engine =>
      refine List.nodup_cons.mpr ⟨fun again => ?_, good.engines⟩
      obtain ⟨known, inside, same⟩ := List.mem_map.mp again
      exact fresh known inside (congrArg some same.symm)

theorem Good.constructSession (object : Nat) (engine engineDeleter : Option Nat)
    (fresh : ∀ known ∈ heap.registered, engine ≠ some known.1) :
    Good (step (.constructSession object engine engineDeleter) heap) := by
  simp only [step]
  cases found : heap.target? object with
  | none => exact good
  | some target =>
      have unheld : ∀ place session held, engine = some held →
          heap.session? place = some session → session.engine ≠ some held := by
        rintro place session held rfl found
        exact good.unheld (fun known inside same => fresh known inside (congrArg some same)) found
      dsimp only
      rw [register_fresh (heap.setTarget object {}) fresh]
      exact {
        balanced := by
          intro call
          have before := good.balanced call
          have emptied := tally_set TargetObject.pending (target?_eq_some.mp found)
            { target := {} } call
          have held := tally_enrolled { target, engine, engineDeleter } call
          simp only [pending_there, reset_empty, List.count_nil] at emptied
          simp only [setTarget, tally_append, tally_cons, tally_nil, SessionObject.pending,
            Bool.false_eq_true, if_false, List.count_append] at held ⊢
          omega
        ports := good.ports
        nonnull := good.nonnull
        targets := good.empty_introduced
        sessions := by
          intro session inside there
          cases List.mem_append.mp inside with
          | inl old => exact good.sessions session old there
          | inr new =>
              cases List.mem_singleton.mp new
              exact good.target found
        engines := good.enrolled_nodup fresh
        current := by
          intro index session held found holds
          cases session?_concat_some rfl found with
          | inl old => exact List.mem_append_right _ (good.current index session held old holds)
          | inr last =>
              obtain ⟨-, rfl⟩ := last
              cases holds
              exact List.mem_append_left _ (List.mem_singleton.mpr rfl)
        alone := by
          intro left right one other held leftFound rightFound leftHolds rightHolds
          cases session?_concat_some rfl leftFound with
          | inl leftOld =>
              cases session?_concat_some rfl rightFound with
              | inl rightOld =>
                  exact good.alone left right one other held leftOld rightOld leftHolds rightHolds
              | inr rightLast =>
                  obtain ⟨-, rfl⟩ := rightLast
                  exact absurd leftHolds (unheld left one held rightHolds leftOld)
          | inr leftLast =>
              obtain ⟨rfl, rfl⟩ := leftLast
              cases session?_concat_some rfl rightFound with
              | inl rightOld => exact absurd rightHolds (unheld right other held leftHolds rightOld)
              | inr rightLast => exact rightLast.1.symm
        order := by
          intro session inside destroyed
          cases List.mem_append.mp inside with
          | inl old => exact good.order session old destroyed
          | inr new =>
              cases List.mem_singleton.mp new
              cases destroyed }

theorem Good.replaced {index : Nat} {session : SessionObject}
    (found : heap.session? index = some session) (engine engineDeleter : Option Nat)
    (calls : List Disposal) (registered : List (Nat × Option Nat))
    (engines : (registered.map Prod.fst).Nodup)
    (mine : ∀ held, engine = some held → (held, engineDeleter) ∈ registered)
    (others : ∀ place other held, place ≠ index → heap.session? place = some other →
      other.engine = some held → engine ≠ some held ∧ (held, other.engineDeleter) ∈ registered)
    (same : ∀ call, calls.count call +
      ({ session with engine, engineDeleter } : SessionObject).deleteEngine.count call +
      tally engineDue heap.registered call =
        session.deleteEngine.count call + tally engineDue registered call) :
    Good { heap with
      sessions := heap.sessions.set index { session with engine, engineDeleter }
      log := heap.log ++ calls, registered } := by
  have introduced := good.session found
  obtain ⟨entry, there⟩ := session?_eq_some.mp found
  exact {
    balanced := by
      intro call
      have before := good.balanced call
      have replaced := tally_set SessionObject.pending entry
        { session with engine, engineDeleter } call
      have moved := same call
      simp only [SessionObject.pending, there, Bool.false_eq_true, if_false,
        List.count_append] at replaced moved ⊢
      omega
    ports := good.ports
    nonnull := good.nonnull
    targets := good.targets
    sessions := forall_mem_set good.sessions fun _ => introduced
    engines := engines
    current := by
      intro place other held foundOther holds
      cases session?_set_some rfl foundOther with
      | inl here =>
          obtain ⟨-, rfl⟩ := here
          exact mine held holds
      | inr elsewhere => exact (others place other held elsewhere.1 elsewhere.2 holds).2
    alone := by
      intro left right one other held leftFound rightFound leftHolds rightHolds
      cases session?_set_some rfl leftFound with
      | inl leftHere =>
          obtain ⟨rfl, rfl⟩ := leftHere
          cases session?_set_some rfl rightFound with
          | inl rightHere => exact rightHere.1.symm
          | inr rightOld =>
              exact absurd leftHolds (others right other held rightOld.1 rightOld.2 rightHolds).1
      | inr leftOld =>
          cases session?_set_some rfl rightFound with
          | inl rightHere =>
              obtain ⟨rfl, rfl⟩ := rightHere
              exact absurd rightHolds (others left one held leftOld.1 leftOld.2 leftHolds).1
          | inr rightOld =>
              exact good.alone left right one other held leftOld.2 rightOld.2 leftHolds rightHolds
    order := by
      refine forall_mem_set (fun other old destroyed => ?_) fun destroyed => ?_
      · exact (good.order other old destroyed).trans (List.prefix_append _ _).isInfix
      · rw [there] at destroyed
        cases destroyed }

/-- The engine has not been there before: the one that it takes the place of is deleted. -/
theorem Good.replaceFresh {index : Nat} {session : SessionObject}
    (found : heap.session? index = some session) {engine engineDeleter : Option Nat}
    (fresh : ∀ known ∈ heap.registered, engine ≠ some known.1) :
    Good (step (.replaceEngine index engine engineDeleter) heap) := by
  simp only [step, found]
  rw [register_fresh (heap.dispose _) fresh]
  refine good.replaced found engine engineDeleter _ _ (good.enrolled_nodup fresh) ?_ ?_ ?_
  · intro held same
    subst same
    exact List.mem_append_left _ (List.mem_singleton.mpr rfl)
  · intro place other held apart foundOther holds
    have known := good.current place other held foundOther holds
    exact ⟨fresh _ known, List.mem_append_right _ known⟩
  · intro call
    rw [tally_append, tally_enrolled { session with engine, engineDeleter } call]
    simp only [dispose]
    split_ifs with same
    · omega
    · have nothing : session.deleteEngine = [] := by
        rw [deleteEngine_eq]
        cases holds : session.engine with
        | none => rfl
        | some held =>
            have equal := (not_not.mp same).symm.trans holds
            exact absurd equal (fresh _ (good.current index session held found holds))
      rw [nothing]
      omega

/-- The engine is the one that the session has: nothing is deleted, and the new deleter counts. -/
theorem Good.replaceSelf {index : Nat} {session : SessionObject}
    (found : heap.session? index = some session) {engine : Nat} (engineDeleter : Option Nat)
    (holds : session.engine = some engine) :
    Good (step (.replaceEngine index (some engine) engineDeleter) heap) := by
  simp only [step, found, holds, ne_eq, not_true_eq_false, if_false]
  have known := good.current index session engine found holds
  refine good.replaced found (some engine) engineDeleter [] _ ?_ ?_ ?_ ?_
  · refine List.nodup_cons.mpr ⟨fun again => ?_, good.engines.sublist
      (List.filter_sublist.map Prod.fst)⟩
    obtain ⟨other, inside, same⟩ := List.mem_map.mp again
    exact of_decide_eq_true (List.mem_filter.mp inside).2 same
  · intro held same
    cases same
    exact List.mem_cons_self
  · intro place other held apart foundOther holdsOther
    have distinct : engine ≠ held := by
      intro same
      subst same
      exact apart (good.alone place index other session engine foundOther found holdsOther holds)
    refine ⟨fun same => distinct (Option.some.inj same), List.mem_cons_of_mem _ ?_⟩
    exact List.mem_filter.mpr ⟨good.current place other held foundOther holdsOther,
      decide_eq_true distinct.symm⟩
  · intro call
    have taken := tally_filter engineDue good.engines known call
    rw [deleteEngine_eq session, deleteEngine_eq, holds]
    dsimp only at taken
    simp only [register, dispose, tally_cons, Option.elim_some, List.count_nil]
    omega

theorem Good.replaceEngine (index : Nat) (engine engineDeleter : Option Nat)
    (introduces : Introduces (.replaceEngine index engine engineDeleter) heap) :
    Good (step (.replaceEngine index engine engineDeleter) heap) := by
  cases found : heap.session? index with
  | none =>
      simp only [step, found]
      exact good
  | some session =>
      cases introduces with
      | inl fresh => exact good.replaceFresh found fresh
      | inr again =>
          obtain ⟨same, foundSame, holds⟩ := again
          cases found.symm.trans foundSame
          cases engine with
          | none => exact good.replaceFresh found fun _ _ same => nomatch same
          | some engine => exact good.replaceSelf found engineDeleter holds

theorem Good.destroySession (index : Nat) : Good (step (.destroySession index) heap) := by
  simp only [step]
  cases found : heap.session? index with
  | none => exact good
  | some session =>
      obtain ⟨entry, there⟩ := session?_eq_some.mp found
      have old : ∀ place other, { heap with
          sessions := heap.sessions.set index { session with destroyed := true } }.session? place =
            some other → heap.session? place = some other := by
        intro place other foundOther
        cases session?_set_some rfl foundOther with
        | inl here =>
            obtain ⟨-, rfl⟩ := here
            cases (session?_eq_some.mp foundOther).2
        | inr elsewhere => exact elsewhere.2
      exact {
        balanced := by
          intro call
          have before := good.balanced call
          have dropped := tally_set SessionObject.pending entry { session with destroyed := true }
            call
          simp only [SessionObject.pending, there, if_true, Bool.false_eq_true, if_false,
            List.count_append, List.count_nil, dispose] at dropped ⊢
          omega
        ports := good.ports
        nonnull := good.nonnull
        targets := good.targets
        sessions := by
          refine forall_mem_set good.sessions fun there => ?_
          cases there
        engines := good.engines
        current := fun place other held found => good.current place other held (old place other found)
        alone := fun left right one other held leftFound rightFound =>
          good.alone left right one other held (old left one leftFound) (old right other rightFound)
        order := by
          refine forall_mem_set (fun other old destroyed => ?_) fun _ => ?_
          · exact (good.order other old destroyed).trans (List.prefix_append _ _).isInfix
          · exact (List.suffix_append _ _).isInfix }

theorem Good.step {event : ObjectEvent} (introduces : Introduces event heap) :
    Good (step event heap) := by
  cases event with
  | construct pid port releaser => exact good.construct pid port releaser introduces
  | moveConstruct other => exact good.moveConstruct other
  | moveAssign object other => exact good.moveAssign object other
  | reset object => exact good.reset object
  | destroy object => exact good.destroy object
  | constructSession object engine engineDeleter =>
      exact good.constructSession object engine engineDeleter introduces
  | replaceEngine index engine engineDeleter =>
      exact good.replaceEngine index engine engineDeleter introduces
  | destroySession index => exact good.destroySession index

/-! ## What has been called -/

theorem Good.owner {port releaser : Nat} {other : Option Nat}
    (known : (port, some releaser) ∈ heap.ports) (again : (port, other) ∈ heap.ports) :
    other = some releaser := by
  obtain ⟨before, after, split⟩ := List.append_of_mem known
  have ports := good.ports
  rw [split] at again ports
  obtain ⟨-, later, earlier⟩ := List.pairwise_append.mp ports
  cases List.mem_append.mp again with
  | inl inside =>
      cases (earlier _ inside _ List.mem_cons_self rfl).2
  | inr inside =>
      cases List.mem_cons.mp inside with
      | inl same =>
          cases same
          rfl
      | inr inside => cases ((List.pairwise_cons.mp later).1 _ inside rfl).1

omit good in
theorem not_mem_engineDue (known : Nat × Option Nat) (port releaser : Nat) :
    .released port releaser ∉ engineDue known := by
  unfold engineDue
  cases known.2 <;> simp

omit good in
theorem not_mem_portDue (known : Nat × Option Nat) (engine deleter : Nat) :
    .deleted engine deleter ∉ portDue known := by
  unfold portDue
  cases known.2 <;> simp

omit good in
theorem mem_portDue {known : Nat × Option Nat} {port releaser : Nat} :
    .released port releaser ∈ portDue known ↔ known = (port, some releaser) := by
  obtain ⟨key, value⟩ := known
  cases value <;> simp [portDue, eq_comm]

omit good in
theorem mem_engineDue {known : Nat × Option Nat} {engine deleter : Nat} :
    .deleted engine deleter ∈ engineDue known ↔ known = (engine, some deleter) := by
  obtain ⟨key, value⟩ := known
  cases value <;> simp [engineDue, eq_comm]

theorem Good.portDue_once {port releaser : Nat} (known : (port, some releaser) ∈ heap.ports) :
    tally portDue heap.ports (.released port releaser) = 1 := by
  have ports := good.ports
  obtain ⟨before, after, split⟩ := List.append_of_mem known
  rw [split] at ports ⊢
  obtain ⟨-, later, earlier⟩ := List.pairwise_append.mp ports
  have none_before : tally portDue before (.released port releaser) = 0 := by
    refine tally_eq_zero.mpr fun other inside due => ?_
    cases mem_portDue.mp due
    cases (earlier _ inside _ List.mem_cons_self rfl).1
  have none_after : tally portDue after (.released port releaser) = 0 := by
    refine tally_eq_zero.mpr fun other inside due => ?_
    cases mem_portDue.mp due
    cases ((List.pairwise_cons.mp later).1 _ inside rfl).1
  rw [tally_append, tally_cons, none_before, none_after]
  simp [portDue]

theorem Good.engineDue_once {engine deleter : Nat}
    (known : (engine, some deleter) ∈ heap.registered) :
    tally engineDue heap.registered (.deleted engine deleter) = 1 := by
  have taken := tally_filter engineDue good.engines known (.deleted engine deleter)
  have others : tally engineDue (heap.registered.filter (·.1 ≠ engine))
      (.deleted engine deleter) = 0 := by
    refine tally_eq_zero.mpr fun other inside due => ?_
    cases mem_engineDue.mp due
    exact of_decide_eq_true (List.mem_filter.mp inside).2 rfl
  rw [others] at taken
  rw [← taken]
  simp [engineDue]

/-- Only calls that are due are made, and a call that is still pending has not been made. -/
theorem Good.log_due {call : Disposal} (made : call ∈ heap.log) :
    0 < tally portDue heap.ports call + tally engineDue heap.registered call := by
  have balanced := good.balanced call
  have positive := List.count_pos_iff.mpr made
  omega

theorem Good.released_known {port releaser : Nat} (made : .released port releaser ∈ heap.log) :
    (port, some releaser) ∈ heap.ports := by
  have due := good.log_due made
  have none_deleted : tally engineDue heap.registered (.released port releaser) = 0 :=
    tally_eq_zero.mpr fun known _ => not_mem_engineDue known port releaser
  rw [none_deleted, Nat.add_zero] at due
  obtain ⟨known, inside, called⟩ := tally_pos.mp due
  exact mem_portDue.mp called ▸ inside

theorem Good.deleted_known {engine deleter : Nat} (made : .deleted engine deleter ∈ heap.log) :
    (engine, some deleter) ∈ heap.registered := by
  have due := good.log_due made
  have none_released : tally portDue heap.ports (.deleted engine deleter) = 0 :=
    tally_eq_zero.mpr fun known _ => not_mem_portDue known engine deleter
  rw [none_released, Nat.zero_add] at due
  obtain ⟨known, inside, called⟩ := tally_pos.mp due
  exact mem_engineDue.mp called ▸ inside

/-- What is due once and pending has not been called. -/
theorem Good.pending_once {call : Disposal}
    (once : tally portDue heap.ports call + tally engineDue heap.registered call = 1)
    (pending : 0 < tally TargetObject.pending heap.targets call +
      tally SessionObject.pending heap.sessions call) : call ∉ heap.log := by
  have balanced := good.balanced call
  exact List.count_eq_zero.mp (by omega)

theorem Good.release_once {port releaser : Nat} (known : (port, some releaser) ∈ heap.ports) :
    tally portDue heap.ports (.released port releaser) +
      tally engineDue heap.registered (.released port releaser) = 1 := by
  rw [good.portDue_once known,
    tally_eq_zero.mpr fun known _ => not_mem_engineDue known port releaser]

theorem Good.delete_once {engine deleter : Nat}
    (known : (engine, some deleter) ∈ heap.registered) :
    tally portDue heap.ports (.deleted engine deleter) +
      tally engineDue heap.registered (.deleted engine deleter) = 1 := by
  rw [good.engineDue_once known,
    tally_eq_zero.mpr fun known _ => not_mem_portDue known engine deleter]

theorem Good.reset_owned {target : OwningTarget} {port releaser : Nat}
    (introduced : heap.Introduced target) (known : (port, some releaser) ∈ heap.ports)
    (shows_ : target.port = port) : .released port releaser ∈ target.reset := by
  subst shows_
  have nonzero := good.nonnull _ known
  rw [reset_eq, if_pos nonzero, good.owner known (introduced nonzero)]
  exact List.mem_singleton.mpr rfl

theorem Good.reported {port : Nat} (reports : heap.Reports port) (releaser : Nat) :
    .released port releaser ∉ heap.log := by
  intro made
  have known := good.released_known made
  refine good.pending_once (good.release_once known) ?_ made
  cases reports with
  | inl reports =>
      obtain ⟨object, inside, there, shows_⟩ := reports
      refine Nat.add_pos_left (tally_pos.mpr ⟨object, inside, ?_⟩) _
      rw [TargetObject.pending, there]
      exact good.reset_owned (good.targets object inside there) known shows_
  | inr reports =>
      obtain ⟨session, inside, there, shows_⟩ := reports
      refine Nat.add_pos_right _ (tally_pos.mpr ⟨session, inside, ?_⟩)
      rw [SessionObject.pending, there]
      exact List.mem_append_right _
        (good.reset_owned (good.sessions session inside there) known shows_)

theorem Good.held {engine : Nat} (holds : heap.Holds engine) (deleter : Nat) :
    .deleted engine deleter ∉ heap.log := by
  intro made
  have known := good.deleted_known made
  refine good.pending_once (good.delete_once known) ?_ made
  obtain ⟨session, inside, there, has⟩ := holds
  obtain ⟨index, entry⟩ := List.mem_iff_getElem?.mp inside
  have current := good.current index session engine (session?_eq_some.mpr ⟨entry, there⟩) has
  have same : session.engineDeleter = some deleter :=
    congrArg Prod.snd (List.inj_on_of_nodup_map good.engines current known rfl)
  refine Nat.add_pos_right _ (tally_pos.mpr ⟨session, inside, ?_⟩)
  rw [SessionObject.pending, there, deleteEngine_eq, has, same]
  exact List.mem_append_left _ (List.mem_singleton.mpr rfl)

omit good in
theorem mem_reset {target : OwningTarget} {call : Disposal} (called : call ∈ target.reset) :
    ∃ releaser, call = .released target.port releaser := by
  unfold OwningTarget.reset at called
  cases owner : target.releaser with
  | none => simp [owner] at called
  | some releaser =>
      rw [owner] at called
      split_ifs at called
      · exact ⟨releaser, List.mem_singleton.mp called⟩
      · cases called

omit good in
theorem mem_deleteEngine {session : SessionObject} {call : Disposal}
    (called : call ∈ session.deleteEngine) :
    ∃ engine deleter, session.engine = some engine ∧ call = .deleted engine deleter := by
  unfold SessionObject.deleteEngine at called
  split at called
  · rename_i engine deleter has _
    exact ⟨engine, deleter, has, List.mem_singleton.mp called⟩
  · cases called

omit good in
theorem mem_targetPending {object : TargetObject} {call : Disposal}
    (pending : call ∈ object.pending) :
    object.destroyed = false ∧ ∃ releaser, call = .released object.target.port releaser := by
  unfold TargetObject.pending at pending
  split_ifs at pending with destroyed
  · cases pending
  · exact ⟨by simpa using destroyed, mem_reset pending⟩

omit good in
theorem mem_sessionPending {session : SessionObject} {call : Disposal}
    (pending : call ∈ session.pending) : session.destroyed = false ∧
      ((∃ engine deleter, session.engine = some engine ∧ call = .deleted engine deleter) ∨
        ∃ releaser, call = .released session.target.port releaser) := by
  unfold SessionObject.pending at pending
  split_ifs at pending with destroyed
  · cases pending
  · refine ⟨by simpa using destroyed, ?_⟩
    cases List.mem_append.mp pending with
    | inl deletes => exact .inl (mem_deleteEngine deletes)
    | inr resets => exact .inr (mem_reset resets)

theorem Good.released {port releaser : Nat} (known : (port, some releaser) ∈ heap.ports)
    (unreported : ¬heap.Reports port) : heap.log.count (.released port releaser) = 1 := by
  have balanced := good.balanced (.released port releaser)
  have no_target : tally TargetObject.pending heap.targets (.released port releaser) = 0 := by
    refine tally_eq_zero.mpr fun object inside pending => unreported (.inl ⟨object, inside, ?_⟩)
    obtain ⟨there, _, same⟩ := mem_targetPending pending
    cases same
    exact ⟨there, rfl⟩
  have no_session : tally SessionObject.pending heap.sessions (.released port releaser) = 0 := by
    refine tally_eq_zero.mpr fun session inside pending => unreported (.inr ⟨session, inside, ?_⟩)
    obtain ⟨there, ⟨_, _, _, same⟩ | ⟨_, same⟩⟩ := mem_sessionPending pending
    · cases same
    · cases same
      exact ⟨there, rfl⟩
  rw [no_target, no_session, good.release_once known] at balanced
  omega

theorem Good.deleted {engine deleter : Nat} (known : (engine, some deleter) ∈ heap.registered)
    (unheld : ¬heap.Holds engine) : heap.log.count (.deleted engine deleter) = 1 := by
  have balanced := good.balanced (.deleted engine deleter)
  have no_target : tally TargetObject.pending heap.targets (.deleted engine deleter) = 0 := by
    refine tally_eq_zero.mpr fun object inside pending => ?_
    obtain ⟨-, _, same⟩ := mem_targetPending pending
    cases same
  have no_session : tally SessionObject.pending heap.sessions (.deleted engine deleter) = 0 := by
    refine tally_eq_zero.mpr fun session inside pending => unheld ⟨session, inside, ?_⟩
    obtain ⟨there, ⟨_, _, has, same⟩ | ⟨_, same⟩⟩ := mem_sessionPending pending
    · cases same
      exact ⟨there, has⟩
    · cases same
  rw [no_target, no_session, good.delete_once known] at balanced
  omega

end

/-- Which ports are released and which engines are deleted, and by whom. -/
structure Ledger (heap : ObjectHeap) : Prop where
  /-- While a port is shown nobody releases it. -/
  reported : ∀ port releaser, heap.Reports port → .released port releaser ∉ heap.log
  released : ∀ port releaser, (port, some releaser) ∈ heap.ports → ¬heap.Reports port →
    heap.log.count (.released port releaser) = 1
  owner : ∀ port releaser other, (port, some releaser) ∈ heap.ports →
    .released port other ∈ heap.log → other = releaser
  unowned : ∀ port releaser, (port, none) ∈ heap.ports → .released port releaser ∉ heap.log
  held : ∀ engine deleter, heap.Holds engine → .deleted engine deleter ∉ heap.log
  deleted : ∀ engine deleter, (engine, some deleter) ∈ heap.registered → ¬heap.Holds engine →
    heap.log.count (.deleted engine deleter) = 1
  last : ∀ engine deleter other, (engine, deleter) ∈ heap.registered →
    .deleted engine other ∈ heap.log → deleter = some other
  /-- The engine of a session goes before its port. -/
  order : ∀ session ∈ heap.sessions, session.destroyed = true →
    session.deleteEngine ++ session.target.reset <:+: heap.log
  finished : (∀ object ∈ heap.targets, object.destroyed = true) →
    (∀ session ∈ heap.sessions, session.destroyed = true) →
      (∀ port releaser, (port, some releaser) ∈ heap.ports →
        heap.log.count (.released port releaser) = 1) ∧
      ∀ engine deleter, (engine, some deleter) ∈ heap.registered →
        heap.log.count (.deleted engine deleter) = 1

theorem Good.ledger {heap : ObjectHeap} (good : heap.Good) : heap.Ledger where
  reported port releaser reports := good.reported reports releaser
  released port releaser known unreported := good.released known unreported
  owner port releaser other known made :=
    Option.some.inj (good.owner known (good.released_known made))
  unowned port releaser known made := nomatch good.owner (good.released_known made) known
  held engine deleter holds := good.held holds deleter
  deleted engine deleter known unheld := good.deleted known unheld
  last engine deleter other known made :=
    congrArg Prod.snd (List.inj_on_of_nodup_map good.engines known (good.deleted_known made) rfl)
  order := good.order
  finished targets sessions := by
    constructor
    · intro port releaser known
      refine good.released known fun reports => ?_
      cases reports with
      | inl reports =>
          obtain ⟨object, inside, there, -⟩ := reports
          exact Bool.noConfusion ((targets object inside).symm.trans there)
      | inr reports =>
          obtain ⟨session, inside, there, -⟩ := reports
          exact Bool.noConfusion ((sessions session inside).symm.trans there)
    · intro engine deleter known
      refine good.deleted known fun ⟨session, inside, there, _⟩ => ?_
      exact Bool.noConfusion ((sessions session inside).symm.trans there)

/-- Ports and engines that are introduced once are released and deleted once, whatever a program
does with the objects that have them. -/
theorem ownership_ledger (events : List ObjectEvent) (introduced : Along step Introduces events {}) :
    (execute step events {}).Ledger :=
  (Along.execute Good (fun _ _ good introduces => good.step introduces) start_good introduced).ledger

/-- A target that is moved into a session, a session whose engine is replaced by itself and then by
another one, and the end of both. -/
theorem ownership_ledger_session :
    (execute step [.construct 7 11 (some 1), .moveAssign 0 0, .constructSession 0 (some 5) (some 2),
      .replaceEngine 0 (some 5) (some 3), .replaceEngine 0 (some 6) (some 2), .destroySession 0,
      .destroy 0] {}).Ledger :=
  ownership_ledger _ (by simp [Along, Introduces, step, session?, target?, setTarget, register,
    dispose])

/-- An engine that a session gets again with no deleter is not deleted. -/
theorem replaceEngine_undeleted :
    Along step Introduces [.construct 7 11 (some 1), .constructSession 0 (some 5) (some 2),
      .replaceEngine 0 (some 5) none, .destroySession 0, .destroy 0] {} ∧
    (execute step [.construct 7 11 (some 1), .constructSession 0 (some 5) (some 2),
      .replaceEngine 0 (some 5) none, .destroySession 0, .destroy 0] {}).log = [.released 11 1] := by
  refine ⟨?_, rfl⟩
  simp [Along, Introduces, step, session?, target?, setTarget, register]

end ObjectHeap

end H5GG

import H5GG.ModalRequestQueue

/-!
# Modal requests are served one at a time
-/

namespace H5GG

namespace Coordinator

structure Good (c : Coordinator) : Prop where
  sorted : c.requests.Pairwise (· < ·)
  active : ∀ r, c.states[r]? = some .active ↔ c.requests.head? = some r
  waiting : ∀ r, c.states[r]? = some .waiting ↔ r ∈ c.requests.tail
  completed : ∀ r, c.states[r]? = some .completed ↔ r ∈ c.removed
  once : c.removed.Nodup
  ordered : c.activated.Pairwise (· < ·)
  known : ∀ r ∈ c.activated, r < c.states.length
  ahead : ∀ r ∈ c.activated, ∀ w ∈ c.requests.tail, r < w
  begun : ∀ r, c.requests.head? = some r → r ∈ c.activated
  passed : ∀ r < c.states.length, r ∈ c.activated ∨ r ∈ c.skipped ∨ r ∈ c.requests.tail
  answers : c.answered.Nodup
  answered : ∀ r ∈ c.answered, r ∈ c.removed

@[simp] theorem activateFront_answered (c : Coordinator) :
    c.activateFront.answered = c.answered := by
  unfold activateFront
  split <;> rfl

@[simp] theorem activateFront_requests (c : Coordinator) :
    c.activateFront.requests = c.requests := by
  unfold activateFront
  split <;> rfl

@[simp] theorem activateFront_removed (c : Coordinator) :
    c.activateFront.removed = c.removed := by
  unfold activateFront
  split <;> rfl

@[simp] theorem activateFront_length (c : Coordinator) :
    c.activateFront.states.length = c.states.length := by
  unfold activateFront
  split
  · rfl
  · exact List.length_set

theorem start_good : ({} : Coordinator).Good := by
  constructor <;> simp

theorem Good.lt_length {c : Coordinator} (good : c.Good) {r : Nat} (queued : r ∈ c.requests) :
    r < c.states.length := by
  cases requests : c.requests with
  | nil =>
      rw [requests] at queued
      cases queued
  | cons front rest =>
      rw [requests] at queued
      cases List.mem_cons.mp queued with
      | inl first =>
          have status := (good.active r).mpr (by rw [requests, first]; rfl)
          exact (List.getElem?_eq_some_iff.mp status).1
      | inr later =>
          have status := (good.waiting r).mpr (by rwa [requests])
          exact (List.getElem?_eq_some_iff.mp status).1

/-! ### The status of each request after one of them has changed -/

theorem status_append (states : List RequestStatus) (status : RequestStatus) (r : Nat) :
    (states ++ [status])[r]? = if r = states.length then some status else states[r]? := by
  split_ifs with new
  · rw [new, List.getElem?_concat_length]
  · rcases Nat.lt_or_gt_of_ne new with before | behind
    · rw [List.getElem?_append_left before]
    · rw [List.getElem?_eq_none (Nat.le_of_lt behind), List.getElem?_eq_none]
      rw [List.length_append, List.length_singleton]
      exact behind

theorem status_set {states : List RequestStatus} {state : Nat} (known : state < states.length)
    (status : RequestStatus) (r : Nat) :
    (states.set state status)[r]? = if r = state then some status else states[r]? := by
  split_ifs with same
  · rw [same, List.getElem?_set_self known]
  · rw [List.getElem?_set_ne (Ne.symm same)]

theorem nodup_concat {requests : List Nat} {r : Nat} (once : requests.Nodup) (new : r ∉ requests) :
    (requests ++ [r]).Nodup :=
  List.nodup_append.mpr ⟨once, List.pairwise_singleton _ r, fun _ among _ only same =>
    new (List.mem_singleton.mp only ▸ same ▸ among)⟩

/-- The request that is completed is the one that is added to those that have left. -/
theorem completed_set {states : List RequestStatus} {removed : List Nat} {state : Nat}
    (completed : ∀ r, states[r]? = some .completed ↔ r ∈ removed) (known : state < states.length)
    (r : Nat) : (states.set state .completed)[r]? = some .completed ↔ r ∈ removed ++ [state] := by
  rw [status_set known, List.mem_append, List.mem_singleton]
  split_ifs with same
  · exact iff_of_true rfl (.inr same)
  · rw [completed r, or_iff_left same]

theorem enqueue_good {c : Coordinator} (good : c.Good) : c.enqueue.Good := by
  have below := fun r queued => good.lt_length (r := r) queued
  obtain ⟨sorted, active, waiting, completed, once, ordered, known, ahead, begun, passed, answers,
    answered⟩ := good
  have unknown : c.states.length ∉ c.removed := fun gone =>
    absurd (List.getElem?_eq_some_iff.mp ((completed _).mpr gone)).1 (Nat.lt_irrefl _)
  have longer : ∀ status : RequestStatus, (c.states ++ [status]).length = c.states.length + 1 :=
    fun status => List.length_append
  unfold enqueue
  cases requests : c.requests with
  | nil =>
      simp only [List.isEmpty_nil, if_true, List.nil_append]
      simp only [requests, List.head?_nil, List.tail_nil, reduceCtorEq, List.not_mem_nil, iff_false,
        or_false] at active waiting passed
      refine {
        sorted := List.pairwise_singleton _ _
        active := fun r => ?_
        waiting := fun r => ?_
        completed := fun r => ?_
        once
        ordered := ?_
        known := fun r among => ?_
        ahead := fun _ _ _ tail => absurd tail List.not_mem_nil
        begun := fun r head => ?_
        passed := fun r inside => ?_
        answers
        answered }
      · rw [status_append]
        split_ifs with new
        · exact iff_of_true rfl (congrArg some new.symm)
        · exact iff_of_false (active r) fun head => new (Option.some.inj head).symm
      · rw [status_append]
        refine iff_of_false ?_ List.not_mem_nil
        split_ifs with new
        · nofun
        · exact waiting r
      · rw [status_append]
        split_ifs with new
        · exact iff_of_false nofun (new ▸ unknown)
        · exact completed r
      · exact List.pairwise_append.mpr ⟨ordered, List.pairwise_singleton _ _,
          fun r among last only => List.mem_singleton.mp only ▸ known r among⟩
      · rw [longer]
        rcases List.mem_append.mp among with old | new
        · exact Nat.lt_succ_of_lt (known r old)
        · exact List.mem_singleton.mp new ▸ Nat.lt_succ_self _
      · exact List.mem_append_right _ (List.mem_singleton.mpr (Option.some.inj head).symm)
      · rw [longer] at inside
        rcases Nat.lt_succ_iff_lt_or_eq.mp inside with old | new
        · exact (passed r old).imp (List.mem_append_left _) .inl
        · exact .inl (List.mem_append_right _ (List.mem_singleton.mpr new))
  | cons front rest =>
      simp only [List.isEmpty_cons, Bool.false_eq_true, if_false, List.cons_append]
      rw [requests] at sorted below
      simp only [requests, List.head?_cons, List.tail_cons] at active waiting ahead begun passed
      refine {
        sorted := ?_
        active := fun r => ?_
        waiting := fun r => ?_
        completed := fun r => ?_
        once
        ordered
        known := fun r among => ?_
        ahead := fun r among w later => ?_
        begun
        passed := fun r inside => ?_
        answers
        answered }
      · exact List.pairwise_append.mpr ⟨sorted, List.pairwise_singleton _ _,
          fun r among last only => List.mem_singleton.mp only ▸ below r among⟩
      · rw [status_append]
        split_ifs with new
        · refine iff_of_false nofun fun head => ?_
          have first := below front List.mem_cons_self
          rw [Option.some.inj head, new] at first
          exact Nat.lt_irrefl _ first
        · exact active r
      · rw [status_append, List.tail_cons, List.mem_append, List.mem_singleton]
        split_ifs with new
        · exact iff_of_true rfl (.inr new)
        · rw [waiting r, or_iff_left new]
      · rw [status_append]
        split_ifs with new
        · exact iff_of_false nofun (new ▸ unknown)
        · exact completed r
      · rw [longer]
        exact Nat.lt_succ_of_lt (known r among)
      · rcases List.mem_append.mp later with old | new
        · exact ahead r among w old
        · exact List.mem_singleton.mp new ▸ known r among
      · rw [longer] at inside
        rcases Nat.lt_succ_iff_lt_or_eq.mp inside with old | new
        · exact (passed r old).imp_right (.imp_right (List.mem_append_left _))
        · exact .inr (.inr (List.mem_append_right _ (List.mem_singleton.mpr new)))

theorem front_good {c : Coordinator} (good : c.Good) {front : Nat} {rest answered : List Nat}
    (requests : c.requests = front :: rest)
    (answers : answered = c.answered ∨ answered = c.answered ++ [front]) :
    ({ c with
        states := c.states.set front .completed
        requests := rest
        removed := c.removed ++ [front]
        answered } : Coordinator).activateFront.Good := by
  have below := fun r queued => good.lt_length (r := r) queued
  obtain ⟨sorted, active, waiting, completed, once, ordered, known, ahead, begun, passed, fresh,
    past⟩ := good
  rw [requests] at sorted
  simp only [requests, List.head?_cons, List.tail_cons] at active waiting ahead begun passed below
  have inside : front < c.states.length := below front List.mem_cons_self
  have running : c.states[front]? = some .active := (active front).mpr rfl
  have staying : front ∉ c.removed := by
    rw [← completed, running]
    nofun
  have first : ∀ r ∈ rest, front < r := fun _ => List.rel_of_pairwise_cons sorted
  have gone := completed_set completed inside
  have answersOnce : answered.Nodup := by
    rcases answers with rfl | rfl
    · exact fresh
    · exact nodup_concat fresh fun again => staying (past front again)
  have answersGone : ∀ r ∈ answered, r ∈ c.removed ++ [front] := by
    intro r among
    rcases answers with rfl | rfl
    · exact List.mem_append_left _ (past r among)
    · exact (List.mem_append.mp among).elim (fun old => List.mem_append_left _ (past r old))
        (List.mem_append_right _)
  cases rest with
  | nil =>
      simp only [activateFront]
      refine {
        sorted := .nil
        active := fun r => ?_
        waiting := fun r => ?_
        completed := gone
        once := nodup_concat once staying
        ordered
        known := fun r among => ?_
        ahead := fun _ _ _ tail => absurd tail List.not_mem_nil
        begun := nofun
        passed := fun r known => ?_
        answers := answersOnce
        answered := answersGone }
      · rw [status_set inside]
        refine iff_of_false ?_ nofun
        split_ifs with same
        · nofun
        · exact fun runs => same (Option.some.inj ((active r).mp runs)).symm
      · rw [status_set inside]
        refine iff_of_false ?_ List.not_mem_nil
        split_ifs with same
        · nofun
        · exact fun waits => List.not_mem_nil ((waiting r).mp waits)
      · exact List.length_set.symm ▸ known r among
      · exact passed r (List.length_set ▸ known)
  | cons next more =>
      have sorted := sorted.of_cons
      have second : ∀ r ∈ more, next < r := fun _ => List.rel_of_pairwise_cons sorted
      have nextKnown : next < c.states.length := below next (.tail _ (.head _))
      have nextInside : next < (c.states.set front .completed).length :=
        List.length_set.symm ▸ nextKnown
      have apart : next ≠ front := Nat.ne_of_gt (first next (.head _))
      have waits : c.states[next]? = some .waiting := (waiting next).mpr (.head _)
      simp only [activateFront]
      refine {
        sorted
        active := fun r => ?_
        waiting := fun r => ?_
        completed := fun r => ?_
        once := nodup_concat once staying
        ordered := ?_
        known := fun r among => ?_
        ahead := fun r among w later => ?_
        begun := fun r head => ?_
        passed := fun r known => ?_
        answers := answersOnce
        answered := answersGone }
      · rw [status_set nextInside]
        split_ifs with here
        · exact iff_of_true rfl (congrArg some here.symm)
        · rw [status_set inside]
          refine iff_of_false ?_ fun head => here (Option.some.inj head).symm
          split_ifs with same
          · nofun
          · exact fun runs => same (Option.some.inj ((active r).mp runs)).symm
      · rw [status_set nextInside, List.tail_cons]
        split_ifs with here
        · exact iff_of_false nofun fun again => Nat.lt_irrefl r (second r again |> (here ▸ ·))
        · rw [status_set inside]
          split_ifs with same
          · refine iff_of_false nofun fun again => ?_
            exact Nat.lt_irrefl r (same ▸ first r (.tail _ again))
          · rw [waiting r, List.mem_cons, or_iff_right here]
      · rw [status_set nextInside]
        split_ifs with here
        · refine iff_of_false nofun fun left => ?_
          rcases List.mem_append.mp left with old | only
          · rw [← completed, here, waits] at old
            cases old
          · exact apart (here.symm.trans (List.mem_singleton.mp only))
        · exact gone r
      · exact List.pairwise_append.mpr ⟨ordered, List.pairwise_singleton _ _,
          fun r among last only => List.mem_singleton.mp only ▸ ahead r among next (.head _)⟩
      · rw [List.length_set, List.length_set]
        rcases List.mem_append.mp among with old | new
        · exact known r old
        · exact List.mem_singleton.mp new ▸ nextKnown
      · rcases List.mem_append.mp among with old | new
        · exact ahead r old w (.tail _ later)
        · exact List.mem_singleton.mp new ▸ second w later
      · exact List.mem_append_right _ (List.mem_singleton.mpr (Option.some.inj head).symm)
      · rw [List.length_set, List.length_set] at known
        rcases passed r known with begun | skipped | later
        · exact .inl (List.mem_append_left _ begun)
        · exact .inr (.inl skipped)
        · rcases List.mem_cons.mp later with here | behind
          · exact .inl (List.mem_append_right _ (List.mem_singleton.mpr here))
          · exact .inr (.inr behind)

theorem back_good {c : Coordinator} (good : c.Good) {front r : Nat} {rest : List Nat}
    (requests : c.requests = front :: rest) (later : r ∈ rest) :
    ({ c with
        states := c.states.set r .completed
        requests := front :: rest.erase r
        removed := c.removed ++ [r]
        skipped := c.skipped ++ [r] } : Coordinator).Good := by
  have below := fun r queued => good.lt_length (r := r) queued
  obtain ⟨sorted, active, waiting, completed, once, ordered, known, ahead, begun, passed, fresh,
    past⟩ := good
  rw [requests] at sorted
  simp only [requests, List.head?_cons, List.tail_cons] at active waiting ahead begun passed below
  have inside : r < c.states.length := below r (.tail _ later)
  have staying : r ∉ c.removed := by
    rw [← completed, (waiting r).mpr later]
    nofun
  have first : front < r := List.rel_of_pairwise_cons sorted later
  have apart : rest.Nodup := sorted.of_cons.imp Nat.ne_of_lt
  have others : ∀ w, w ∈ rest.erase r ↔ w ≠ r ∧ w ∈ rest := fun w => apart.mem_erase_iff
  refine {
    sorted := sorted.sublist (List.erase_sublist.cons_cons front)
    active := fun w => ?_
    waiting := fun w => ?_
    completed := completed_set completed inside
    once := nodup_concat once staying
    ordered
    known := fun w among => ?_
    ahead := fun w among x behind => ahead w among x ((others x).mp behind).2
    begun
    passed := fun w known => ?_
    answers := fresh
    answered := fun w among => List.mem_append_left _ (past w among) }
  · rw [status_set inside]
    split_ifs with same
    · exact iff_of_false nofun fun head =>
        Nat.ne_of_lt first ((Option.some.inj head).trans same)
    · exact active w
  · rw [status_set inside, List.tail_cons, others w]
    split_ifs with same
    · exact iff_of_false nofun fun still => still.1 same
    · rw [waiting w, and_iff_right same]
  · exact List.length_set.symm ▸ known w among
  · rcases passed w (List.length_set ▸ known) with begun | skipped | behind
    · exact .inl begun
    · exact .inr (.inl (List.mem_append_left _ skipped))
    · by_cases same : w = r
      · exact .inr (.inl (List.mem_append_right _ (List.mem_singleton.mpr same)))
      · exact .inr (.inr ((others w).mpr ⟨same, behind⟩))

theorem complete_good {c : Coordinator} (good : c.Good) (state : Nat) :
    (c.complete state).2.Good := by
  unfold complete
  split_ifs with refused
  · exact good
  · simp only [Bool.or_eq_true, decide_eq_true_eq, not_or, not_not] at refused
    obtain ⟨rest, requests⟩ : ∃ rest, c.requests = state :: rest :=
      ⟨c.requests.tail, List.eq_cons_of_mem_head? refused.2⟩
    rw [requests, List.tail_cons]
    exact front_good good requests (.inr rfl)

theorem complete_true {c : Coordinator} {state : Nat} (answer : (c.complete state).1 = true) :
    c.states[state]? = some .active ∧ c.requests.head? = some state ∧
      (c.complete state).2.answered = c.answered ++ [state] := by
  unfold complete at answer ⊢
  split_ifs at answer ⊢ with refused
  simp only [Bool.or_eq_true, decide_eq_true_eq, not_or, not_not] at refused
  exact ⟨refused.1.1, refused.2, activateFront_answered _⟩

/-- The front request can be completed, and the one behind it is the next to be active. -/
theorem complete_front {c : Coordinator} (good : c.Good) {state : Nat} {rest : List Nat}
    (requests : c.requests = state :: rest) :
    (c.complete state).1 = true ∧ (c.complete state).2.requests = rest ∧
      ∀ next, rest.head? = some next →
        (c.complete state).2.states[next]? = some .active := by
  have running : c.states[state]? = some .active := (good.active state).mpr (by rw [requests]; rfl)
  have completes : (c.complete state).1 = true ∧ (c.complete state).2.requests = rest := by
    unfold complete
    rw [if_neg (by simp [running, requests])]
    refine ⟨rfl, ?_⟩
    rw [activateFront_requests, requests, List.tail_cons]
  refine ⟨completes.1, completes.2, fun next head => ?_⟩
  rw [(complete_good good state).active, completes.2]
  exact head

theorem Good.queued {c : Coordinator} (good : c.Good) {state : Nat}
    (known : state < c.states.length) (undone : c.states[state]? ≠ some .completed) :
    c.states[state]? = some .active ∧ (∃ rest, c.requests = state :: rest) ∨
      c.states[state]? = some .waiting ∧ ∃ front rest, c.requests = front :: rest ∧ state ∈ rest := by
  cases status : c.states[state]? with
  | none => exact absurd known (Nat.not_lt.mpr (List.getElem?_eq_none_iff.mp status))
  | some status' =>
      cases status' with
      | active =>
          have front := (good.active state).mp status
          exact .inl ⟨rfl, c.requests.tail, List.eq_cons_of_mem_head? front⟩
      | waiting =>
          have later := (good.waiting state).mp status
          cases requests : c.requests with
          | nil =>
              rw [requests] at later
              cases later
          | cons front rest =>
              rw [requests] at later
              exact .inr ⟨rfl, front, rest, rfl, later⟩
      | completed => exact absurd status undone

theorem cancel_front {c : Coordinator} {state : Nat} {rest : List Nat}
    (active : c.states[state]? = some .active) (requests : c.requests = state :: rest) :
    c.cancel state = ({ c with
      states := c.states.set state .completed
      requests := rest
      removed := c.removed ++ [state] } : Coordinator).activateFront := by
  cases rest <;> simp [cancel, active, requests, activateFront]

theorem cancel_back {c : Coordinator} {front state : Nat} {rest : List Nat}
    (waiting : c.states[state]? = some .waiting) (requests : c.requests = front :: rest)
    (apart : front ≠ state) (later : state ∈ rest) :
    c.cancel state = { c with
      states := c.states.set state .completed
      requests := front :: rest.erase state
      removed := c.removed ++ [state]
      skipped := c.skipped ++ [state] } := by
  simp [cancel, waiting, requests, apart, later]

theorem cancel_good {c : Coordinator} (good : c.Good) {state : Nat}
    (known : state < c.states.length) : (c.cancel state).Good := by
  by_cases done : c.states[state]? = some .completed
  · rwa [cancel, if_pos done]
  · obtain ⟨active, rest, requests⟩ | ⟨waiting, front, rest, requests, later⟩ :=
      good.queued known done
    · rw [cancel_front active requests]
      exact front_good good requests (.inl rfl)
    · have before : front < state := by
        have sorted := good.sorted
        rw [requests] at sorted
        exact List.rel_of_pairwise_cons sorted later
      rw [cancel_back waiting requests (Nat.ne_of_lt before) later]
      exact back_good good requests later

/-- What a call on the request `state` may do to the queue: it may take that request out. -/
structure Ends (state : Nat) (c c' : Coordinator) : Prop where
  length : c'.states.length = c.states.length
  requests : ∀ r ∈ c'.requests, r ∈ c.requests
  others : ∀ r ∈ c.requests, r ≠ state → r ∈ c'.requests
  removed : ∀ r ∈ c.removed, r ∈ c'.removed

theorem Ends.refl (state : Nat) (c : Coordinator) : c.Ends state c :=
  ⟨rfl, fun _ queued => queued, fun _ queued _ => queued, fun _ gone => gone⟩

theorem Ends.activateFront {state : Nat} {c c' : Coordinator} (ends : c.Ends state c') :
    c.Ends state c'.activateFront where
  length := (activateFront_length c').trans ends.length
  requests r queued := ends.requests r (activateFront_requests c' ▸ queued)
  others r queued other := (activateFront_requests c').symm ▸ ends.others r queued other
  removed r gone := (activateFront_removed c').symm ▸ ends.removed r gone

theorem complete_ends (state : Nat) (c : Coordinator) : c.Ends state (c.complete state).2 := by
  unfold complete
  split_ifs with refused
  · exact .refl state c
  · simp only [Bool.or_eq_true, decide_eq_true_eq, not_or, not_not] at refused
    have requests := List.eq_cons_of_mem_head? refused.2
    refine Ends.activateFront ⟨List.length_set, fun r => List.mem_of_mem_tail, ?_, ?_⟩
    · intro r queued other
      rw [requests] at queued
      exact (List.mem_cons.mp queued).resolve_left other
    · exact fun r gone => List.mem_append_left _ gone

theorem cancel_ends (state : Nat) (c : Coordinator) : c.Ends state (c.cancel state) := by
  by_cases done : c.states[state]? = some .completed
  · rw [cancel, if_pos done]
    exact .refl state c
  · have erased : ∀ removed skipped : List Nat, (∀ r ∈ c.removed, r ∈ removed) → c.Ends state
        { c with
          states := c.states.set state .completed
          requests := c.requests.erase state
          removed
          skipped } := fun removed skipped keeps =>
      ⟨List.length_set, fun r => List.mem_of_mem_erase, fun r queued other =>
        (List.mem_erase_of_ne other).mpr queued, keeps⟩
    have keeps : ∀ r ∈ c.removed,
        r ∈ if c.requests.contains state then c.removed ++ [state] else c.removed := by
      intro r gone
      split
      · exact List.mem_append_left _ gone
      · exact gone
    rw [cancel, if_neg done]
    dsimp only
    split
    · exact (erased _ _ keeps).activateFront
    · exact erased _ _ keeps

theorem Good.outside {c : Coordinator} (good : c.Good) {r : Nat} (known : r < c.states.length) :
    c.states[r]? = some .completed ↔ r ∉ c.requests := by
  constructor
  · intro done queued
    have := good.active r
    have := good.waiting r
    cases requests : c.requests <;> grind
  · intro outside
    by_contra undone
    obtain ⟨-, rest, requests⟩ | ⟨-, front, rest, requests, later⟩ := good.queued known undone
    · exact outside (by rw [requests]; exact .head _)
    · exact outside (by rw [requests]; exact .tail _ later)

/-- A request that has been cancelled is not in the queue. -/
theorem cancel_outside {c : Coordinator} (good : c.Good) {state : Nat}
    (known : state < c.states.length) : state ∉ (c.cancel state).requests := by
  by_cases done : c.states[state]? = some .completed
  · rw [cancel, if_pos done]
    exact (good.outside known).mp done
  · have sorted := good.sorted
    obtain ⟨active, rest, requests⟩ | ⟨waiting, front, rest, requests, later⟩ :=
      good.queued known done
    · rw [requests] at sorted
      rw [cancel_front active requests, activateFront_requests]
      exact fun again => Nat.lt_irrefl state (List.rel_of_pairwise_cons sorted again)
    · rw [requests] at sorted
      have before : front < state := List.rel_of_pairwise_cons sorted later
      have apart : rest.Nodup := sorted.of_cons.imp Nat.ne_of_lt
      rw [cancel_back waiting requests (Nat.ne_of_lt before) later, List.mem_cons,
        apart.mem_erase_iff]
      omega

end Coordinator

namespace ModalRequestQueue

structure Good (q : ModalRequestQueue) : Prop where
  coordinator : q.coordinator.Good
  known : ∀ handle state, q.stateOf handle = some state → state < q.coordinator.states.length
  owner : ∀ handle other state, q.stateOf handle = some state → q.stateOf other = some state →
    handle = other
  held : ∀ r ∈ q.coordinator.requests, ∃ handle, q.stateOf handle = some r

theorem start_good : ({} : ModalRequestQueue).Good where
  coordinator := Coordinator.start_good
  known _ _ held := (nomatch held)
  owner _ _ _ held := (nomatch held)
  held _ queued := (nomatch queued)

theorem stateOf_set {handles : List RequestHandle} {coordinator : Coordinator} {handle : Nat}
    (inside : handle < handles.length) (new : RequestHandle) (other : Nat) :
    stateOf other { coordinator, handles := handles.set handle new } =
      if other = handle then if new.destroyed then none else new.state
      else stateOf other { coordinator, handles } := by
  unfold stateOf
  split_ifs with here destroyed
  · subst here
    simp [inside, destroyed]
  · subst here
    simp [inside, destroyed]
  · simp [List.getElem?_set_ne (Ne.symm here)]

theorem stateOf_append (handles : List RequestHandle) (coordinator : Coordinator)
    (new : RequestHandle) (other : Nat) :
    stateOf other { coordinator, handles := handles ++ [new] } =
      if other = handles.length then if new.destroyed then none else new.state
      else stateOf other { coordinator, handles } := by
  unfold stateOf
  split_ifs with here destroyed
  · subst here
    simp [destroyed]
  · subst here
    simp [destroyed]
  · by_cases old : other < handles.length
    · simp [List.getElem?_append_left old]
    · rw [List.getElem?_eq_none (by simp; omega), List.getElem?_eq_none (by simpa using old)]

theorem inside_of_stateOf {q : ModalRequestQueue} {handle state : Nat}
    (held : q.stateOf handle = some state) : handle < q.handles.length := by
  obtain ⟨it, found, -⟩ := Option.bind_eq_some_iff.mp held
  exact (List.getElem?_eq_some_iff.mp found).1

theorem inside_of_alive {q : ModalRequestQueue} {handle : Nat} (alive : q.alive handle = true) :
    handle < q.handles.length := by
  by_contra outside
  simp [ModalRequestQueue.alive, List.getElem?_eq_none (Nat.not_lt.mp outside)] at alive

theorem stateOf_end {q : ModalRequestQueue} : q.stateOf q.handles.length = none := by
  simp [stateOf]

@[simp] theorem cancel_length (handle : Nat) (q : ModalRequestQueue) :
    (q.cancel handle).handles.length = q.handles.length := by
  unfold cancel
  split
  · rfl
  · exact List.length_set

theorem stateOf_cancel (handle other : Nat) (q : ModalRequestQueue) :
    (q.cancel handle).stateOf other = if other = handle then none else q.stateOf other := by
  cases held : q.stateOf handle with
  | none =>
      simp only [cancel, held]
      split_ifs with here
      · rwa [here]
      · rfl
  | some state =>
      simp only [cancel, held]
      rw [stateOf_set (inside_of_stateOf held)]
      split_ifs <;> rfl

theorem enqueue_good {q : ModalRequestQueue} (good : q.Good) : q.enqueue.Good := by
  have length : q.coordinator.enqueue.states.length = q.coordinator.states.length + 1 := by
    unfold Coordinator.enqueue
    split <;> simp
  have requests : q.coordinator.enqueue.requests =
      q.coordinator.requests ++ [q.coordinator.states.length] := by
    unfold Coordinator.enqueue
    split <;> rfl
  have at' : ∀ other, q.enqueue.stateOf other =
      if other = q.handles.length then some q.coordinator.states.length else q.stateOf other :=
    fun other => stateOf_append ..
  refine ⟨Coordinator.enqueue_good good.coordinator, ?_, ?_, ?_⟩
  · intro handle state held
    have known := good.known handle state
    rw [at'] at held
    rw [show q.enqueue.coordinator = q.coordinator.enqueue from rfl, length]
    split_ifs at held
    · cases held
      omega
    · exact Nat.lt_succ_of_lt (known held)
  · intro handle other state held there
    rw [at'] at held there
    split_ifs at held there with new new' new'
    · rw [new, new']
    · cases held
      exact absurd (good.known other _ there) (Nat.lt_irrefl _)
    · cases there
      exact absurd (good.known handle _ held) (Nat.lt_irrefl _)
    · exact good.owner handle other state held there
  · intro r queued
    rw [show q.enqueue.coordinator = q.coordinator.enqueue from rfl, requests] at queued
    cases List.mem_append.mp queued with
    | inr last =>
        refine ⟨q.handles.length, ?_⟩
        rw [at', if_pos rfl, List.mem_singleton.mp last]
    | inl old =>
        obtain ⟨handle, held⟩ := good.held r old
        refine ⟨handle, ?_⟩
        rwa [at', if_neg (Nat.ne_of_lt (inside_of_stateOf held))]

theorem complete_good {q : ModalRequestQueue} (good : q.Good) (handle : Nat) :
    (q.complete handle).2.Good := by
  cases held : q.stateOf handle with
  | none => simpa only [complete, held] using good
  | some state =>
      have ends := Coordinator.complete_ends state q.coordinator
      simp only [complete, held]
      refine ⟨Coordinator.complete_good good.coordinator state, ?_, good.owner, ?_⟩
      · intro other r there
        exact ends.length.symm ▸ good.known other r there
      · exact fun r queued => good.held r (ends.requests r queued)

theorem cancel_good {q : ModalRequestQueue} (good : q.Good) (handle : Nat) :
    (q.cancel handle).Good := by
  have at' := fun other => stateOf_cancel handle other q
  cases held : q.stateOf handle with
  | none => simpa only [cancel, held] using good
  | some state =>
      have known := good.known handle state held
      have ends := Coordinator.cancel_ends state q.coordinator
      have outside := Coordinator.cancel_outside good.coordinator known
      have same : (q.cancel handle).coordinator = q.coordinator.cancel state := by
        simp only [cancel, held]
      refine ⟨?_, ?_, ?_, ?_⟩
      · rw [same]
        exact Coordinator.cancel_good good.coordinator known
      · intro other r there
        rw [at'] at there
        split_ifs at there
        rw [same, ends.length]
        exact good.known other r there
      · intro other another r there too
        rw [at'] at there too
        split_ifs at there too
        exact good.owner other another r there too
      · intro r queued
        rw [same] at queued
        obtain ⟨other, there⟩ := good.held r (ends.requests r queued)
        refine ⟨other, ?_⟩
        rw [at', if_neg, there]
        rintro rfl
        cases held.symm.trans there
        exact outside queued

theorem transfer_good {q q' : ModalRequestQueue} (good : q.Good)
    (same : q'.coordinator = q.coordinator) {handle other : Nat} (empty : q.stateOf handle = none)
    (at' : ∀ x, q'.stateOf x = if x = other then none else
      if x = handle then q.stateOf other else q.stateOf x) (apart : handle ≠ other) : q'.Good := by
  have giver : ∀ x r, q'.stateOf x = some r →
      q.stateOf (if x = handle then other else x) = some r := by
    intro x r there
    rw [at'] at there
    split_ifs at there with gone taken
    · rwa [if_pos taken]
    · rwa [if_neg taken]
  refine ⟨same ▸ good.coordinator, ?_, ?_, ?_⟩
  · intro x r there
    rw [same]
    exact good.known _ r (giver x r there)
  · intro x y r there too
    have equal := good.owner _ _ r (giver x r there) (giver y r too)
    have left : x ≠ other := by
      rintro rfl
      simp [at'] at there
    have right : y ≠ other := by
      rintro rfl
      simp [at'] at too
    split_ifs at equal with first second second
    · rw [first, second]
    · exact absurd equal.symm right
    · exact absurd equal left
    · exact equal
  · intro r queued
    obtain ⟨x, there⟩ := good.held r (same ▸ queued)
    by_cases mine : x = other
    · refine ⟨handle, ?_⟩
      rw [at', if_neg apart, if_pos rfl, ← mine, there]
    · refine ⟨x, ?_⟩
      rw [at', if_neg mine, if_neg, there]
      rintro rfl
      cases empty.symm.trans there

theorem destroy_good {q : ModalRequestQueue} (good : q.Good) (handle : Nat) :
    (q.destroy handle).Good := by
  unfold destroy
  split_ifs with alive
  · have cancelled := cancel_good good handle
    have same : ∀ other, stateOf other { q.cancel handle with
        handles := (q.cancel handle).handles.set handle { state := none, destroyed := true } } =
          (q.cancel handle).stateOf other := by
      intro other
      rw [stateOf_set (by rw [cancel_length]; exact inside_of_alive alive)]
      simp only [reduceIte]
      split_ifs with here
      · rw [here, stateOf_cancel, if_pos rfl]
      · rfl
    refine ⟨cancelled.coordinator, ?_, ?_, ?_⟩
    · intro other r there
      exact cancelled.known other r (same other ▸ there)
    · intro other another r there too
      exact cancelled.owner other another r (same other ▸ there) (same another ▸ too)
    · intro r queued
      obtain ⟨other, there⟩ := cancelled.held r queued
      exact ⟨other, (same other).trans there⟩
  · exact good

theorem stateOf_moveConstruct {q : ModalRequestQueue} {other : Nat}
    (alive : q.alive other = true) (x : Nat) :
    (q.moveConstruct other).stateOf x = if x = other then none else
      if x = q.handles.length then q.stateOf other else q.stateOf x := by
  have inside := inside_of_alive alive
  rw [moveConstruct, if_pos alive]
  dsimp only
  rw [stateOf_append, stateOf_set inside, List.length_set]
  simp only [Bool.false_eq_true, reduceIte]
  split_ifs with new here here
  · omega
  · rfl
  · rfl
  · rfl

theorem stateOf_moveAssign {q : ModalRequestQueue} {handle other : Nat}
    (alive : q.alive handle = true) (alive' : q.alive other = true) (apart : handle ≠ other)
    (x : Nat) : (q.moveAssign handle other).stateOf x = if x = other then none else
      if x = handle then (q.cancel handle).stateOf other else (q.cancel handle).stateOf x := by
  have inside := inside_of_alive alive
  have inside' := inside_of_alive alive'
  rw [moveAssign, if_pos (by rw [alive, alive', Bool.and_self]), if_neg apart]
  dsimp only
  rw [stateOf_set (by simpa using inside'), stateOf_set (by simpa using inside)]
  simp only [Bool.false_eq_true, reduceIte]

theorem moveConstruct_good {q : ModalRequestQueue} (good : q.Good) (other : Nat) :
    (q.moveConstruct other).Good := by
  cases alive : q.alive other with
  | false => simpa [moveConstruct, alive] using good
  | true =>
      have inside := inside_of_alive alive
      refine transfer_good good ?_ stateOf_end (stateOf_moveConstruct alive) (Nat.ne_of_gt inside)
      simp [moveConstruct, alive]

theorem moveAssign_good {q : ModalRequestQueue} (good : q.Good) (handle other : Nat) :
    (q.moveAssign handle other).Good := by
  by_cases alive : q.alive handle = true ∧ q.alive other = true
  · by_cases apart : handle = other
    · simpa [moveAssign, alive, apart] using good
    · refine transfer_good (cancel_good good handle) ?_ ?_
        (stateOf_moveAssign alive.1 alive.2 apart) apart
      · simp [moveAssign, alive, apart]
      · rw [stateOf_cancel, if_pos rfl]
  · have dead : ¬((q.alive handle && q.alive other) = true) := by simpa using alive
    rwa [moveAssign, if_neg dead]

theorem step_good (event : ModalEvent) (q : ModalRequestQueue) (good : q.Good) :
    (step event q).Good := by
  cases event with
  | enqueue => exact enqueue_good good
  | complete handle => exact complete_good good handle
  | cancel handle => exact cancel_good good handle
  | destroy handle => exact destroy_good good handle
  | moveConstruct other => exact moveConstruct_good good other
  | moveAssign handle other => exact moveAssign_good good handle other

/-- The handle whose request an event may take out of the queue. -/
def ender : ModalEvent → Option Nat
  | .complete handle | .cancel handle | .destroy handle | .moveAssign handle _ => some handle
  | .enqueue | .moveConstruct _ => none

/-- The handle that an event moves from. -/
def giver (q : ModalRequestQueue) : ModalEvent → Option Nat
  | .moveConstruct other => if q.alive other then some other else none
  | .moveAssign handle other =>
      if q.alive handle && q.alive other && handle ≠ other then some other else none
  | _ => none

theorem cancel_ends (handle : Nat) (q : ModalRequestQueue) :
    (q.cancel handle).coordinator = q.coordinator ∨ ∃ state, q.stateOf handle = some state ∧
      q.coordinator.Ends state (q.cancel handle).coordinator := by
  cases held : q.stateOf handle with
  | none =>
      left
      simp only [cancel, held]
  | some state =>
      right
      simp only [cancel, held]
      exact ⟨state, rfl, Coordinator.cancel_ends state q.coordinator⟩

theorem step_ends {event : ModalEvent} (q : ModalRequestQueue) (other : event ≠ .enqueue) :
    (step event q).coordinator = q.coordinator ∨ ∃ handle state, ender event = some handle ∧
      q.stateOf handle = some state ∧ q.coordinator.Ends state (step event q).coordinator := by
  cases event with
  | enqueue => exact absurd rfl other
  | complete handle =>
      cases held : q.stateOf handle with
      | none =>
          left
          simp only [step, complete, held]
      | some state =>
          right
          simp only [step, complete, held]
          exact ⟨handle, state, rfl, held, Coordinator.complete_ends state q.coordinator⟩
  | cancel handle =>
      exact (cancel_ends handle q).imp_right fun ⟨state, ends⟩ => ⟨handle, state, rfl, ends⟩
  | destroy handle =>
      simp only [step, destroy]
      split
      · exact (cancel_ends handle q).imp_right fun ⟨state, ends⟩ => ⟨handle, state, rfl, ends⟩
      · exact .inl rfl
  | moveConstruct other =>
      left
      simp only [step, moveConstruct]
      split <;> rfl
  | moveAssign handle other =>
      simp only [step, moveAssign]
      split
      · split
        · exact .inl rfl
        · exact (cancel_ends handle q).imp_right fun ⟨state, ends⟩ => ⟨handle, state, rfl, ends⟩
      · exact .inl rfl

theorem enqueue_frame (c : Coordinator) :
    c.enqueue.removed = c.removed ∧ c.enqueue.requests = c.requests ++ [c.states.length] := by
  unfold Coordinator.enqueue
  split <;> exact ⟨rfl, rfl⟩

theorem step_removed {r : Nat} (event : ModalEvent) (q : ModalRequestQueue)
    (gone : r ∈ q.coordinator.removed) : r ∈ (step event q).coordinator.removed := by
  by_cases fresh : event = .enqueue
  · subst fresh
    exact (enqueue_frame q.coordinator).1.symm ▸ gone
  · obtain same | ⟨_, _, -, -, ends⟩ := step_ends q fresh
    · rwa [same]
    · exact ends.removed r gone

theorem step_takes {r : Nat} {event : ModalEvent} {q : ModalRequestQueue}
    (queued : r ∈ q.coordinator.requests) (out : r ∉ (step event q).coordinator.requests) :
    ∃ handle, ender event = some handle ∧ q.stateOf handle = some r := by
  by_cases fresh : event = .enqueue
  · subst fresh
    exact absurd ((enqueue_frame q.coordinator).2 ▸ List.mem_append_left _ queued) out
  · obtain same | ⟨handle, state, by', held, ends⟩ := step_ends q fresh
    · rw [same] at out
      exact absurd queued out
    · refine ⟨handle, by', ?_⟩
      by_cases mine : r = state
      · rwa [mine]
      · exact absurd (ends.others r queued mine) out

/-- A handle that is there and holds nothing. -/
def Empty (handle : Nat) (q : ModalRequestQueue) : Prop :=
  handle < q.handles.length ∧ q.stateOf handle = none

theorem giver_empty {event : ModalEvent} {q : ModalRequestQueue} {other : Nat}
    (gives : q.giver event = some other) : (step event q).Empty other := by
  cases event with
  | enqueue => cases gives
  | complete => cases gives
  | cancel => cases gives
  | destroy => cases gives
  | moveConstruct from' =>
      simp only [giver] at gives
      split_ifs at gives with alive
      cases gives
      refine ⟨?_, ?_⟩
      · have inside := inside_of_alive alive
        simp only [step, moveConstruct, alive, if_true, List.length_append, List.length_set]
        omega
      · rw [step, stateOf_moveConstruct alive, if_pos rfl]
  | moveAssign handle from' =>
      simp only [giver, Bool.and_eq_true, decide_eq_true_eq] at gives
      split_ifs at gives with alive
      cases gives
      obtain ⟨⟨alive, alive'⟩, apart⟩ := alive
      refine ⟨?_, ?_⟩
      · simpa [step, moveAssign, alive, alive', apart] using inside_of_alive alive'
      · rw [step, stateOf_moveAssign alive alive' apart, if_pos rfl]

/-- It holds nothing until something is assigned to it. -/
theorem step_empty {handle : Nat} (event : ModalEvent) (q : ModalRequestQueue)
    (unassigned : ∀ other, event ≠ .moveAssign handle other) (empty : q.Empty handle) :
    (step event q).Empty handle := by
  obtain ⟨inside, none'⟩ := empty
  have cancelled : ∀ other, (q.cancel other).Empty handle := by
    intro other
    refine ⟨by rwa [cancel_length], ?_⟩
    rw [stateOf_cancel, none', ite_self]
  cases event with
  | enqueue =>
      refine ⟨?_, ?_⟩
      · simp only [step, enqueue, List.length_append]
        omega
      · rw [step, show q.enqueue.stateOf handle = _ from stateOf_append ..,
          if_neg (Nat.ne_of_lt inside)]
        exact none'
  | complete other =>
      cases held : q.stateOf other with
      | none =>
          simp only [step, complete, held]
          exact ⟨inside, none'⟩
      | some state =>
          simp only [step, complete, held]
          exact ⟨inside, none'⟩
  | cancel other => exact cancelled other
  | destroy other =>
      simp only [step, destroy]
      split
      next alive =>
        refine ⟨by simpa using inside, ?_⟩
        rw [stateOf_set (by rw [cancel_length]; exact inside_of_alive alive)]
        simp only [reduceIte]
        split
        · rfl
        · exact (cancelled other).2
      next => exact ⟨inside, none'⟩
  | moveConstruct other =>
      cases alive : q.alive other with
      | false =>
          simp only [step, moveConstruct, alive, Bool.false_eq_true, if_false]
          exact ⟨inside, none'⟩
      | true =>
          refine ⟨?_, ?_⟩
          · simp only [step, moveConstruct, alive, if_true, List.length_append, List.length_set]
            omega
          · rw [step, stateOf_moveConstruct alive, if_neg (Nat.ne_of_lt inside), none', ite_self]
  | moveAssign target other =>
      have apart : target ≠ handle := by
        rintro rfl
        exact unassigned other rfl
      by_cases alive : q.alive target = true ∧ q.alive other = true
      · by_cases same : target = other
        · simp only [step, moveAssign, alive, same, Bool.and_self, if_true]
          exact ⟨inside, none'⟩
        · refine ⟨?_, ?_⟩
          · simpa [step, moveAssign, alive, same] using inside
          · rw [step, stateOf_moveAssign alive.1 alive.2 same, if_neg (Ne.symm apart),
              (cancelled target).2, ite_self]
      · have dead : ¬((q.alive target && q.alive other) = true) := by simpa using alive
        rw [step, moveAssign, if_neg dead]
        exact ⟨inside, none'⟩

/-- What the users of a queue may rely on. -/
structure Serial (q : ModalRequestQueue) : Prop where
  front : ∀ r, q.coordinator.states[r]? = some .active ↔ q.coordinator.requests.head? = some r
  waiting : ∀ r, q.coordinator.states[r]? = some .waiting ↔ r ∈ q.coordinator.requests.tail
  completed : ∀ r, q.coordinator.states[r]? = some .completed → ∀ events,
    (execute step events q).coordinator.states[r]? = some .completed ∧
      r ∉ (execute step events q).coordinator.requests
  begun : ∀ r, q.coordinator.states[r]? = some .active → r ∈ q.coordinator.activated
  /-- A request that is not in the queue any more has left it once. -/
  left : ∀ r < q.coordinator.states.length,
    q.coordinator.removed.count r = if r ∈ q.coordinator.requests then 0 else 1
  held : ∀ r ∈ q.coordinator.requests, ∃ handle, q.stateOf handle = some r
  order : q.coordinator.activated.Pairwise (· < ·) ∧
    ∀ r ∈ q.coordinator.activated, ∀ earlier < r,
      earlier ∈ q.coordinator.activated ∨ earlier ∈ q.coordinator.skipped
  answered : q.coordinator.answered.Nodup
  complete : ∀ handle, (q.complete handle).1 = true → ∃ r, q.stateOf handle = some r ∧
    q.coordinator.requests.head? = some r ∧
    (q.complete handle).2.coordinator.answered = q.coordinator.answered ++ [r]
  completes : ∀ handle r rest, q.stateOf handle = some r → q.coordinator.requests = r :: rest →
    (q.complete handle).1 = true ∧ (q.complete handle).2.coordinator.requests = rest ∧
      ∀ next, rest.head? = some next →
        (q.complete handle).2.coordinator.states[next]? = some .active
  takes : ∀ event, ∀ r ∈ q.coordinator.requests, r ∉ (step event q).coordinator.requests →
    ∃ handle, ender event = some handle ∧ q.stateOf handle = some r
  /-- A handle that was moved from holds nothing until something is assigned to it. -/
  moved : ∀ event other, q.giver event = some other → ∀ events,
    (∀ from', .moveAssign other from' ∉ events) →
      (execute step (event :: events) q).stateOf other = none

theorem Good.serial {q : ModalRequestQueue} (good : q.Good) : q.Serial where
  front := good.coordinator.active
  waiting := good.coordinator.waiting
  completed r done events := by
    have gone := execute_invariant (fun q => q.Good ∧ r ∈ q.coordinator.removed)
      (fun event q both => ⟨step_good event q both.1, step_removed event q both.2⟩) events
      ⟨good, (good.coordinator.completed r).mp done⟩
    have still := (gone.1.coordinator.completed r).mpr gone.2
    have known := (List.getElem?_eq_some_iff.mp still).1
    exact ⟨still, (gone.1.coordinator.outside known).mp still⟩
  left r known := by
    have outside := good.coordinator.outside known
    rw [good.coordinator.completed r] at outside
    rw [good.coordinator.once.count]
    split_ifs with gone queued queued
    · exact absurd queued (outside.mp gone)
    · rfl
    · rfl
    · exact absurd (outside.mpr queued) gone
  begun r active := good.coordinator.begun r ((good.coordinator.active r).mp active)
  held := good.held
  order := by
    refine ⟨good.coordinator.ordered, fun r begun earlier before => ?_⟩
    have known := Nat.lt_trans before (good.coordinator.known r begun)
    obtain active | skipped | later := good.coordinator.passed earlier known
    · exact .inl active
    · exact .inr skipped
    · exact absurd before (Nat.lt_asymm (good.coordinator.ahead r begun earlier later))
  answered := good.coordinator.answers
  complete handle answer := by
    cases held : q.stateOf handle with
    | none => simp [ModalRequestQueue.complete, held] at answer
    | some r =>
        simp only [ModalRequestQueue.complete, held] at answer ⊢
        obtain ⟨-, front, answered⟩ := Coordinator.complete_true answer
        exact ⟨r, rfl, front, answered⟩
  completes handle r rest held requests := by
    simp only [ModalRequestQueue.complete, held]
    exact Coordinator.complete_front good.coordinator requests
  takes _ _ := step_takes
  moved event other gives events unassigned := by
    have quiet : ∀ event ∈ events, ∀ from', event ≠ .moveAssign other from' := by
      rintro event inside from' rfl
      exact unassigned from' inside
    have empty : (execute step events (step event q)).Empty other :=
      Along.execute (Empty other) (fun event q empty quiet => step_empty event q quiet empty)
        (giver_empty gives) (along_of_mem events (step event q) quiet)
    exact empty.2

/-- Whatever is done to the requests of a queue, in whatever order, they are served one at a time
and first come, first served. -/
theorem modalRequests_serial (events : List ModalEvent) :
    (execute step events ({} : ModalRequestQueue)).Serial :=
  (execute_invariant Good step_good events start_good).serial

end ModalRequestQueue

end H5GG

import H5GG.GlobalView.ImageTransfer
import H5GG.Library.Table
import Mathlib.Data.List.Forall2

/-!
# The image slot is a channel of one place
-/

namespace H5GG

namespace PublishCall

def Accepted (call : PublishCall) (bytes : List UInt8) : Prop :=
  call.payload = some bytes ∧ 0 < bytes.length ∧ bytes.length ≤ GV_IMAGE_MAX_PAYLOAD

/-- From its compare-and-swap to its last store the slot is this call's. -/
def writes (call : PublishCall) : Bool :=
  match call.point with
  | .copying _ | .sized => true
  | _ => false

/-- What the owner of the slot has put there so far. -/
def Holds (call : PublishCall) (transfer : GVImageTransfer) (bytes : List UInt8) : Prop :=
  match call.point with
  | .copying copied => transfer.payload.take copied = bytes.take copied
  | .sized => transfer.payloadSize = bytes.length ∧ transfer.payload.take bytes.length = bytes
  | _ => False

end PublishCall

namespace ConsumePoint

def active : ConsumePoint → Bool
  | .waiting | .entered .. => false
  | _ => true

end ConsumePoint

/-- What a consumed slot becomes of the bytes published in it. -/
def Consumed.Of (bytes : List UInt8) : Consumed → Prop
  | .empty => False
  | .delivered output => output = bytes
  | .discarded outputCapacity => outputCapacity < bytes.length

/-- What the consumer knows of the bytes in a slot that is ready. -/
def ConsumePoint.Holds (transfer : GVImageTransfer) (bytes : List UInt8) : ConsumePoint → Prop
  | .waiting | .entered .. | .loaded _ => transfer.payloadSize = bytes.length
  | .copying payloadSize output =>
      transfer.payloadSize = bytes.length ∧ payloadSize = bytes.length ∧
        output = bytes.take output.length
  | .rejecting outputCapacity =>
      transfer.payloadSize = bytes.length ∧ outputCapacity < bytes.length
  | .releasing result => result.Of bytes

namespace ImageSystem

def bytesOf (s : ImageSystem) (index : Nat) : Option (List UInt8) :=
  s.publishes[index]?.bind (·.payload)

/-- The outcomes of the calls that have emptied the slot. -/
def taken (s : ImageSystem) : List Consumed := s.returns.filter (· ≠ .empty)

/-- The call's bytes are what the consumer took. -/
def Took (s : ImageSystem) (index : Nat) (result : Consumed) : Prop :=
  ∃ bytes, s.bytesOf index = some bytes ∧ result.Of bytes

def Unowned (s : ImageSystem) : Prop :=
  ∀ (index : Nat) (call : PublishCall), s.publishes[index]? = some call → call.writes = false

/-- Who owns the slot, and what is in it. -/
inductive Slot (s : ImageSystem) : Prop
  | idle (free : s.transfer.state = .idle) (unowned : s.Unowned)
      (resting : s.consumer.active = false) (order : List.Forall₂ s.Took s.published s.taken)
  | writing (busy : s.transfer.state = .writing) (owner : Nat) (call : PublishCall)
      (bytes : List UInt8) (found : s.publishes[owner]? = some call)
      (accepted : call.Accepted bytes) (holds : call.Holds s.transfer bytes)
      (only : ∀ (index : Nat) (other : PublishCall), s.publishes[index]? = some other →
        other.writes = true → index = owner)
      (resting : s.consumer.active = false) (order : List.Forall₂ s.Took s.published s.taken)
  | ready (full : s.transfer.state = .ready) (unowned : s.Unowned) (first : List Nat)
      (last : Nat) (bytes : List UInt8) (latest : s.published = first ++ [last])
      (bytesOf : s.bytesOf last = some bytes)
      (bounded : 0 < bytes.length ∧ bytes.length ≤ GV_IMAGE_MAX_PAYLOAD)
      (kept : s.transfer.payload.take bytes.length = bytes)
      (holds : s.consumer.Holds s.transfer bytes) (order : List.Forall₂ s.Took first s.taken)

structure Good (s : ImageSystem) : Prop where
  length : s.transfer.payload.length = GV_IMAGE_MAX_PAYLOAD
  accepted : ∀ (index : Nat) (call : PublishCall), s.publishes[index]? = some call →
    call.point ≠ .entered → call.point ≠ .returned false → ∃ bytes, call.Accepted bytes
  published : ∀ index, index ∈ s.published ↔
    ∃ call, s.publishes[index]? = some call ∧ call.point = .returned true
  nodup : s.published.Nodup
  slot : s.Slot

/-- What a step of a publisher that does not own the slot leaves as it was. -/
structure Frame (s s' : ImageSystem) : Prop where
  transfer : s'.transfer = s.transfer
  published : s'.published = s.published
  consumer : s'.consumer = s.consumer
  returns : s'.returns = s.returns
  bytesOf : ∀ index bytes, s.bytesOf index = some bytes → s'.bytesOf index = some bytes
  owners : ∀ (index : Nat) (call : PublishCall), call.writes = true →
    (s'.publishes[index]? = some call ↔ s.publishes[index]? = some call)

theorem Took.mono {s s' : ImageSystem}
    (bytesOf : ∀ index bytes, s.bytesOf index = some bytes → s'.bytesOf index = some bytes)
    {index : Nat} {result : Consumed} (took : s.Took index result) : s'.Took index result := by
  obtain ⟨bytes, found, of⟩ := took
  exact ⟨bytes, bytesOf index bytes found, of⟩

theorem Frame.order {s s' : ImageSystem} (frame : s.Frame s') {indices : List Nat}
    (order : List.Forall₂ s.Took indices s.taken) : List.Forall₂ s'.Took indices s'.taken := by
  have same : s'.taken = s.taken := by rw [taken, taken, frame.returns]
  rw [same]
  exact order.imp fun _ _ => Took.mono frame.bytesOf

theorem Frame.unowned {s s' : ImageSystem} (frame : s.Frame s') (unowned : s.Unowned) :
    s'.Unowned := by
  intro index call found
  cases owns : call.writes with
  | false => rfl
  | true =>
      have before := unowned index call ((frame.owners index call owns).mp found)
      exact owns.symm.trans before

theorem PublishCall.Holds.writes {call : PublishCall} {transfer : GVImageTransfer}
    {bytes : List UInt8} (holds : call.Holds transfer bytes) : call.writes = true := by
  unfold PublishCall.Holds at holds
  unfold PublishCall.writes
  cases point : call.point <;> simp_all

theorem Frame.slot {s s' : ImageSystem} (frame : s.Frame s') (slot : s.Slot) : s'.Slot := by
  cases slot with
  | idle free unowned resting order =>
      exact .idle (frame.transfer ▸ free) (frame.unowned unowned) (frame.consumer ▸ resting)
        (frame.published ▸ frame.order order)
  | writing busy owner call bytes found accepted holds only resting order =>
      exact .writing (frame.transfer ▸ busy) owner call bytes
        ((frame.owners owner call (PublishCall.Holds.writes holds)).mpr found) accepted
        (frame.transfer ▸ holds)
        (fun index other at' owns => only index other ((frame.owners index other owns).mp at') owns)
        (frame.consumer ▸ resting) (frame.published ▸ frame.order order)
  | ready full unowned first last bytes latest bytesOf bounded kept holds order =>
      exact .ready (frame.transfer ▸ full) (frame.unowned unowned) first last bytes
        (frame.published ▸ latest) (frame.bytesOf last bytes bytesOf) bounded
        (frame.transfer ▸ kept) (frame.transfer ▸ frame.consumer ▸ holds) (frame.order order)

theorem found_of_append {calls : List PublishCall} (new : PublishCall) {other : PublishCall}
    {index : Nat} (found : calls[index]? = some other) :
    (calls ++ [new])[index]? = some other := by
  have old := (List.getElem?_eq_some_iff.mp found).1
  rwa [List.getElem?_append_left old]

theorem bytesOf_set {s : ImageSystem} {index : Nat} {call next : PublishCall}
    (found : s.publishes[index]? = some call) (same : next.payload = call.payload) (other : Nat) :
    (s.publishes.set index next)[other]?.bind (·.payload) = s.bytesOf other := by
  unfold bytesOf
  by_cases here : other = index
  · subst here
    have inside := (List.getElem?_eq_some_iff.mp found).1
    rw [List.getElem?_set_self inside, found]
    exact same
  · rw [List.getElem?_set_ne (Ne.symm here)]

theorem append_frame (s : ImageSystem) {new : PublishCall} (outside : new.writes = false) :
    s.Frame { s with publishes := s.publishes ++ [new] } where
  transfer := rfl
  published := rfl
  consumer := rfl
  returns := rfl
  bytesOf index bytes found := by
    obtain ⟨call, at', payload⟩ := Option.bind_eq_some_iff.mp found
    exact Option.bind_eq_some_iff.mpr ⟨call, found_of_append new at', payload⟩
  owners index call owns := by
    constructor
    · intro found
      cases getElem?_concat_some found with
      | inl old => exact old
      | inr fresh => cases (fresh.2 ▸ owns).symm.trans outside
    · exact found_of_append new

theorem set_frame {s : ImageSystem} {index : Nat} {call next : PublishCall}
    (found : s.publishes[index]? = some call) (same : next.payload = call.payload)
    (before : call.writes = false) (after : next.writes = false) :
    s.Frame { s with publishes := s.publishes.set index next } where
  transfer := rfl
  published := rfl
  consumer := rfl
  returns := rfl
  bytesOf other bytes known := (bytesOf_set found same other).trans known
  owners other call' owns := by
    constructor
    · intro there
      obtain ⟨-, rfl⟩ | ⟨-, old⟩ := getElem?_set_some there
      · cases owns.symm.trans after
      · exact old
    · intro there
      by_cases here : other = index
      · subst here
        cases found.symm.trans there
        cases owns.symm.trans before
      · rwa [List.getElem?_set_ne (Ne.symm here)]

theorem set_accepted {s : ImageSystem} (good : s.Good) {index : Nat} {next : PublishCall}
    (fits : next.point ≠ .entered → next.point ≠ .returned false → ∃ bytes, next.Accepted bytes)
    (other : Nat) (call : PublishCall)
    (found : (s.publishes.set index next)[other]? = some call) (begun : call.point ≠ .entered)
    (unfailed : call.point ≠ .returned false) : ∃ bytes, call.Accepted bytes := by
  obtain ⟨-, rfl⟩ | ⟨-, old⟩ := getElem?_set_some found
  · exact fits begun unfailed
  · exact good.accepted other call old begun unfailed

/-- Only a call that becomes successful changes which ones are. -/
theorem set_published {s : ImageSystem} (good : s.Good) {index : Nat} {call next : PublishCall}
    (found : s.publishes[index]? = some call)
    (same : call.point = .returned true ↔ next.point = .returned true) (other : Nat) :
    other ∈ s.published ↔
      ∃ call, (s.publishes.set index next)[other]? = some call ∧ call.point = .returned true := by
  rw [good.published other]
  constructor
  · rintro ⟨before, at', success⟩
    by_cases here : other = index
    · subst here
      cases found.symm.trans at'
      have inside := (List.getElem?_eq_some_iff.mp found).1
      exact ⟨next, List.getElem?_set_self inside, same.mp success⟩
    · exact ⟨before, (List.getElem?_set_ne (Ne.symm here)).trans at', success⟩
  · rintro ⟨after, at', success⟩
    obtain ⟨rfl, rfl⟩ | ⟨-, old⟩ := getElem?_set_some at'
    · exact ⟨call, found, same.mpr success⟩
    · exact ⟨after, old, success⟩

theorem start_good : ({ transfer := GVImageTransferDefaultMake } : ImageSystem).Good where
  length := List.length_replicate
  accepted _ _ found := by simp at found
  published index := by simp
  nodup := .nil
  slot := .idle rfl (fun _ _ found => by simp at found) rfl .nil

theorem publish_good {s : ImageSystem} (good : s.Good) (payload : Option (List UInt8))
    (payloadSize : Nat) (readable : ∀ bytes ∈ payload, bytes.length = payloadSize) :
    (step (.publish payload payloadSize readable) s).Good where
  length := good.length
  accepted index call found begun unfailed := by
    cases getElem?_concat_some found with
    | inl old => exact good.accepted index call old begun unfailed
    | inr fresh => exact absurd (congrArg PublishCall.point fresh.2) begun
  published index := by
    rw [step, good.published index]
    constructor
    · rintro ⟨call, found, success⟩
      exact ⟨call, found_of_append _ found, success⟩
    · rintro ⟨call, found, success⟩
      cases getElem?_concat_some found with
      | inl old => exact ⟨call, old, success⟩
      | inr fresh =>
          rw [fresh.2] at success
          cases success
  nodup := good.nodup
  slot := (append_frame s rfl).slot good.slot

theorem set_order {s : ImageSystem} {index : Nat} {call next : PublishCall}
    {transfer : GVImageTransfer} {published indices : List Nat}
    (found : s.publishes[index]? = some call) (same : next.payload = call.payload)
    (order : List.Forall₂ s.Took indices s.taken) :
    List.Forall₂
      { s with transfer, published, publishes := s.publishes.set index next : ImageSystem }.Took
      indices s.taken := by
  refine order.imp fun _ _ took => ?_
  refine took.mono fun other bytes known => ?_
  exact (bytesOf_set found same other).trans known

theorem set_good {s : ImageSystem} (good : s.Good) {index : Nat} {call next : PublishCall}
    (found : s.publishes[index]? = some call) (same : next.payload = call.payload)
    (before : call.writes = false) (after : next.writes = false)
    (fits : next.point ≠ .entered → next.point ≠ .returned false → ∃ bytes, next.Accepted bytes)
    (success : call.point = .returned true ↔ next.point = .returned true) :
    ({ s with publishes := s.publishes.set index next } : ImageSystem).Good where
  length := good.length
  accepted := set_accepted good fits
  published := set_published good found success
  nodup := good.nodup
  slot := (set_frame found same before after).slot good.slot

theorem Slot.of_writes {s : ImageSystem} (slot : s.Slot) {index : Nat} {call : PublishCall}
    (found : s.publishes[index]? = some call) (owns : call.writes = true) :
    s.transfer.state = .writing ∧ (∃ bytes, call.Accepted bytes ∧ call.Holds s.transfer bytes) ∧
      (∀ (other : Nat) (at' : PublishCall), s.publishes[other]? = some at' → at'.writes = true →
        other = index) ∧
      s.consumer.active = false ∧ List.Forall₂ s.Took s.published s.taken := by
  cases slot with
  | idle _ unowned => cases owns.symm.trans (unowned index call found)
  | ready _ unowned => cases owns.symm.trans (unowned index call found)
  | writing busy owner call' bytes found' accepted holds only resting order =>
      have same := only index call found owns
      subst same
      cases found.symm.trans found'
      exact ⟨busy, ⟨bytes, accepted, holds⟩, only, resting, order⟩

theorem entered_good {s : ImageSystem} (good : s.Good) {index : Nat} {call : PublishCall}
    (found : s.publishes[index]? = some call) (point : call.point = .entered) :
    (step (.publisher index) s).Good := by
  have outside : call.writes = false := by rw [PublishCall.writes, point]
  simp only [step, found, publisherStep, point, reduceCtorEq, if_false]
  split_ifs with refused
  · exact set_good good found (by rfl) outside (by rfl) (fun _ unfailed => absurd rfl unfailed)
      (by simp [point])
  · refine set_good good found (by rfl) outside (by rfl) (fun _ _ => ?_) (by simp [point])
    simp only [Bool.or_eq_true, decide_eq_true_eq, not_or, Option.isNone_iff_eq_none] at refused
    obtain ⟨⟨⟨-, given⟩, nonzero⟩, small⟩ := refused
    obtain ⟨bytes, payload⟩ := Option.ne_none_iff_exists'.mp given
    have size := call.readable bytes payload
    exact ⟨bytes, payload, by omega, by omega⟩

theorem checked_good {s : ImageSystem} (good : s.Good) {index : Nat} {call : PublishCall}
    (found : s.publishes[index]? = some call) (point : call.point = .checked) :
    (step (.publisher index) s).Good := by
  have outside : call.writes = false := by rw [PublishCall.writes, point]
  obtain ⟨bytes, accepted⟩ := good.accepted index call found (by simp [point]) (by simp [point])
  by_cases free : s.transfer.state = .idle
  · simp only [step, found, publisherStep, point, free, if_true, reduceCtorEq, if_false]
    refine ⟨good.length, set_accepted good fun _ _ => ⟨bytes, accepted⟩,
      set_published good found (by simp [point]), good.nodup, ?_⟩
    cases good.slot with
    | writing busy => cases free.symm.trans busy
    | ready full => cases free.symm.trans full
    | idle _ unowned resting order =>
        have inside := (List.getElem?_eq_some_iff.mp found).1
        refine .writing rfl index { call with point := .copying 0 } bytes
          (List.getElem?_set_self inside) accepted (List.take_zero.trans List.take_zero.symm) ?_
          resting (set_order found (by rfl) order)
        intro other at' there owns
        obtain ⟨same, -⟩ | ⟨-, old⟩ := getElem?_set_some there
        · exact same
        · cases owns.symm.trans (unowned other at' old)
  · simp only [step, found, publisherStep, point, free, if_false, reduceCtorEq]
    exact set_good good found (by rfl) outside (by rfl) (fun _ unfailed => absurd rfl unfailed)
      (by simp [point])

theorem owner_good {s : ImageSystem} (good : s.Good) {index : Nat} {call next : PublishCall}
    (found : s.publishes[index]? = some call) (owns : call.writes = true)
    (same : next.payload = call.payload) {transfer : GVImageTransfer}
    (busy : transfer.state = s.transfer.state)
    (length : transfer.payload.length = s.transfer.payload.length)
    (holds : ∀ bytes, call.Accepted bytes → call.Holds s.transfer bytes →
      next.Holds transfer bytes) :
    ({ s with transfer, publishes := s.publishes.set index next } : ImageSystem).Good := by
  obtain ⟨writing, ⟨bytes, accepted, held⟩, only, resting, order⟩ :=
    good.slot.of_writes found owns
  have fits : next.Accepted bytes := ⟨same.trans accepted.1, accepted.2⟩
  have still : next.writes = true := PublishCall.Holds.writes (holds bytes accepted held)
  have unfinished : ∀ call : PublishCall, call.writes = true → call.point ≠ .returned true := by
    intro call writes done
    simp [PublishCall.writes, done] at writes
  have inside := (List.getElem?_eq_some_iff.mp found).1
  refine ⟨length.trans good.length, set_accepted good fun _ _ => ⟨bytes, fits⟩,
    set_published good found (iff_of_false (unfinished call owns) (unfinished next still)),
    good.nodup, ?_⟩
  refine .writing (busy.trans writing) index next bytes (List.getElem?_set_self inside) fits
    (holds bytes accepted held) ?_ resting (set_order found same order)
  intro other at' there owned
  obtain ⟨here, -⟩ | ⟨-, old⟩ := getElem?_set_some there
  · exact here
  · exact only other at' old owned

theorem copying_good {s : ImageSystem} (good : s.Good) {index copied : Nat} {call : PublishCall}
    (found : s.publishes[index]? = some call) (point : call.point = .copying copied) :
    (step (.publisher index) s).Good := by
  have owns : call.writes = true := by rw [PublishCall.writes, point]
  cases byte : (call.payload.getD [])[copied]? with
  | some byte' =>
      simp only [step, found, publisherStep, point, byte, reduceCtorEq, if_false]
      refine owner_good good found owns (by rfl) (by rfl) (by exact List.length_set) ?_
      rintro bytes ⟨payload, -, small⟩ held
      rw [PublishCall.Holds, point] at held
      rw [payload, Option.getD_some] at byte
      have inside : copied < s.transfer.payload.length := by
        have short := (List.getElem?_eq_some_iff.mp byte).1
        rw [good.length]
        omega
      have start : (s.transfer.payload.set copied byte').take copied =
          s.transfer.payload.take copied := by
        rw [List.take_set, List.set_eq_of_length_le (List.length_take_le _ _)]
      dsimp only [PublishCall.Holds]
      rw [List.take_add_one, List.take_add_one, start, held, List.getElem?_set_self inside, byte]
  | none =>
      simp only [step, found, publisherStep, point, byte, reduceCtorEq, if_false]
      refine owner_good good found owns (by rfl) (by rfl) (by rfl) ?_
      rintro bytes ⟨payload, -, -⟩ held
      rw [PublishCall.Holds, point] at held
      rw [payload, Option.getD_some] at byte
      have all : bytes.length ≤ copied := List.getElem?_eq_none_iff.mp byte
      refine ⟨(call.readable bytes payload).symm, ?_⟩
      calc s.transfer.payload.take bytes.length
          = (s.transfer.payload.take copied).take bytes.length := by
            rw [List.take_take, Nat.min_eq_left all]
        _ = bytes := by rw [held, List.take_take, Nat.min_eq_left all, List.take_length]

theorem sized_good {s : ImageSystem} (good : s.Good) {index : Nat} {call : PublishCall}
    (found : s.publishes[index]? = some call) (point : call.point = .sized) :
    (step (.publisher index) s).Good := by
  have owns : call.writes = true := by rw [PublishCall.writes, point]
  obtain ⟨-, ⟨bytes, accepted, held⟩, only, resting, order⟩ := good.slot.of_writes found owns
  rw [PublishCall.Holds, point] at held
  have inside := (List.getElem?_eq_some_iff.mp found).1
  have fresh : index ∉ s.published := by
    rw [good.published index]
    rintro ⟨other, at', success⟩
    cases found.symm.trans at'
    cases point.symm.trans success
  simp only [step, found, publisherStep, point, if_true]
  refine ⟨good.length, set_accepted good fun _ _ => ⟨bytes, accepted⟩, ?_,
    List.nodup_append.mpr ⟨good.nodup, List.nodup_cons.mpr ⟨List.not_mem_nil, .nil⟩, ?_⟩, ?_⟩
  · intro other
    rw [List.mem_append, List.mem_singleton]
    by_cases here : other = index
    · subst here
      simp [List.getElem?_set_self inside]
    · rw [List.getElem?_set_ne (Ne.symm here), ← good.published other]
      simp [here]
  · rintro other old last lies rfl
    exact fresh (List.mem_singleton.mp lies ▸ old)
  · refine .ready rfl ?_ s.published index bytes rfl
      ((bytesOf_set found (by rfl) index).trans
        (Option.bind_eq_some_iff.mpr ⟨call, found, accepted.1⟩))
      accepted.2 held.2 ?_ (set_order found (by rfl) order)
    · intro other at' there
      obtain ⟨-, rfl⟩ | ⟨apart, old⟩ := getElem?_set_some there
      · rfl
      · cases owned : at'.writes with
        | false => rfl
        | true => exact absurd (only other at' old owned) apart
    · cases stands : s.consumer with
      | waiting => exact held.1
      | entered => exact held.1
      | loaded => rw [stands] at resting; cases resting
      | copying => rw [stands] at resting; cases resting
      | rejecting => rw [stands] at resting; cases resting
      | releasing => rw [stands] at resting; cases resting

theorem publisher_good {s : ImageSystem} (good : s.Good) (index : Nat) :
    (step (.publisher index) s).Good := by
  cases found : s.publishes[index]? with
  | none => simpa only [step, found] using good
  | some call =>
      cases point : call.point with
      | entered => exact entered_good good found point
      | checked => exact checked_good good found point
      | copying copied => exact copying_good good found point
      | sized => exact sized_good good found point
      | returned success =>
          simp only [step, found, publisherStep, point, reduceCtorEq, if_false]
          refine set_good good found rfl ?_ ?_ (good.accepted index call found) Iff.rfl
          · rw [PublishCall.writes, point]
          · rw [PublishCall.writes, point]

theorem good_of_slot {s : ImageSystem} (good : s.Good) {transfer : GVImageTransfer}
    {consumer : ConsumePoint} {returns : List Consumed}
    (length : transfer.payload.length = s.transfer.payload.length)
    (slot : { s with transfer, consumer, returns : ImageSystem }.Slot) :
    { s with transfer, consumer, returns : ImageSystem }.Good :=
  ⟨length.trans good.length, good.accepted, good.published, good.nodup, slot⟩

theorem Slot.of_active {s : ImageSystem} (slot : s.Slot) (active : s.consumer.active = true) :
    s.transfer.state = .ready ∧ s.Unowned ∧
      ∃ first last bytes, s.published = first ++ [last] ∧ s.bytesOf last = some bytes ∧
        (0 < bytes.length ∧ bytes.length ≤ GV_IMAGE_MAX_PAYLOAD) ∧
        s.transfer.payload.take bytes.length = bytes ∧ s.consumer.Holds s.transfer bytes ∧
        List.Forall₂ s.Took first s.taken := by
  cases slot with
  | idle _ _ resting => cases active.symm.trans resting
  | writing _ _ _ _ _ _ _ _ resting => cases active.symm.trans resting
  | ready full unowned first last bytes latest bytesOf bounded kept holds order =>
      exact ⟨full, unowned, first, last, bytes, latest, bytesOf, bounded, kept, holds, order⟩

theorem Slot.consume {s : ImageSystem} (slot : s.Slot) (active : s.consumer.active = true)
    {transfer : GVImageTransfer} {consumer : ConsumePoint}
    (state : transfer.state = s.transfer.state) (payload : transfer.payload = s.transfer.payload)
    (holds : ∀ bytes, 0 < bytes.length → bytes.length ≤ GV_IMAGE_MAX_PAYLOAD →
      s.transfer.payload.take bytes.length = bytes → s.consumer.Holds s.transfer bytes →
      consumer.Holds transfer bytes) :
    { s with transfer, consumer : ImageSystem }.Slot := by
  obtain ⟨full, unowned, first, last, bytes, latest, bytesOf, bounded, kept, held, order⟩ :=
    slot.of_active active
  exact .ready (state.trans full) unowned first last bytes latest bytesOf bounded
    (payload ▸ kept) (holds bytes bounded.1 bounded.2 kept held) order

/-- Outside the slot the consumer may come and go. -/
theorem Slot.rest {s : ImageSystem} (slot : s.Slot) (resting : s.consumer.active = false)
    {consumer : ConsumePoint} (rests : consumer.active = false) {returns : List Consumed}
    (same : { s with consumer, returns : ImageSystem }.taken = s.taken) :
    { s with consumer, returns : ImageSystem }.Slot := by
  cases slot with
  | idle free unowned _ order => exact .idle free unowned rests (same ▸ order)
  | writing busy owner call bytes found accepted holds only _ order =>
      exact .writing busy owner call bytes found accepted holds only rests (same ▸ order)
  | ready full unowned first last bytes latest bytesOf bounded kept holds order =>
      have outside : ∀ point : ConsumePoint, point.active = false →
          (point.Holds s.transfer bytes ↔ s.transfer.payloadSize = bytes.length) := by
        intro point inactive
        cases point with
        | waiting => exact Iff.rfl
        | entered => exact Iff.rfl
        | loaded => cases inactive
        | copying => cases inactive
        | rejecting => cases inactive
        | releasing => cases inactive
      exact .ready full unowned first last bytes latest bytesOf bounded kept
        ((outside consumer rests).mpr ((outside s.consumer resting).mp holds)) (same ▸ order)

theorem consume_good {s : ImageSystem} (good : s.Good) (output : Bool) (outputCapacity : Nat) :
    (step (.consume output outputCapacity) s).Good := by
  cases stands : s.consumer with
  | waiting =>
      simp only [step, stands]
      exact good_of_slot good rfl (good.slot.rest (by rw [stands]; rfl) rfl rfl)
  | entered => simpa only [step, stands] using good
  | loaded => simpa only [step, stands] using good
  | copying => simpa only [step, stands] using good
  | rejecting => simpa only [step, stands] using good
  | releasing => simpa only [step, stands] using good

theorem enter_good {s : ImageSystem} (good : s.Good) {output : Bool} {outputCapacity : Nat}
    (stands : s.consumer = .entered output outputCapacity) : s.consumerStep.Good := by
  have resting : s.consumer.active = false := by
    rw [stands]
    rfl
  rw [consumerStep, stands]
  dsimp only
  split_ifs with refused
  · refine good_of_slot good rfl (good.slot.rest resting rfl ?_)
    simp [taken]
  · simp only [Bool.or_eq_true, decide_eq_true_eq, not_or, not_not] at refused
    refine good_of_slot good rfl ?_
    cases good.slot with
    | idle free => cases free.symm.trans refused.2
    | writing busy => cases busy.symm.trans refused.2
    | ready full unowned first last bytes latest bytesOf bounded kept holds order =>
        rw [stands] at holds
        exact .ready full unowned first last bytes latest bytesOf bounded kept holds order

theorem loaded_good {s : ImageSystem} (good : s.Good) {outputCapacity : Nat}
    (stands : s.consumer = .loaded outputCapacity) : s.consumerStep.Good := by
  have active : s.consumer.active = true := by
    rw [stands]
    rfl
  rw [consumerStep, stands]
  dsimp only
  split_ifs with refused
  · refine good_of_slot good rfl (good.slot.consume active rfl rfl ?_)
    intro bytes nonempty small _ held
    rw [stands] at held
    have size : s.transfer.payloadSize = bytes.length := held
    rw [size] at refused
    simp only [Bool.or_eq_true, decide_eq_true_eq] at refused
    exact ⟨size, by omega⟩
  · refine good_of_slot good rfl (good.slot.consume active rfl rfl ?_)
    intro bytes _ _ _ held
    rw [stands] at held
    exact ⟨held, held, rfl⟩

theorem take_append_byte {payload bytes output : List UInt8}
    (kept : payload.take bytes.length = bytes) (prior : output = bytes.take output.length)
    (short : output.length < bytes.length) :
    output ++ [payload.getD output.length 0] =
      bytes.take (output ++ [payload.getD output.length 0]).length := by
  have byte : payload[output.length]? = bytes[output.length]? := by
    rw [← List.getElem?_take_of_lt short, kept]
  rw [List.getD_eq_getElem?_getD, byte, List.getElem?_eq_getElem short, List.length_append,
    List.length_singleton, List.take_add_one, ← prior, List.getElem?_eq_getElem short]
  rfl

theorem consumer_good {s : ImageSystem} (good : s.Good) : s.consumerStep.Good := by
  cases stands : s.consumer with
  | waiting => simpa only [consumerStep, stands] using good
  | entered output outputCapacity => exact enter_good good stands
  | loaded outputCapacity => exact loaded_good good stands
  | copying payloadSize output =>
      have active : s.consumer.active = true := by
        rw [stands]
        rfl
      rw [consumerStep, stands]
      dsimp only
      split_ifs with short
      · refine good_of_slot good rfl (good.slot.consume active rfl rfl ?_)
        intro bytes _ _ kept held
        rw [stands] at held
        obtain ⟨size, wanted, prior⟩ := held
        exact ⟨size, wanted, take_append_byte kept prior (wanted ▸ short)⟩
      · refine good_of_slot good rfl (good.slot.consume active rfl rfl ?_)
        intro bytes _ _ _ held
        rw [stands] at held
        obtain ⟨-, wanted, prior⟩ := held
        have all : bytes.length ≤ output.length := by omega
        exact prior.trans (List.take_of_length_le all)
  | rejecting outputCapacity =>
      have active : s.consumer.active = true := by
        rw [stands]
        rfl
      rw [consumerStep, stands]
      refine good_of_slot good rfl (good.slot.consume active rfl rfl ?_)
      intro bytes _ _ _ held
      rw [stands] at held
      exact held.2
  | releasing result =>
      have active : s.consumer.active = true := by
        rw [stands]
        rfl
      obtain ⟨-, unowned, first, last, bytes, latest, bytesOf, -, -, held, order⟩ :=
        good.slot.of_active active
      rw [stands] at held
      rw [consumerStep, stands]
      refine good_of_slot good rfl (.idle rfl unowned rfl ?_)
      have emptied : result ≠ .empty := by
        rintro rfl
        exact held
      have more : (s.returns ++ [result]).filter (· ≠ .empty) = s.taken ++ [result] := by
        rw [List.filter_append, taken]
        simp [emptied]
      rw [taken, more, latest]
      exact List.rel_append order (.cons ⟨bytes, bytesOf, held⟩ .nil)

theorem step_good (event : ImageEvent) (s : ImageSystem) (good : s.Good) : (step event s).Good := by
  cases event with
  | publish payload payloadSize readable => exact publish_good good payload payloadSize readable
  | publisher index => exact publisher_good good index
  | consume output outputCapacity => exact consume_good good output outputCapacity
  | consumer => exact consumer_good good

def start : ImageSystem := { transfer := GVImageTransferDefaultMake }

theorem run_good (events : List ImageEvent) : (execute step events start).Good :=
  execute_invariant Good step_good events start_good

/-- A call that has had the slot succeeds, if it returns. -/
def Won (index : Nat) (s : ImageSystem) : Prop :=
  ∃ call, s.publishes[index]? = some call ∧
    (call.writes = true ∨ call.point = .returned true)

theorem publisherStep_won {transfer : GVImageTransfer} {call : PublishCall}
    (won : call.writes = true ∨ call.point = .returned true) :
    (publisherStep transfer call).2.writes = true ∨
      (publisherStep transfer call).2.point = .returned true := by
  cases point : call.point with
  | entered => simp [PublishCall.writes, point] at won
  | checked => simp [PublishCall.writes, point] at won
  | copying copied =>
      left
      simp only [publisherStep, point]
      split <;> rfl
  | sized =>
      right
      simp only [publisherStep, point]
  | returned success =>
      simp only [publisherStep, point]
      rwa [point] at won

theorem step_won (index : Nat) (event : ImageEvent) (s : ImageSystem) (won : s.Won index) :
    (step event s).Won index := by
  obtain ⟨call, found, succeeds⟩ := won
  cases event with
  | publish payload payloadSize readable => exact ⟨call, found_of_append _ found, succeeds⟩
  | consume output outputCapacity =>
      cases stands : s.consumer <;> simp only [step, stands] <;> exact ⟨call, found, succeeds⟩
  | consumer =>
      have same : s.consumerStep.publishes = s.publishes := by
        unfold consumerStep
        cases s.consumer with
        | waiting => rfl
        | entered => dsimp only; split <;> rfl
        | loaded => dsimp only; split <;> rfl
        | copying => dsimp only; split <;> rfl
        | rejecting => rfl
        | releasing => rfl
      exact ⟨call, same ▸ found, succeeds⟩
  | publisher at' =>
      cases there : s.publishes[at']? with
      | none =>
          simp only [step, there]
          exact ⟨call, found, succeeds⟩
      | some other =>
          simp only [step, there]
          by_cases here : index = at'
          · subst here
            cases found.symm.trans there
            have inside := (List.getElem?_eq_some_iff.mp found).1
            exact ⟨_, List.getElem?_set_self inside, publisherStep_won succeeds⟩
          · exact ⟨call, (List.getElem?_set_ne (Ne.symm here)).trans found, succeeds⟩

theorem publisher_won {s : ImageSystem} {index : Nat}
    (changed : (step (.publisher index) s).transfer ≠ s.transfer) :
    (step (.publisher index) s).Won index := by
  cases found : s.publishes[index]? with
  | none => simp [step, found] at changed
  | some call =>
      have inside := (List.getElem?_eq_some_iff.mp found).1
      have wins : (publisherStep s.transfer call).2.writes = true ∨
          (publisherStep s.transfer call).2.point = .returned true := by
        simp only [step, found] at changed
        cases point : call.point with
        | entered =>
            simp only [publisherStep, point] at changed
            split at changed <;> exact absurd rfl changed
        | checked =>
            simp only [publisherStep, point] at changed ⊢
            split_ifs at changed ⊢
            · exact .inl rfl
            · exact absurd rfl changed
        | copying copied => exact publisherStep_won (.inl (by rw [PublishCall.writes, point]))
        | sized => exact publisherStep_won (.inl (by rw [PublishCall.writes, point]))
        | returned success =>
            simp only [publisherStep, point] at changed
            exact absurd rfl changed
      simp only [step, found]
      exact ⟨_, List.getElem?_set_self inside, wins⟩

theorem failed_publish {s : ImageSystem} {index : Nat} {later : List ImageEvent}
    {call : PublishCall}
    (found : (execute step (.publisher index :: later) s).publishes[index]? = some call)
    (failed : call.point = .returned false) :
    (step (.publisher index) s).transfer = s.transfer := by
  by_contra changed
  obtain ⟨other, there, succeeds⟩ := execute_invariant (Won index) (step_won index) later
    (publisher_won changed)
  cases found.symm.trans there
  simp [PublishCall.writes, failed] at succeeds

/-- What the consumer's call with this number comes to is settled. -/
def Fated (number : Nat) (result : Consumed) (s : ImageSystem) : Prop :=
  s.returns.length = number ∧ s.consumer = .releasing result ∨ s.returns[number]? = some result

theorem consumerStep_returns (s : ImageSystem) :
    ∃ more, s.consumerStep.returns = s.returns ++ more := by
  unfold consumerStep
  cases s.consumer with
  | waiting => exact ⟨[], (List.append_nil _).symm⟩
  | entered =>
      dsimp only
      split
      · exact ⟨_, rfl⟩
      · exact ⟨[], (List.append_nil _).symm⟩
  | loaded => dsimp only; split <;> exact ⟨[], (List.append_nil _).symm⟩
  | copying => dsimp only; split <;> exact ⟨[], (List.append_nil _).symm⟩
  | rejecting => exact ⟨[], (List.append_nil _).symm⟩
  | releasing => exact ⟨_, rfl⟩

theorem release_fated {s : ImageSystem} {result : Consumed}
    (stands : s.consumer = .releasing result) : s.consumerStep.Fated s.returns.length result := by
  right
  rw [consumerStep, stands]
  exact List.getElem?_concat_length

theorem step_fated (number : Nat) (result : Consumed) (event : ImageEvent) (s : ImageSystem)
    (fated : s.Fated number result) : (step event s).Fated number result := by
  cases event with
  | publish payload payloadSize readable => exact fated
  | publisher index =>
      cases found : s.publishes[index]? with
      | none => simpa only [step, found] using fated
      | some call =>
          simp only [step, found]
          exact fated
  | consume output outputCapacity =>
      cases fated with
      | inl under =>
          simp only [step, under.2]
          exact .inl under
      | inr past => cases stands : s.consumer <;> simp only [step, stands] <;> exact .inr past
  | consumer =>
      cases fated with
      | inl under => exact under.1 ▸ release_fated under.2
      | inr past =>
          obtain ⟨more, returns⟩ := consumerStep_returns s
          have inside := (List.getElem?_eq_some_iff.mp past).1
          refine .inr ?_
          rw [step, returns, List.getElem?_append_left inside]
          exact past

theorem consumer_fated {s : ImageSystem} (good : s.Good)
    (changed : s.consumerStep.transfer ≠ s.transfer) :
    ∃ result bytes, s.consumerStep.Fated s.returns.length result ∧ 0 < bytes.length ∧
      result.Of bytes := by
  have released : ∀ result, s.consumerStep.consumer = .releasing result →
      ∃ bytes, 0 < bytes.length ∧ result.Of bytes := by
    intro result stands
    have active : s.consumerStep.consumer.active = true := by
      rw [stands]
      rfl
    obtain ⟨-, -, -, -, bytes, -, -, bounded, -, held, -⟩ :=
      (consumer_good good).slot.of_active active
    rw [stands] at held
    exact ⟨bytes, bounded.1, held⟩
  cases stands : s.consumer with
  | waiting => simp [consumerStep, stands] at changed
  | entered =>
      rw [consumerStep, stands] at changed
      dsimp only at changed
      split at changed <;> exact absurd rfl changed
  | loaded =>
      rw [consumerStep, stands] at changed
      dsimp only at changed
      split at changed <;> exact absurd rfl changed
  | copying payloadSize output =>
      by_cases short : output.length < payloadSize
      · simp [consumerStep, stands, short] at changed
      · have after : s.consumerStep.consumer = .releasing (.delivered output) ∧
            s.consumerStep.returns = s.returns := by
          simp [consumerStep, stands, short]
        obtain ⟨bytes, nonempty, of⟩ := released _ after.1
        exact ⟨_, bytes, .inl ⟨congrArg List.length after.2, after.1⟩, nonempty, of⟩
  | rejecting outputCapacity =>
      have after : s.consumerStep.consumer = .releasing (.discarded outputCapacity) ∧
          s.consumerStep.returns = s.returns := by
        simp [consumerStep, stands]
      obtain ⟨bytes, nonempty, of⟩ := released _ after.1
      exact ⟨_, bytes, .inl ⟨congrArg List.length after.2, after.1⟩, nonempty, of⟩
  | releasing result =>
      have active : s.consumer.active = true := by
        rw [stands]
        rfl
      obtain ⟨-, -, -, -, bytes, -, -, bounded, -, held, -⟩ := good.slot.of_active active
      rw [stands] at held
      exact ⟨result, bytes, release_fated stands, bounded.1, held⟩

theorem zero_consume {s : ImageSystem} (good : s.Good) {later : List ImageEvent}
    {result : Consumed}
    (found : (execute step (.consumer :: later) s).returns[s.returns.length]? = some result)
    (zero : result.value = 0) :
    (step .consumer s).transfer = s.transfer ∨
      ∃ outputCapacity, result = .discarded outputCapacity := by
  by_contra touched
  push Not at touched
  obtain ⟨other, bytes, fated, nonempty, of⟩ := consumer_fated good touched.1
  obtain ⟨under, stands⟩ | past := execute_invariant (Fated s.returns.length other)
    (step_fated s.returns.length other) later fated
  · rw [execute_cons] at found
    have inside := (List.getElem?_eq_some_iff.mp found).1
    exact absurd inside (by rw [step, under]; exact lt_irrefl _)
  · rw [execute_cons] at found
    cases found.symm.trans past
    cases result with
    | empty => exact of
    | delivered output =>
        rw [Consumed.value, of] at zero
        omega
    | discarded outputCapacity => exact touched.2 outputCapacity rfl

/-- In a ready slot only the consumer's own clearing of the size, after it is done with the
payload, changes either. -/
theorem ready_step {s : ImageSystem} (good : s.Good) (full : s.transfer.state = .ready)
    (event : ImageEvent) :
    (step event s).transfer.payload = s.transfer.payload ∧
      ((step event s).transfer.payloadSize = s.transfer.payloadSize ∨
        event = .consumer ∧ (step event s).transfer.payloadSize = 0 ∧
          ∃ result, (step event s).consumer = .releasing result) := by
  cases event with
  | publish payload payloadSize readable => exact ⟨rfl, .inl rfl⟩
  | consume output outputCapacity =>
      have same : (step (.consume output outputCapacity) s).transfer = s.transfer := by
        cases stands : s.consumer <;> simp only [step, stands]
      rw [same]
      exact ⟨rfl, .inl rfl⟩
  | publisher index =>
      have same : (step (.publisher index) s).transfer = s.transfer := by
        cases found : s.publishes[index]? with
        | none => simp only [step, found]
        | some call =>
            cases owned : call.writes with
            | true => cases full.symm.trans (good.slot.of_writes found owned).1
            | false =>
                simp only [step, found]
                cases point : call.point with
                | entered =>
                    simp only [publisherStep, point]
                    split <;> rfl
                | checked => simp [publisherStep, point, full]
                | copying copied => simp [PublishCall.writes, point] at owned
                | sized => simp [PublishCall.writes, point] at owned
                | returned success => simp only [publisherStep, point]
      rw [same]
      exact ⟨rfl, .inl rfl⟩
  | consumer =>
      rw [step, consumerStep]
      cases s.consumer with
      | waiting => exact ⟨rfl, .inl rfl⟩
      | entered => dsimp only; split <;> exact ⟨rfl, .inl rfl⟩
      | loaded => dsimp only; split <;> exact ⟨rfl, .inl rfl⟩
      | copying =>
          dsimp only
          split
          · exact ⟨rfl, .inl rfl⟩
          · exact ⟨rfl, .inr ⟨rfl, rfl, _, rfl⟩⟩
      | rejecting => exact ⟨rfl, .inr ⟨rfl, rfl, _, rfl⟩⟩
      | releasing => exact ⟨rfl, .inl rfl⟩

/-- What holds while the header is not the one this side was built for. -/
structure Shut (transfer : GVImageTransfer) (s : ImageSystem) : Prop where
  transfer : s.transfer = transfer
  outside : ∀ (index : Nat) (call : PublishCall), s.publishes[index]? = some call →
    call.point = .entered ∨ call.point = .returned false
  resting : s.consumer.active = false
  returns : ∀ result ∈ s.returns, result = .empty

theorem step_shut {transfer : GVImageTransfer}
    (incompatible : GVImageTransferIsCompatible transfer sizeofGVImageTransfer = false)
    (event : ImageEvent) (s : ImageSystem) (shut : s.Shut transfer) :
    (step event s).Shut transfer := by
  cases event with
  | publish payload payloadSize readable =>
      refine { shut with outside := fun index call found => ?_ }
      cases getElem?_concat_some found with
      | inl old => exact shut.outside index call old
      | inr fresh => exact .inl (congrArg PublishCall.point fresh.2)
  | consume output outputCapacity =>
      cases stands : s.consumer with
      | waiting =>
          simp only [step, stands]
          exact { shut with resting := rfl }
      | entered => simpa only [step, stands] using shut
      | loaded => simpa only [step, stands] using shut
      | copying => simpa only [step, stands] using shut
      | rejecting => simpa only [step, stands] using shut
      | releasing => simpa only [step, stands] using shut
  | publisher index =>
      cases found : s.publishes[index]? with
      | none => simpa only [step, found] using shut
      | some call =>
          have refused : publisherStep s.transfer call = (s.transfer, call) ∨
              publisherStep s.transfer call =
                (s.transfer, { call with point := .returned false }) := by
            cases shut.outside index call found with
            | inl point => simp [publisherStep, point, shut.transfer, incompatible]
            | inr point => simp [publisherStep, point]
          simp only [step, found]
          refine { transfer := ?_, outside := fun at' other there => ?_
                   resting := shut.resting, returns := shut.returns }
          · cases refused with
            | inl same => rw [same, shut.transfer]
            | inr same => rw [same, shut.transfer]
          · obtain ⟨-, rfl⟩ | ⟨-, old⟩ := getElem?_set_some there
            · cases refused with
              | inl same =>
                  rw [same]
                  exact shut.outside index call found
              | inr same =>
                  rw [same]
                  exact .inr rfl
            · exact shut.outside at' other old
  | consumer =>
      cases stands : s.consumer with
      | waiting => simpa only [step, consumerStep, stands] using shut
      | entered output outputCapacity =>
          simp only [step, consumerStep, stands, shut.transfer, incompatible, Bool.not_false,
            Bool.true_or, if_true]
          refine { shut with transfer := rfl, resting := rfl, returns := fun result taken => ?_ }
          cases List.mem_append.mp taken with
          | inl old => exact shut.returns result old
          | inr fresh => exact List.mem_singleton.mp fresh
      | loaded => cases stands ▸ shut.resting
      | copying => cases stands ▸ shut.resting
      | rejecting => cases stands ▸ shut.resting
      | releasing => cases stands ▸ shut.resting

theorem run_shut {transfer : GVImageTransfer}
    (incompatible : GVImageTransferIsCompatible transfer sizeofGVImageTransfer = false)
    (events : List ImageEvent) : (execute step events { transfer }).Shut transfer :=
  execute_invariant (Shut transfer) (step_shut incompatible) events
    ⟨rfl, fun _ _ found => by simp at found, rfl, fun _ taken => (nomatch taken)⟩

/-- What publishers and the consumer may rely on in a state. -/
structure Channel (s : ImageSystem) : Prop where
  /-- While the slot is ready nothing touches the payload, and only the consumer the size. -/
  stable : s.transfer.state = .ready → ∀ event,
    (step event s).transfer.payload = s.transfer.payload ∧
      ((step event s).transfer.payloadSize = s.transfer.payloadSize ∨
        event = .consumer ∧ (step event s).transfer.payloadSize = 0 ∧
          ∃ result, (step event s).consumer = .releasing result)
  published : ∀ index, index ∈ s.published ↔
    ∃ call, s.publishes[index]? = some call ∧ call.point = .returned true
  nodup : s.published.Nodup
  /-- What has been taken is, in order, what was published first. -/
  order : ∃ first rest, s.published = first ++ rest ∧ rest.length ≤ 1 ∧
    List.Forall₂ s.Took first s.taken
  failed : ∀ (index : Nat) later (call : PublishCall),
    (execute step (.publisher index :: later) s).publishes[index]? = some call →
      call.point = .returned false → (step (.publisher index) s).transfer = s.transfer
  zero : ∀ later result,
    (execute step (.consumer :: later) s).returns[s.returns.length]? = some result →
      result.value = 0 → (step .consumer s).transfer = s.transfer ∨
        ∃ outputCapacity, result = .discarded outputCapacity

theorem Good.channel {s : ImageSystem} (good : s.Good) : s.Channel where
  stable := ready_step good
  published := good.published
  nodup := good.nodup
  order := by
    cases good.slot with
    | idle _ _ _ order => exact ⟨s.published, [], by simp, by simp, order⟩
    | writing _ _ _ _ _ _ _ _ _ order => exact ⟨s.published, [], by simp, by simp, order⟩
    | ready _ _ first last _ latest _ _ _ _ order => exact ⟨first, [last], latest, le_rfl, order⟩
  failed _ _ _ := failed_publish
  zero _ _ := zero_consume good

/-- The slot carries at most one payload at a time, whole and in order; a header of another build
keeps both sides out of it. -/
theorem imageTransfer_channel :
    (∀ events, (execute step events start).Channel) ∧
    ∀ transfer, GVImageTransferIsCompatible transfer sizeofGVImageTransfer = false →
      ∀ events, (execute step events { transfer }).transfer = transfer ∧
        (execute step events { transfer }).taken = [] := by
  refine ⟨fun events => (run_good events).channel, fun transfer incompatible events => ?_⟩
  have shut := run_shut incompatible events
  refine ⟨shut.transfer, List.filter_eq_nil_iff.mpr fun result taken => ?_⟩
  simp [shut.returns result taken]

/-- The consumer clears the size before it gives the slot back. -/
theorem consume_clears_ready :
    ¬∀ events event, (execute step events start).transfer.state = .ready →
      (step event (execute step events start)).transfer.payloadSize =
        (execute step events start).transfer.payloadSize := by
  intro still
  let run : List ImageEvent :=
    .publish (some [7]) 1 (by simp) :: List.replicate 5 (.publisher 0) ++
      [.consume true 0, .consumer, .consumer]
  have ready : (execute step run start).transfer.state = .ready := rfl
  have before : (execute step run start).transfer.payloadSize = 1 := rfl
  have after : (step .consumer (execute step run start)).transfer.payloadSize = 0 := rfl
  have same := still run .consumer ready
  rw [before, after] at same
  cases same

end ImageSystem

end H5GG

import Mathlib.Algebra.GroupWithZero.Nat
import Mathlib.Algebra.Ring.Int.Defs
import Mathlib.Data.List.Basic

/-!
# Fixed-width words and runs of a machine
-/

namespace Word

def ofLittleEndian : List UInt8 → Nat
  | [] => 0
  | byte :: rest => byte.toNat + 256 * ofLittleEndian rest

/-- The little-endian bytes of `value` in `width` bytes, wrapping modulo `256 ^ width`. -/
def toLittleEndian : Nat → Nat → List UInt8
  | 0, _ => []
  | width + 1, value => UInt8.ofNat value :: toLittleEndian width (value / 256)

def toSigned (width value : Nat) : Int :=
  if 2 * value < 256 ^ width then value else value - 256 ^ width

@[simp] theorem toLittleEndian_length (width value : Nat) :
    (toLittleEndian width value).length = width := by
  induction width generalizing value with
  | zero => rfl
  | succ width ih => simp [toLittleEndian, ih]

theorem byte_cases {motive : UInt8 → Prop} (each : ∀ n < 256, motive (UInt8.ofNat n)) (byte : UInt8) :
    motive byte := by
  rw [← UInt8.ofNat_toNat (x := byte)]
  exact each _ byte.toNat_lt

theorem ofLittleEndian_lt (bytes : List UInt8) : ofLittleEndian bytes < 256 ^ bytes.length := by
  induction bytes with
  | nil => simp [ofLittleEndian]
  | cons byte rest ih =>
      have := byte.toNat_lt
      rw [ofLittleEndian, List.length_cons, Nat.pow_succ]
      omega

theorem ofLittleEndian_inj {left right : List UInt8} (same : left.length = right.length)
    (equal : ofLittleEndian left = ofLittleEndian right) : left = right := by
  induction left generalizing right with
  | nil => exact (List.length_eq_zero_iff.mp same.symm).symm
  | cons byte rest ih =>
      cases right with
      | nil => simp at same
      | cons other others =>
          have below := byte.toNat_lt
          have under := other.toNat_lt
          simp only [ofLittleEndian] at equal
          have first : byte = other := UInt8.toNat_inj.mp (by omega)
          rw [first, ih (by simpa using same) (by omega)]

theorem toLittleEndian_ofLittleEndian (bytes : List UInt8) :
    toLittleEndian bytes.length (ofLittleEndian bytes) = bytes := by
  induction bytes with
  | nil => rfl
  | cons byte rest ih =>
      have below := byte.toNat_lt
      have first : UInt8.ofNat (byte.toNat + 256 * ofLittleEndian rest) = byte := by
        apply UInt8.toNat_inj.mp
        rw [UInt8.toNat_ofNat']
        omega
      have later : (byte.toNat + 256 * ofLittleEndian rest) / 256 = ofLittleEndian rest := by omega
      rw [List.length_cons, ofLittleEndian, toLittleEndian, first, later, ih]

theorem toSigned_bounds {width value : Nat} (below : value < 256 ^ width) :
    -(256 ^ width : Nat) ≤ 2 * toSigned width value ∧
      2 * toSigned width value < (256 ^ width : Nat) := by
  have cast : (256 : Int) ^ width = (256 ^ width : Nat) := (Int.natCast_pow 256 width).symm
  unfold toSigned
  rw [cast]
  split <;> omega

theorem toSigned_emod {width value : Nat} (below : value < 256 ^ width) :
    (toSigned width value % 256 ^ width).toNat = value := by
  have cast : (256 : Int) ^ width = (256 ^ width : Nat) := (Int.natCast_pow 256 width).symm
  have reduced : (value : Int) % (256 ^ width : Nat) = value :=
    Int.emod_eq_of_lt (Int.natCast_nonneg value) (Int.ofNat_lt.mpr below)
  unfold toSigned
  rw [cast]
  split
  · rw [reduced, Int.toNat_natCast]
  · rw [Int.sub_emod_right, reduced, Int.toNat_natCast]

theorem toSigned_inj {width left right : Nat} (below : left < 256 ^ width)
    (under : right < 256 ^ width) (equal : toSigned width left = toSigned width right) :
    left = right := by
  have cast : (256 : Int) ^ width = (256 ^ width : Nat) := (Int.natCast_pow 256 width).symm
  unfold toSigned at equal
  rw [cast] at equal
  split_ifs at equal <;> omega

end Word

section
variable {State Event Output : Type*} (step : Event → State → State)

/-- Every step of the run meets `holds` in the state it starts from. -/
def Along (holds : Event → State → Prop) : List Event → State → Prop
  | [], _ => True
  | event :: rest, state => holds event state ∧ Along holds rest (step event state)

/-- The state a run ends in. -/
def execute (events : List Event) (state : State) : State :=
  events.foldl (fun state event => step event state) state

/-- What the steps of a run put out, in order. -/
def emitted (output : Event → State → List Output) : List Event → State → List Output
  | [], _ => []
  | event :: rest, state => output event state ++ emitted output rest (step event state)

variable {step}

theorem execute_cons (event : Event) (rest : List Event) (state : State) :
    execute step (event :: rest) state = execute step rest (step event state) := rfl

theorem execute_append (first later : List Event) (state : State) :
    execute step (first ++ later) state = execute step later (execute step first state) :=
  List.foldl_append

/-- What the first state has and every step keeps, the last state has. -/
theorem execute_invariant (good : State → Prop)
    (keep : ∀ event state, good state → good (step event state))
    (events : List Event) {state : State} (init : good state) : good (execute step events state) := by
  induction events generalizing state with
  | nil => exact init
  | cons event rest ih => exact ih (keep event state init)

theorem along_congr {holds holds' : Event → State → Prop}
    (same : ∀ event state, holds event state ↔ holds' event state)
    (events : List Event) (state : State) :
    Along step holds events state ↔ Along step holds' events state := by
  induction events generalizing state with
  | nil => exact Iff.rfl
  | cons event rest ih => exact and_congr (same event state) (ih _)

theorem along_of_forall {holds : Event → State → Prop} (always : ∀ event state, holds event state)
    (events : List Event) (state : State) : Along step holds events state := by
  induction events generalizing state with
  | nil => trivial
  | cons event rest ih => exact ⟨always event state, ih (step event state)⟩

theorem along_of_mem {admits : Event → Prop} (events : List Event) (state : State)
    (all : ∀ event ∈ events, admits event) : Along step (fun event _ => admits event) events state := by
  induction events generalizing state with
  | nil => trivial
  | cons event rest ih =>
      exact ⟨all event (.head rest), ih _ fun later inside => all later (.tail event inside)⟩

/-- What follows from an invariant at one step follows at every step of a run. -/
theorem Along.of_invariant (good : State → Prop) {admits holds : Event → State → Prop}
    (keep : ∀ event state, good state → admits event state → good (step event state))
    (conclude : ∀ event state, good state → admits event state → holds event state)
    {events : List Event} {state : State} (init : good state)
    (admitted : Along step admits events state) : Along step holds events state := by
  induction events generalizing state with
  | nil => trivial
  | cons event rest ih =>
      obtain ⟨now, later⟩ := admitted
      exact ⟨conclude event state init now, ih (keep event state init now) later⟩

/-- What every admitted step keeps, a run of them ends with. -/
theorem Along.execute (good : State → Prop) {admits : Event → State → Prop}
    (keep : ∀ event state, good state → admits event state → good (step event state))
    {events : List Event} {state : State} (init : good state)
    (admitted : Along step admits events state) : good (execute step events state) := by
  induction events generalizing state with
  | nil => exact init
  | cons event rest ih => exact ih (keep event state init admitted.1) admitted.2

theorem forall_emitted {output : Event → State → List Output} {good : Output → Prop}
    (events : List Event) (state : State) :
    (∀ x ∈ emitted step output events state, good x) ↔
      Along step (fun event state => ∀ x ∈ output event state, good x) events state := by
  induction events generalizing state with
  | nil => simp [emitted, Along]
  | cons event rest ih => rw [emitted, List.forall_mem_append, ih, Along]

end

import Mathlib.Logic.Relation

/-!
# Processes that share a memory

A process makes one access after the other; what the others do in between is only known by the
changes that they may make. Where it pauses, other code of its own may come in between as well.
-/

/-- What a process has still to do. The answer to an access says how it goes on. -/
inductive Code (Memory : Type)
  | done
  | access (effect : Memory → Bool × Memory) (next : Bool → Code Memory)
  | pause (next : Code Memory)

namespace Code
variable {Memory : Type}

def act (effect : Memory → Memory) (next : Code Memory) : Code Memory :=
  .access (fun memory => (true, effect memory)) fun _ => next

def ask (condition : Memory → Bool) (yes no : Code Memory) : Code Memory :=
  .access (fun memory => (condition memory, memory)) fun answer => bif answer then yes else no

/-- One condition after the other, as `&&` asks them. -/
def askAll : List (Memory → Bool) → Code Memory → Code Memory → Code Memory
  | [], yes, _ => yes
  | condition :: rest, yes, no => ask condition (askAll rest yes no) no

def actAll : List (Memory → Memory) → Code Memory → Code Memory
  | [], next => next
  | effect :: rest, next => act effect (actAll rest next)

def isDone : Code Memory → Bool
  | done => true
  | access _ _ => false
  | pause _ => false

def isPaused : Code Memory → Bool
  | done => false
  | access _ _ => false
  | pause _ => true

/-- The next access, or the end of a pause. -/
def advance : Code Memory → Memory → Memory × Code Memory
  | done, memory => (memory, done)
  | access effect next, memory => ((effect memory).2, next (effect memory).1)
  | pause next, memory => (memory, next)

section
variable (rely guarantee : Memory → Memory → Prop)

/-- What happens around a pause: code of the same process keeps to what the process may do. -/
def Around (memory later : Memory) : Prop := rely memory later ∨ guarantee memory later

/-- Whatever others do, as far as they may, every access is one that the process may make, and the
end is as wanted. -/
def Safe (goal : Memory → Prop) : Code Memory → Memory → Prop
  | done, memory => ∀ later, Relation.ReflTransGen rely memory later → goal later
  | access effect next, memory => ∀ later, Relation.ReflTransGen rely memory later →
      guarantee later (effect later).2 ∧ Safe goal (next (effect later).1) (effect later).2
  | pause next, memory => ∀ later, Relation.ReflTransGen (Around rely guarantee) memory later →
      Safe goal next later

/-- Others leave it as it is. -/
def Stable (holds : Memory → Prop) : Prop :=
  ∀ memory later, rely memory later → holds memory → holds later

end

section
variable {rely guarantee : Memory → Memory → Prop} {goal holds : Memory → Prop}
  {code next yes no : Code Memory} {memory later : Memory}

theorem isDone_iff : code.isDone = true ↔ code = done := by
  cases code <;> simp [isDone]

theorem isPaused_iff : code.isPaused = true ↔ ∃ next, code = pause next := by
  cases code <;> simp [isPaused]

theorem Stable.run (stable : Stable rely holds) (run : Relation.ReflTransGen rely memory later)
    (init : holds memory) : holds later := by
  induction run with
  | refl => exact init
  | tail _ last ih => exact stable _ _ last ih

theorem Stable.and {holds' : Memory → Prop} (stable : Stable rely holds)
    (stable' : Stable rely holds') : Stable rely fun memory => holds memory ∧ holds' memory :=
  fun memory later step both => ⟨stable memory later step both.1, stable' memory later step both.2⟩

theorem Stable.around (stable : Stable rely holds) (stable' : Stable guarantee holds) :
    Stable (Around rely guarantee) holds :=
  fun memory later step => step.elim (stable memory later) (stable' memory later)

/-! ## What others do, and what the process does -/

theorem Safe.disturbed (safe : Safe rely guarantee goal code memory) (step : rely memory later) :
    Safe rely guarantee goal code later := by
  cases code with
  | done => exact fun last run => safe last (.head step run)
  | access effect next => exact fun last run => safe last (.head step run)
  | pause next => exact fun last run => safe last (.head (.inl step) run)

/-- While it pauses, code of the same process goes on. -/
theorem Safe.interrupted (safe : Safe rely guarantee goal (pause next) memory)
    (step : guarantee memory later) : Safe rely guarantee goal (pause next) later :=
  fun last run => safe last (.head (.inr step) run)

theorem Safe.advance (safe : Safe rely guarantee goal code memory)
    (stay : ∀ memory, guarantee memory memory) :
    guarantee memory (code.advance memory).1 ∧
      Safe rely guarantee goal (code.advance memory).2 (code.advance memory).1 := by
  cases code with
  | done => exact ⟨stay memory, safe⟩
  | access effect next => exact safe memory .refl
  | pause next => exact ⟨stay memory, safe memory .refl⟩

theorem Safe.reached (safe : Safe rely guarantee goal done memory) : goal memory :=
  safe memory .refl

theorem Safe.mono {goal' : Memory → Prop} (safe : Safe rely guarantee goal code memory)
    (weaker : ∀ memory, goal memory → goal' memory) : Safe rely guarantee goal' code memory := by
  induction code generalizing memory with
  | done => exact fun later run => weaker later (safe later run)
  | access effect next ih => exact fun later run => ⟨(safe later run).1, ih _ (safe later run).2⟩
  | pause next ih => exact fun later run => ih (safe later run)

/-- What neither the process nor others end still holds at the end. -/
theorem Safe.keeps (safe : Safe rely guarantee goal code memory) (stable : Stable rely holds)
    (stable' : Stable guarantee holds) (init : holds memory) :
    Safe rely guarantee (fun memory => goal memory ∧ holds memory) code memory := by
  induction code generalizing memory with
  | done => exact fun later run => ⟨safe later run, stable.run run init⟩
  | access effect next ih =>
      intro later run
      obtain ⟨allowed, goes⟩ := safe later run
      exact ⟨allowed, ih _ goes (stable' _ _ allowed (stable.run run init))⟩
  | pause next ih =>
      exact fun later run => ih (safe later run) ((stable.around stable').run run init)

/-! ## From what is known before an access to what is known behind it -/

theorem safe_done (stable : Stable rely holds) (reached : ∀ memory, holds memory → goal memory)
    (init : holds memory) : Safe rely guarantee goal done memory :=
  fun later run => reached later (stable.run run init)

theorem safe_access {effect : Memory → Bool × Memory} {next : Bool → Code Memory}
    (stable : Stable rely holds)
    (each : ∀ memory, holds memory → guarantee memory (effect memory).2 ∧
      Safe rely guarantee goal (next (effect memory).1) (effect memory).2)
    (init : holds memory) : Safe rely guarantee goal (.access effect next) memory :=
  fun later run => each later (stable.run run init)

theorem safe_act {effect : Memory → Memory} (stable : Stable rely holds)
    (allowed : ∀ memory, holds memory → guarantee memory (effect memory))
    (goes : ∀ memory, holds memory → Safe rely guarantee goal next (effect memory))
    (init : holds memory) : Safe rely guarantee goal (act effect next) memory :=
  safe_access stable (fun memory held => ⟨allowed memory held, goes memory held⟩) init

theorem safe_ask {condition : Memory → Bool} (stable : Stable rely holds)
    (stay : ∀ memory, guarantee memory memory)
    (goes : ∀ memory, holds memory → condition memory = true → Safe rely guarantee goal yes memory)
    (other : ∀ memory, holds memory → condition memory = false → Safe rely guarantee goal no memory)
    (init : holds memory) : Safe rely guarantee goal (ask condition yes no) memory := by
  apply safe_access stable _ init
  intro memory held
  refine ⟨stay memory, ?_⟩
  cases answer : condition memory with
  | true => exact goes memory held answer
  | false => exact other memory held answer

theorem safe_pause (stable : Stable rely holds) (stable' : Stable guarantee holds)
    (goes : ∀ memory, holds memory → Safe rely guarantee goal next memory)
    (init : holds memory) : Safe rely guarantee goal (pause next) memory :=
  fun later run => goes later ((stable.around stable').run run init)

/-- Conditions that nothing is concluded from. -/
theorem safe_askAll {conditions : List (Memory → Bool)} (stable : Stable rely holds)
    (stay : ∀ memory, guarantee memory memory)
    (goes : ∀ memory, holds memory → Safe rely guarantee goal yes memory)
    (other : ∀ memory, holds memory → Safe rely guarantee goal no memory)
    (init : holds memory) : Safe rely guarantee goal (askAll conditions yes no) memory := by
  induction conditions generalizing memory with
  | nil => exact goes memory init
  | cons condition rest ih =>
      exact safe_ask stable stay (fun _ held _ => ih held)
        (fun memory held _ => other memory held) init

theorem safe_actAll {effects : List (Memory → Memory)} (stable : Stable rely holds)
    (allowed : ∀ effect ∈ effects, ∀ memory, holds memory →
      guarantee memory (effect memory) ∧ holds (effect memory))
    (goes : ∀ memory, holds memory → Safe rely guarantee goal next memory)
    (init : holds memory) : Safe rely guarantee goal (actAll effects next) memory := by
  induction effects generalizing memory with
  | nil => exact goes memory init
  | cons effect rest ih =>
      rw [List.forall_mem_cons] at allowed
      exact safe_act stable (fun memory held => (allowed.1 memory held).1)
        (fun memory held => ih allowed.2 (allowed.1 memory held).2) init

end

end Code

import H5GG.WriteMemory

/-!
# What a write leaves of the pages' protection
-/

namespace H5GG
variable {pageSize address base protection : Nat} {target : Bytes} {answers : WriteAnswers}

/-- The protections after one page has been given `value`, if it is mapped. -/
def setPage (protections : Nat → Option Nat) (page value : Nat) : Nat → Option Nat :=
  Function.update protections page ((protections page).map fun _ => value)

@[simp] theorem setPage_setPage (protections : Nat → Option Nat) (page first second : Nat) :
    setPage (setPage protections page first) page second = setPage protections page second := by
  unfold setPage
  rw [Function.update_self, Function.update_idem, Option.map_map]
  rfl

theorem setPage_eq_iff {protections : Nat → Option Nat} {page value : Nat} :
    setPage protections page value = protections ↔ ∀ old ∈ protections page, old = value := by
  unfold setPage
  rw [Function.update_eq_self_iff]
  cases protections page with
  | none => simp
  | some old => simp [eq_comm]

namespace TaskMemory
variable {memory : TaskMemory}

theorem protect_protection (succeeds : Bool) : (memory.protect pageSize base protection succeeds).protection =
    if succeeds then setPage memory.protection (base / pageSize) (protection &&& VM_PROT_ALL)
    else memory.protection := by
  unfold protect
  split <;> rfl

@[simp] theorem write_protection (failure : Option (Nat → UInt8)) :
    (memory.write address target failure).2.protection = memory.protection := by
  cases failure <;> rfl

theorem write_written {failure : Option (Nat → UInt8)}
    (succeeds : (memory.write address target failure).1 = true) {i : Nat} (inside : i < target.length) :
    (memory.write address target failure).2.byte (address + i) = target[i] := by
  cases failure with
  | some left => cases succeeds
  | none =>
      have : address ≤ address + i ∧ address + i < address + target.length := by omega
      simp [write, this, inside]

@[simp] theorem protect_byte (succeeds : Bool) :
    (memory.protect pageSize base protection succeeds).byte = memory.byte := by
  unfold protect
  split <;> rfl

end TaskMemory

section
variable {memory : TaskMemory}

theorem writeAndRestore_unchanged :
    (writeAndRestore pageSize address target 0 protection answers memory).2.protection =
      memory.protection := by
  simp [writeAndRestore]

theorem writeAndRestore_restores (known : base ≠ 0) (restores : answers.restore = true) :
    (writeAndRestore pageSize address target base protection answers memory).2.protection =
      setPage memory.protection (base / pageSize) (protection &&& VM_PROT_ALL) := by
  unfold writeAndRestore
  simp only [known, ne_eq, not_false_eq_true, and_true, ↓reduceIte, TaskMemory.protect_protection,
    restores]
  by_cases first : (memory.write address target answers.write).1 = false
  · cases retried : answers.protectForRetry with
    | true => simp [first, TaskMemory.protect_protection]
    | false => simp [first, TaskMemory.protect_protection]
  · simp [first]

theorem writeAndRestore_written
    (returned : (writeAndRestore pageSize address target base protection answers memory).1 = true)
    {i : Nat} (inside : i < target.length) :
    (writeAndRestore pageSize address target base protection answers memory).2.byte (address + i) =
      target[i] := by
  have kept (memory : TaskMemory) : (if base ≠ 0 then
      memory.protect pageSize base protection answers.restore else memory).byte = memory.byte := by
    split
    · exact TaskMemory.protect_byte _
    · rfl
  unfold writeAndRestore at returned ⊢
  rw [kept]
  by_cases again : (memory.write address target answers.write).1 = false ∧ base ≠ 0
  · simp only [if_pos again] at returned ⊢
    cases retried : answers.protectForRetry with
    | true =>
        simp only [retried, ↓reduceIte] at returned ⊢
        exact TaskMemory.write_written returned inside
    | false =>
        simp only [retried, Bool.false_eq_true, ↓reduceIte] at returned
        rw [again.1] at returned
        cases returned
  · simp only [if_neg again] at returned ⊢
    exact TaskMemory.write_written returned inside

theorem pageBase_eq (pageSize address : Nat) : pageBase pageSize address = pageSize * (address / pageSize) := by
  unfold pageBase
  have := Nat.div_add_mod address pageSize
  omega

theorem pageBase_page (positive : 0 < pageSize) (address : Nat) :
    pageBase pageSize address / pageSize = address / pageSize := by
  rw [pageBase_eq, Nat.mul_div_cancel_left _ positive]

theorem pageBase_ne_zero (positive : 0 < pageSize) : pageBase pageSize address ≠ 0 ↔ pageSize ≤ address := by
  rw [pageBase_eq, Nat.mul_ne_zero_iff, ← Nat.pos_iff_ne_zero, ← Nat.pos_iff_ne_zero, Nat.div_pos_iff]
  omega

end

/-- The protection that the page is made writable with, less what is not kept of it. -/
def openedWith (answers : WriteAnswers) (info : ReportedRegion) : Nat :=
  if answers.protect then (info.protection ||| VM_PROT_WRITE) &&& VM_PROT_ALL
  else VM_PROT_READ ||| VM_PROT_WRITE

/-- A page that is made writable had, before that, the protection that it is left with: what the
kernel reported, or in the first page what it was made writable with. -/
def KeepsProtection (pageSize address : Nat) (type : Int) (answers : WriteAnswers)
    (memory : TaskMemory) : Prop :=
  (SearchType.ofCode? type).isSome = true → ∀ info ∈ answers.region,
    info.protection &&& VM_PROT_WRITE = 0 → (answers.protect || answers.protectAgain) = true →
      ∀ old ∈ memory.protection (address / pageSize),
        old = if pageSize ≤ address then info.protection &&& VM_PROT_ALL else openedWith answers info

/-- Every page has the protection it had, and a write that is reported was made. -/
structure Restores (address : Nat) (target : Bytes) (type : Int) (memory : TaskMemory)
    (after : Bool × TaskMemory) : Prop where
  protection : ∀ page, after.2.protection page = memory.protection page
  written : after.1 = true → ∃ t, SearchType.ofCode? type = some t ∧
    ∀ i < t.len, target[i]? = some (after.2.byte (address + i))

section
variable {memory : TaskMemory} {type : Int}

theorem copy_not_kept (protection : Nat) : (protection ||| VM_PROT_WRITE ||| VM_PROT_COPY) &&& VM_PROT_ALL =
    (protection ||| VM_PROT_WRITE) &&& VM_PROT_ALL := by
  rw [Nat.and_or_distrib_right (protection ||| VM_PROT_WRITE)]
  exact Nat.or_zero _

theorem opened_protection (positive : 0 < pageSize) (restores : answers.restore = true)
    {info : ReportedRegion} {opened : TaskMemory} {value : Nat}
    (opens : opened.protection = setPage memory.protection (address / pageSize) value) :
    (writeAndRestore pageSize address target (pageBase pageSize address) info.protection answers
      opened).2.protection = setPage memory.protection (address / pageSize)
        (if pageSize ≤ address then info.protection &&& VM_PROT_ALL else value) := by
  by_cases known : pageSize ≤ address
  · rw [writeAndRestore_restores ((pageBase_ne_zero positive).mpr known) restores, opens,
      pageBase_page positive, setPage_setPage, if_pos known]
  · have zero : pageBase pageSize address = 0 := by
      by_contra nonzero
      exact known ((pageBase_ne_zero positive).mp nonzero)
    rw [zero, writeAndRestore_unchanged, opens, if_neg known]

theorem jjWriteMemory_protection (positive : 0 < pageSize) (restores : answers.restore = true) :
    (jjWriteMemory pageSize address target type answers memory).2.protection = memory.protection ↔
      KeepsProtection pageSize address type answers memory := by
  unfold jjWriteMemory KeepsProtection
  cases SearchType.ofCode? type with
  | none => simp
  | some t =>
      cases answers.region with
      | none => simp
      | some info =>
          simp only [Option.isSome_some, true_implies, Option.mem_def, Option.some.injEq, forall_eq']
          by_cases closed : info.protection &&& VM_PROT_WRITE = 0
          · rw [if_pos closed]
            have opens (protection : Nat) :
                (memory.protect pageSize (pageBase pageSize address) protection true).protection =
                  setPage memory.protection (address / pageSize) (protection &&& VM_PROT_ALL) := by
              rw [TaskMemory.protect_protection, if_pos rfl, pageBase_page positive]
            cases first : answers.protect with
            | true =>
                have value : openedWith answers info =
                    (info.protection ||| VM_PROT_WRITE ||| VM_PROT_COPY) &&& VM_PROT_ALL := by
                  rw [openedWith, if_pos first, copy_not_kept]
                rw [if_pos rfl, opened_protection positive restores (opens _), setPage_eq_iff, value]
                simp [closed]
            | false =>
                have same (protection : Nat) :
                    memory.protect pageSize (pageBase pageSize address) protection false = memory := rfl
                rw [if_neg Bool.false_ne_true, same]
                cases second : answers.protectAgain with
                | true =>
                    have value : openedWith answers info =
                        (VM_PROT_READ ||| VM_PROT_WRITE ||| VM_PROT_COPY) &&& VM_PROT_ALL := by
                      rw [openedWith, first]
                      rfl
                    rw [if_pos rfl, opened_protection positive restores (opens _), setPage_eq_iff, value]
                    simp [closed]
                | false => simp [same]
          · rw [if_neg closed, writeAndRestore_unchanged]
            simp [closed]

theorem jjWriteMemory_written (buffer : 8 ≤ target.length)
    (returned : (jjWriteMemory pageSize address target type answers memory).1 = true) :
    ∃ t, SearchType.ofCode? type = some t ∧ ∀ i < t.len, target[i]? =
      some ((jjWriteMemory pageSize address target type answers memory).2.byte (address + i)) := by
  have written {t : SearchType} {base protection : Nat} {memory : TaskMemory}
      (returned : (writeAndRestore pageSize address (target.take t.len) base protection answers
        memory).1 = true) : ∀ i < t.len, target[i]? = some ((writeAndRestore pageSize address
          (target.take t.len) base protection answers memory).2.byte (address + i)) := by
    intro i inside
    have len : t.len ≤ 8 := by cases t <;> decide
    have bound : i < (target.take t.len).length := by
      rw [List.length_take]
      omega
    rw [writeAndRestore_written returned bound, List.getElem_take, List.getElem?_eq_getElem]
  unfold jjWriteMemory at returned ⊢
  cases known : SearchType.ofCode? type with
  | none =>
      rw [known] at returned
      cases returned
  | some t =>
      simp only [known] at returned ⊢
      refine ⟨t, rfl, ?_⟩
      cases reported : answers.region with
      | none =>
          rw [reported] at returned
          cases returned
      | some info =>
          simp only [reported] at returned ⊢
          split_ifs at returned ⊢
          · exact written returned
          · exact written returned
          · exact written returned

theorem jjWriteMemory_restores_iff (positive : 0 < pageSize) (buffer : 8 ≤ target.length)
    (restores : answers.restore = true) :
    Restores address target type memory (jjWriteMemory pageSize address target type answers memory) ↔
      KeepsProtection pageSize address type answers memory := by
  have protects : (jjWriteMemory pageSize address target type answers memory).2.protection =
      memory.protection ↔ _ := jjWriteMemory_protection positive restores
  rw [← protects, funext_iff]
  constructor
  · exact fun restored => restored.protection
  · exact fun same => ⟨same, jjWriteMemory_written buffer⟩

/-- One page of `0x4000` bytes that can only be read. -/
def readOnlyPage (page : Nat) : TaskMemory where
  protection p := if p = page then some VM_PROT_READ else none
  byte _ := 0

/-- Everything succeeds at once. -/
def pageAnswers (page : Nat) : WriteAnswers where
  region := some ⟨page * 0x4000, 0x4000, VM_PROT_READ⟩
  protect := true
  protectAgain := false
  write := none
  protectForRetry := false
  writeAgain := none
  restore := true

theorem jjWriteMemory_restores_iff_secondPage :
    Restores 0x4010 (List.replicate 8 1) 6 (readOnlyPage 1)
      (jjWriteMemory 0x4000 0x4010 (List.replicate 8 1) 6 (pageAnswers 1) (readOnlyPage 1)) ↔
    KeepsProtection 0x4000 0x4010 6 (pageAnswers 1) (readOnlyPage 1) :=
  jjWriteMemory_restores_iff (by decide) (by decide) rfl

/-- The first page stays writable. -/
theorem jjWriteMemory_firstPage : ¬∀ (pageSize address : Nat) (target : Bytes) (type : Int)
    (answers : WriteAnswers) (memory : TaskMemory), 0 < pageSize → 8 ≤ target.length →
      answers.restore = true → Restores address target type memory
        (jjWriteMemory pageSize address target type answers memory) := by
  intro claim
  have restored := claim 0x4000 0x10 (List.replicate 8 1) 6 (pageAnswers 0) (readOnlyPage 0)
    (by decide) (by decide) rfl
  have kept := (jjWriteMemory_restores_iff (by decide) (by decide) rfl).mp restored
  have same := kept rfl ⟨0, 0x4000, VM_PROT_READ⟩ rfl rfl rfl VM_PROT_READ rfl
  exact absurd same (by decide)

end

end H5GG

import H5GG.Proof.Engine.Spec

/-!
# The four change searches against each other
-/

namespace H5GG

/-- A result with the region it sits in. -/
structure Located where
  regionBase : Nat
  regionSize : Nat
  slide : Nat
  type : Int
  deriving DecidableEq

def ResultRegion.located (region : ResultRegion) (fallback : Int) : List Located :=
  (region.typed fallback).map fun entry =>
    ⟨region.regionBase, region.regionSize, entry.1, entry.2⟩

def Engine.located (e : Engine) : List Located :=
  e.result.allRegions.flatMap (·.located e.lastNumberType)

namespace Located

def address (x : Located) : Nat := u64 (x.regionBase + x.slide)

/-- The value read at a result now, at the width of its type. -/
def readNow (x : Located) (t : Target) : Option Bytes :=
  t.reader.readExact x.address (searchTypeLen (uint8 x.type))

def examined (t : Target) (snapshot : Snapshot) (x : Located) : Bool :=
  (t.loadRegion x.regionBase x.regionSize).isSome && (snapshot x.address).isSome &&
    (x.readNow t).isSome

def keeps (t : Target) (snapshot : Snapshot) (change : ChangeType) (x : Located) : Bool :=
  (t.loadRegion x.regionBase x.regionSize).isSome &&
    match snapshot x.address, x.readNow t with
    | some (snapType, snapValue), some bytes =>
        keepsChange change (uint8 x.type) snapType (Word.ofLittleEndian bytes) snapValue
    | _, _ => false

end Located

section
variable {t : Target} {snapshot : Snapshot} {change : ChangeType} {x : Located}

theorem uint8_ne_zero_of_read {address : Nat} {type : Int} {bytes : Bytes}
    (read : t.reader.readExact address (searchTypeLen (uint8 type)) = some bytes) : type ≠ 0 := by
  rintro rfl
  have positive := (Target.readExact_reader.mp read).1
  exact absurd positive (by decide)

theorem changeKeeps_typed {region : ResultRegion} {entry : Nat × Int}
    (kept : changeKeeps t snapshot change region entry = true) : entry.2 ≠ 0 := by
  unfold changeKeeps at kept
  cases read : t.reader.readExact (region.address entry.1) (searchTypeLen (uint8 entry.2)) with
  | none => simp [read] at kept
  | some bytes => exact uint8_ne_zero_of_read read

theorem located_growAll {base size : Nat} {entries : List (Nat × Int)} {fallback : Int}
    {typed : Bool} (types : ∀ entry ∈ entries, entry.2 ≠ 0 ∧ (typed = false → entry.2 = fallback)) :
    (growAll base size (entries.map fun entry => (entry.1, if typed then entry.2 else 0))).elim []
        (·.located fallback) =
      entries.map fun entry => ⟨base, size, entry.1, entry.2⟩ := by
  cases built : growAll base size (entries.map fun entry =>
      (entry.1, if typed then entry.2 else 0)) with
  | none =>
      by_cases empty : entries = []
      · rw [empty]
        rfl
      · rw [growAll_eq, if_neg (by simpa using empty)] at built
        cases built
  | some region =>
      have grown := typed_of_growAll built types
      obtain ⟨rfl, rfl, -⟩ := growAll_some built
      rw [Option.elim_some, ResultRegion.located, grown]

theorem changeRegion_located {e : Engine} {region : ResultRegion} :
    (changeRegion t e change region).elim [] (·.located e.lastNumberType) =
      (region.located e.lastNumberType).filter (Located.keeps t e.snapshot change) := by
  cases loaded : t.loadRegion region.regionBase region.regionSize with
  | none =>
      have dropped : ∀ x ∈ region.located e.lastNumberType,
          ¬ Located.keeps t e.snapshot change x = true := by
        intro x member
        obtain ⟨entry, -, rfl⟩ := List.mem_map.mp member
        simp [Located.keeps, loaded]
      rw [List.filter_eq_nil_iff.mpr dropped]
      simp [changeRegion, loaded]
  | some buffer =>
      rw [changeRegion_eq loaded, located_growAll]
      · rw [ResultRegion.located, List.filter_map]
        congr 2
        funext entry
        simp only [Function.comp_apply, Located.keeps, loaded, Option.isSome_some, Bool.true_and]
        rfl
      · intro entry member
        obtain ⟨typed, kept⟩ := List.mem_filter.mp member
        refine ⟨changeKeeps_typed kept, fun untyped => ?_⟩
        simp only [ResultRegion.hasTypes, decide_eq_false_iff_not, ne_eq, not_not] at untyped
        rw [ResultRegion.typed_of_untyped untyped] at typed
        obtain ⟨slide, -, rfl⟩ := List.mem_map.mp typed
        rfl

/-- A change search filters the results one by one. -/
theorem jjRefineByChange_located {e : Engine} :
    (e.jjRefineByChange t change).located =
      e.located.filter (Located.keeps t e.snapshot change) := by
  have type : (e.jjRefineByChange t change).lastNumberType = e.lastNumberType := rfl
  rw [Engine.located, type, jjRefineByChange_result, Result.allRegions_ofRegions, Engine.located,
    List.filter_flatMap]
  induction e.result.allRegions with
  | nil => rfl
  | cons region rest ih =>
      rw [List.flatMap_cons, ← ih, ← changeRegion_located]
      cases built : changeRegion t e change region with
      | none => simp [built]
      | some kept =>
          by_cases found : kept.slides = []
          · simp [built, found, ResultRegion.located, ResultRegion.typed]
          · simp [built, found]

end

section
variable {type snapType : Int} {curValue snapValue : Nat}

theorem keepsChange_changed :
    keepsChange .changed type snapType curValue snapValue =
      !keepsChange .unchanged type snapType curValue snapValue := rfl

theorem keepsChange_ordered {change : ChangeType}
    (ordered : change = .increased ∨ change = .decreased)
    (kept : keepsChange change type snapType curValue snapValue = true) :
    keepsChange .changed type snapType curValue snapValue = true := by
  rcases ordered with rfl | rfl <;>
  · simp only [keepsChange, Bool.and_eq_true] at kept
    exact kept.1.1

theorem Scalar.compareValues_asymm {scalar : Scalar} {current target : Bytes}
    (greater : scalar.compareValues current target .greater = true) :
    scalar.compareValues current target .less = false := by
  cases scalar with
  | floating format =>
      simp only [compareValues, IEEE754.Value.lt, Bool.and_eq_true, Bool.not_eq_true'] at greater ⊢
      rw [greater.2, Bool.false_and]
  | signed =>
      simp only [compareValues, decide_eq_true_eq, decide_eq_false_iff_not] at greater ⊢
      omega
  | unsigned =>
      simp only [compareValues, decide_eq_true_eq, decide_eq_false_iff_not] at greater ⊢
      omega

theorem loadInteger_inj {signed : Bool} {left right : Bytes} (same : left.length = right.length)
    (equal : loadInteger signed left = loadInteger signed right) : left = right := by
  apply Word.ofLittleEndian_inj same
  cases signed with
  | false => exact Int.ofNat_inj.mp equal
  | true =>
      simp only [loadInteger, ↓reduceIte, ← same] at equal
      exact Word.toSigned_inj (Word.ofLittleEndian_lt left)
        (same ▸ Word.ofLittleEndian_lt right) equal

theorem Scalar.compareValues_total {scalar : Scalar} (integer : ∀ format, scalar ≠ .floating format)
    {current target : Bytes} (same : current.length = target.length) (differ : current ≠ target) :
    scalar.compareValues current target .greater = true ∨
      scalar.compareValues current target .less = true := by
  cases scalar with
  | floating format => exact absurd rfl (integer format)
  | signed =>
      have apart : loadInteger true current ≠ loadInteger true target :=
        fun equal => differ (loadInteger_inj same equal)
      simp only [compareValues, decide_true, decide_eq_true_eq]
      omega
  | unsigned =>
      have apart : loadInteger false current ≠ loadInteger false target :=
        fun equal => differ (loadInteger_inj same equal)
      simp only [compareValues, reduceCtorEq, decide_false, decide_eq_true_eq]
      omega

theorem keepsChange_apart
    (increased : keepsChange .increased type snapType curValue snapValue = true) :
    keepsChange .decreased type snapType curValue snapValue = false := by
  simp only [keepsChange, Bool.and_eq_true] at increased
  obtain ⟨-, compared⟩ := increased
  cases known : SearchType.ofCode? type with
  | none => simp [known] at compared
  | some searched =>
      simp only [known] at compared
      simp [keepsChange, known, Scalar.compareValues_asymm compared]

/-- An integer seen with its own type before either grew or shrank when its bytes changed. -/
theorem keepsChange_integer {searched : SearchType}
    (integer : ∀ format, searched.scalar ≠ .floating format) :
    keepsChange .changed searched.code searched.code curValue snapValue = true ↔
      keepsChange .increased searched.code searched.code curValue snapValue = true ∨
        keepsChange .decreased searched.code searched.code curValue snapValue = true := by
  constructor
  · intro changed
    have differ : Word.toLittleEndian (searchTypeLen searched.code) curValue ≠
        Word.toLittleEndian (searchTypeLen searched.code) snapValue := by
      simpa [keepsChange] using changed
    have ordered := Scalar.compareValues_total integer (by simp) differ
    simpa [keepsChange, differ] using ordered
  · rintro (increased | decreased)
    · exact keepsChange_ordered (.inl rfl) increased
    · exact keepsChange_ordered (.inr rfl) decreased

end

namespace Located
variable {t : Target} {snapshot : Snapshot} {x : Located}

theorem keeps_iff {change : ChangeType} :
    x.keeps t snapshot change = true ↔ x.examined t snapshot = true ∧
      ∀ snapType snapValue bytes, snapshot x.address = some (snapType, snapValue) →
        x.readNow t = some bytes →
          keepsChange change (uint8 x.type) snapType (Word.ofLittleEndian bytes) snapValue := by
  unfold keeps examined
  cases seen : snapshot x.address with
  | none => simp
  | some entry =>
      cases read : x.readNow t with
      | none => simp
      | some bytes =>
          obtain ⟨snapType, snapValue⟩ := entry
          simp

theorem examined_values (examined : x.examined t snapshot = true) :
    ∃ snapType snapValue bytes, snapshot x.address = some (snapType, snapValue) ∧
      x.readNow t = some bytes := by
  simp only [Located.examined, Bool.and_eq_true, Option.isSome_iff_exists] at examined
  obtain ⟨⟨-, entry, seen⟩, bytes, read⟩ := examined
  exact ⟨entry.1, entry.2, bytes, seen, read⟩

theorem keeps_changed : x.keeps t snapshot .changed =
    (x.examined t snapshot && !x.keeps t snapshot .unchanged) := by
  unfold keeps examined
  cases snapshot x.address with
  | none => simp
  | some entry =>
      cases x.readNow t with
      | none => simp
      | some bytes =>
          cases (t.loadRegion x.regionBase x.regionSize).isSome with
          | false => rfl
          | true =>
              exact (keepsChange_changed : keepsChange .changed (uint8 x.type) entry.1 _ _ = _)

theorem keeps_unchanged : x.keeps t snapshot .unchanged =
    (x.examined t snapshot && x.keeps t snapshot .unchanged) := by
  cases kept : x.keeps t snapshot .unchanged with
  | false => simp
  | true => rw [(keeps_iff.mp kept).1, Bool.and_self]

theorem keeps_ordered {change : ChangeType} (ordered : change = .increased ∨ change = .decreased)
    (kept : x.keeps t snapshot change = true) : x.keeps t snapshot .changed = true := by
  obtain ⟨examined, compared⟩ := keeps_iff.mp kept
  exact keeps_iff.mpr ⟨examined, fun snapType snapValue bytes seen read =>
    keepsChange_ordered ordered (compared snapType snapValue bytes seen read)⟩

theorem keeps_apart (increased : x.keeps t snapshot .increased = true) :
    x.keeps t snapshot .decreased = false := by
  obtain ⟨examined, compared⟩ := keeps_iff.mp increased
  obtain ⟨snapType, snapValue, bytes, seen, read⟩ := examined_values examined
  rw [Bool.eq_false_iff]
  intro decreased
  have less := (keeps_iff.mp decreased).2 snapType snapValue bytes seen read
  rw [keepsChange_apart (compared snapType snapValue bytes seen read)] at less
  cases less

theorem keeps_integer {searched : SearchType} (typed : uint8 x.type = searched.code)
    (integer : ∀ format, searched.scalar ≠ .floating format)
    (same : (snapshot x.address).map Prod.fst = some searched.code) :
    x.keeps t snapshot .changed = true ↔
      x.keeps t snapshot .increased = true ∨ x.keeps t snapshot .decreased = true := by
  constructor
  · intro kept
    obtain ⟨examined, changed⟩ := keeps_iff.mp kept
    obtain ⟨snapType, snapValue, bytes, seen, read⟩ := examined_values examined
    obtain rfl : snapType = searched.code := by simpa [seen] using same
    have compared := changed _ _ _ seen read
    rw [typed, keepsChange_integer integer] at compared
    rcases compared with increased | decreased
    · left
      simpa [keeps_iff, examined, seen, read, typed] using increased
    · right
      simpa [keeps_iff, examined, seen, read, typed] using decreased
  · rintro (increased | decreased)
    · exact keeps_ordered (.inl rfl) increased
    · exact keeps_ordered (.inr rfl) decreased

end Located

/-- Unchanged and Changed divide the results that can be compared; Increased and Decreased are
apart inside Changed, and cover its integers seen with their own type. -/
theorem changeSearches_partition (t : Target) (e : Engine) :
    let found := fun change => (e.jjRefineByChange t change).located
    (found .unchanged).Disjoint (found .changed) ∧
      (found .unchanged ++ found .changed).Perm
        (e.located.filter (Located.examined t e.snapshot)) ∧
      (found .increased).Disjoint (found .decreased) ∧
      (found .increased).Sublist (found .changed) ∧ (found .decreased).Sublist (found .changed) ∧
      (∀ x (type : SearchType), uint8 x.type = type.code →
        (∀ format, type.scalar ≠ .floating format) →
        (e.snapshot x.address).map Prod.fst = some type.code →
        (x ∈ found .changed ↔ x ∈ found .increased ∨ x ∈ found .decreased)) ∧
      ∀ change, (found change).Sublist e.located := by
  simp only [jjRefineByChange_located]
  refine ⟨?_, ?_, ?_, ?_, ?_, ?_, fun change => List.filter_sublist⟩
  · intro x unchanged changed
    have kept := (List.mem_filter.mp changed).2
    rw [Located.keeps_changed, (List.mem_filter.mp unchanged).2, Bool.not_true,
      Bool.and_false] at kept
    cases kept
  · have divided := List.filter_append_perm (Located.keeps t e.snapshot .unchanged)
      (e.located.filter (Located.examined t e.snapshot))
    rw [List.filter_filter, List.filter_filter] at divided
    convert divided using 3
    · funext x
      rw [Bool.and_comm, ← Located.keeps_unchanged]
    · funext x
      rw [Bool.and_comm, ← Located.keeps_changed]
  · intro x increased decreased
    have kept := (List.mem_filter.mp decreased).2
    rw [Located.keeps_apart (List.mem_filter.mp increased).2] at kept
    cases kept
  · exact List.monotone_filter_right _ fun x kept => Located.keeps_ordered (.inl rfl) kept
  · exact List.monotone_filter_right _ fun x kept => Located.keeps_ordered (.inr rfl) kept
  · intro x type typed integer same
    simp only [List.mem_filter, ← and_or_left, Located.keeps_integer typed integer same]

end H5GG

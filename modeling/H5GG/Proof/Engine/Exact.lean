import H5GG.Proof.Engine.FirstScan

/-!
# Exactness of the first scans

A slide has 32 bits, so a first scan is exact as long as no match lies 4 GiB or more behind the
start of its part.
-/

namespace H5GG

/-- A whole element of the part, counted from its start, that matches some value. -/
def numericMatch (t : Target) (tolerance : Nat) (values : List JJSearchValue) (type : SearchType)
    (part : Nat × Nat) (a : Nat) : Prop :=
  (∃ k, a = part.1 + k * type.len) ∧ a + type.len ≤ part.1 + t.loadedSize part.1 part.2 ∧
    jjSearchValueMatchesAny (t.bytesAt a type.len) values type tolerance = true

/-- An address of the part at which the whole pattern fits and matches. -/
def hexMatch (t : Target) (pattern : JJHexPattern) (part : Nat × Nat) (a : Nat) : Prop :=
  part.1 ≤ a ∧ a + pattern.size ≤ part.1 + t.loadedSize part.1 part.2 ∧
    jjHexPatternMatches (t.bytesAt a pattern.size) pattern = true

/-- Each of the expected addresses once, in ascending order, with one type, and nothing else. -/
def reportsExactly (hits : List (Nat × Int)) (type : Int) (expected : Nat → Prop) : Prop :=
  (hits.map Prod.fst).Pairwise (· < ·) ∧ ∀ hit, hit ∈ hits ↔ hit.2 = type ∧ expected hit.1

theorem reportsExactly_map {addresses : List Nat} {type : Int} {expected : Nat → Prop} :
    reportsExactly (addresses.map fun a => (a, type)) type expected ↔
      addresses.Pairwise (· < ·) ∧ ∀ a, a ∈ addresses ↔ expected a := by
  have fst : (addresses.map fun a => (a, type)).map Prod.fst = addresses := by
    rw [List.map_map]
    exact List.map_id addresses
  unfold reportsExactly
  rw [fst]
  refine and_congr_right fun _ => ⟨fun exact a => ?_, fun exact hit => ?_⟩
  · simpa using exact (a, type)
  · obtain ⟨a, other⟩ := hit
    simp only [List.mem_map, Prod.mk.injEq, ← exact a]
    constructor
    · rintro ⟨_, member, rfl, rfl⟩
      exact ⟨rfl, member⟩
    · rintro ⟨rfl, member⟩
      exact ⟨a, member, rfl, rfl⟩

theorem u32_eq_self_iff {n : Nat} : u32 n = n ↔ n < 2 ^ 32 :=
  ⟨fun same => same ▸ u32_lt n, u32_of_lt⟩

/-- What the two first scans share: offsets are reported through the 32 bits of a slide. -/
theorem narrowed_exact_iff {parts : List (Nat × Nat)} {offsets : Nat × Nat → List Nat} {type : Int}
    {found : Nat × Nat → Nat → Prop} (ordered : Layout.Ordered Prod.fst Prod.snd offsets parts)
    (wide : ∀ part ∈ parts, part.1 + part.2 < 2 ^ 64)
    (exact : ∀ part ∈ parts, ∀ a, found part a ↔ ∃ offset ∈ offsets part, a = part.1 + offset) :
    reportsExactly (parts.flatMap fun part =>
        (offsets part).map fun offset => (u64 (part.1 + u32 offset), type)) type
        (fun a => ∃ part ∈ parts, found part a) ↔
      ∀ part ∈ parts, ∀ a, found part a → a < part.1 + 2 ^ 32 := by
  have shape : (parts.flatMap fun part =>
      (offsets part).map fun offset => (u64 (part.1 + u32 offset), type)) =
        (Layout.addresses Prod.fst offsets u32 parts).map fun a => (a, type) := by
    rw [Layout.addresses, List.map_flatMap]
    refine List.flatMap_congr fun part member => ?_
    rw [List.map_map]
    refine List.map_congr_left fun offset inside => ?_
    have := wide part member
    have := ordered.inside part member offset inside
    have := u32_le offset
    rw [u64_of_lt (by omega)]
    rfl
  have expected (a : Nat) : (∃ part ∈ parts, found part a) ↔
      ∃ part ∈ parts, ∃ offset ∈ offsets part, a = part.1 + offset :=
    exists_congr fun part => and_congr_right fun member => exact part member a
  rw [shape, reportsExactly_map]
  simp only [expected]
  rw [Layout.addresses_exact_iff ordered]
  refine forall₂_congr fun part member => ?_
  simp only [u32_eq_self_iff]
  constructor
  · intro narrow a matched
    obtain ⟨offset, inside, rfl⟩ := (exact part member a).mp matched
    have := narrow offset inside
    omega
  · intro narrow offset inside
    have := narrow (part.1 + offset) ((exact part member _).mpr ⟨offset, inside, rfl⟩)
    omega

section
variable {t : Target} {range : AddrRange} {tolerance : Nat} {values : List JJSearchValue}
  {type : SearchType} {pattern : JJHexPattern}

theorem numericMatch_iff {part : Nat × Nat} {a : Nat} :
    numericMatch t tolerance values type part a ↔
      ∃ offset ∈ numericOffsets t tolerance values type part, a = part.1 + offset := by
  simp only [mem_numericOffsets]
  constructor
  · rintro ⟨⟨k, rfl⟩, fits, found⟩
    exact ⟨k * type.len, ⟨⟨k, rfl⟩, by omega, found⟩, rfl⟩
  · rintro ⟨_, ⟨⟨k, rfl⟩, fits, found⟩, rfl⟩
    exact ⟨⟨k, rfl⟩, by omega, found⟩

theorem hexMatch_iff {part : Nat × Nat} {a : Nat} :
    hexMatch t pattern part a ↔ ∃ offset ∈ hexOffsets t pattern part, a = part.1 + offset := by
  simp only [mem_hexOffsets]
  constructor
  · rintro ⟨above, fits, found⟩
    have address : part.1 + (a - part.1) = a := by omega
    exact ⟨a - part.1, ⟨by omega, by rw [address]; exact found⟩, address.symm⟩
  · rintro ⟨offset, ⟨fits, found⟩, rfl⟩
    exact ⟨by omega, by omega, found⟩

theorem ordered_numericOffsets :
    Layout.Ordered Prod.fst Prod.snd (numericOffsets t tolerance values type) (parts t range) where
  apart := parts_apart
  sorted _ _ := numericOffsets_sorted
  inside _ _ _ := numericOffsets_lt

theorem ordered_hexOffsets :
    Layout.Ordered Prod.fst Prod.snd (hexOffsets t pattern) (parts t range) where
  apart := parts_apart
  sorted _ _ := hexOffsets_sorted
  inside _ _ _ := hexOffsets_lt

end

section
variable {t : Target} {e : Engine} {range : AddrRange}

theorem saveSnapshot_hits : (e.saveSnapshot t).hits = e.hits := by
  rw [saveSnapshot_eq]
  rfl

theorem jjScanMemoryAny_first {values : List JJSearchValue} {type : Int} {searched : SearchType}
    (first : e.firstScanDone = false) (empty : e.result = {}) (given : values ≠ [])
    (valid : SearchType.ofCode? type = some searched) :
    (e.jjScanMemoryAny t range values type).hits =
      if range.start < range.stop then
        (parts t range).flatMap fun part =>
          (numericOffsets t e.floatTolerance values searched part).map fun offset =>
            (u64 (part.1 + u32 offset), type)
      else [] := by
  simp only [Engine.jjScanMemoryAny, valid, if_neg given, first, Bool.false_eq_true, ↓reduceIte,
    saveSnapshot_hits]
  split_ifs with ordered
  · rw [Engine.hits, firstScanAny_result (by exact empty) ordered]
    exact hits_scannedRegions (fun _ _ _ _ => typed_numeric) _
  · rw [Engine.hits, firstScanAny_inverted (by exact empty) (by omega)]
    rfl

theorem jjScanHexMemory_first {hexStr : CString} {pattern : JJHexPattern}
    (first : e.firstScanDone = false) (empty : e.result = {})
    (parsed : jjParseMaskedHexPattern hexStr = some pattern) (ordered : range.start < range.stop) :
    (e.jjScanHexMemory t range hexStr).hits =
      (parts t range).flatMap fun part => (hexOffsets t pattern part).map fun offset =>
        (u64 (part.1 + u32 offset), SearchType.uByte.code) := by
  simp only [Engine.jjScanHexMemory, parsed, first, Bool.false_eq_true, ↓reduceIte,
    saveSnapshot_hits]
  rw [Engine.hits, firstScanHex_result empty ordered]
  exact hits_scannedRegions (fun _ _ _ found => typed_hex found) _

theorem numericScan_exact_iff {values : List JJSearchValue} {type : Int} {searched : SearchType}
    (first : e.firstScanDone = false) (empty : e.result = {}) (given : values ≠ [])
    (valid : SearchType.ofCode? type = some searched) :
    reportsExactly (e.jjScanMemoryAny t range values type).hits type
        (fun a => ∃ part ∈ parts t range,
          numericMatch t e.floatTolerance values searched part a) ↔
      ∀ part ∈ parts t range, ∀ a, numericMatch t e.floatTolerance values searched part a →
        a < part.1 + 2 ^ 32 := by
  rw [jjScanMemoryAny_first first empty given valid]
  split_ifs with ordered
  · exact narrowed_exact_iff ordered_numericOffsets
      (fun part member => (parts_bounds member).2.2.2) fun part _ a => numericMatch_iff
  · have outside : parts t range = [] := by
      refine List.eq_nil_iff_forall_not_mem.mpr fun part member => ?_
      have := parts_bounds member
      omega
    simp [outside, reportsExactly]

theorem hexScan_exact_iff {hexStr : CString} {pattern : JJHexPattern}
    (first : e.firstScanDone = false) (empty : e.result = {})
    (parsed : jjParseMaskedHexPattern hexStr = some pattern) (ordered : range.start < range.stop) :
    reportsExactly (e.jjScanHexMemory t range hexStr).hits SearchType.uByte.code
        (fun a => ∃ part ∈ parts t range, hexMatch t pattern part a) ↔
      ∀ part ∈ parts t range, ∀ a, hexMatch t pattern part a → a < part.1 + 2 ^ 32 := by
  rw [jjScanHexMemory_first first empty parsed ordered]
  exact narrowed_exact_iff ordered_hexOffsets
    (fun part member => (parts_bounds member).2.2.2) fun part _ a => hexMatch_iff

/-- First scans are exact as far as the slides reach. -/
theorem firstScans_exact_iff (first : e.firstScanDone = false) (empty : e.result = {}) :
    (∀ values type searched, values ≠ [] → SearchType.ofCode? type = some searched →
      (reportsExactly (e.jjScanMemoryAny t range values type).hits type
          (fun a => ∃ part ∈ parts t range,
            numericMatch t e.floatTolerance values searched part a) ↔
        ∀ part ∈ parts t range, ∀ a, numericMatch t e.floatTolerance values searched part a →
          a < part.1 + 2 ^ 32)) ∧
    (∀ hexStr pattern, jjParseMaskedHexPattern hexStr = some pattern →
      range.start < range.stop →
      (reportsExactly (e.jjScanHexMemory t range hexStr).hits SearchType.uByte.code
          (fun a => ∃ part ∈ parts t range, hexMatch t pattern part a) ↔
        ∀ part ∈ parts t range, ∀ a, hexMatch t pattern part a → a < part.1 + 2 ^ 32)) :=
  ⟨fun _ _ _ given valid => numericScan_exact_iff first empty given valid,
    fun _ _ parsed ordered => hexScan_exact_iff first empty parsed ordered⟩

end

def byteValue (n : UInt8) : JJSearchValue := ⟨n :: n :: List.replicate 14 0, rfl⟩

theorem firstScans_exact_zeros :
    reportsExactly (Engine.fresh.jjScanMemoryAny (.onePage fun _ => 0)
        ⟨0x100000000, 0x100000008⟩ [byteValue 0] SearchType.uByte.code).hits
      SearchType.uByte.code
      (fun a => ∃ part ∈ parts (.onePage fun _ => 0) ⟨0x100000000, 0x100000008⟩,
        numericMatch (.onePage fun _ => 0) 0 [byteValue 0] .uByte part a) := by
  refine ((firstScans_exact_iff rfl rfl).1 _ _ .uByte (by simp) rfl).mpr ?_
  rintro part member a ⟨-, fits, -⟩
  have bounds := parts_bounds member
  have loaded := loadedSize_le (.onePage fun _ => 0) part.1 part.2
  dsimp only at bounds
  omega

def wideTarget : Target :=
  .ofMemory 0x4000 Target.page_pos (fun a => if a = 0x200000000 then 1 else 0) (fun _ => true)
    { entries := [(0x100000000, 0x100004000)], ascending := by simp, bounded := by decide }

/-- The byte is reported at the start of the region. -/
theorem firstScan_not_exact :
    ¬ reportsExactly (Engine.fresh.jjScanMemoryAny wideTarget ⟨0x100000000, 0x200000001⟩
        [byteValue 1] SearchType.uByte.code).hits SearchType.uByte.code
      (fun a => ∃ part ∈ parts wideTarget ⟨0x100000000, 0x200000001⟩,
        numericMatch wideTarget 0 [byteValue 1] .uByte part a) := by
  intro exact
  have matched : numericMatch wideTarget 0 [byteValue 1] .uByte (0x100000000, 0x100000001)
      0x200000000 := by
    have loaded : wideTarget.loadedSize 0x100000000 0x100000001 = 0x100000001 :=
      Target.loadedSize_ofMemory _ _
    have width : SearchType.uByte.len = 1 := rfl
    refine ⟨⟨0x100000000, ?_⟩, ?_, by decide⟩
    · simp only [width]
    · simp only [loaded, width]
      omega
  have listed : (0x100000000, 0x100000001) ∈ parts wideTarget ⟨0x100000000, 0x200000001⟩ := by
    decide
  have narrow := (numericScan_exact_iff rfl rfl (List.cons_ne_nil _ _) rfl).mp exact _ listed _
    matched
  exact absurd narrow (by decide)

end H5GG

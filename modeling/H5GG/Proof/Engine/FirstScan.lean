import H5GG.Library.Layout
import H5GG.Proof.Engine.Spec
import H5GG.Proof.Engine.Snapshot

/-!
# First scans

Both first scans report, part by part, the matching offsets of what is mapped of the regions
within the range, each narrowed to the 32 bits of a slide.
-/

namespace H5GG

def overlap (range : AddrRange) (region : Nat × Nat) : Option (Nat × Nat) :=
  let start := max region.1 range.start
  let stop := min (region.1 + region.2) range.stop
  if start < stop then some (start, stop - start) else none

theorem overlap_eq_some {range : AddrRange} {region part : Nat × Nat} :
    overlap range region = some part ↔
      part.1 = max region.1 range.start ∧ 0 < part.2 ∧
        part.1 + part.2 = min (region.1 + region.2) range.stop := by
  obtain ⟨base, size⟩ := part
  simp only [overlap]
  split
  · rw [Option.some.injEq, Prod.mk.injEq]
    omega
  · simp only [reduceCtorEq, false_iff]
    omega

theorem overlap_behind {range : AddrRange} {region : Nat × Nat}
    (behind : range.stop ≤ region.1) : overlap range region = none := by
  simp only [overlap]
  rw [if_neg (by omega)]

/-- Skipping below the range and stopping above it leaves the overlaps. -/
theorem clips_eq {range : AddrRange} (ordered : range.start < range.stop)
    {entries : List (Nat × Nat)} (ascending : entries.Pairwise fun a b => a.1 + a.2 ≤ b.1)
    (bounded : ∀ region ∈ entries, 0 < region.2 ∧ region.1 + region.2 < 2 ^ 64) :
    clips range entries = entries.filterMap (overlap range) := by
  induction entries with
  | nil => rfl
  | cons region rest ih =>
      obtain ⟨base, size⟩ := region
      obtain ⟨before, ascending⟩ := List.pairwise_cons.mp ascending
      obtain ⟨positive, below⟩ := bounded (base, size) List.mem_cons_self
      have ih := ih ascending fun region member => bounded region (List.mem_cons_of_mem _ member)
      dsimp only at positive below before
      rw [clips, u64_of_lt below]
      split_ifs with ahead behind
      · rw [ih, List.filterMap_cons_none]
        simp only [overlap]
        rw [if_neg (by omega)]
      · refine (List.filterMap_eq_nil_iff.mpr fun region member => overlap_behind ?_).symm
        rcases List.mem_cons.mp member with rfl | member
        · exact behind
        · have := before region member
          omega
      · have size_eq : u64 (min (base + size) range.stop + 2 ^ 64 - max base range.start) =
            min (base + size) range.stop - max base range.start := by
          unfold u64
          omega
        rw [ih, List.filterMap_cons_some (b := (max base range.start,
          min (base + size) range.stop - max base range.start))]
        · simp only [size_eq]
        · simp only [overlap]
          rw [if_pos (by omega)]

section
variable {t : Target} {range : AddrRange}

def parts (t : Target) (range : AddrRange) : List (Nat × Nat) :=
  t.regions.entries.filterMap (overlap range)

theorem clips_entries (ordered : range.start < range.stop) :
    clips range t.regions.entries = parts t range :=
  clips_eq ordered t.regions.ascending t.regions.bounded

theorem parts_bounds {part : Nat × Nat} (member : part ∈ parts t range) :
    range.start ≤ part.1 ∧ 0 < part.2 ∧ part.1 + part.2 ≤ range.stop ∧
      part.1 + part.2 < 2 ^ 64 := by
  obtain ⟨region, listed, clipped⟩ := List.mem_filterMap.mp member
  have bounded := t.regions.bounded region listed
  have := overlap_eq_some.mp clipped
  omega

theorem parts_apart : (parts t range).Pairwise fun a b => a.1 + a.2 ≤ b.1 := by
  refine List.pairwise_filterMap.mpr (t.regions.ascending.imp ?_)
  intro a b below x clippedA y clippedB
  have := overlap_eq_some.mp clippedA
  have := overlap_eq_some.mp clippedB
  omega

end

def numericOffsets (t : Target) (tolerance : Nat) (values : List JJSearchValue)
    (type : SearchType) (part : Nat × Nat) : List Nat :=
  (Stride.positions type.len 0 (t.loadedSize part.1 part.2)).filter fun offset =>
    jjSearchValueMatchesAny (t.bytesAt (part.1 + offset) type.len) values type tolerance

def hexOffsets (t : Target) (pattern : JJHexPattern) (part : Nat × Nat) : List Nat :=
  (List.range (t.loadedSize part.1 part.2 + 1 - pattern.size)).filter fun offset =>
    jjHexPatternMatches (t.bytesAt (part.1 + offset) pattern.size) pattern

section
variable {t : Target} {range : AddrRange} {tolerance : Nat} {values : List JJSearchValue}
  {type : SearchType} {pattern : JJHexPattern} {part : Nat × Nat}

theorem loadedSize_le (t : Target) (base size : Nat) : t.loadedSize base size ≤ size := by
  cases loaded : t.loadRegion base size with
  | none => simp [Target.loadedSize, loaded]
  | some buffer => exact Target.loadedSize_of_some loaded ▸ Target.loadRegion_size_le loaded

theorem mem_numericOffsets {offset : Nat} :
    offset ∈ numericOffsets t tolerance values type part ↔
      (∃ k, offset = k * type.len) ∧ offset + type.len ≤ t.loadedSize part.1 part.2 ∧
        jjSearchValueMatchesAny (t.bytesAt (part.1 + offset) type.len) values type tolerance := by
  rw [numericOffsets, List.mem_filter, Stride.mem_positions type.len_pos]
  simp only [Nat.zero_add, exists_and_right, and_assoc]

theorem mem_hexOffsets {offset : Nat} :
    offset ∈ hexOffsets t pattern part ↔
      offset + pattern.size ≤ t.loadedSize part.1 part.2 ∧
        jjHexPatternMatches (t.bytesAt (part.1 + offset) pattern.size) pattern := by
  rw [hexOffsets, List.mem_filter, List.mem_range]
  refine and_congr_left fun _ => ?_
  omega

theorem numericOffsets_sorted : (numericOffsets t tolerance values type part).Pairwise (· < ·) :=
  (Stride.positions_sorted type.len_pos _ _).filter _

theorem hexOffsets_sorted : (hexOffsets t pattern part).Pairwise (· < ·) :=
  List.pairwise_lt_range.filter _

theorem numericOffsets_lt_loaded {offset : Nat}
    (member : offset ∈ numericOffsets t tolerance values type part) :
    offset < t.loadedSize part.1 part.2 := by
  have := (mem_numericOffsets.mp member).2.1
  have := type.len_pos
  omega

theorem numericOffsets_lt {offset : Nat}
    (member : offset ∈ numericOffsets t tolerance values type part) : offset < part.2 :=
  (numericOffsets_lt_loaded member).trans_le (loadedSize_le t part.1 part.2)

theorem jjHexPatternMatches_size {bytes : Bytes} (found : jjHexPatternMatches bytes pattern) :
    0 < pattern.size := by
  simp only [jjHexPatternMatches, Bool.and_eq_true, decide_eq_true_eq] at found
  exact List.length_pos_iff.mpr found.1.1

theorem hexOffsets_lt {offset : Nat} (member : offset ∈ hexOffsets t pattern part) :
    offset < part.2 := by
  have := loadedSize_le t part.1 part.2
  obtain ⟨fits, found⟩ := mem_hexOffsets.mp member
  have := jjHexPatternMatches_size found
  omega

/-- A part is scanned to its end: no reported address leaves the range. -/
theorem scanRegionAny_value (member : part ∈ parts t range) :
    (scanRegionAny t tolerance range values type part.1 part.2).value =
      if numericOffsets t tolerance values type part = [] then none
      else some ⟨part.1, t.loadedSize part.1 part.2,
        (numericOffsets t tolerance values type part).map u32, []⟩ := by
  obtain ⟨above, -, below, wide⟩ := parts_bounds member
  cases loaded : t.loadRegion part.1 part.2 with
  | none =>
      have empty : numericOffsets t tolerance values type part = [] := by
        simp [numericOffsets, Target.loadedSize, loaded, Stride.positions]
      rw [scanRegionAny_none loaded, if_pos empty]
  | some buffer =>
      have size := Target.loadedSize_of_some loaded
      have bound := Target.loadRegion_size_le loaded
      have hits : (Stride.positions type.len 0 buffer.size).filter
          (scanDataHit buffer values type tolerance) =
            numericOffsets t tolerance values type part := by
        rw [numericOffsets, size]
        refine List.filter_congr fun offset position => ?_
        rw [scanDataHit, Target.loadRegion_bytes loaded
          (Stride.positions_bounds type.len_pos position).2]
      have kept : (numericOffsets t tolerance values type part).takeWhile (fun offset =>
          range.start ≤ u64 (part.1 + u32 offset) && u64 (part.1 + u32 offset) < range.stop) =
            numericOffsets t tolerance values type part := by
        refine List.takeWhile_eq_self_iff.mpr fun offset found => ?_
        have inside := numericOffsets_lt found
        have narrow := u32_le offset
        rw [u64_of_lt (by omega)]
        simp only [Bool.and_eq_true, decide_eq_true_eq]
        omega
      rw [scanRegionAny_some loaded]
      simp only [hits, kept, size]

theorem scanRegionAny_inverted (inverted : range.stop ≤ range.start) (base size : Nat) :
    (scanRegionAny t tolerance range values type base size).value = none := by
  cases loaded : t.loadRegion base size with
  | none => exact scanRegionAny_none loaded
  | some buffer =>
      have never : (fun offset => decide (range.start ≤ u64 (base + u32 offset)) &&
          decide (u64 (base + u32 offset) < range.stop)) = fun _ => false := by
        funext offset
        simp only [Bool.and_eq_false_iff, decide_eq_false_iff_not]
        omega
      rw [scanRegionAny_some loaded]
      rw [never]
      cases (Stride.positions type.len 0 buffer.size).filter
        (scanDataHit buffer values type tolerance) <;> rfl

theorem scanHexRegion_value :
    (scanHexRegion t pattern part.1 part.2).value =
      if hexOffsets t pattern part = [] then none
      else some ⟨part.1, part.2, (hexOffsets t pattern part).map u32,
        (hexOffsets t pattern part).map fun _ => SearchType.uByte.code⟩ := by
  cases loaded : t.loadRegion part.1 part.2 with
  | none =>
      have empty : hexOffsets t pattern part = [] := by
        refine List.eq_nil_iff_forall_not_mem.mpr fun offset found => ?_
        obtain ⟨fits, found⟩ := mem_hexOffsets.mp found
        have := jjHexPatternMatches_size found
        simp only [Target.loadedSize, loaded] at fits
        omega
      rw [if_pos empty]
      unfold scanHexRegion
      split
      · rfl
      · simp [loaded]
  | some buffer =>
      have hits : (List.range (buffer.size + 1 - pattern.size)).filter (fun offset =>
          jjHexPatternMatches (buffer.bytes offset pattern.size) pattern) =
            hexOffsets t pattern part := by
        rw [hexOffsets, Target.loadedSize_of_some loaded]
        refine List.filter_congr fun offset position => ?_
        have := List.mem_range.mp position
        rw [Target.loadRegion_bytes loaded (by omega)]
      rw [scanHexRegion_eq loaded]
      simp only [hits]

end

/-! ### The results of a first scan -/

def scannedRegion (offsets : Nat × Nat → List Nat) (size : Nat × Nat → Nat) (types : List Nat →
    List Int) (part : Nat × Nat) : Option ResultRegion :=
  if offsets part = [] then none
  else some ⟨part.1, size part, (offsets part).map u32, types (offsets part)⟩

def numericRegion (t : Target) (tolerance : Nat) (values : List JJSearchValue)
    (type : SearchType) : Nat × Nat → Option ResultRegion :=
  scannedRegion (numericOffsets t tolerance values type)
    (fun part => t.loadedSize part.1 part.2) fun _ => []

def hexRegion (t : Target) (pattern : JJHexPattern) : Nat × Nat → Option ResultRegion :=
  scannedRegion (hexOffsets t pattern) Prod.snd fun offsets =>
    offsets.map fun _ => SearchType.uByte.code

section
variable {t : Target} {range : AddrRange} {values : List JJSearchValue} {type : SearchType}
  {pattern : JJHexPattern} {e : Engine}

theorem firstScanAny_result (empty : e.result = {}) (ordered : range.start < range.stop) :
    (e.firstScanAny t range values type).result =
      Result.ofRegions ((parts t range).filterMap
        (numericRegion t e.floatTolerance values type)) := by
  have start : e.result = Result.ofRegions [] := empty
  simp only [Engine.firstScanAny]
  rw [start, Result.foldl_add fun _ _ => scanRegionAny_invariantHolds, clips_entries ordered,
    List.nil_append]
  congr 1
  exact List.filterMap_congr fun part member => scanRegionAny_value member

theorem firstScanAny_inverted (empty : e.result = {}) (inverted : range.stop ≤ range.start) :
    (e.firstScanAny t range values type).result = {} := by
  have start : e.result = Result.ofRegions [] := empty
  simp only [Engine.firstScanAny]
  rw [start, Result.foldl_add fun _ _ => scanRegionAny_invariantHolds, List.nil_append,
    List.filterMap_eq_nil_iff.mpr fun _ _ => scanRegionAny_inverted inverted _ _]
  rfl

theorem firstScanHex_result (empty : e.result = {}) (ordered : range.start < range.stop) :
    (clips range t.regions.entries).foldl
        (fun result clip => result.add (scanHexRegion t pattern clip.1 clip.2).value) e.result =
      Result.ofRegions ((parts t range).filterMap (hexRegion t pattern)) := by
  have start : e.result = Result.ofRegions [] := empty
  rw [start, Result.foldl_add fun _ _ => scanHexRegion_invariantHolds, clips_entries ordered,
    List.nil_append]
  congr 1
  exact List.filterMap_congr fun part _ => scanHexRegion_value

theorem hits_scannedRegions {offsets : Nat × Nat → List Nat} {size : Nat × Nat → Nat}
    {types : List Nat → List Int} {type : Int}
    (typed : ∀ base size slides, slides ≠ [] →
      (ResultRegion.mk base size (slides.map u32) (types slides)).typed type =
        slides.map fun slide => (u32 slide, type))
    (parts : List (Nat × Nat)) :
    (Result.ofRegions (parts.filterMap (scannedRegion offsets size types))).hits type =
      parts.flatMap fun part =>
        (offsets part).map fun offset => (u64 (part.1 + u32 offset), type) := by
  rw [Result.hits_filterMap]
  refine List.flatMap_congr fun part _ => ?_
  unfold scannedRegion
  split_ifs with none_found
  · rw [none_found]
    rfl
  · rw [Option.elim_some, ResultRegion.hits, typed _ _ _ none_found, List.map_map]
    rfl

theorem typed_numeric {base size : Nat} {slides : List Nat} {type : Int} :
    (ResultRegion.mk base size (slides.map u32) []).typed type =
      slides.map fun slide => (u32 slide, type) := by
  rw [ResultRegion.typed_of_untyped rfl, List.map_map]
  rfl

theorem typed_hex {base size : Nat} {slides : List Nat} {fallback type : Int}
    (found : slides ≠ []) :
    (ResultRegion.mk base size (slides.map u32) (slides.map fun _ => type)).typed fallback =
      slides.map fun slide => (u32 slide, type) := by
  rw [ResultRegion.typed_of_typed (by simp) (by simpa using found)]
  exact List.zip_map'

end

end H5GG

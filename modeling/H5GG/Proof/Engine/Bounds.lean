import H5GG.Proof.Engine.Windows

/-!
# Reads of a mapping

Three of the passes bound their reads by the size that `loadRegion` reports. The nearby search
bounds its windows by the size of the region instead.
-/

namespace H5GG

def BufferRead.inBounds (read : BufferRead) : Prop :=
  ∀ i < read.count, read.offset + i < read.mapped

theorem BufferRead.inBounds_iff {offset count mapped : Nat} (positive : 0 < count) :
    (BufferRead.mk offset count mapped).inBounds ↔ offset + count ≤ mapped := by
  constructor
  · intro each
    have := each (count - 1) (by omega : count - 1 < count)
    dsimp only at this
    omega
  · intro within i below
    dsimp only at below ⊢
    omega

theorem scanRegionAny_inBounds {t : Target} {tolerance : Nat} {range : AddrRange}
    {values : List JJSearchValue} {type : SearchType} {base size : Nat} :
    ∀ read ∈ (scanRegionAny t tolerance range values type base size).reads, read.inBounds := by
  cases loaded : t.loadRegion base size with
  | none => simp [scanRegionAny, loaded]
  | some buffer =>
      intro read member
      simp only [scanRegionAny, loaded, List.mem_map] at member
      obtain ⟨offset, looked, rfl⟩ := member
      have position := Stride.collect_snd_subset type.len_pos offset looked
      exact (BufferRead.inBounds_iff type.len_pos).mpr
        (Stride.positions_bounds type.len_pos position).2

theorem scanAgainRegion_inBounds {t : Target} {tolerance : Nat} {range : AddrRange}
    {values : List JJSearchValue} {type : SearchType} {region : ResultRegion} :
    ∀ read ∈ (scanAgainRegion t tolerance range values type region).reads, read.inBounds := by
  cases loaded : t.loadRegion region.regionBase region.regionSize with
  | none => simp [scanAgainRegion, loaded]
  | some buffer =>
      intro read member
      simp only [scanAgainRegion, loaded, List.mem_map, List.mem_filter, Bool.and_eq_true,
        decide_eq_true_eq] at member
      obtain ⟨slide, ⟨-, ⟨fits, -⟩, -⟩, rfl⟩ := member
      exact (BufferRead.inBounds_iff type.len_pos).mpr fits

theorem scanHexRegion_inBounds {t : Target} {pattern : JJHexPattern} {base size : Nat} :
    ∀ read ∈ (scanHexRegion t pattern base size).reads, read.inBounds := by
  unfold scanHexRegion
  split
  · simp
  · cases loaded : t.loadRegion base size with
    | none => simp
    | some buffer =>
        intro read member
        simp only [List.mem_map] at member
        obtain ⟨offset, looked, rfl⟩ := member
        split at looked
        · rename_i fits
          intro i below
          have := List.mem_range.mp looked
          dsimp only at below ⊢
          omega
        · simp at looked

/-- The whole elements of every window lie in what is mapped of their region. -/
def windowsMapped (t : Target) (range len : Nat) (region : ResultRegion) : Prop :=
  ∀ buffer, t.loadRegion region.regionBase region.regionSize = some buffer →
    ∀ window ∈ nearbyWindows (nearbyReach range len) region.regionSize 0 region.slides,
      window.1 + len ≤ window.2 →
        window.1 + (window.2 - window.1) / len * len ≤ buffer.size

theorem nearbyRegion_inBounds {t : Target} {tolerance : Nat} {lastNumberType : Int} {range : Nat}
    {target : JJSearchValue} {type : SearchType} {region : ResultRegion} :
    (∀ read ∈ (nearbyRegion t tolerance lastNumberType range target type region).reads,
      read.inBounds) ↔ windowsMapped t range type.len region := by
  unfold windowsMapped
  cases loaded : t.loadRegion region.regionBase region.regionSize with
  | none => simp [nearbyRegion, loaded]
  | some buffer =>
      rw [nearbyRegion_reads loaded]
      simp only [List.forall_mem_flatMap, List.forall_mem_map, Option.some.injEq, forall_eq']
      refine forall₂_congr fun window _ => ?_
      simp only [BufferRead.inBounds_iff type.len_pos]
      exact Stride.positions_end type.len_pos

def nearbyMapped : Target × EngineOp → Engine → Prop
  | (t, .nearBySearch range _ type), e => ∀ searched, SearchType.ofCode? type = some searched →
      ∀ region ∈ e.result.allRegions, windowsMapped t range searched.len region
  | _, _ => True

theorem bufferReads_inBounds (event : Target × EngineOp) (e : Engine) :
    (∀ read ∈ Engine.bufferReads event e, read.inBounds) ↔ nearbyMapped event e := by
  obtain ⟨t, op⟩ := event
  cases op with
  | scanMemoryAny range values type =>
      refine iff_of_true (fun read member => ?_) trivial
      simp only [Engine.bufferReads] at member
      split at member
      · simp at member
      · split_ifs at member
        · simp at member
        · obtain ⟨region, -, read_of⟩ := List.mem_flatMap.mp member
          exact scanAgainRegion_inBounds read read_of
        · obtain ⟨clip, -, read_of⟩ := List.mem_flatMap.mp member
          exact scanRegionAny_inBounds read read_of
  | scanHexMemory range hexStr =>
      refine iff_of_true (fun read member => ?_) trivial
      simp only [Engine.bufferReads] at member
      split at member
      · simp at member
      · split_ifs at member
        · simp at member
        · obtain ⟨clip, -, read_of⟩ := List.mem_flatMap.mp member
          exact scanHexRegion_inBounds read read_of
  | nearBySearch range target type =>
      cases valid : SearchType.ofCode? type with
      | none => simp [Engine.bufferReads, nearbyMapped, valid]
      | some searched =>
          simp only [Engine.bufferReads, nearbyMapped, valid, List.forall_mem_flatMap,
            Option.some.injEq, forall_eq']
          exact forall₂_congr fun region _ => nearbyRegion_inBounds
  | _ => simp [Engine.bufferReads, nearbyMapped]

/-- A run reads inside its mappings exactly when each of its nearby searches keeps to them. -/
theorem reads_inBounds_iff (events : List (Target × EngineOp)) :
    (∀ read ∈ emitted Engine.step Engine.bufferReads events Engine.fresh, read.inBounds) ↔
      Along Engine.step nearbyMapped events Engine.fresh := by
  rw [forall_emitted]
  exact along_congr bufferReads_inBounds events Engine.fresh

def shrinkingTarget (limit : Nat) : Target :=
  .ofMemory 0x1000 (by decide) (fun a => if a = 0x100000ff8 then 1 else 0)
    (fun a => a < limit)
    { entries := [(0x100000000, 0x2000)], ascending := by simp, bounded := by decide }

def wordOne : JJSearchValue := ⟨Word.toLittleEndian 8 1 ++ Word.toLittleEndian 8 1, by decide⟩

/-- The second page goes away between a first scan and a nearby search. -/
theorem reads_not_inBounds : ¬ ∀ read ∈ emitted Engine.step Engine.bufferReads
    [(shrinkingTarget 0x100002000,
        .scanMemoryAny ⟨0x100000000, 0x100001008⟩ [wordOne] SearchType.uLong.code),
      (shrinkingTarget 0x100001000, .nearBySearch 8 wordOne SearchType.uLong.code)]
    Engine.fresh, read.inBounds := by
  intro every
  have outside : BufferRead.mk 0x1000 8 0x1000 ∈ emitted Engine.step Engine.bufferReads
      [(shrinkingTarget 0x100002000,
          .scanMemoryAny ⟨0x100000000, 0x100001008⟩ [wordOne] SearchType.uLong.code),
        (shrinkingTarget 0x100001000, .nearBySearch 8 wordOne SearchType.uLong.code)]
      Engine.fresh := by decide +kernel
  exact absurd (every _ outside 0 (by decide)) (by decide)

end H5GG

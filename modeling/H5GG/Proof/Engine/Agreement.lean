import H5GG.Proof.Engine.Types

/-!
# Snapshots agree with the results

Every operation but the nearby search saves a snapshot behind it. Without nearby searches all
results of a region have one type, so that the snapshot cannot mistake one for another.
-/

namespace H5GG

/-- A recorded entry has the type and bytes of the result, and a readable result is recorded. -/
structure SnapshotAgrees (t : Target) (e : Engine) : Prop where
  recorded : ∀ hit ∈ e.hits, ∀ reading, e.snapshot hit.1 = some reading →
    reading.1 = hit.2 ∧
      reading.2 = Word.ofLittleEndian (t.bytesAt hit.1 (searchTypeLen hit.2))
  complete : ∀ hit ∈ e.hits,
    (t.reader.readExact hit.1 (searchTypeLen hit.2)).isSome = true →
      (e.snapshot hit.1).isSome = true

structure UniformTypes (e : Engine) : Prop where
  regions : ∀ region ∈ e.result.allRegions,
    region.types = [] ∨ ∃ type : SearchType, ∀ other ∈ region.types, other = type.code
  fallback : e.firstScanDone = true → ∃ type : SearchType, type.code = e.lastNumberType

/-- The operation is not a nearby search of a result set that has results. -/
def savesSnapshot : Target × EngineOp → Engine → Prop
  | (_, .nearBySearch _ _ type), e => SearchType.ofCode? type = none ∨ e.result.allRegions = []
  | _, _ => True

def resultsChange (event : Target × EngineOp) (e : Engine) : Prop :=
  (Engine.step event e).result ≠ e.result ∨ (Engine.step event e).hits ≠ e.hits

section
variable {t : Target} {e : Engine} {op : EngineOp}

theorem uint8_code (type : SearchType) : uint8 type.code = type.code := by
  have := type.code_bounds
  unfold uint8
  omega

theorem mem_hits {hit : Nat × Int} : hit ∈ e.hits ↔
    ∃ region ∈ e.result.allRegions, ∃ entry ∈ region.typed e.lastNumberType,
      hit = (region.address entry.1, entry.2) := by
  simp only [Engine.hits, Result.hits, ResultRegion.hits, List.mem_flatMap, List.mem_map, eq_comm]

theorem typed_uniform (wellFormed : e.WellFormed) (uniform : UniformTypes e)
    {region : ResultRegion} (member : region ∈ e.result.allRegions) :
    ∃ type : SearchType, ∀ entry ∈ region.typed e.lastNumberType, entry.2 = type.code := by
  have complete := (wellFormed.regions region member).complete
  by_cases untyped : region.types = []
  · obtain ⟨last, same⟩ := uniform.fallback (wellFormed.done member)
    refine ⟨last, fun entry typed => ?_⟩
    rcases ResultRegion.mem_typed_type complete typed with ⟨-, fallback⟩ | listed
    · rw [fallback, same]
    · simp [untyped] at listed
  · obtain ⟨type, every⟩ := (uniform.regions region member).resolve_left untyped
    refine ⟨type, fun entry typed => ?_⟩
    rcases ResultRegion.mem_typed_type complete typed with ⟨empty, -⟩ | listed
    · exact absurd empty untyped
    · exact every _ listed

theorem hits_uniform (wellFormed : e.WellFormed) (uniform : UniformTypes e) :
    (∀ hit ∈ e.hits, ∃ type : SearchType, hit.2 = type.code) ∧
      ∀ hit ∈ e.hits, ∀ other ∈ e.hits, hit.1 = other.1 → hit.2 = other.2 := by
  constructor
  · intro hit member
    obtain ⟨region, listed, entry, typed, rfl⟩ := mem_hits.mp member
    obtain ⟨type, every⟩ := typed_uniform wellFormed uniform listed
    exact ⟨type, every entry typed⟩
  · intro hit member other member' shared
    obtain ⟨region, listed, entry, typed, rfl⟩ := mem_hits.mp member
    obtain ⟨region', listed', entry', typed', rfl⟩ := mem_hits.mp member'
    have shape := wellFormed.regions region listed
    have shape' := wellFormed.regions region' listed'
    have inside := (shape.inside _ (ResultRegion.mem_typed_slide typed)).1
    have inside' := (shape'.inside _ (ResultRegion.mem_typed_slide typed')).1
    have bounded := shape.bounded
    have bounded' := shape'.bounded
    have address : region.address entry.1 = region.regionBase + entry.1 := u64_of_lt (by omega)
    have address' : region'.address entry'.1 = region'.regionBase + entry'.1 :=
      u64_of_lt (by omega)
    dsimp only at shared
    rw [address, address'] at shared
    obtain rfl := Layout.eq_of_shared wellFormed.apart listed listed'
      (x := region.regionBase + entry.1) (by omega) (by omega)
    obtain ⟨type, every⟩ := typed_uniform wellFormed uniform listed
    exact (every entry typed).trans (every entry' typed').symm

theorem agrees_of_current (wellFormed : e.WellFormed) (uniform : UniformTypes e)
    (current : snapshotCurrent t e) : SnapshotAgrees t e := by
  obtain ⟨valid, same⟩ := hits_uniform wellFormed uniform
  have code : ∀ hit ∈ e.hits, uint8 hit.2 = hit.2 := by
    intro hit member
    obtain ⟨type, typed⟩ := valid hit member
    rw [typed, uint8_code]
  constructor
  · intro hit member reading recorded
    rw [current] at recorded
    obtain ⟨other, listed, shared, read⟩ := lastReading_some recorded
    have types := same other listed hit member shared
    obtain ⟨bytes, exact, rfl⟩ := Option.map_eq_some_iff.mp read
    rw [code other listed, types, shared] at exact
    refine ⟨(code other listed).trans types, ?_⟩
    rw [(Target.readExact_reader.mp exact).2.2]
  · intro hit member readable
    rw [current]
    refine lastReading_isSome member ?_
    rw [hitReading, Option.isSome_map, code hit member]
    exact readable

/-! ### Every step keeps the types uniform and saves its snapshot -/

theorem passed_types (wellFormed : e.WellFormed) (uniform : UniformTypes e)
    (saves : savesSnapshot (t, op) e) : ∀ region ∈ passed t e op,
      region.types = [] ∨ ∃ type : SearchType, ∀ other ∈ region.types, other = type.code := by
  intro built member
  obtain ⟨region, listed, kept⟩ := List.mem_filterMap.mp (List.mem_filter.mp member).1
  have old := uniform.regions region listed
  cases passOver_cases kept with
  | same unchanged => exact unchanged ▸ old
  | scanned _ kept => exact .inl (scanAgainRegion_types kept)
  | filtered kept =>
      rename_i type _
      refine .inr ⟨type, fun other typed => ?_⟩
      rw [filterRegion_types type.code_ne_zero kept] at typed
      exact (List.mem_map.mp typed).choose_spec.2.symm
  | changed _ kept =>
      have valid : ∀ type ∈ region.types, ∃ known : SearchType, type = known.code := by
        intro type typed
        rcases old with untyped | ⟨known, every⟩
        · simp [untyped] at typed
        · exact ⟨known, every type typed⟩
      rcases changeRegion_types (wellFormed.regions region listed).complete valid kept with
        ⟨-, untyped⟩ | ⟨some, -, subset⟩
      · exact .inl untyped
      · obtain ⟨known, every⟩ := old.resolve_left some
        exact .inr ⟨known, fun other typed => every other (subset typed)⟩
  | searched nearby _ =>
      subst nearby
      rcases saves with invalid | empty
      · simp at invalid
      · simp [empty] at listed

theorem uniformTypes_step (wellFormed : e.WellFormed) (uniform : UniformTypes e)
    (promise : promised (t, op)) (saves : savesSnapshot (t, op) e) :
    UniformTypes (Engine.step (t, op) e) := by
  refine ⟨?_, step_fallback uniform.fallback promise⟩
  cases done : e.firstScanDone with
  | true =>
      rw [step_result wellFormed done, Result.allRegions_ofRegions]
      exact passed_types wellFormed uniform saves
  | false =>
      rw [firstStep_result wellFormed done promise.range, Result.allRegions_ofRegions]
      exact firstRegions_types

theorem step_snapshot (wellFormed : e.WellFormed) (saves : savesSnapshot (t, op) e)
    (changed : resultsChange (t, op) e) : snapshotCurrent t (Engine.step (t, op) e) := by
  have unchanged (same : Engine.step (t, op) e = e) : snapshotCurrent t (Engine.step (t, op) e) := by
    simp [resultsChange, same] at changed
  cases op with
  | setFloatTolerance bits => exact absurd changed (by simp [resultsChange, Engine.step, Engine.hits])
  | refineByChange change => exact snapshotCurrent_saveSnapshot
  | filterResults valueStr type mode => exact snapshotCurrent_saveSnapshot
  | scanMemoryAny range values type =>
      simp only [Engine.step, Engine.jjScanMemoryAny] at unchanged ⊢
      split
      · rename_i invalid
        simp only [invalid] at unchanged
        exact unchanged trivial
      · rename_i searched valid
        simp only [valid] at unchanged
        split_ifs at unchanged ⊢
        · exact unchanged rfl
        · exact snapshotCurrent_saveSnapshot
        · exact snapshotCurrent_saveSnapshot
  | scanHexMemory range hexStr =>
      simp only [Engine.step, Engine.jjScanHexMemory] at unchanged ⊢
      split
      · rename_i unparsed
        simp only [unparsed] at unchanged
        exact unchanged trivial
      · split_ifs
        · exact snapshotCurrent_saveSnapshot
        · exact snapshotCurrent_saveSnapshot
  | nearBySearch range target type =>
      refine unchanged ?_
      simp only [Engine.step, Engine.jjNearBySearch]
      split
      · rfl
      · rename_i searched valid
        have empty : e.result.allRegions = [] := saves.resolve_left (by simp [valid])
        have same : e.result = Result.ofRegions [] := empty ▸ wellFormed.present
        have replaced : e.result.replaceEach (fun region =>
            (nearbyRegion t e.floatTolerance e.lastNumberType range target searched region).value) =
              e.result := by
          rw [Result.replaceEach_eq fun _ _ => nearbyRegion_invariantHolds, empty, same]
          rfl
        rw [replaced]

end

/-- Along a run without nearby searches of results, every operation that changes the results
leaves a snapshot that agrees with them. -/
theorem snapshot_agrees (events : List (Target × EngineOp))
    (admitted : Along Engine.step (fun event e => promised event ∧ savesSnapshot event e) events
      Engine.fresh) :
    Along Engine.step (fun event e => resultsChange event e →
      SnapshotAgrees event.1 (Engine.step event e)) events Engine.fresh := by
  refine Along.of_invariant (fun e => e.WellFormed ∧ UniformTypes e) ?_ ?_
    ⟨wellFormed_fresh, by simp [Engine.fresh, Result.allRegions], by simp [Engine.fresh]⟩ admitted
  · rintro ⟨t, op⟩ e ⟨wellFormed, uniform⟩ ⟨promise, saves⟩
    exact ⟨wellFormed_step wellFormed promise.range, uniformTypes_step wellFormed uniform promise saves⟩
  · rintro ⟨t, op⟩ e ⟨wellFormed, uniform⟩ ⟨promise, saves⟩ changed
    exact agrees_of_current (wellFormed_step wellFormed promise.range)
      (uniformTypes_step wellFormed uniform promise saves) (step_snapshot wellFormed saves changed)

theorem snapshot_agrees_scan :
    Along Engine.step (fun event e => resultsChange event e →
      SnapshotAgrees event.1 (Engine.step event e))
      [(.onePage fun _ => 0, .scanMemoryAny ⟨0x100000000, 0x100000008⟩
          [⟨List.replicate 16 0, rfl⟩] SearchType.sInt.code),
        (.onePage fun _ => 0, .refineByChange .unchanged)] Engine.fresh :=
  snapshot_agrees _ ⟨⟨trivial, trivial⟩, ⟨trivial, trivial⟩, trivial⟩

/-- A first scan finds the first of two numbers, and a nearby search adds the second one when it
has become a match. -/
theorem snapshot_not_agrees :
    ¬ Along Engine.step (fun event e => resultsChange event e →
      SnapshotAgrees event.1 (Engine.step event e))
      [(.onePage fun a => if a = 0x100000004 then 1 else 0,
          .scanMemoryAny ⟨0x100000000, 0x100000008⟩ [⟨List.replicate 16 0, rfl⟩]
            SearchType.sInt.code),
        (.onePage fun _ => 0,
          .nearBySearch 4 ⟨List.replicate 16 0, rfl⟩ SearchType.sInt.code)] Engine.fresh := by
  rintro ⟨-, nearby, -⟩
  have agrees := nearby (.inr (by decide +kernel))
  have recorded := agrees.complete (0x100000004, SearchType.sInt.code) (by decide +kernel)
    (by decide +kernel)
  exact absurd recorded (by decide +kernel)

end H5GG

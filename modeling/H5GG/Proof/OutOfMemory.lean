import H5GG.OutOfMemory
import H5GG.Proof.Engine.Typed
import H5GG.Proof.Facade

/-!
# What a search that runs out of memory leaves
-/

namespace H5GG
open Validation

/-- Whether no result of a region changes its type when that of untyped results does. -/
def ResultRegion.keepsType (held type : Int) (region : ResultRegion) : Bool :=
  region.types ≠ [] || region.slides = [] || held = type

/-- Whether a nearby search finds a value in a window around one of a region's results. -/
def ResultRegion.hasNearby (t : Target) (tolerance range : Nat) (target : JJSearchValue)
    (type : SearchType) (region : ResultRegion) : Bool :=
  match t.loadRegion region.regionBase region.regionSize with
  | none => false
  | some buffer =>
      (nearbyWindows (nearbyReach range type.len) region.regionSize 0 region.slides).any
        fun window => (Stride.positions type.len window.1 window.2).any
          (scanForHit buffer target type tolerance)

/-- What a search looks for: a type, and the test it makes at an offset of a buffer. -/
structure Sought where
  type : SearchType
  hit : Buffer → Nat → Bool

/-- A result as a search has matched it. -/
def Sought.Matched (sought : Sought) (t : Target) (x : Nat × Int) : Prop :=
  ∃ base size buffer offset, t.loadRegion base size = some buffer ∧
    sought.hit buffer offset = true ∧ x = (u64 (base + u32 offset), sought.type.code)

theorem ResultRegion.hits_eq_iff {region : ResultRegion} {held type : Int} :
    region.hits type = region.hits held ↔ region.keepsType held type = true := by
  by_cases untyped : region.types = []
  · rw [hits_untyped untyped, hits_untyped untyped]
    cases slides : region.slides with
    | nil => simp [keepsType, slides]
    | cons slide rest =>
        simp only [keepsType, untyped, slides, List.map_cons, List.cons.injEq, Prod.mk.injEq,
          true_and, List.map_inj_left, ne_eq, not_true_eq_false, decide_false, reduceCtorEq,
          Bool.false_or, decide_eq_true_eq]
        exact ⟨fun same => same.1.symm, fun same => ⟨same.symm, fun _ _ => same.symm⟩⟩
  · simp [keepsType, untyped, hits, typed, hasTypes]

theorem nearbyRegion_isSome {t : Target} {tolerance : Nat} {lastNumberType : Int} {range : Nat}
    {target : JJSearchValue} {type : SearchType} (region : ResultRegion) :
    (nearbyRegion t tolerance lastNumberType range target type region).value.isSome =
      region.hasNearby t tolerance range target type := by
  unfold ResultRegion.hasNearby
  cases loaded : t.loadRegion region.regionBase region.regionSize with
  | none => simp [nearbyRegion, loaded]
  | some buffer =>
      have grown : (nearbyRegion t tolerance lastNumberType range target type region).value ≠ none ↔
          ∃ window ∈ nearbyWindows (nearbyReach range type.len) region.regionSize 0 region.slides,
            ∃ offset ∈ Stride.positions type.len window.1 window.2,
              scanForHit buffer target type tolerance offset = true := by
        rw [nearbyRegion_value loaded, growAll_eq, ne_eq, ite_eq_left_iff, Classical.not_imp,
          List.map_eq_nil_iff, nearbyPicks_eq_nil]
        simp
      rw [Bool.eq_iff_iff, Option.isSome_iff_ne_none, grown]
      simp

namespace Result

theorem whole_iff {result : Result} :
    result.whole = true ↔
      ∀ (i : Nat) (region : Option ResultRegion), result.regions[i]? = some region →
        region.isSome = true := by
  rw [whole, List.all_eq_true]
  constructor
  · exact fun all i region found => all region (List.mem_of_getElem? found)
  · intro all region inside
    obtain ⟨i, found⟩ := List.mem_iff_getElem?.mp inside
    exact all i region found

theorem removeEmptyRegions_whole (result : Result) : result.removeEmptyRegions.whole = true := by
  refine List.all_eq_true.mpr fun region inside => ?_
  have kept := (List.mem_filter.mp inside).2
  cases region with
  | none => cases kept
  | some region => rfl

theorem foldl_add_whole (scanned : List (Option ResultRegion)) (result : Result) :
    (scanned.foldl Result.add result).whole = result.whole := by
  induction scanned generalizing result with
  | nil => rfl
  | cons region rest ih =>
      rw [List.foldl_cons, ih]
      cases region with
      | none => rfl
      | some region =>
          rw [add]
          split_ifs
          · simp [whole]
          · rfl

theorem rebuilt_whole {rebuild : ResultRegion → Option ResultRegion}
    (valid : ∀ (_ : Nat) region r, Option.bind region rebuild = some r → r.invariantHolds = true)
    (result : Result) (count : Nat) :
    ((List.range count).foldl (fun result i => result.replace i ((result.regionAt i).bind rebuild))
        result).whole = true ↔
      result.whole = true ∧ ∀ region ∈ (result.regions.take count).reduceOption,
        (rebuild region).isSome = true := by
  rw [whole_iff, whole_iff, foldl_replace_below valid]
  simp only [List.getElem?_mapIdx, Option.map_eq_some_iff, List.reduceOption_mem_iff]
  constructor
  · intro every
    refine ⟨fun i region found => ?_, fun region inside => ?_⟩
    · have some' := every i _ ⟨region, found, rfl⟩
      split_ifs at some'
      · exact Option.isSome_of_isSome_bind some'
      · exact some'
    · obtain ⟨i, found⟩ := List.mem_iff_getElem?.mp inside
      rw [List.getElem?_take] at found
      split_ifs at found with before
      have some' := every i _ ⟨some region, found, rfl⟩
      rwa [if_pos before] at some'
  · rintro ⟨every, found⟩ i after ⟨region, listed, rfl⟩
    split_ifs with before
    · obtain ⟨region, rfl⟩ := Option.isSome_iff_exists.mp (every i region listed)
      refine found region (List.mem_iff_getElem?.mpr ⟨i, ?_⟩)
      rw [List.getElem?_take, if_pos before, listed]
    · exact every i region listed

end Result

section
variable {t : Target} {range : AddrRange} {values : List JJSearchValue} {type : SearchType}
  {swallowed : Nat → Option Nat} {e : Engine}

theorem saveSnapshotThrows_some {entry : Nat} {after : Engine}
    (thrown : e.saveSnapshotThrows t entry = some after) :
    ∃ snapshot, after = { e with snapshot } := by
  unfold Engine.saveSnapshotThrows at thrown
  obtain ⟨listed, -, thrown⟩ := Option.bind_eq_some_iff.mp thrown
  obtain ⟨bytes, -, thrown⟩ := Option.bind_eq_some_iff.mp thrown
  split_ifs at thrown
  exact ⟨_, (Option.some.inj thrown).symm⟩

theorem abandon_sublist {count : Option Nat} {scanned : Option ResultRegion} {region : ResultRegion}
    (left : abandon count scanned = some region) :
    ∃ full, scanned = some full ∧ region.regionBase = full.regionBase ∧
      region.types = full.types ∧ region.slides.Sublist full.slides := by
  match count, scanned, left with
  | none, scanned, left => exact ⟨region, left, rfl, rfl, List.Sublist.refl _⟩
  | some (count + 1), some full, left =>
      rw [← Option.some.inj left]
      exact ⟨full, rfl, rfl, rfl, List.take_sublist _ _⟩

theorem scannedClips_some {region : ResultRegion}
    (member : some region ∈ e.scannedClips t range values type swallowed) :
    ∃ clip : Nat × Nat,
      (scanRegionAny t e.floatTolerance range values type clip.1 clip.2).value = some region := by
  obtain ⟨k, inside, scanned⟩ := List.mem_mapIdx.mp member
  split_ifs at scanned
  exact ⟨_, scanned⟩

theorem scannedClips_valid {region : ResultRegion}
    (member : some region ∈ e.scannedClips t range values type swallowed) :
    region.invariantHolds = true :=
  (scannedClips_some member).elim fun _ => scanRegionAny_invariantHolds

variable (t range values type swallowed e) in
theorem rescanned_valid (i : Nat) (region built : ResultRegion)
    (left : e.rescanned t range values type swallowed i region = some built) :
    built.invariantHolds = true := by
  obtain ⟨full, scanned, -, types, -⟩ := abandon_sublist left
  rw [ResultRegion.invariantHolds_iff, types, scanAgainRegion_types scanned]
  exact .inl rfl

/-! ### The regions a scan makes -/

/-- A region of untyped results that all match. -/
def Scanned (t : Target) (sought : Sought) (region : ResultRegion) : Prop :=
  region.types = [] ∧
    ∀ slide ∈ region.slides, sought.Matched t (region.address slide, sought.type.code)

theorem Scanned.matched {sought : Sought} {region : ResultRegion}
    (scanned : Scanned t sought region) :
    ∀ x ∈ region.hits sought.type.code, sought.Matched t x := by
  intro x member
  rw [ResultRegion.hits_untyped scanned.1] at member
  obtain ⟨slide, listed, rfl⟩ := List.mem_map.mp member
  exact scanned.2 slide listed

theorem Scanned.of_sublist {sought : Sought} {full region : ResultRegion}
    (scanned : Scanned t sought full) (base : region.regionBase = full.regionBase)
    (types : region.types = full.types) (slides : region.slides.Sublist full.slides) :
    Scanned t sought region := by
  refine ⟨types.trans scanned.1, fun slide member => ?_⟩
  rw [ResultRegion.address, base]
  exact scanned.2 slide (slides.subset member)

variable (values type e) in
def numberSought : Sought where
  type := type
  hit buffer offset := scanDataHit buffer values type e.floatTolerance offset

theorem scanRegionAny_scanned {base size : Nat} {region : ResultRegion}
    (scanned : (scanRegionAny t e.floatTolerance range values type base size).value = some region) :
    Scanned t (numberSought values type e) region := by
  obtain ⟨buffer, loaded, rfl⟩ := scanRegionAny_built scanned
  refine ⟨rfl, fun slide member => ?_⟩
  obtain ⟨offset, kept, rfl⟩ := List.mem_map.mp member
  have hit := (List.mem_filter.mp ((List.takeWhile_sublist _).subset kept)).2
  exact ⟨base, size, buffer, offset, loaded, hit, rfl⟩

theorem scanAgainRegion_scanned {region built : ResultRegion}
    (scanned : (scanAgainRegion t e.floatTolerance range values type region).value = some built) :
    Scanned t (numberSought values type e) built := by
  obtain ⟨buffer, loaded, rfl⟩ := scanAgainRegion_built scanned
  refine ⟨rfl, fun slide member => ?_⟩
  obtain ⟨offset, kept, rfl⟩ := List.mem_map.mp member
  have hit := (Bool.and_eq_true_iff.mp (List.mem_filter.mp kept).2).2
  exact ⟨_, _, buffer, offset, loaded, hit, rfl⟩

theorem rescanned_scanned {i : Nat} {region built : ResultRegion}
    (left : e.rescanned t range values type swallowed i region = some built) :
    Scanned t (numberSought values type e) built := by
  obtain ⟨full, scanned, base, types, slides⟩ := abandon_sublist left
  exact (scanAgainRegion_scanned scanned).of_sublist base types slides

/-! ### The slots are the result list -/

@[simp] theorem addSlots_regions (scanned : List (Option ResultRegion)) :
    (e.addSlots scanned).map Prod.snd = e.result.allRegions ++ scanned.reduceOption := by
  simp [Engine.addSlots, Function.comp_def]

theorem mem_addSlots {scanned : List (Option ResultRegion)} {origin : Origin}
    {region : ResultRegion} : (origin, region) ∈ e.addSlots scanned ↔
      origin = .untouched ∧ region ∈ e.result.allRegions ∨
        origin = .rebuilt ∧ some region ∈ scanned := by
  simp only [Engine.addSlots, List.mem_append, List.mem_map, Prod.mk.injEq,
    List.reduceOption_mem_iff]
  constructor
  · rintro (⟨_, listed, rfl, rfl⟩ | ⟨_, listed, rfl, rfl⟩)
    · exact .inl ⟨rfl, listed⟩
    · exact .inr ⟨rfl, listed⟩
  · rintro (⟨rfl, listed⟩ | ⟨rfl, listed⟩)
    · exact .inl ⟨region, listed, rfl, rfl⟩
    · exact .inr ⟨region, listed, rfl, rfl⟩

theorem foldl_add_allRegions {scanned : List (Option ResultRegion)}
    (valid : ∀ region, some region ∈ scanned → region.invariantHolds = true) (result : Result) :
    (scanned.foldl Result.add result).allRegions = result.allRegions ++ scanned.reduceOption := by
  rw [Result.allRegions, Result.foldl_add_regions valid, List.reduceOption_append]
  congr 1
  exact Result.allRegions_ofRegions _

theorem rescanSlots_regions {result : Result}
    (replaced : result.regions = e.result.regions.mapIdx fun i region => region.bind fun region =>
      if activeRegion range region then e.rescanned t range values type swallowed i region
      else some region) :
    (e.rescanSlots t range values type swallowed).map Prod.snd =
      result.removeEmptyRegions.allRegions := by
  have forget : ∀ (i : Nat) (region : Option ResultRegion),
      (region.bind fun region => if activeRegion range region then
          (e.rescanned t range values type swallowed i region).map ((.rebuilt : Origin), ·)
          else some (.untouched, region)).map Prod.snd =
        (region.bind fun region => if activeRegion range region then
          e.rescanned t range values type swallowed i region else some region) := by
    intro i region
    cases region with
    | none => rfl
    | some region =>
        simp only [Option.bind_some]
        split
        · cases e.rescanned t range values type swallowed i region <;> rfl
        · rfl
  have names : result.regions = (e.result.regions.mapIdx fun i region =>
      region.bind fun region => if activeRegion range region then
          (e.rescanned t range values type swallowed i region).map ((.rebuilt : Origin), ·)
          else some (.untouched, region)).map (Option.map Prod.snd) := by
    rw [replaced, List.mapIdx_eq_iff]
    intro i
    rw [List.getElem?_map, List.getElem?_mapIdx, Option.map_map]
    exact congrArg (Option.map · _) (funext fun region => forget i region)
  rw [Result.removeEmptyRegions_eq, Result.allRegions_ofRegions, Result.allRegions, names,
    List.reduceOption_map, List.filter_map, Engine.rescanSlots]
  rfl

theorem mem_rescanSlots {origin : Origin} {region : ResultRegion} :
    (origin, region) ∈ e.rescanSlots t range values type swallowed →
      (origin = .untouched ∧ region ∈ e.result.allRegions ∧ activeRegion range region = false) ∨
        (origin = .rebuilt ∧ ∃ i old,
          e.rescanned t range values type swallowed i old = some region) := by
  intro member
  obtain ⟨i, inside, slot⟩ := List.mem_mapIdx.mp
    (List.reduceOption_mem_iff.mp (List.mem_filter.mp member).1)
  obtain ⟨old, present, slot⟩ := Option.bind_eq_some_iff.mp slot
  split_ifs at slot with active
  · obtain ⟨built, left, same⟩ := Option.map_eq_some_iff.mp slot
    obtain ⟨rfl, rfl⟩ := Prod.mk.inj same
    exact .inr ⟨rfl, i, old, left⟩
  · obtain ⟨rfl, rfl⟩ := Prod.mk.inj (Option.some.inj slot)
    refine .inl ⟨rfl, List.reduceOption_mem_iff.mpr ?_, Bool.eq_false_iff.mpr active⟩
    exact present ▸ List.getElem_mem inside

theorem mem_rescanSlots_untouched {region : ResultRegion} (old : region ∈ e.result.allRegions)
    (inactive : activeRegion range region = false) (found : region.slides ≠ []) :
    (.untouched, region) ∈ e.rescanSlots t range values type swallowed := by
  obtain ⟨i, inside, present⟩ := List.mem_iff_getElem.mp (List.reduceOption_mem_iff.mp old)
  refine List.mem_filter.mpr ⟨List.reduceOption_mem_iff.mpr (List.mem_mapIdx.mpr
    ⟨i, inside, ?_⟩), by simpa using found⟩
  simp [present, inactive]

end

/-! ### A numeric search -/

/-- The failures after which every result of a numeric search is known under its own type. -/
def ScanAllocation.spares (range : AddrRange) (type : SearchType) (held : Int) (e : Engine) :
    ScanAllocation → Bool
  | .enumerating _ | .adding _ => false
  | .collecting => e.result.whole && e.result.allRegions.all (·.keepsType held type.code)
  | .recording _ => e.result.whole && e.result.allRegions.all fun region =>
      (e.firstScanDone && activeRegion range region) || region.keepsType held type.code

structure ScanLeft (t : Target) (values : List JJSearchValue) (type : SearchType) (held : Int)
    (e : Engine) (spared : Bool) (thrown : Thrown) : Prop where
  listed : thrown.engine.result.allRegions = thrown.slots.map Prod.snd
  last : thrown.engine.lastNumberType = type.code
  rebuilt : ∀ region, (.rebuilt, region) ∈ thrown.slots →
    Scanned t (numberSought values type e) region
  spared : (thrown.engine.result.whole = true ∧ thrown.engine.firstScanDone = true ∧
    ∀ region, (.untouched, region) ∈ thrown.slots → region.keepsType held type.code = true) ↔
      spared = true

section
variable {t : Target} {range : AddrRange} {values : List JJSearchValue} {type : SearchType}
  {swallowed : Nat → Option Nat} {held : Int} {e : Engine} {failing : ScanAllocation}
  {thrown : Thrown}

theorem firstScanThrows_left
    (threw : e.firstScanThrows t range values type swallowed failing = some thrown)
    (first : e.firstScanDone = false)
    (last : e.lastNumberType = type.code) :
    ScanLeft t values type held e (failing.spares range type held e) thrown := by
  cases failing with
  | enumerating region =>
      simp only [Engine.firstScanThrows] at threw
      split_ifs at threw
      obtain rfl := Option.some.inj threw
      exact ⟨by simp, last, by simp [mem_addSlots], by simp [first, ScanAllocation.spares]⟩
  | adding clip =>
      obtain ⟨region, -, same⟩ := Option.bind_eq_some_iff.mp threw
      obtain rfl := Option.some.inj same
      have valid := fun region (member : some region ∈
          (e.scannedClips t range values type swallowed).take clip) =>
        scannedClips_valid (List.mem_of_mem_take member)
      refine ⟨(foldl_add_allRegions valid _).trans (addSlots_regions _).symm, last, ?_,
        by simp [first, ScanAllocation.spares]⟩
      intro region member
      obtain ⟨⟨⟩, -⟩ | ⟨-, scanned⟩ := mem_addSlots.mp member
      exact (scannedClips_some (List.mem_of_mem_take scanned)).elim fun _ => scanRegionAny_scanned
  | collecting => cases threw
  | recording entry =>
      obtain ⟨after, recorded, same⟩ := Option.bind_eq_some_iff.mp threw
      obtain rfl := Option.some.inj same
      obtain ⟨snapshot, rfl⟩ := saveSnapshotThrows_some recorded
      refine ⟨(foldl_add_allRegions (fun _ => scannedClips_valid) _).trans
        (addSlots_regions _).symm, last, ?_, ?_⟩
      · intro region member
        obtain ⟨⟨⟩, -⟩ | ⟨-, scanned⟩ := mem_addSlots.mp member
        exact (scannedClips_some scanned).elim fun _ => scanRegionAny_scanned
      · simp [mem_addSlots, ScanAllocation.spares, first, Result.foldl_add_whole]

theorem scanAgainThrows_left
    (threw : e.scanAgainThrows t range values type swallowed failing = some thrown)
    (done : e.firstScanDone = true)
    (last : e.lastNumberType = type.code) :
    ScanLeft t values type held e (failing.spares range type held e) thrown := by
  cases failing with
  | enumerating region => cases threw
  | adding clip => cases threw
  | collecting =>
      simp only [Engine.scanAgainThrows] at threw
      split_ifs at threw
      obtain rfl := Option.some.inj threw
      refine ⟨by simp, last, by simp [mem_addSlots], ?_⟩
      simp [mem_addSlots, ScanAllocation.spares, done]
  | recording entry =>
      simp only [Engine.scanAgainThrows] at threw
      split_ifs at threw with broken
      have whole : e.result.whole = true := by simpa using broken
      obtain ⟨after, recorded, same⟩ := Option.bind_eq_some_iff.mp threw
      obtain rfl := Option.some.inj same
      obtain ⟨snapshot, rfl⟩ := saveSnapshotThrows_some recorded
      have replaced := Result.replace_active (activeRegion range)
        (rescanned_valid t range values type swallowed e) e.result _ rfl
      refine ⟨(rescanSlots_regions replaced).symm, last, ?_, ?_⟩
      · intro region member
        obtain ⟨⟨⟩, -⟩ | ⟨-, i, old, left⟩ := mem_rescanSlots member
        exact rescanned_scanned left
      · simp only [done, ScanAllocation.spares, whole, Result.removeEmptyRegions_whole,
          List.all_eq_true, true_and, Bool.true_and, Bool.or_eq_true]
        constructor
        · intro kept region old
          cases active : activeRegion range region with
          | true => exact .inl rfl
          | false =>
              by_cases empty : region.slides = []
              · exact .inr (by simp [ResultRegion.keepsType, empty])
              · exact .inr (kept region (mem_rescanSlots_untouched old active empty))
        · intro kept region member
          obtain ⟨-, old, inactive⟩ | ⟨⟨⟩, -⟩ := mem_rescanSlots member
          exact (kept region old).resolve_left (by simp [inactive])

theorem scanMemoryAnyThrows_left (given : values ≠ [])
    (threw : e.jjScanMemoryAnyThrows t range values type.code swallowed failing = some thrown) :
    ScanLeft t values type e.lastNumberType e
      (failing.spares range type e.lastNumberType e) thrown := by
  simp only [Engine.jjScanMemoryAnyThrows, SearchType.ofCode?_code, given, ↓reduceIte] at threw
  split_ifs at threw with done
  · obtain ⟨listed, last, rebuilt, spared⟩ := scanAgainThrows_left threw done rfl
    exact ⟨listed, last, rebuilt, spared⟩
  · obtain ⟨listed, last, rebuilt, spared⟩ :=
      firstScanThrows_left threw (Bool.eq_false_iff.mpr done) rfl
    exact ⟨listed, last, rebuilt, spared⟩

end

/-! ### A nearby search -/

section
variable {t : Target} {type : SearchType} {target : JJSearchValue} {range failing : Nat}
  {e : Engine} {thrown : Thrown}

variable (target type e) in
def nearbySought : Sought where
  type := type
  hit buffer offset := scanForHit buffer target type e.floatTolerance offset

theorem nearbyRegion_hits {region built : ResultRegion} (typed : e.Typed)
    (old : region ∈ e.result.allRegions)
    (searched : (nearbyRegion t e.floatTolerance e.lastNumberType range target type region).value =
      some built) :
    built.hits type.code = built.hits e.lastNumberType ∧
      ∀ x ∈ built.hits type.code,
        x ∈ region.hits e.lastNumberType ∨ (nearbySought type target e).Matched t x := by
  obtain ⟨buffer, loaded, searched⟩ := nearbyRegion_built searched
  obtain ⟨base, -, -⟩ := growAll_some searched
  generalize needed : (region.hasTypes || type.code ≠ e.lastNumberType) = needType at searched
  have agree : needType = false → type.code = e.lastNumberType := by
    rintro rfl
    simpa using (Bool.or_eq_false_iff.mp needed).2
  have known : ∀ entry ∈ region.typed e.lastNumberType,
      int8 entry.2 = entry.2 ∧ entry.2 ≠ 0 ∧ (needType = false → entry.2 = type.code) := by
    intro entry member
    rcases ResultRegion.mem_typed_type (typed.complete region old) member with
      ⟨untyped, same⟩ | own
    · obtain ⟨known, code⟩ := typed.fallback region old untyped
      rw [same, code]
      exact ⟨int8_code known, known.code_ne_zero, fun need => (agree need).trans code ▸ rfl⟩
    · obtain ⟨known, code⟩ := typed.known region old _ own
      rw [code]
      refine ⟨int8_code known, known.code_ne_zero, fun need => ?_⟩
      have plain := (Bool.or_eq_false_iff.mp (needed.trans need)).1
      simp only [ResultRegion.hasTypes, decide_eq_false_iff_not, ne_eq, not_not] at plain
      exact absurd own (plain ▸ List.not_mem_nil)
  have types : ∀ entry ∈ nearbyPicks buffer region target type e.floatTolerance
      (nearbyReach range type.len) e.lastNumberType region.slides 0 0,
      entry.2 ≠ 0 ∧ (needType = false → entry.2 = type.code) := by
    intro entry member
    rcases mem_nearbyPicks member with ⟨-, -, -, same⟩ | ⟨carried, listed, -, same⟩
    · exact ⟨same ▸ type.code_ne_zero, fun _ => same⟩
    · obtain ⟨narrow, rest⟩ := known carried listed
      exact (same.symm.trans narrow) ▸ rest
  have reported := typed_of_growAll searched types
  have used := typed_of_growAll searched fun entry member => ⟨(types entry member).1,
    fun need => ((types entry member).2 need).trans (agree need)⟩
  refine ⟨by rw [ResultRegion.hits, ResultRegion.hits, reported, used], fun x member => ?_⟩
  rw [ResultRegion.hits, reported] at member
  obtain ⟨entry, picked, rfl⟩ := List.mem_map.mp member
  rw [ResultRegion.address, base]
  rcases mem_nearbyPicks picked with
    ⟨⟨offset, hit, slide⟩, -, -, same⟩ | ⟨carried, listed, slide, same⟩
  · exact .inr ⟨_, _, buffer, offset, loaded, hit, by rw [slide, same]; rfl⟩
  · rw [(known carried listed).1] at same
    refine .inl (List.mem_map.mpr ⟨carried, listed, ?_⟩)
    rw [slide, same]
    rfl

/-- What a nearby search leaves when it throws at the `failing`-th region. -/
structure NearbyLeft (t : Target) (target : JJSearchValue) (type : SearchType) (range failing : Nat)
    (e : Engine) (thrown : Thrown) : Prop where
  engine : thrown.engine = { e with result := thrown.engine.result }
  listed : thrown.engine.result.allRegions = thrown.slots.map Prod.snd
  rebuilt : ∀ region, (.rebuilt, region) ∈ thrown.slots → ∃ old ∈ e.result.allRegions,
    (nearbyRegion t e.floatTolerance e.lastNumberType range target type old).value = some region
  untouched : ∀ region, (.untouched, region) ∈ thrown.slots ↔
    region ∈ (e.result.regions.drop failing).reduceOption
  whole : thrown.engine.result.whole = true ↔ e.result.whole = true ∧
    ∀ region ∈ (e.result.regions.take failing).reduceOption,
      region.hasNearby t e.floatTolerance range target type = true

theorem nearBySearchThrows_left
    (threw : e.jjNearBySearchThrows t range target type.code failing = some thrown) :
    NearbyLeft t target type range failing e thrown := by
  let rebuild := fun region =>
    (nearbyRegion t e.floatTolerance e.lastNumberType range target type region).value
  let slot := fun (i : Nat) (region : Option ResultRegion) => region.bind fun region =>
    if i < failing then (rebuild region).map ((.rebuilt : Origin), ·) else some (.untouched, region)
  simp only [Engine.jjNearBySearchThrows, SearchType.ofCode?_code] at threw
  cases built : (e.result.reached[failing]?).bind rebuild with
  | none => simp [rebuild, built] at threw
  | some stopped =>
      simp only [rebuild, built, Option.some.injEq] at threw
      subst threw
      have valid : ∀ (i : Nat) region r, Option.bind region rebuild = some r →
          r.invariantHolds = true := by
        intro i region r searched
        obtain ⟨old, -, searched⟩ := Option.bind_eq_some_iff.mp searched
        exact nearbyRegion_invariantHolds searched
      refine ⟨rfl, ?_, ?_, ?_, ?_⟩
      · have forget : ∀ (i : Nat) (region : Option ResultRegion),
            (slot i region).map Prod.snd = if i < failing then region.bind rebuild else region := by
          intro i region
          cases region with
          | none => exact (ite_self _).symm
          | some region =>
              simp only [slot, Option.bind_some]
              split
              · cases rebuild region <;> rfl
              · rfl
        have names : (e.result.regions.mapIdx fun i region =>
            if i < failing then region.bind rebuild else region) =
              (e.result.regions.mapIdx slot).map (Option.map Prod.snd) := by
          rw [List.mapIdx_eq_iff]
          intro i
          rw [List.getElem?_map, List.getElem?_mapIdx, Option.map_map]
          exact congrArg (Option.map · _) (funext fun region => forget i region)
        rw [Result.allRegions, Result.foldl_replace_below valid, names, List.reduceOption_map]
      · intro region member
        obtain ⟨i, inside, placed⟩ := List.mem_mapIdx.mp (List.reduceOption_mem_iff.mp member)
        obtain ⟨old, present, placed⟩ := Option.bind_eq_some_iff.mp placed
        split_ifs at placed
        · obtain ⟨after, searched, same⟩ := Option.map_eq_some_iff.mp placed
          obtain ⟨-, rfl⟩ := Prod.mk.inj same
          exact ⟨old, List.reduceOption_mem_iff.mpr (present ▸ List.getElem_mem inside), searched⟩
        · cases placed
      · intro region
        rw [List.reduceOption_mem_iff, List.reduceOption_mem_iff, List.mem_mapIdx,
          List.mem_iff_getElem?]
        constructor
        · rintro ⟨i, inside, placed⟩
          obtain ⟨old, present, placed⟩ := Option.bind_eq_some_iff.mp placed
          split_ifs at placed with before
          · obtain ⟨after, -, same⟩ := Option.map_eq_some_iff.mp placed
            cases same
          · obtain ⟨-, rfl⟩ := Prod.mk.inj (Option.some.inj placed)
            refine ⟨i - failing, ?_⟩
            rw [List.getElem?_drop, Nat.add_sub_cancel' (Nat.le_of_not_lt before),
              List.getElem?_eq_getElem inside, present]
        · rintro ⟨j, present⟩
          rw [List.getElem?_drop] at present
          obtain ⟨inside, present⟩ := List.getElem?_eq_some_iff.mp present
          refine ⟨failing + j, inside, ?_⟩
          simp [present]
      · have searched : ∀ region, (rebuild region).isSome =
            region.hasNearby t e.floatTolerance range target type := nearbyRegion_isSome
        rw [Result.rebuilt_whole valid]
        simp only [searched]

end

/-! ### The session behind the handler -/

namespace FailingSearch

/-- What the engine call of a search looks for. -/
def sought (session : MemorySession) : FailingSearch → Option Sought
  | .searchNumber value type memoryFrom memoryTo _ _ =>
      match MemorySession.searchNumberRequest value type memoryFrom memoryTo session with
      | .error _ => none
      | .ok (_, values, jjtype) =>
          (SearchType.ofCode? jjtype).map fun type => numberSought values type session.engine
  | .searchNearby value type range _ =>
      match MemorySession.searchNearbyRequest value type range session with
      | .error _ => none
      | .ok (_, target, jjtype) =>
          (SearchType.ofCode? jjtype).map fun type => nearbySought type target session.engine

/-- The failures that the session gets over: a numeric search must have come past its first scan,
and what it or a nearby search has not touched must not hold results of another type. A nearby
search must have found something in every region that it has come past. -/
def spares (t : Target) (session : MemorySession) : FailingSearch → Bool
  | .searchNumber value type memoryFrom memoryTo _ failing =>
      match MemorySession.searchNumberRequest value type memoryFrom memoryTo session with
      | .error _ => true
      | .ok (range, _, jjtype) =>
          (SearchType.ofCode? jjtype).any fun type =>
            failing.spares range type session.engine.lastNumberType session.engine
  | .searchNearby value type range failing =>
      match MemorySession.searchNearbyRequest value type range session with
      | .error _ => true
      | .ok (searchRange, target, jjtype) =>
          (SearchType.ofCode? jjtype).any fun type =>
            session.engine.result.whole && session.engine.firstScanDone &&
              (session.engine.result.regions.take failing).reduceOption.all
                (·.hasNearby t session.engine.floatTolerance searchRange target type) &&
              (session.engine.result.regions.drop failing).reduceOption.all
                (·.keepsType session.engine.lastNumberType type.code)

end FailingSearch

/-- The session and the engine agree on whether there was a search, and every result is shown with
the type it had, or with the one it was matched under, and is used with that type from then on. -/
structure Aftermath.Honest (t : Target) (before : MemorySession) (sought : Option Sought)
    (after : Aftermath) : Prop where
  /-- `getResults` gets to every region without a null pointer in its way. -/
  shown : after.session.engine.result.whole = true
  first : after.session.firstSearchDone = after.session.engine.firstScanDone
  untouched : ∀ region, (.untouched, region) ∈ after.slots →
    region.hits after.session.lastSearchType = region.hits before.engine.lastNumberType
  rebuilt : ∀ region, (.rebuilt, region) ∈ after.slots →
    ∀ x ∈ region.hits after.session.lastSearchType,
      x ∈ before.engine.hits ∨ ∃ search ∈ sought, search.Matched t x
  used : ∀ slot ∈ after.slots, slot.2.hits after.session.lastSearchType =
    slot.2.hits after.session.engine.lastNumberType

namespace MemorySession
variable {system : System} {session : MemorySession} {after : Aftermath}

theorem caught_honest_of_scan {values : List JJSearchValue} {type : SearchType} {spared : Bool}
    {thrown : Thrown} (left : ScanLeft system.memory values type session.engine.lastNumberType
      session.engine spared thrown) :
    (session.caught type.code thrown).Honest system.memory session
      (some (numberSought values type session.engine)) ↔ spared = true := by
  rw [← left.spared]
  constructor
  · intro honest
    refine ⟨honest.shown, honest.first.symm, fun region member => ?_⟩
    exact ResultRegion.hits_eq_iff.mp (honest.untouched region member)
  · rintro ⟨whole, done, kept⟩
    refine ⟨whole, done.symm, fun region member => ResultRegion.hits_eq_iff.mpr (kept region member), ?_, ?_⟩
    · exact fun region member x listed =>
        .inr ⟨_, rfl, (left.rebuilt region member).matched x listed⟩
    · intro slot member
      show slot.2.hits type.code = slot.2.hits thrown.engine.lastNumberType
      rw [left.last]

theorem caught_honest_of_nearby {target : JJSearchValue} {type : SearchType} {range failing : Nat}
    {thrown : Thrown} (typed : session.engine.Typed)
    (left : NearbyLeft system.memory target type range failing session.engine thrown) :
    (session.caught type.code thrown).Honest system.memory session
        (some (nearbySought type target session.engine)) ↔
      (session.engine.result.whole = true ∧
        ∀ region ∈ (session.engine.result.regions.take failing).reduceOption,
          region.hasNearby system.memory session.engine.floatTolerance range target type = true) ∧
      session.engine.firstScanDone = true ∧
        ∀ region ∈ (session.engine.result.regions.drop failing).reduceOption,
          region.keepsType session.engine.lastNumberType type.code = true := by
  have done : thrown.engine.firstScanDone = session.engine.firstScanDone := by rw [left.engine]
  have last : thrown.engine.lastNumberType = session.engine.lastNumberType := by rw [left.engine]
  constructor
  · intro honest
    refine ⟨left.whole.mp honest.shown, (honest.first.trans done).symm, fun region member => ?_⟩
    exact ResultRegion.hits_eq_iff.mp
      (honest.untouched region ((left.untouched region).mpr member))
  · rintro ⟨whole, searched, kept⟩
    have untouched : ∀ region, (.untouched, region) ∈ thrown.slots →
        region.hits type.code = region.hits session.engine.lastNumberType := fun region member =>
      ResultRegion.hits_eq_iff.mpr (kept region ((left.untouched region).mp member))
    refine ⟨left.whole.mpr whole, (done.trans searched).symm, untouched, ?_, ?_⟩
    · intro region member x listed
      obtain ⟨old, held, rebuilt⟩ := left.rebuilt region member
      rcases (nearbyRegion_hits typed held rebuilt).2 x listed with before | matched
      · exact .inl (List.mem_flatMap.mpr ⟨old, held, before⟩)
      · exact .inr ⟨_, rfl, matched⟩
    · rintro ⟨origin, region⟩ member
      show region.hits type.code = region.hits thrown.engine.lastNumberType
      rw [last]
      cases origin with
      | untouched => exact untouched region member
      | rebuilt =>
          obtain ⟨old, held, rebuilt⟩ := left.rebuilt region member
          exact (nearbyRegion_hits typed held rebuilt).1

/-! ### Sessions that have run out of memory before -/

theorem create_typed (target : TargetProcess) : (create target).engine.Typed where
  complete := by simp [create, Engine.fresh, Result.allRegions]
  known := by simp [create, Engine.fresh, Result.allRegions]
  fallback := by simp [create, Engine.fresh, Result.allRegions]

theorem typed_effect {t : Target} {after : MemorySession} (typed : session.engine.Typed)
    (effect : Effect t session after) : after.engine.Typed := by
  cases effect with
  | kept => exact typed
  | created target => exact create_typed target
  | tolerated bits => exact typed.step t (.setFloatTolerance bits) trivial
  | scanned range values type given => exact typed.scanMemoryAny range values type.code
  | hexScanned range hexStr ordered parsed => exact typed.scanHexMemory range hexStr
  | searched range target type found =>
      exact typed.step t (.nearBySearch range target type.code) trivial
  | filtered text type mode found modeKnown parsed => exact typed.filterResults text type mode
  | changed change found => exact typed.step t (.refineByChange change) trivial

theorem firstScanThrows_typed {t : Target} {range : AddrRange} {values : List JJSearchValue}
    {type : SearchType} {swallowed : Nat → Option Nat} {failing : ScanAllocation} {e : Engine}
    {thrown : Thrown} (typed : e.Typed) (last : e.lastNumberType = type.code)
    (threw : e.firstScanThrows t range values type swallowed failing = some thrown) :
    thrown.engine.Typed := by
  have added : ∀ scanned : List (Option ResultRegion),
      (∀ region, some region ∈ scanned → some region ∈ e.scannedClips t range values type swallowed) →
        (scanned.foldl Result.add e.result).All (·.Typed e.lastNumberType) := by
    intro scanned subset
    refine typed.all.foldl_add fun region inside => ?_
    obtain ⟨clip, found⟩ := scannedClips_some (subset region inside)
    exact last ▸ .scanned found
  cases failing with
  | enumerating region =>
      simp only [Engine.firstScanThrows] at threw
      split_ifs at threw
      exact Option.some.inj threw ▸ typed
  | adding clip =>
      obtain ⟨region, -, same⟩ := Option.bind_eq_some_iff.mp threw
      rw [← Option.some.inj same]
      exact Engine.typed_iff.mpr (added _ fun _ inside => List.mem_of_mem_take inside)
  | collecting => cases threw
  | recording entry =>
      obtain ⟨after, recorded, same⟩ := Option.bind_eq_some_iff.mp threw
      rw [← Option.some.inj same]
      obtain ⟨snapshot, rfl⟩ := saveSnapshotThrows_some recorded
      exact Engine.typed_iff.mpr (added _ fun _ inside => inside)

theorem scanAgainThrows_typed {t : Target} {range : AddrRange} {values : List JJSearchValue}
    {type : SearchType} {swallowed : Nat → Option Nat} {failing : ScanAllocation} {e : Engine}
    {thrown : Thrown} (typed : e.Typed) (last : e.lastNumberType = type.code)
    (threw : e.scanAgainThrows t range values type swallowed failing = some thrown) :
    thrown.engine.Typed := by
  cases failing with
  | enumerating region => cases threw
  | adding clip => cases threw
  | collecting =>
      simp only [Engine.scanAgainThrows] at threw
      split_ifs at threw
      exact Option.some.inj threw ▸ typed
  | recording entry =>
      simp only [Engine.scanAgainThrows] at threw
      split_ifs at threw
      obtain ⟨after, recorded, same⟩ := Option.bind_eq_some_iff.mp threw
      rw [← Option.some.inj same]
      obtain ⟨snapshot, rfl⟩ := saveSnapshotThrows_some recorded
      refine Engine.typed_iff.mpr (Result.All.removeEmptyRegions (typed.all.foldl_replace ?_))
      intro entry inside region rebuilt
      obtain ⟨i, -, same⟩ := List.mem_map.mp (List.of_mem_zip inside).2
      obtain ⟨old, -, kept⟩ := Option.bind_eq_some_iff.mp (same.trans rebuilt)
      rw [last]
      exact .of_untyped type (rescanned_valid t range values type swallowed e i old region kept)
        (rescanned_scanned kept).1

theorem callThrows_searchNumber {value type memoryFrom memoryTo : Option NSString}
    {swallowed : Nat → Option Nat} {failing : ScanAllocation}
    (threw : session.callThrows system
      (.searchNumber value type memoryFrom memoryTo swallowed failing) = some after) :
    ∃ range values jjtype thrown,
      searchNumberRequest value type memoryFrom memoryTo session = .ok (range, values, jjtype) ∧
      session.engine.jjScanMemoryAnyThrows system.memory range values jjtype swallowed failing =
        some thrown ∧
      after = session.caught jjtype thrown := by
  simp only [callThrows] at threw
  split at threw
  · cases threw
  · rename_i range values jjtype request
    obtain ⟨thrown, thrownEngine, rfl⟩ := Option.map_eq_some_iff.mp threw
    exact ⟨range, values, jjtype, thrown, request, thrownEngine, rfl⟩

theorem callThrows_searchNearby {value type range : Option NSString} {failing : Nat}
    (threw : session.callThrows system (.searchNearby value type range failing) = some after) :
    ∃ searchRange target jjtype thrown,
      searchNearbyRequest value type range session = .ok (searchRange, target, jjtype) ∧
      session.engine.jjNearBySearchThrows system.memory searchRange target jjtype failing =
        some thrown ∧
      after = session.caught jjtype thrown := by
  simp only [callThrows] at threw
  split at threw
  · cases threw
  · rename_i searchRange target jjtype request
    obtain ⟨thrown, thrownEngine, rfl⟩ := Option.map_eq_some_iff.mp threw
    exact ⟨searchRange, target, jjtype, thrown, request, thrownEngine, rfl⟩

theorem callThrows_typed {call : FailingSearch} (typed : session.engine.Typed)
    (threw : session.callThrows system call = some after) : after.session.engine.Typed := by
  cases call with
  | searchNumber value type memoryFrom memoryTo swallowed failing =>
      obtain ⟨scanned, values, jjtype, thrown, -, thrownEngine, rfl⟩ := callThrows_searchNumber threw
      unfold Engine.jjScanMemoryAnyThrows at thrownEngine
      split at thrownEngine
      · cases thrownEngine
      · rename_i searched valid
        obtain rfl := SearchType.ofCode?_eq_some.mp valid
        have relasted : ({ session.engine with lastNumberType := searched.code } : Engine).Typed :=
          Engine.typed_iff.mpr fun region inside => (typed.all region inside).relast searched
        dsimp only at thrownEngine
        split_ifs at thrownEngine
        · exact scanAgainThrows_typed relasted rfl thrownEngine
        · exact firstScanThrows_typed relasted rfl thrownEngine
  | searchNearby value type range failing =>
      obtain ⟨reach, target, jjtype, thrown, -, thrownEngine, rfl⟩ := callThrows_searchNearby threw
      unfold Engine.jjNearBySearchThrows at thrownEngine
      split at thrownEngine
      · cases thrownEngine
      · dsimp only at thrownEngine
        split at thrownEngine
        · cases thrownEngine
        · rw [← Option.some.inj thrownEngine]
          exact Engine.typed_iff.mpr
            (typed.all.foldl_rebuild (fun region built before => before.searched) _)

/-- A facade call, or one that runs out of memory where it can. -/
def callOrThrow : System × (FacadeCall ⊕ FailingSearch) → MemorySession → MemorySession
  | (system, .inl facadeCall), session => call (system, facadeCall) session
  | (system, .inr search), session =>
      ((session.callThrows system search).map Aftermath.session).getD session

/-- Whatever has been called, and whichever calls have run out of memory. -/
theorem typed_run (target : TargetProcess) (calls : List (System × (FacadeCall ⊕ FailingSearch))) :
    (execute callOrThrow calls (create target)).engine.Typed := by
  refine execute_invariant (fun session : MemorySession => session.engine.Typed) ?_ calls
    (create_typed target)
  intro event session typed
  obtain ⟨system, facadeCall | search⟩ := event
  · exact typed_effect typed (call_effect (system, facadeCall) session)
  · cases threw : session.callThrows system search with
    | none =>
        rw [callOrThrow, threw]
        exact typed
    | some after =>
        rw [callOrThrow, threw]
        exact callThrows_typed typed threw

/-- When a search runs out of memory the session stays honest exactly at the failures that
`FailingSearch.spares` names. -/
theorem callThrows_honest_iff {call : FailingSearch} (typed : session.engine.Typed)
    (threw : session.callThrows system call = some after) :
    after.session.engine.result.allRegions = after.slots.map Prod.snd ∧
      (after.Honest system.memory session (call.sought session) ↔
        call.spares system.memory session = true) := by
  cases call with
  | searchNumber value type memoryFrom memoryTo swallowed failing =>
      obtain ⟨range, values, jjtype, thrown, request, thrownEngine, rfl⟩ :=
        callThrows_searchNumber threw
      obtain ⟨given, searched, rfl⟩ := searchNumberRequest_ok request
      have left := scanMemoryAnyThrows_left given thrownEngine
      refine ⟨left.listed, ?_⟩
      simp only [FailingSearch.sought, FailingSearch.spares, request, SearchType.ofCode?_code,
        Option.any_some, Option.map_some]
      exact caught_honest_of_scan left
  | searchNearby value type range failing =>
      obtain ⟨searchRange, target, jjtype, thrown, request, thrownEngine, rfl⟩ :=
        callThrows_searchNearby threw
      obtain ⟨-, searched, rfl⟩ := searchNearbyRequest_ok request
      have left := nearBySearchThrows_left thrownEngine
      refine ⟨left.listed, ?_⟩
      simp only [FailingSearch.sought, FailingSearch.spares, request, SearchType.ofCode?_code,
        Option.any_some, Option.map_some]
      rw [caught_honest_of_nearby typed left]
      simp only [Bool.and_eq_true, List.all_eq_true]
      tauto

def emptyPage : System where
  memory := Target.onePage fun _ => 0
  getpid := 1
  running _ := true
  taskForPid _ := (true, 1)

/-- A first search for a zero over the page, out of memory while the regions are listed. -/
def unlistedSearch : FailingSearch :=
  .searchNumber (some (.ofAscii "0")) (some (.ofAscii "I8")) (some (.ofAscii "0x100000000"))
    (some (.ofAscii "0x100004000")) (fun _ => none) (.enumerating 0)

/-- A session with four zeros. -/
def fourZeros : MemorySession :=
  call (emptyPage, .searchNumber (some (.ofAscii "0")) (some (.ofAscii "I8"))
    (some (.ofAscii "0x100000000")) (some (.ofAscii "0x100000004"))) (create ⟨1, 1⟩)

/-- The first two of them, out of memory at the second entry of the snapshot. -/
def unrecordedSearch : FailingSearch :=
  .searchNumber (some (.ofAscii "0")) (some (.ofAscii "I8")) (some (.ofAscii "0x100000000"))
    (some (.ofAscii "0x100000002")) (fun _ => none) (.recording 1)

theorem unlistedSearch_throws :
    (callThrows emptyPage (create ⟨1, 1⟩) unlistedSearch).isSome = true := by rfl

theorem unrecordedSearch_throws :
    ((callThrows emptyPage fourZeros unrecordedSearch).map
      (·.session.engine.result.count)) = some 2 := by decide +kernel

/-- The one leaves an empty session that does not know it, the other the two zeros that it found. -/
theorem callThrows_honest_unlisted :
    (∃ after, callThrows emptyPage (create ⟨1, 1⟩) unlistedSearch = some after ∧
      (after.Honest emptyPage.memory (create ⟨1, 1⟩) (unlistedSearch.sought (create ⟨1, 1⟩)) ↔
        unlistedSearch.spares emptyPage.memory (create ⟨1, 1⟩) = true)) ∧
    ∃ after, callThrows emptyPage fourZeros unrecordedSearch = some after ∧
      after.session.engine.result.count = 2 ∧
      after.Honest emptyPage.memory fourZeros (unrecordedSearch.sought fourZeros) := by
  constructor
  · obtain ⟨after, threw⟩ := Option.isSome_iff_exists.mp unlistedSearch_throws
    exact ⟨after, threw, (callThrows_honest_iff (create_typed _) threw).2⟩
  · obtain ⟨after, threw, found⟩ := Option.map_eq_some_iff.mp unrecordedSearch_throws
    have typed : fourZeros.engine.Typed := typed_effect (create_typed _) (call_effect _ _)
    exact ⟨after, threw, found, (callThrows_honest_iff typed threw).2.mpr (by decide +kernel)⟩

theorem callThrows_not_honest :
    ∃ after, callThrows emptyPage (create ⟨1, 1⟩) unlistedSearch = some after ∧
      ¬ after.Honest emptyPage.memory (create ⟨1, 1⟩) (unlistedSearch.sought (create ⟨1, 1⟩)) := by
  refine ⟨_, rfl, fun honest => ?_⟩
  have first := honest.first
  exact absurd first (by decide)

end MemorySession

end H5GG

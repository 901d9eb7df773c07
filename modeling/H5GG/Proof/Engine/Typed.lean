import H5GG.Proof.Engine.Types

/-!
# Every type there is to read is one of the table

Unlike the invariant of a whole search, this one also holds where a search was cut short.
-/

namespace H5GG

structure ResultRegion.Typed (last : Int) (region : ResultRegion) : Prop where
  complete : region.invariantHolds = true
  known : ∀ type ∈ region.types, ∃ known : SearchType, type = known.code
  fallback : region.types = [] → ∃ known : SearchType, last = known.code

structure Engine.Typed (e : Engine) : Prop where
  complete : ∀ region ∈ e.result.allRegions, region.invariantHolds = true
  known : ∀ region ∈ e.result.allRegions, ∀ type ∈ region.types,
    ∃ known : SearchType, type = known.code
  fallback : ∀ region ∈ e.result.allRegions, region.types = [] →
    ∃ known : SearchType, e.lastNumberType = known.code

theorem Engine.typed_iff {e : Engine} :
    e.Typed ↔ ∀ region ∈ e.result.allRegions, region.Typed e.lastNumberType where
  mp typed region inside :=
    ⟨typed.complete region inside, typed.known region inside, typed.fallback region inside⟩
  mpr each := ⟨fun region inside => (each region inside).complete,
    fun region inside => (each region inside).known,
    fun region inside => (each region inside).fallback⟩

/-! ## What the operations on a result set put into it -/

namespace Result
variable {good : ResultRegion → Prop} {result : Result}

/-- Every region of a result set is good. -/
def All (good : ResultRegion → Prop) (result : Result) : Prop :=
  ∀ region ∈ result.allRegions, good region

theorem All.add (all : result.All good) {region : Option ResultRegion}
    (new : ∀ added, region = some added → good added) : (result.add region).All good := by
  cases region with
  | none => exact all
  | some added =>
      intro other inside
      rw [Result.add] at inside
      split_ifs at inside
      · rw [allRegions, List.reduceOption_append] at inside
        cases List.mem_append.mp inside with
        | inl old => exact all other old
        | inr last =>
            cases List.mem_singleton.mp last
            exact new _ rfl
      · exact all other inside

theorem All.replace (all : result.All good) {index : Nat} {region : Option ResultRegion}
    (new : ∀ added, region = some added → added.invariantHolds = true → good added) :
    (result.replace index region).All good := by
  intro other inside
  rw [Result.replace] at inside
  split_ifs at inside with refused
  · exact all other inside
  · cases List.mem_or_eq_of_mem_set (List.reduceOption_mem_iff.mp inside) with
    | inl old => exact all other (List.reduceOption_mem_iff.mpr old)
    | inr put =>
        refine new other put.symm ?_
        subst put
        simp only [decide_eq_true_eq, Bool.or_eq_true, Option.any_some, Bool.not_eq_true',
          not_or] at refused
        exact Bool.eq_true_of_not_eq_false refused.2

theorem All.removeEmptyRegions (all : result.All good) : result.removeEmptyRegions.All good := by
  intro region inside
  rw [removeEmptyRegions_eq, allRegions_ofRegions] at inside
  exact all region (List.mem_filter.mp inside).1

theorem All.foldl_add {scanned : List (Option ResultRegion)} (all : result.All good)
    (new : ∀ region, some region ∈ scanned → good region) :
    (scanned.foldl Result.add result).All good := by
  induction scanned generalizing result with
  | nil => exact all
  | cons first rest ih =>
      refine ih (all.add fun added same => new added ?_)
        fun region inside => new region (.tail _ inside)
      exact same ▸ List.mem_cons_self

theorem All.foldl_replace {entries : List (Nat × Option ResultRegion)} (all : result.All good)
    (new : ∀ entry ∈ entries, ∀ region, entry.2 = some region → good region) :
    (entries.foldl (fun result entry => result.replace entry.1 entry.2) result).All good := by
  induction entries generalizing result with
  | nil => exact all
  | cons first rest ih =>
      refine ih (all.replace fun added same _ => new first List.mem_cons_self added same) ?_
      exact fun entry inside => new entry (.tail _ inside)

theorem All.foldl_rebuild {rebuild : ResultRegion → Option ResultRegion} (all : result.All good)
    (keeps : ∀ region built, good region → rebuild region = some built →
      built.invariantHolds = true → good built) (indices : List Nat) :
    (indices.foldl (fun result i => result.replace i ((result.regionAt i).bind rebuild))
      result).All good := by
  induction indices generalizing result with
  | nil => exact all
  | cons i rest ih =>
      refine ih (all.replace fun added same complete => ?_)
      obtain ⟨old, here, built⟩ := Option.bind_eq_some_iff.mp same
      have there := List.mem_of_getElem? (Option.join_eq_some_iff.mp here)
      exact keeps old added (all old (List.reduceOption_mem_iff.mpr there)) built complete

theorem All.replaceEach {rebuild : ResultRegion → Option ResultRegion} (all : result.All good)
    (keeps : ∀ region built, good region → rebuild region = some built →
      built.invariantHolds = true → good built) : (result.replaceEach rebuild).All good :=
  (all.foldl_rebuild keeps _).removeEmptyRegions

end Result

/-! ## What the operations of the engine rebuild -/

namespace ResultRegion.Typed
variable {t : Target} {e : Engine} {last : Int} {region built : ResultRegion}

theorem of_untyped (type : SearchType) (complete : built.invariantHolds = true)
    (untyped : built.types = []) : built.Typed type.code where
  complete := complete
  known := by simp [untyped]
  fallback _ := ⟨type, rfl⟩

theorem relast (typed : region.Typed last) (type : SearchType) : region.Typed type.code where
  complete := typed.complete
  known := typed.known
  fallback _ := ⟨type, rfl⟩

theorem filtered {type : SearchType} {pass : Nat → Bool}
    (kept : filterRegion type.code pass region = some built)
    (complete : built.invariantHolds = true) : built.Typed type.code where
  complete := complete
  known other listed := by
    rw [filterRegion_types type.code_ne_zero kept] at listed
    obtain ⟨_, -, rfl⟩ := List.mem_map.mp listed
    exact ⟨type, rfl⟩
  fallback _ := ⟨type, rfl⟩

theorem changed (typed : region.Typed last) {change : ChangeType}
    (kept : changeRegion t e change region = some built)
    (complete : built.invariantHolds = true) : built.Typed last := by
  cases changeRegion_types typed.complete typed.known kept with
  | inl untyped =>
      exact ⟨complete, by simp [untyped.2], fun _ => typed.fallback untyped.1⟩
  | inr own =>
      obtain ⟨-, nonempty, subset⟩ := own
      exact ⟨complete, fun type listed => typed.known type (subset listed),
        fun untyped => absurd untyped nonempty⟩

theorem searched (typed : region.Typed last) {tolerance range : Nat} {target : JJSearchValue}
    {type : SearchType}
    (kept : (nearbyRegion t tolerance last range target type region).value = some built)
    (complete : built.invariantHolds = true) : built.Typed last := by
  cases nearbyRegion_types typed.complete typed.known typed.fallback kept with
  | inl untyped =>
      exact ⟨complete, by simp [untyped.2.1], fun _ => typed.fallback untyped.1⟩
  | inr own => exact ⟨complete, own.2, fun untyped => absurd untyped own.1⟩

theorem scanned {tolerance base size : Nat} {range : AddrRange} {values : List JJSearchValue}
    {type : SearchType}
    (found : (scanRegionAny t tolerance range values type base size).value = some built) :
    built.Typed type.code := by
  refine .of_untyped type (scanRegionAny_invariantHolds found) ?_
  obtain ⟨buffer, -, rfl⟩ := scanRegionAny_built found
  rfl

theorem hexScanned {pattern : JJHexPattern} {base size : Nat}
    (found : (scanHexRegion t pattern base size).value = some built) :
    built.Typed SearchType.uByte.code where
  complete := scanHexRegion_invariantHolds found
  known type listed := by
    obtain ⟨buffer, offsets, -, -, rfl⟩ := scanHexRegion_built found
    obtain ⟨_, -, rfl⟩ := List.mem_map.mp listed
    exact ⟨.uByte, rfl⟩
  fallback _ := ⟨.uByte, rfl⟩

end ResultRegion.Typed

namespace Engine.Typed
variable {t : Target} {e : Engine}

theorem all (typed : e.Typed) : e.result.All (·.Typed e.lastNumberType) := typed_iff.mp typed

theorem scanMemoryAny (typed : e.Typed) (range : AddrRange) (values : List JJSearchValue)
    (type : Int) : (e.jjScanMemoryAny t range values type).Typed := by
  unfold Engine.jjScanMemoryAny
  cases valid : SearchType.ofCode? type with
  | none => exact typed
  | some searched =>
      obtain rfl := SearchType.ofCode?_eq_some.mp valid
      have old : e.result.All (·.Typed searched.code) :=
        fun region inside => (typed.all region inside).relast searched
      dsimp only
      split_ifs with given done
      · exact typed
      · refine typed_iff.mpr (Result.All.removeEmptyRegions (old.foldl_replace ?_))
        intro entry inside region rebuilt
        obtain ⟨i, -, same⟩ := List.mem_map.mp (List.of_mem_zip inside).2
        obtain ⟨source, -, kept⟩ := Option.bind_eq_some_iff.mp (same.trans rebuilt)
        refine .of_untyped searched ?_ (scanAgainRegion_types kept)
        rw [ResultRegion.invariantHolds_iff, scanAgainRegion_types kept]
        exact .inl rfl
      · refine typed_iff.mpr ?_
        show Result.All _ (List.foldl _ _ _)
        rw [← List.foldl_map]
        refine old.foldl_add fun region inside => ?_
        obtain ⟨clip, -, found⟩ := List.mem_map.mp inside
        exact .scanned found

theorem scanHexMemory (typed : e.Typed) (range : AddrRange) (hexStr : CString) :
    (e.jjScanHexMemory t range hexStr).Typed := by
  have old : e.result.All (·.Typed SearchType.uByte.code) :=
    fun region inside => (typed.all region inside).relast .uByte
  unfold Engine.jjScanHexMemory
  cases jjParseMaskedHexPattern hexStr with
  | none => exact typed
  | some pattern =>
      dsimp only
      split_ifs with done
      · refine typed_iff.mpr ?_
        show Result.All _ (jjFilterHexResultSet _ _ _ _ _).2
        unfold jjFilterHexResultSet
        split_ifs with refused
        · exact old
        · exact old.replaceEach fun region built _ => .filtered
      · refine typed_iff.mpr ?_
        show Result.All _ (List.foldl _ _ _)
        rw [← List.foldl_map]
        refine old.foldl_add fun region inside => ?_
        obtain ⟨clip, -, found⟩ := List.mem_map.mp inside
        exact .hexScanned found

theorem filterResults (typed : e.Typed) (valueStr : CString) (type : SearchType) (mode : Int) :
    (e.jjFilterResults t valueStr type.code mode).Typed := by
  have old : e.result.All (·.Typed type.code) :=
    fun region inside => (typed.all region inside).relast type
  refine typed_iff.mpr ?_
  show Result.All _ (jjFilterResultSet _ _ _ _ _).2
  unfold jjFilterResultSet
  split
  · exact old.replaceEach fun region built _ => .filtered
  · exact old

theorem step (typed : e.Typed) (t : Target) (op : EngineOp) (promise : promised (t, op)) :
    (Engine.step (t, op) e).Typed := by
  cases op with
  | setFloatTolerance bits => exact ⟨typed.complete, typed.known, typed.fallback⟩
  | scanMemoryAny range values type => exact typed.scanMemoryAny range values type
  | scanHexMemory range hexStr => exact typed.scanHexMemory range hexStr
  | nearBySearch range target type =>
      simp only [Engine.step, Engine.jjNearBySearch]
      split
      · exact typed
      · exact typed_iff.mpr (typed.all.replaceEach fun region built before => before.searched)
  | filterResults valueStr type mode =>
      obtain ⟨searched, valid⟩ := Option.isSome_iff_exists.mp promise
      obtain rfl := SearchType.ofCode?_eq_some.mp valid
      exact typed.filterResults valueStr searched mode
  | refineByChange change =>
      exact typed_iff.mpr (typed.all.replaceEach fun region built before => before.changed)

end Engine.Typed

end H5GG

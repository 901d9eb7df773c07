import H5GG.Facade
import H5GG.Proof.Engine.Types

/-!
# The facade and the engine agree on untyped results

The session and the engine each keep a type for untyped results. A call that sets only one of them
leaves no untyped results behind, or finds the two equal.
-/

namespace H5GG
open Validation

/-! ### What a call does to the session -/

theorem jjTypeFromName_code (name : Option CString) (valid : jjTypeFromName name ≠ 0) :
    ∃ type : SearchType, jjTypeFromName name = type.code := by
  unfold jjTypeFromName at valid ⊢
  split
  · exact absurd rfl valid
  · rename_i name
    split
    · exact ⟨_, rfl⟩
    · rename_i unknown
      simp [unknown] at valid

theorem jjParseSearchExpression_ne_nil {text : CString} {type : Int} {values : List JJSearchValue}
    (parsed : jjParseSearchExpression text type = some values) : values ≠ [] := by
  unfold jjParseSearchExpression at parsed
  split at parsed
  · cases parsed
  · rename_i searched _
    cases split : text.splitOn 0x2C with
    | nil => exact absurd split (List.splitOn_ne_nil _ _)
    | cons member rest =>
        rw [split, List.mapM_cons] at parsed
        obtain ⟨value, -, tail⟩ := Option.bind_eq_some_iff.mp parsed
        obtain ⟨others, -, same⟩ := Option.bind_eq_some_iff.mp tail
        exact Option.some.inj same ▸ List.cons_ne_nil value others

namespace MemorySession

def withStep (session : MemorySession) (event : Target × EngineOp) : MemorySession :=
  { session with engine := Engine.step event session.engine }

/-- What a facade call may do: the checks of each call, as far as the engine relies on them. -/
inductive Effect (t : Target) (session : MemorySession) : MemorySession → Prop
  | kept : Effect t session session
  | created (target : TargetProcess) : Effect t session (create target)
  | tolerated (bits : Nat) : Effect t session (session.withStep (t, .setFloatTolerance bits))
  | scanned (range : AddrRange) (values : List JJSearchValue) (type : SearchType) :
      values ≠ [] →
      Effect t session
        ((session.withStep (t, .scanMemoryAny range values type.code)).markSearchDone type.code)
  | hexScanned (range : AddrRange) (hexStr : CString) : range.start < range.stop →
      (jjParseMaskedHexPattern hexStr).isSome = true →
      Effect t session
        ((session.withStep (t, .scanHexMemory range hexStr)).markSearchDone SearchType.uByte.code)
  | searched (range : Nat) (target : JJSearchValue) (type : SearchType) :
      session.engine.result.count ≠ 0 →
      Effect t session
        ((session.withStep (t, .nearBySearch range target type.code)).markSearchDone type.code)
  | filtered (text : CString) (type : SearchType) (mode : Int) :
      session.engine.result.count ≠ 0 → (FilterMode.ofCode? mode).isSome = true →
      (jjParseValue text type.code).isSome = true →
      Effect t session (session.withStep (t, .filterResults text type.code mode))
  | changed (change : ChangeType) : session.engine.result.count ≠ 0 →
      Effect t session
        ((session.withStep (t, .refineByChange change)).markSearchDone session.lastSearchType)

variable {system : System} {session after : MemorySession}

theorem setTargetProc_effect (pid : Int) :
    Effect system.memory session (setTargetProc system pid session).2 := by
  simp only [setTargetProc, invalidateTargetSession]
  split_ifs <;> first | exact .created _ | exact .kept

theorem getTargetStatus_effect :
    Effect system.memory session (getTargetStatus system session).2 := by
  simp only [getTargetStatus, invalidateTargetSession]
  split_ifs
  · exact .created _
  · exact .kept

theorem searchChange_effect {type : Option NSString}
    (success : searchChange system type session = .ok after) :
    Effect system.memory session after := by
  simp only [searchChange, bind_eq_ok, accept_eq_ok, require_eq_ok, decide_eq_true_eq,
    pure_eq_ok] at success
  obtain ⟨change, -, -, found, rfl⟩ := success
  exact .changed change found

theorem parseRange_ordered {memoryFrom memoryTo : Option NSString} {range : AddrRange}
    (parsed : parseRange memoryFrom memoryTo = some range) : range.start < range.stop := by
  obtain ⟨start, -, rest⟩ := Option.bind_eq_some_iff.mp parsed
  obtain ⟨stop, -, given⟩ := Option.bind_eq_some_iff.mp rest
  split_ifs at given with inverted
  rw [← Option.some.inj given]
  exact Nat.lt_of_not_le inverted

theorem searchNumberRequest_ok {value type memoryFrom memoryTo : Option NSString}
    {range : AddrRange} {values : List JJSearchValue} {jjtype : Int}
    (success : searchNumberRequest value type memoryFrom memoryTo session =
      .ok (range, values, jjtype)) :
    values ≠ [] ∧ ∃ searched : SearchType, jjtype = searched.code := by
  simp only [searchNumberRequest, bind_eq_ok, accept_eq_ok, require_eq_ok, decide_eq_true_eq,
    pure_eq_ok, Prod.mk.injEq] at success
  obtain ⟨-, -, -, valid, _, parsed, -, -, _, -, -, -, -, rfl, rfl⟩ := success
  obtain ⟨text, -, expression⟩ := Option.bind_eq_some_iff.mp parsed
  exact ⟨jjParseSearchExpression_ne_nil expression, jjTypeFromName_code _ valid⟩

theorem searchNearbyRequest_ok {value type range : Option NSString} {searchRange : Nat}
    {target : JJSearchValue} {jjtype : Int}
    (success : searchNearbyRequest value type range session = .ok (searchRange, target, jjtype)) :
    session.engine.result.count ≠ 0 ∧ ∃ searched : SearchType, jjtype = searched.code := by
  simp only [searchNearbyRequest, bind_eq_ok, accept_eq_ok, require_eq_ok, decide_eq_true_eq,
    pure_eq_ok, Prod.mk.injEq] at success
  obtain ⟨-, -, -, -, -, valid, _, -, _, -, _, -, -, -, -, found, -, -, rfl⟩ := success
  exact ⟨found, jjTypeFromName_code _ valid⟩

theorem searchNumber_effect {value type memoryFrom memoryTo : Option NSString}
    (success : searchNumber system value type memoryFrom memoryTo session = .ok after) :
    Effect system.memory session after := by
  simp only [searchNumber, bind_eq_ok, pure_eq_ok] at success
  obtain ⟨⟨range, values, jjtype⟩, request, rfl⟩ := success
  obtain ⟨given, searched, rfl⟩ := searchNumberRequest_ok request
  exact .scanned range values searched given

theorem searchNearby_effect {value type range : Option NSString}
    (success : searchNearby system value type range session = .ok after) :
    Effect system.memory session after := by
  simp only [searchNearby, bind_eq_ok, pure_eq_ok] at success
  obtain ⟨⟨reach, target, jjtype⟩, request, rfl⟩ := success
  obtain ⟨found, searched, rfl⟩ := searchNearbyRequest_ok request
  exact .searched reach target searched found

theorem searchHex_effect {hex memoryFrom memoryTo : Option NSString}
    (success : searchHex system hex memoryFrom memoryTo session = .ok after) :
    Effect system.memory session after := by
  simp only [searchHex, bind_eq_ok, accept_eq_ok, require_eq_ok, pure_eq_ok] at success
  obtain ⟨-, -, -, -, range, bounds, hexStr, -, -, parsed, rfl⟩ := success
  exact .hexScanned range hexStr (parseRange_ordered bounds) parsed

theorem searchFilter_effect {value type : Option NSString} {mode count : Int}
    (success : searchFilter system value type mode session = .ok (count, after)) :
    Effect system.memory session after := by
  simp only [searchFilter, bind_eq_ok, accept_eq_ok, require_eq_ok, decide_eq_true_eq,
    Bool.and_eq_true, pure_eq_ok, Prod.mk.injEq] at success
  obtain ⟨-, -, -, found, -, valid, text, -, -, ⟨known, parsed⟩, -, rfl⟩ := success
  obtain ⟨searched, code⟩ := jjTypeFromName_code _ valid
  rw [code] at parsed ⊢
  exact .filtered text searched mode found known parsed

theorem call_effect (event : System × FacadeCall) (session : MemorySession) :
    Effect event.1.memory session (call event session) := by
  obtain ⟨system, facadeCall⟩ := event
  cases facadeCall with
  | setTargetProc pid => exact setTargetProc_effect pid
  | getTargetStatus => exact getTargetStatus_effect
  | setFloatTolerance value =>
      refine settle_of .kept fun after success => ?_
      simp only [setFloatTolerance, bind_eq_ok, pure_eq_ok] at success
      obtain ⟨bits, -, rfl⟩ := success
      exact .tolerated bits
  | clearResults => exact .created session.target
  | searchNumber => exact settle_of .kept fun _ => searchNumber_effect
  | searchNearby => exact settle_of .kept fun _ => searchNearby_effect
  | searchChange => exact settle_of .kept fun _ => searchChange_effect
  | searchHex => exact settle_of .kept fun _ => searchHex_effect
  | searchFilter value type mode =>
      refine settle_of .kept fun after success => ?_
      cases reply : searchFilter system value type mode session with
      | error alert => simp [reply, Except.map] at success
      | ok kept =>
          rw [reply] at success
          exact Except.ok.inj success ▸ searchFilter_effect reply

/-! ### What every call keeps -/

/-- The representation invariant that the two fields of the session share with the engine. -/
structure Consistent (session : MemorySession) : Prop where
  wellFormed : session.engine.WellFormed
  known : KnownTypes session.engine
  first : session.firstSearchDone = session.engine.firstScanDone
  untyped : ∀ region ∈ session.engine.result.allRegions, region.types = [] →
    session.lastSearchType = session.engine.lastNumberType

theorem consistent_create (target : TargetProcess) : (create target).Consistent where
  wellFormed := wellFormed_fresh
  known := ⟨by simp [create, Engine.fresh, Result.allRegions], by simp [create, Engine.fresh]⟩
  first := rfl
  untyped := by simp [create, Engine.fresh, Result.allRegions]

theorem Consistent.done (consistent : session.Consistent)
    (found : session.engine.result.count ≠ 0) : session.engine.firstScanDone = true := by
  by_contra undone
  rw [consistent.wellFormed.empty (Bool.eq_false_iff.mpr undone)] at found
  exact found rfl

theorem Consistent.withStep (consistent : session.Consistent) (event : Target × EngineOp)
    (promise : promised event) :
    (session.withStep event).engine.WellFormed ∧ KnownTypes (session.withStep event).engine :=
  ⟨wellFormed_step consistent.wellFormed promise.range,
    knownTypes_step consistent.wellFormed consistent.known promise⟩

theorem consistent_effect {t : Target} (consistent : session.Consistent)
    (effect : Effect t session after) : after.Consistent := by
  cases effect with
  | kept => exact consistent
  | created target => exact consistent_create target
  | tolerated bits =>
      obtain ⟨wellFormed, known⟩ := consistent.withStep (t, .setFloatTolerance bits) trivial
      exact ⟨wellFormed, known, consistent.first, consistent.untyped⟩
  | scanned range values type given =>
      obtain ⟨wellFormed, known⟩ := consistent.withStep
        (t, .scanMemoryAny range values type.code) trivial
      obtain ⟨done, last⟩ := scanMemoryAny_sets (t := t) (e := session.engine) given
      exact ⟨wellFormed, known, done.symm, fun _ _ _ => last.symm⟩
  | hexScanned range hexStr ordered parsed =>
      obtain ⟨wellFormed, known⟩ := consistent.withStep
        (t, .scanHexMemory range hexStr) ordered
      obtain ⟨done, last⟩ := scanHexMemory_sets (t := t) (e := session.engine) parsed
      exact ⟨wellFormed, known, done.symm, fun _ _ _ => last.symm⟩
  | searched range target type found =>
      have done := consistent.done found
      obtain ⟨wellFormed, known⟩ := consistent.withStep
        (t, .nearBySearch range target type.code) trivial
      refine ⟨wellFormed, known, (step_firstScanDone done).symm, fun region member untyped => ?_⟩
      refine (nearBySearch_untyped consistent.wellFormed consistent.known done member untyped).trans ?_
      show _ = (Engine.step (t, .nearBySearch range target type.code) session.engine).lastNumberType
      simp only [Engine.step, Engine.jjNearBySearch, SearchType.ofCode?_code]
  | filtered text type mode found modeKnown parsed =>
      have done := consistent.done found
      obtain ⟨wellFormed, known⟩ := consistent.withStep
        (t, .filterResults text type.code mode)
        (show (SearchType.ofCode? type.code).isSome = true by simp)
      refine ⟨wellFormed, known, ?_, fun region member untyped => ?_⟩
      · exact consistent.first.trans (done.trans (step_firstScanDone done).symm)
      · exact absurd untyped
          (filterResults_typed consistent.wellFormed done modeKnown parsed member)
  | changed change found =>
      have done := consistent.done found
      obtain ⟨wellFormed, known⟩ := consistent.withStep (t, .refineByChange change) trivial
      refine ⟨wellFormed, known, (step_firstScanDone done).symm, fun region member untyped => ?_⟩
      obtain ⟨source, old, plain⟩ :=
        refineByChange_untyped consistent.wellFormed consistent.known done member untyped
      exact consistent.untyped source old plain

end MemorySession

/-! ### What is shown -/

theorem mem_getResultsAndTypes {e : Engine} {count skip : Int} {shown : Nat × Int}
    (member : shown ∈ (e.getResultsAndTypes count skip).toList) :
    ∃ region ∈ e.result.allRegions, ∃ entry ∈ region.typed 0,
      shown = (region.address entry.1, entry.2) := by
  let sound (state : Int × Std.TreeMap Nat Int) : Prop := ∀ address type,
    state.2[address]? = some type → ∃ region ∈ e.result.allRegions, ∃ entry ∈ region.typed 0,
      (address, type) = (region.address entry.1, entry.2)
  have insertion : ∀ region ∈ e.result.allRegions, ∀ entry ∈ region.typed 0, ∀ state,
      sound state → sound (Engine.pageEntry count skip region state entry) := by
    intro region listed entry typed state before address type bound
    dsimp only [Engine.pageEntry] at bound
    split at bound
    · rw [Std.TreeMap.getElem?_insert] at bound
      split at bound
      · rename_i same
        refine ⟨region, listed, entry, typed, ?_⟩
        rw [← Option.some.inj bound, Nat.compare_eq_eq.mp same]
      · exact before address type bound
    · exact before address type bound
  have walked : sound (e.result.allRegions.foldl (Engine.pageRegion count skip) (0, ∅)) := by
    refine List.foldlRecOn _ _ (by simp [sound]) fun state before region listed => ?_
    simp only [Engine.pageRegion]
    split
    · exact before
    · exact List.foldlRecOn _ _ before fun state before entry inside =>
        insertion region listed entry (List.mem_of_mem_take inside) state before
  exact walked shown.1 shown.2 (Std.TreeMap.mem_toList_iff_getElem?_eq_some.mp member)

namespace MemorySession
variable {session : MemorySession}

theorem Consistent.typed (consistent : session.Consistent) {region : ResultRegion}
    (member : region ∈ session.engine.result.allRegions) :
    region.typed session.lastSearchType = region.typed session.engine.lastNumberType := by
  by_cases untyped : region.types = []
  · rw [consistent.untyped region member untyped]
  · simp [ResultRegion.typed, ResultRegion.hasTypes, untyped]

theorem Consistent.shown (consistent : session.Consistent) {system : System}
    {maxCount skipCount : Int} {shown : ShownResult}
    (member : shown ∈ session.getResults system maxCount skipCount) :
    ∃ hit ∈ session.engine.hits, shown.address = hit.1 ∧ shown.type = jjTypeName hit.2 := by
  obtain ⟨⟨address, jjtype⟩, listed, rfl⟩ := List.mem_map.mp member
  obtain ⟨region, old, entry, typed, same⟩ := mem_getResultsAndTypes listed
  obtain ⟨rfl, rfl⟩ := Prod.mk.inj same
  have complete := (consistent.wellFormed.regions region old).complete
  have listed : ∀ type, (entry.1, type) ∈ region.typed session.engine.lastNumberType →
      (region.address entry.1, type) ∈ session.engine.hits := fun type inside =>
    List.mem_flatMap.mpr ⟨region, old, List.mem_map_of_mem inside⟩
  rcases ResultRegion.mem_typed_type complete typed with ⟨untyped, fallback⟩ | own
  · obtain ⟨last, code⟩ := consistent.known.fallback (consistent.wellFormed.done old)
    refine ⟨_, listed session.engine.lastNumberType ?_, rfl, ?_⟩
    · rw [ResultRegion.typed_of_untyped untyped]
      exact List.mem_map_of_mem (ResultRegion.mem_typed_slide typed)
    · simp only [fallback, ↓reduceIte]
      rw [consistent.untyped region old untyped, ← code, int8_code]
  · have typedRegion : region.types ≠ [] := List.ne_nil_of_mem own
    obtain ⟨known, code⟩ := consistent.known.regions region old _ own
    refine ⟨_, listed entry.2 ?_, rfl, ?_⟩
    · have same := (ResultRegion.invariantHolds_iff.mp complete).resolve_left typedRegion
      rw [ResultRegion.typed_of_typed same typedRegion] at typed ⊢
      exact typed
    · simp only [code, known.code_ne_zero, ↓reduceIte]

/-- The session and the engine agree on whether there was a search and on what untyped results
are, and every result is shown with the type that later operations use for it. -/
structure Agrees (session : MemorySession) : Prop where
  first : session.firstSearchDone = session.engine.firstScanDone
  untyped : ∀ region ∈ session.engine.result.allRegions, region.hasTypes = false →
    session.lastSearchType = session.engine.lastNumberType
  hits : session.engine.result.hits session.lastSearchType = session.engine.hits
  shown : ∀ system maxCount skipCount, ∀ shown ∈ session.getResults system maxCount skipCount,
    ∃ hit ∈ session.engine.hits, shown.address = hit.1 ∧ shown.type = jjTypeName hit.2

theorem Consistent.agrees (consistent : session.Consistent) : session.Agrees where
  first := consistent.first
  untyped region member plain :=
    consistent.untyped region member (by simpa [ResultRegion.hasTypes] using plain)
  hits := by
    unfold Engine.hits Result.hits ResultRegion.hits
    refine List.flatMap_congr fun region member => ?_
    rw [consistent.typed member]
  shown _ _ _ _ := consistent.shown

/-- Behind every call of every sequence of facade calls the session and its engine agree. -/
theorem session_agrees (target : TargetProcess) (calls : List (System × FacadeCall)) :
    Along call (fun event session => (call event session).Agrees) calls (create target) := by
  refine Along.of_invariant Consistent ?_ ?_ (consistent_create target)
    (along_of_forall (fun _ _ => trivial) calls _)
  · exact fun event session consistent _ => consistent_effect consistent (call_effect event session)
  · exact fun event session consistent _ =>
      (consistent_effect consistent (call_effect event session)).agrees

end MemorySession

end H5GG

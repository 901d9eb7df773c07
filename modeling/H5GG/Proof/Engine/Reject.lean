import H5GG.Proof.Engine.Snapshot

/-!
# Rejected calls

`JJFilterResults` and the refinement of `JJScanHexMemory` hand the check of their arguments to a
filter, and record their type and take a snapshot whatever it answers.
-/

namespace H5GG

/-- The inputs that an entry point turns down. -/
def rejects : Target × EngineOp → Engine → Prop
  | (_, .scanMemoryAny _ values type), _ => values = [] ∨ SearchType.ofCode? type = none
  | (_, .scanHexMemory range hexStr), e =>
      jjParseMaskedHexPattern hexStr = none ∨
        (e.firstScanDone = true ∧ range.stop ≤ range.start)
  | (_, .nearBySearch _ _ type), _ => SearchType.ofCode? type = none
  | (_, .filterResults valueStr type mode), _ =>
      SearchType.ofCode? type = none ∨ FilterMode.ofCode? mode = none ∨
        jjParseValue valueStr type = none
  | _, _ => False

/-- The rejected calls that have nothing to overwrite. -/
def rejectsQuietly : Target × EngineOp → Engine → Prop
  | (t, .filterResults _ type _), e => type = e.lastNumberType ∧ snapshotCurrent t e
  | (t, .scanHexMemory _ hexStr), e => jjParseMaskedHexPattern hexStr ≠ none →
      SearchType.uByte.code = e.lastNumberType ∧ snapshotCurrent t e
  | _, _ => True

theorem saveSnapshot_retype_eq_self {t : Target} {e : Engine} {type : Int} :
    Engine.saveSnapshot t { e with lastNumberType := type } = e ↔
      type = e.lastNumberType ∧ snapshotCurrent t e := by
  rw [saveSnapshot_eq]
  constructor
  · intro same
    have types : type = e.lastNumberType := congrArg Engine.lastNumberType same
    subst types
    exact ⟨rfl, fun address => (congrFun (congrArg Engine.snapshot same) address).symm⟩
  · rintro ⟨rfl, current⟩
    have snapshots : lastReading t e.hits = e.snapshot := funext fun a => (current a).symm
    simp only [snapshots]

theorem jjFilterResultSet_rejected {results : Result} {value : CString} {type mode : Int}
    {reader : MemoryReader} (rejected : SearchType.ofCode? type = none ∨
      FilterMode.ofCode? mode = none ∨ jjParseValue value type = none) :
    jjFilterResultSet results value type mode reader = (0, results) := by
  unfold jjFilterResultSet
  split
  · simp_all
  · rfl

theorem jjFilterHexResultSet_rejected {results : Result} {pattern : JJHexPattern}
    {reader : MemoryReader} {rangeStart rangeEnd : Nat} (empty : rangeEnd ≤ rangeStart) :
    jjFilterHexResultSet results pattern reader rangeStart rangeEnd = (0, results) := by
  simp [jjFilterHexResultSet, empty]

/-- A rejected call leaves the engine as it was exactly when it rejects quietly. -/
theorem rejected_step_eq_self_iff {event : Target × EngineOp} {e : Engine}
    (rejected : rejects event e) : Engine.step event e = e ↔ rejectsQuietly event e := by
  obtain ⟨t, op⟩ := event
  cases op with
  | setFloatTolerance bits => exact rejected.elim
  | refineByChange change => exact rejected.elim
  | scanMemoryAny range values type =>
      refine iff_of_true ?_ trivial
      simp only [Engine.step, Engine.jjScanMemoryAny]
      rcases rejected with empty | invalid
      · cases SearchType.ofCode? type <;> simp [empty]
      · simp [invalid]
  | nearBySearch range target type =>
      refine iff_of_true ?_ trivial
      have invalid : SearchType.ofCode? type = none := rejected
      simp [Engine.step, Engine.jjNearBySearch, invalid]
  | filterResults valueStr type mode =>
      simp only [Engine.step, Engine.jjFilterResults, jjFilterResultSet_rejected rejected]
      exact saveSnapshot_retype_eq_self
  | scanHexMemory range hexStr =>
      simp only [Engine.step, Engine.jjScanHexMemory, rejectsQuietly]
      cases parsed : jjParseMaskedHexPattern hexStr with
      | none => simp
      | some pattern =>
          obtain ⟨done, empty⟩ := rejected.resolve_left (by simp [parsed])
          simp only [if_pos done, jjFilterHexResultSet_rejected empty, ne_eq, reduceCtorEq,
            not_false_eq_true, forall_const]
          exact saveSnapshot_retype_eq_self

/-- A filter with an unknown mode turns a result into an unsigned byte. -/
theorem rejected_step_changes_hits :
    rejects (.onePage fun _ => 0, .filterResults [] SearchType.uByte.code 7) scannedZero ∧
      scannedZero.hits = [(0x100000000, SearchType.sInt.code)] ∧
      (Engine.step (.onePage fun _ => 0, .filterResults [] SearchType.uByte.code 7)
        scannedZero).hits = [(0x100000000, SearchType.uByte.code)] :=
  ⟨Or.inr (Or.inl rfl), by decide +kernel, by decide +kernel⟩

theorem scannedZero_filter_same_type :
    Engine.step (.onePage fun _ => 0, .filterResults [] SearchType.sInt.code 7) scannedZero =
      scannedZero := by
  have rejected : rejects (.onePage fun _ => 0, .filterResults [] SearchType.sInt.code 7)
      scannedZero := Or.inr (Or.inl rfl)
  exact (rejected_step_eq_self_iff rejected).mpr ⟨rfl, snapshotCurrent_saveSnapshot⟩

end H5GG

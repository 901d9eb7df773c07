import H5GG.Proof.Editing
import H5GG.Proof.Value.Expression

/-!
# An edit between two searches

Results of a search for a type of `len` bytes leave room for values of that many bytes, whatever
narrows them down. All of them can then be edited, and found again.
-/

namespace H5GG

/-! ## Room for each value -/

structure ResultRegion.Roomy (len : Nat) (region : ResultRegion) : Prop where
  narrow : region.regionSize < 2 ^ 32
  spaced : region.slides.Pairwise fun earlier later => earlier + len ≤ later
  fits : ∀ slide ∈ region.slides, slide + len ≤ region.regionSize

/-- The first search is for values as long, and no nearby search adds to it. -/
def leavesRoom (len : Nat) : Target × EngineOp → Engine → Prop
  | (_, .scanMemoryAny _ _ type), e => e.firstScanDone = false →
      ∀ searched, SearchType.ofCode? type = some searched → len ≤ searched.len
  | (_, .scanHexMemory _ _), e => e.firstScanDone = true
  | (_, .nearBySearch _ _ _), _ => False
  | _, _ => True

section
variable {len : Nat} {t : Target} {e : Engine} {op : EngineOp}

theorem ResultRegion.Roomy.of_sublist {region built : ResultRegion} (roomy : region.Roomy len)
    (size : built.regionSize = region.regionSize)
    (slides : built.slides.Sublist region.slides) : built.Roomy len where
  narrow := size ▸ roomy.narrow
  spaced := roomy.spaced.sublist slides
  fits slide among := size ▸ roomy.fits slide (slides.subset among)

theorem passed_roomy (wellFormed : e.WellFormed)
    (roomy : ∀ region ∈ e.result.allRegions, region.Roomy len)
    (room : leavesRoom len (t, op) e) : ∀ region ∈ passed t e op, region.Roomy len := by
  intro built member
  obtain ⟨region, listed, kept⟩ := List.mem_filterMap.mp (List.mem_filter.mp member).1
  have shape := wellFormed.regions region listed
  have old := roomy region listed
  have size := (passOver_rebuilds shape kept).size
  cases passOver_cases kept with
  | same unchanged => exact unchanged ▸ old
  | scanned _ kept => exact old.of_sublist size (scanAgainRegion_sublist shape kept)
  | changed _ kept => exact old.of_sublist size (changeRegion_sublist kept)
  | filtered kept =>
      apply old.of_sublist size
      rw [filterRegion_eq (SearchType.code_ne_zero _)] at kept
      rw [← Option.some.inj kept]
      exact List.filter_sublist
  | searched nearby _ =>
      subst nearby
      exact room.elim

theorem positions_spaced (width stop : Nat) :
    (Stride.positions width 0 stop).Pairwise fun earlier later => earlier + width ≤ later := by
  apply List.pairwise_map.mpr
  apply List.pairwise_lt_range.imp
  intro i j below
  rw [Nat.zero_add, Nat.zero_add, ← Nat.succ_mul]
  exact Nat.mul_le_mul_right width below

theorem numericRegion_roomy {range : AddrRange} {tolerance : Nat} {values : List JJSearchValue}
    {searched : SearchType} (long : len ≤ searched.len) (narrow : narrowRegions (t, op)) :
    ∀ region ∈ (parts t range).filterMap (numericRegion t tolerance values searched),
      region.Roomy len := by
  intro region member
  obtain ⟨part, listed, scanned⟩ := List.mem_filterMap.mp member
  obtain ⟨entry, entry_listed, clipped⟩ := List.mem_filterMap.mp listed
  have bound := narrow entry entry_listed
  have clip := overlap_eq_some.mp clipped
  have within := loadedSize_le t part.1 part.2
  have slim : ∀ offset ∈ numericOffsets t tolerance values searched part, offset < 2 ^ 32 := by
    intro offset found
    have := numericOffsets_lt found
    omega
  unfold numericRegion scannedRegion at scanned
  split_ifs at scanned
  rw [← Option.some.inj scanned, map_u32 slim]
  refine ⟨by dsimp only; omega, ?_, fun slide among => ?_⟩
  · have spaced := (positions_spaced searched.len (t.loadedSize part.1 part.2)).filter
      (fun offset => jjSearchValueMatchesAny (t.bytesAt (part.1 + offset) searched.len) values
        searched tolerance)
    exact spaced.imp fun apart => (Nat.add_le_add_left long _).trans apart
  · exact (Nat.add_le_add_left long slide).trans (mem_numericOffsets.mp among).2.1

theorem step_roomy (wellFormed : e.WellFormed)
    (roomy : ∀ region ∈ e.result.allRegions, region.Roomy len) (promise : promisedRange (t, op))
    (narrow : narrowRegions (t, op)) (room : leavesRoom len (t, op) e) :
    ∀ region ∈ (Engine.step (t, op) e).result.allRegions, region.Roomy len := by
  cases done : e.firstScanDone with
  | true =>
      rw [step_result wellFormed done, Result.allRegions_ofRegions]
      exact passed_roomy wellFormed roomy room
  | false =>
      rw [firstStep_result wellFormed done promise, Result.allRegions_ofRegions]
      cases op with
      | scanMemoryAny range values type =>
          cases known : SearchType.ofCode? type with
          | none =>
              rw [firstRegions, known]
              exact List.forall_mem_nil _
          | some searched =>
              rw [firstRegions, known]
              dsimp only
              by_cases empty : values = []
              · rw [if_pos empty]
                exact List.forall_mem_nil _
              · rw [if_neg empty]
                exact numericRegion_roomy (room done searched known) narrow
      | scanHexMemory range hexStr =>
          have : e.firstScanDone = true := room
          rw [this] at done
          cases done
      | nearBySearch range target type => exact room.elim
      | setFloatTolerance bits => exact List.forall_mem_nil _
      | filterResults value type mode => exact List.forall_mem_nil _
      | refineByChange change => exact List.forall_mem_nil _

/-- The searches of a run that ends in results with room for `len` bytes each. -/
def roomyRun (len : Nat) (events : List (Target × EngineOp)) : Prop :=
  Along Engine.step (fun event e => promisedRange event ∧ narrowRegions event ∧ leavesRoom len event e)
    events Engine.fresh

theorem run_roomy (events : List (Target × EngineOp)) (admitted : roomyRun len events) :
    (execute Engine.step events Engine.fresh).WellFormed ∧
      ∀ region ∈ (execute Engine.step events Engine.fresh).result.allRegions,
        region.Roomy len := by
  apply Along.execute (fun e => e.WellFormed ∧ ∀ region ∈ e.result.allRegions, region.Roomy len)
    ?_ ⟨wellFormed_fresh, by simp [Engine.fresh, Result.allRegions]⟩ admitted
  rintro ⟨t, op⟩ e ⟨wellFormed, roomy⟩ ⟨promise, narrow, room⟩
  exact ⟨wellFormed_step wellFormed promise, step_roomy wellFormed roomy promise narrow room⟩

theorem addresses_spaced (wellFormed : e.WellFormed)
    (roomy : ∀ region ∈ e.result.allRegions, region.Roomy len) :
    e.addresses.Pairwise fun earlier later => earlier + len ≤ later := by
  apply List.pairwise_flatMap.mpr
  constructor
  · intro region member
    apply List.pairwise_map.mpr
    have shape := wellFormed.regions region member
    apply (roomy region member).spaced.imp_of_mem
    intro earlier later inside inside' apart
    rw [shape.address_eq inside, shape.address_eq inside']
    omega
  · apply wellFormed.apart.imp_of_mem
    intro first second member member' below x inside y inside'
    obtain ⟨slide, among, rfl⟩ := List.mem_map.mp inside
    obtain ⟨slide', among', rfl⟩ := List.mem_map.mp inside'
    have fits := (roomy first member).fits slide among
    rw [(wellFormed.regions first member).address_eq among,
      (wellFormed.regions second member').address_eq among']
    omega

end

/-! ## The search after the edit -/

section
variable {t : Target} {e : Engine} {type : SearchType} {bytes : Bytes} {memory : TaskMemory}

/-- With every write done, each result holds the value. -/
theorem bytesAt_edited (spaced : e.addresses.Pairwise fun earlier later => earlier + type.len ≤ later)
    (eight : bytes.length = 8)
    (edited : t.byte = (e.jjWriteAll (fun _ => none) bytes type.code memory).2.byte) {address : Nat}
    (among : address ∈ e.addresses) : t.bytesAt address type.len = bytes.take type.len := by
  obtain ⟨k, listed⟩ := List.mem_iff_getElem?.mp among
  have outcome : Edited (fun _ => none) type.len bytes e memory _ := jjWriteAll_edited e type eight
  have long := eight ▸ len_le_eight type
  apply bytesAt_written edited long
  intro i inside
  rw [outcome.written k address listed rfl _ i inside, List.getD_eq_getElem?_getD,
    List.getElem?_eq_getElem (inside.trans_le long), Option.getD_some]
  intro j later behind found
  left
  obtain ⟨bound, rfl⟩ := List.getElem?_eq_some_iff.mp listed
  obtain ⟨bound', rfl⟩ := List.getElem?_eq_some_iff.mp found
  exact List.pairwise_iff_getElem.mp spaced k j bound bound' behind

theorem scan_edited (wellFormed : e.WellFormed)
    (roomy : ∀ region ∈ e.result.allRegions, region.Roomy type.len) (done : e.firstScanDone = true)
    (eight : bytes.length = 8)
    (edited : t.byte = (e.jjWriteAll (fun _ => none) bytes type.code memory).2.byte)
    (loaded : ∀ region ∈ e.result.allRegions,
      t.loadedSize region.regionBase region.regionSize = region.regionSize)
    {range : AddrRange} (covered : ∀ address ∈ e.addresses,
      range.start ≤ address ∧ address < range.stop)
    {values : List JJSearchValue} (given : values ≠ []) :
    (e.jjScanMemoryAny t range values type.code).hits =
      if jjSearchValueMatchesAny (bytes.take type.len) values type e.floatTolerance then
        e.addresses.map fun address => (address, type.code)
      else [] := by
  have spaced := addresses_spaced wellFormed roomy
  have among {region : ResultRegion} (member : region ∈ e.result.allRegions) {slide : Nat}
      (inside : slide ∈ region.slides) : region.address slide ∈ e.addresses :=
    List.mem_flatMap.mpr ⟨region, member, List.mem_map_of_mem inside⟩
  have kept (region : ResultRegion) (member : region ∈ e.result.allRegions) :
      (scanAgainKept t e.floatTolerance range values type region).elim [] (·.hits type.code) =
        (if jjSearchValueMatchesAny (bytes.take type.len) values type e.floatTolerance then
          region.slides.map region.address else []).map fun address => (address, type.code) := by
    have shape := wellFormed.regions region member
    have active : activeRegion range region = true := by
      by_contra inactive
      obtain ⟨slide, inside⟩ := List.exists_mem_of_ne_nil _ shape.found
      exact address_of_inactive shape (Bool.eq_false_iff.mpr inactive) inside
        (covered _ (among member inside))
    rw [scanAgainKept_hits shape active, refined]
    split
    · rename_i found
      rw [List.filter_eq_self.mpr, List.map_map]
      · rfl
      · intro slide inside
        have fits := (roomy region member).fits slide inside
        have bounds := covered _ (among member inside)
        simp only [loaded region member, fits, bounds.1, bounds.2, decide_true, Bool.true_and,
          bytesAt_edited spaced eight edited (among member inside), found]
    · rename_i missed
      rw [List.filter_eq_nil_iff.mpr]
      · rfl
      · intro slide inside
        rw [bytesAt_edited spaced eight edited (among member inside), Bool.eq_false_iff.mpr missed,
          Bool.and_false]
        exact Bool.false_ne_true
  rw [scanAgainAny_hits done given (SearchType.ofCode?_code type), List.flatMap_congr kept]
  split
  · rw [Engine.addresses, List.map_flatMap]
  · rw [List.map_nil]
    exact List.flatMap_eq_nil_iff.mpr fun _ _ => rfl

end

/-! ## The same text in both -/

namespace SearchExpression
variable {t : SearchType} {text : CString} {bytes : Bytes}

/-- An integer is spelled in white space, a sign and digits. -/
theorem integer_characters (integer : t.scalar = .signed ∨ t.scalar = .unsigned)
    (parsed : jjParseValue text t.code = some bytes) :
    ∃ negative digits, IntegerText text negative digits := by
  cases integer with
  | inl signed =>
      rw [jjParseValue_signed signed, parseSigned_eq_some (len_le_eight t)] at parsed
      obtain ⟨negative, digits, spelled, -, -⟩ := parsed
      exact ⟨negative, digits, spelled⟩
  | inr unsigned =>
      rw [jjParseValue_unsigned unsigned, parseUnsigned_eq_some] at parsed
      obtain ⟨-, negative, digits, spelled, -, -, -⟩ := parsed
      exact ⟨negative, digits, spelled⟩

theorem integerText_mem {negative : Bool} {digits : CString} (spelled : IntegerText text negative digits)
    {c : UInt8} (inside : c ∈ text) : isSpace c = true ∨ c = 0x2D ∨ c = 0x2B ∨ isDigit c = true := by
  obtain ⟨space, sign, rfl, spaces, signs⟩ := spelled.shape
  rcases List.mem_append.mp inside with front | inside
  · exact .inl (spaces c front)
  · rcases List.mem_append.mp inside with middle | back
    · split at signs
      · rw [signs] at middle
        exact .inr (.inl (List.mem_singleton.mp middle))
      · rcases signs with rfl | rfl
        · exact absurd middle List.not_mem_nil
        · exact .inr (.inr (.inl (List.mem_singleton.mp middle)))
    · exact .inr (.inr (.inr (spelled.decimal c back)))

theorem integerText_plain {negative : Bool} {digits : CString}
    (spelled : IntegerText text negative digits) : 0x2C ∉ text ∧ Plain text := by
  have other {c : UInt8} (strange : ¬(isSpace c = true ∨ c = 0x2D ∨ c = 0x2B ∨ isDigit c = true)) :
      c ∉ text := fun inside => strange (integerText_mem spelled inside)
  refine ⟨other (by decide), fun narrow => ?_, fun wide => ?_⟩
  · exact other (by decide) (narrow.subset (.head []))
  · exact other (by decide) (wide.subset (.head _))

theorem integerText_tight {negative : Bool} {digits : CString}
    (spelled : IntegerText text negative digits) (tight : ∀ c ∈ text.head?, isSpace c = false) :
    trimSearchToken text = text := by
  apply trimmed_iff.mp
  refine ⟨⟨[], [], (List.append_nil _).symm, nofun, nofun⟩, tight, ?_⟩
  intro c last
  obtain ⟨space, sign, rfl, -, -⟩ := spelled.shape
  rw [← List.append_assoc, List.getLast?_append_of_ne_nil _ spelled.some'] at last
  exact (plain_of_isDigit (spelled.decimal c (List.mem_of_mem_getLast? last))).1

theorem searchValueMatches_tolerance (integer : t.scalar = .signed ∨ t.scalar = .unsigned)
    (current lower upper : Bytes) (tolerance : Nat) :
    t.scalar.searchValueMatches current lower upper tolerance =
      t.scalar.searchValueMatches current lower upper 0 := by
  cases integer with
  | inl signed => rw [signed]; rfl
  | inr unsigned => rw [unsigned]; rfl

/-- The text of an integer is a search expression for it. -/
theorem single_expression (integer : t.scalar = .signed ∨ t.scalar = .unsigned)
    (parsed : jjParseValue text t.code = some bytes) (tight : ∀ c ∈ text.head?, isSpace c = false) :
    jjParseSearchExpression text t.code = some [.ofBounds t.len bytes bytes] := by
  obtain ⟨negative, digits, spelled⟩ := integer_characters integer parsed
  obtain ⟨whole, plain⟩ := integerText_plain spelled
  have trimmed := integerText_tight spelled tight
  have some' : text ≠ [] := by
    rintro rfl
    obtain ⟨space, sign, empty, -⟩ := spelled.shape
    exact spelled.some' (List.append_eq_nil_iff.mp (List.append_eq_nil_iff.mp empty.symm).2).2
  have one : text.splitOn 0x2C = [text] := by
    have joined : ([0x2C].intercalate [text]).splitOn 0x2C = [text] :=
      List.splitOn_intercalate (0x2C : UInt8)
        (fun part inside => List.mem_singleton.mp inside ▸ whole) (List.cons_ne_nil _ _)
    simpa using joined
  simp only [jjParseSearchExpression, SearchType.ofCode?_code, one, List.mapM_cons, List.mapM_nil,
    parseSearchMember_single trimmed some' plain, parsed]
  rfl

theorem single_matches (integer : t.scalar = .signed ∨ t.scalar = .unsigned)
    (parsed : jjParseValue text t.code = some bytes) {tolerance : Nat}
    (usable : toleranceNegative tolerance = false) :
    jjSearchValueMatchesAny (bytes.take t.len) [.ofBounds t.len bytes bytes] t tolerance = true := by
  have holds := (encodes_single integer parsed bytes).mp rfl
  simp only [jjSearchValueMatchesAny, usable, Bool.not_false, Bool.true_and, List.any_cons,
    List.any_nil, Bool.or_false, List.take_take, Nat.min_self]
  rw [searchValueMatches_tolerance integer, holds]

end SearchExpression

open SearchExpression

/-- After searches that leave room for it, an edit of all results that succeeds can be searched for:
an expression keeps all of them or none, and the text of the edit itself keeps all. -/
theorem edit_then_search (type : SearchType) (events : List (Target × EngineOp)) {e : Engine}
    (ran : execute Engine.step events Engine.fresh = e) (admitted : roomyRun type.len events)
    (done : e.firstScanDone = true) (usable : toleranceNegative e.floatTolerance = false)
    {text : CString} {bytes : Bytes} (parsed : jjParseValue text type.code = some bytes)
    {memory : TaskMemory} {t : Target}
    (edited : t.byte = (e.jjWriteAll (fun _ => none) bytes type.code memory).2.byte)
    (loaded : ∀ region ∈ e.result.allRegions,
      t.loadedSize region.regionBase region.regionSize = region.regionSize)
    {range : AddrRange} (covered : ∀ address ∈ e.addresses,
      range.start ≤ address ∧ address < range.stop) :
    (∀ values, values ≠ [] → (e.jjScanMemoryAny t range values type.code).hits =
      if jjSearchValueMatchesAny (bytes.take type.len) values type e.floatTolerance then
        e.addresses.map fun address => (address, type.code)
      else []) ∧
      (type.scalar = .signed ∨ type.scalar = .unsigned →
        (∀ c ∈ text.head?, isSpace c = false) →
        ∃ values, jjParseSearchExpression text type.code = some values ∧
          (e.jjScanMemoryAny t range values type.code).hits =
            e.addresses.map fun address => (address, type.code)) := by
  subst ran
  obtain ⟨wellFormed, roomy⟩ := run_roomy events admitted
  have scan {values : List JJSearchValue} (given : values ≠ []) :=
    scan_edited wellFormed roomy done (jjParseValue_length parsed) edited loaded covered given
  refine ⟨fun values given => scan given, fun integer tight => ?_⟩
  refine ⟨_, single_expression integer parsed tight, ?_⟩
  rw [scan (List.cons_ne_nil _ _), if_pos (single_matches integer parsed usable)]

/-- Two zeros. -/
def twoZeros : List (Target × EngineOp) :=
  [(.onePage fun _ => 0, .scanMemoryAny ⟨0x100000000, 0x100000008⟩
    [.ofBounds 4 (List.replicate 4 0) (List.replicate 4 0)] SearchType.sInt.code)]

/-- They are edited to `"5"`. -/
def twoFives : Target :=
  .onePage ((execute Engine.step twoZeros Engine.fresh).jjWriteAll (fun _ => none)
    [5, 0, 0, 0, 0, 0, 0, 0] SearchType.sInt.code ⟨fun _ => none, fun _ => 0⟩).2.byte

theorem edit_then_search_five :
    ∃ values, jjParseSearchExpression [0x35] SearchType.sInt.code = some values ∧
      ((execute Engine.step twoZeros Engine.fresh).jjScanMemoryAny twoFives
          ⟨0x100000000, 0x100004000⟩ values SearchType.sInt.code).hits =
        (execute Engine.step twoZeros Engine.fresh).addresses.map fun address =>
          (address, SearchType.sInt.code) := by
  have found : (execute Engine.step twoZeros Engine.fresh).addresses =
      [0x100000000, 0x100000004] := by decide +kernel
  have narrow : ∀ region ∈ (Target.onePage fun _ => 0).regions.entries, region.2 < 2 ^ 32 := by
    decide
  have parsed : jjParseValue [0x35] SearchType.sInt.code = some [5, 0, 0, 0, 0, 0, 0, 0] := by
    decide
  refine (edit_then_search .sInt twoZeros rfl ⟨⟨trivial, narrow, ?_⟩, trivial⟩ rfl rfl parsed rfl
    (by decide +kernel) ?_).2 (.inl rfl) fun c first => ?_
  · intro _ searched known
    rw [SearchType.ofCode?_code] at known
    obtain rfl := Option.some.inj known
    exact le_rfl
  · rw [found]
    decide
  · obtain rfl := Option.some.inj first
    rfl

end H5GG

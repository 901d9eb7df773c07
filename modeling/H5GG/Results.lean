import H5GG.Reader
import Mathlib.Data.List.ReduceOption

/-!
# Result sets

`MemoryResults.cpp`. A null region pointer is `none`; `replace` may leave one behind until
`removeEmptyRegions` runs.
-/

namespace H5GG

structure ResultRegion where
  regionBase : Nat
  regionSize : Nat
  slides : List Nat := []
  types : List Int := []
  deriving DecidableEq, Repr

namespace ResultRegion

def hasTypes (region : ResultRegion) : Bool := region.types ≠ []

/-- `append` reports failure when it would mix typed and untyped results. -/
def appends (region : ResultRegion) (type : Int) : Bool :=
  !((type = 0 && region.types ≠ []) ||
    (type ≠ 0 && region.slides ≠ [] && region.types = []))

def append (region : ResultRegion) (slide : Nat) (type : Int := 0) : ResultRegion :=
  if region.appends type then
    { region with
      slides := region.slides ++ [slide]
      types := if type ≠ 0 then region.types ++ [type] else region.types }
  else region

def invariantHolds (region : ResultRegion) : Bool :=
  region.types = [] || region.types.length = region.slides.length

def address (region : ResultRegion) (slide : Nat) : Nat := u64 (region.regionBase + slide)

/-- Every slide with `hasTypes ? types[j] : fallback`. -/
def typed (region : ResultRegion) (fallback : Int) : List (Nat × Int) :=
  region.slides.mapIdx fun j slide =>
    (slide, if region.hasTypes then region.types.getD j 0 else fallback)

def hits (region : ResultRegion) (fallback : Int) : List (Nat × Int) :=
  (region.typed fallback).map fun entry => (region.address entry.1, entry.2)

end ResultRegion

/-- `if(!newRegion) newRegion = new result_region(...); newRegion->append(slide, type);` -/
def grow (base size : Nat) (newRegion : Option ResultRegion) (slide : Nat) (type : Int) :
    Option ResultRegion :=
  some ((newRegion.getD ⟨base, size, [], []⟩).append slide type)

structure Result where
  regions : List (Option ResultRegion) := []
  resultCount : Nat := 0
  deriving DecidableEq, Repr

namespace Result

def slideCount (regions : List (Option ResultRegion)) : Nat :=
  (regions.map fun region => region.elim 0 fun region => region.slides.length).sum

def recount (result : Result) : Result :=
  { result with resultCount := slideCount result.regions }

def add (result : Result) (region : Option ResultRegion) : Result :=
  match region with
  | none => result
  | some region =>
      if region.invariantHolds then
        { regions := result.regions ++ [some region]
          resultCount := result.resultCount + region.slides.length }
      else result

def replace (result : Result) (index : Nat) (region : Option ResultRegion) : Result :=
  if result.regions.length ≤ index || region.any (!·.invariantHolds) then result
  else recount { result with regions := result.regions.set index region }

def removeEmptyRegions (result : Result) : Result :=
  recount { result with
    regions := result.regions.filter fun region => region.any (·.slides ≠ []) }

def count (result : Result) : Nat := result.resultCount
def regionCount (result : Result) : Nat := result.regions.length
def regionAt (result : Result) (index : Nat) : Option ResultRegion :=
  (result.regions[index]?).join

/-- The regions behind the non-null pointers of `allRegions()`. -/
def allRegions (result : Result) : List ResultRegion := result.regions.reduceOption

def invariantHolds (result : Result) : Bool :=
  (result.regions.all fun region => region.any (·.invariantHolds)) &&
    slideCount result.regions = result.resultCount

/-- The loop shared by the filters, the change search and the nearby search:
`for(i...) result->replace(i, rebuild(result->regionAt(i))); result->removeEmptyRegions();` -/
def replaceEach (rebuild : ResultRegion → Option ResultRegion) (result : Result) : Result :=
  ((List.range result.regionCount).foldl
    (fun result i => result.replace i ((result.regionAt i).bind rebuild)) result).removeEmptyRegions

def hits (result : Result) (fallback : Int) : List (Nat × Int) :=
  result.allRegions.flatMap (·.hits fallback)

def ofRegions (regions : List ResultRegion) : Result where
  regions := regions.map some
  resultCount := slideCount (regions.map some)

end Result

namespace ResultRegion
variable {region : ResultRegion} {slide : Nat} {type : Int}

@[simp] theorem append_regionBase : (region.append slide type).regionBase = region.regionBase := by
  unfold append
  split <;> rfl

@[simp] theorem append_regionSize : (region.append slide type).regionSize = region.regionSize := by
  unfold append
  split <;> rfl

theorem append_slides_sublist :
    (region.append slide type).slides.Sublist (region.slides ++ [slide]) := by
  unfold append
  split
  · exact List.Sublist.refl _
  · exact List.sublist_append_left _ _

theorem invariantHolds_iff : region.invariantHolds = true ↔
    region.types = [] ∨ region.types.length = region.slides.length := by
  simp [invariantHolds]

theorem append_invariantHolds (holds : region.invariantHolds = true) :
    (region.append slide type).invariantHolds = true := by
  rw [invariantHolds_iff] at holds ⊢
  unfold append
  split
  · rename_i appended
    by_cases zero : type = 0
    · simp only [appends, zero, decide_true, Bool.true_and, ne_eq, not_true_eq_false, decide_false,
        Bool.false_and, Bool.or_false, Bool.not_eq_true', decide_eq_false_iff_not, not_not] at appended
      simp [zero, appended]
    · simp only [appends, zero, decide_false, Bool.false_and, ne_eq, not_false_eq_true, decide_true,
        Bool.true_and, Bool.false_or, Bool.not_eq_true', Bool.and_eq_false_iff,
        decide_eq_false_iff_not, not_not] at appended
      simp only [ne_eq, zero, not_false_eq_true, ↓reduceIte, List.length_append, List.length_cons,
        List.length_nil, List.append_eq_nil_iff, List.cons_ne_self, and_false, false_or]
      rcases holds with untyped | same
      · have empty := appended.resolve_right (fun h => h untyped)
        simp [untyped, empty]
      · rw [same]
  · exact holds

theorem append_untyped (untyped : region.types = []) :
    region.append slide 0 = { region with slides := region.slides ++ [slide] } := by
  simp [append, appends, untyped]

theorem append_typed (same : region.types.length = region.slides.length) (typed : type ≠ 0) :
    region.append slide type =
      { region with slides := region.slides ++ [slide], types := region.types ++ [type] } := by
  have fits : region.slides = [] ∨ region.types ≠ [] := by
    cases shape : region.slides with
    | nil => exact .inl rfl
    | cons first rest =>
        refine .inr fun untyped => ?_
        rw [untyped, shape] at same
        simp at same
  have appended : region.appends type = true := by
    rcases fits with empty | nonempty <;> simp [appends, *]
  simp [append, appended, typed]

def appendAll (region : ResultRegion) (entries : List (Nat × Int)) : ResultRegion :=
  entries.foldl (fun region entry => region.append entry.1 entry.2) region

theorem appendAll_base (region : ResultRegion) (entries : List (Nat × Int)) :
    (region.appendAll entries).regionBase = region.regionBase ∧
      (region.appendAll entries).regionSize = region.regionSize := by
  induction entries generalizing region with
  | nil => exact ⟨rfl, rfl⟩
  | cons entry rest ih =>
      obtain ⟨base, size⟩ := ih (region.append entry.1 entry.2)
      exact ⟨base.trans append_regionBase, size.trans append_regionSize⟩

theorem appendAll_invariantHolds (holds : region.invariantHolds = true)
    (entries : List (Nat × Int)) : (region.appendAll entries).invariantHolds = true := by
  induction entries generalizing region with
  | nil => exact holds
  | cons entry rest ih => exact ih (append_invariantHolds holds)

theorem appendAll_slides_sublist (region : ResultRegion) (entries : List (Nat × Int)) :
    (region.appendAll entries).slides.Sublist (region.slides ++ entries.map Prod.fst) := by
  induction entries generalizing region with
  | nil => simp [appendAll]
  | cons entry rest ih =>
      refine (ih (region.append entry.1 entry.2)).trans ?_
      simpa using append_slides_sublist.append_right (rest.map Prod.fst)

theorem appendAll_untyped {entries : List (Nat × Int)} (untyped : region.types = [])
    (zero : ∀ entry ∈ entries, entry.2 = 0) :
    region.appendAll entries =
      { region with slides := region.slides ++ entries.map Prod.fst } := by
  induction entries generalizing region with
  | nil => simp [appendAll]
  | cons entry rest ih =>
      have first := zero entry List.mem_cons_self
      rw [appendAll, List.foldl_cons, ← appendAll, first, append_untyped untyped, ih]
      · simp
      · exact untyped
      · exact fun e member => zero e (List.mem_cons_of_mem _ member)

theorem appendAll_typed {entries : List (Nat × Int)}
    (same : region.types.length = region.slides.length)
    (typed : ∀ entry ∈ entries, entry.2 ≠ 0) :
    region.appendAll entries =
      { region with
        slides := region.slides ++ entries.map Prod.fst
        types := region.types ++ entries.map Prod.snd } := by
  induction entries generalizing region with
  | nil => simp [appendAll]
  | cons entry rest ih =>
      have first := typed entry List.mem_cons_self
      rw [appendAll, List.foldl_cons, ← appendAll, append_typed same first, ih]
      · simp
      · simp [same]
      · exact fun e member => typed e (List.mem_cons_of_mem _ member)

@[simp] theorem typed_length (region : ResultRegion) (fallback : Int) :
    (region.typed fallback).length = region.slides.length := by simp [typed]

@[simp] theorem typed_map_fst (region : ResultRegion) (fallback : Int) :
    (region.typed fallback).map Prod.fst = region.slides := by
  apply List.ext_getElem (by simp)
  intro i _ _
  simp [typed]

theorem typed_of_untyped (untyped : region.types = []) (fallback : Int) :
    region.typed fallback = region.slides.map fun slide => (slide, fallback) := by
  apply List.ext_getElem (by simp)
  intro i _ _
  simp [typed, hasTypes, untyped]

theorem typed_of_typed (same : region.types.length = region.slides.length)
    (nonempty : region.types ≠ []) (fallback : Int) :
    region.typed fallback = region.slides.zip region.types := by
  apply List.ext_getElem (by simp [same])
  intro i hi _
  simp only [typed_length] at hi
  simp [typed, hasTypes, nonempty, same, hi]

theorem mem_typed_slide {fallback : Int} {entry : Nat × Int}
    (member : entry ∈ region.typed fallback) : entry.1 ∈ region.slides := by
  rw [← typed_map_fst region fallback]
  exact List.mem_map_of_mem member

theorem mem_typed_type (holds : region.invariantHolds = true) {fallback : Int} {entry : Nat × Int}
    (member : entry ∈ region.typed fallback) :
    region.types = [] ∧ entry.2 = fallback ∨ entry.2 ∈ region.types := by
  by_cases untyped : region.types = []
  · rw [typed_of_untyped untyped] at member
    obtain ⟨slide, -, rfl⟩ := List.mem_map.mp member
    exact .inl ⟨untyped, rfl⟩
  · have same := (invariantHolds_iff.mp holds).resolve_left untyped
    rw [typed_of_typed same untyped] at member
    exact .inr (List.of_mem_zip member).2

theorem hits_untyped {fallback : Int} (untyped : region.types = []) :
    region.hits fallback = region.slides.map fun slide => (region.address slide, fallback) := by
  rw [hits, typed_of_untyped untyped, List.map_map]
  rfl

theorem exists_mem_hits {slide : Nat} (member : slide ∈ region.slides) (fallback : Int) :
    ∃ type, (region.address slide, type) ∈ region.hits fallback := by
  rw [← typed_map_fst region fallback] at member
  obtain ⟨entry, typed, rfl⟩ := List.mem_map.mp member
  exact ⟨entry.2, List.mem_map_of_mem typed⟩

theorem hits_eq_nil {fallback : Int} (empty : region.slides = []) : region.hits fallback = [] := by
  have := typed_length region fallback
  rw [empty, List.length_nil, List.length_eq_zero_iff] at this
  rw [hits, this, List.map_nil]

end ResultRegion

section
variable {base size : Nat}

def growAll (base size : Nat) (entries : List (Nat × Int)) : Option ResultRegion :=
  entries.foldl (fun newRegion entry => grow base size newRegion entry.1 entry.2) none

theorem foldl_grow_some (region : ResultRegion) (entries : List (Nat × Int)) :
    entries.foldl (fun newRegion entry => grow base size newRegion entry.1 entry.2) (some region) =
      some (region.appendAll entries) := by
  induction entries generalizing region with
  | nil => rfl
  | cons entry rest ih =>
      rw [List.foldl_cons, grow, Option.getD_some, ih]
      rfl

theorem growAll_eq (entries : List (Nat × Int)) :
    growAll base size entries =
      if entries = [] then none else some (ResultRegion.appendAll ⟨base, size, [], []⟩ entries) := by
  cases entries with
  | nil => rfl
  | cons entry rest =>
      rw [growAll, List.foldl_cons, grow, foldl_grow_some]
      simp [ResultRegion.appendAll]

theorem growAll_untyped {entries : List (Nat × Int)} (untyped : ∀ entry ∈ entries, entry.2 = 0) :
    growAll base size entries =
      if entries = [] then none else some ⟨base, size, entries.map Prod.fst, []⟩ := by
  rw [growAll_eq]
  split
  · rfl
  · rw [ResultRegion.appendAll_untyped rfl untyped]
    simp

theorem growAll_slides (narrow : Nat → Nat) (offsets : List Nat) :
    growAll base size (offsets.map fun offset => (narrow offset, 0)) =
      if offsets = [] then none else some ⟨base, size, offsets.map narrow, []⟩ := by
  rw [growAll_untyped (by simp)]
  simp [Function.comp_def]

theorem growAll_typed {entries : List (Nat × Int)} (typed : ∀ entry ∈ entries, entry.2 ≠ 0) :
    growAll base size entries =
      if entries = [] then none
      else some ⟨base, size, entries.map Prod.fst, entries.map Prod.snd⟩ := by
  rw [growAll_eq]
  split
  · rfl
  · rw [ResultRegion.appendAll_typed rfl typed]
    simp

theorem growAll_types_untyped {entries : List (Nat × Int)} {region : ResultRegion}
    (grown : growAll base size entries = some region) (untyped : ∀ entry ∈ entries, entry.2 = 0) :
    region.types = [] := by
  rw [growAll_untyped untyped] at grown
  split at grown
  · cases grown
  · rw [Option.some.injEq] at grown
    exact grown ▸ rfl

theorem growAll_types_typed {entries : List (Nat × Int)} {region : ResultRegion}
    (grown : growAll base size entries = some region) (typed : ∀ entry ∈ entries, entry.2 ≠ 0) :
    entries ≠ [] ∧ region.types = entries.map Prod.snd := by
  rw [growAll_typed typed] at grown
  split at grown
  · cases grown
  · rename_i nonempty
    rw [Option.some.injEq] at grown
    exact ⟨nonempty, grown ▸ rfl⟩

theorem foldl_grow_filter (pass : Nat × Int → Bool) (type : Nat × Int → Int)
    (entries : List (Nat × Int)) :
    entries.foldl (fun newRegion entry =>
      if pass entry then grow base size newRegion entry.1 (type entry) else newRegion) none =
      growAll base size ((entries.filter pass).map fun entry => (entry.1, type entry)) := by
  rw [growAll, List.foldl_map, List.foldl_filter]

theorem growAll_some {entries : List (Nat × Int)} {region : ResultRegion}
    (grown : growAll base size entries = some region) :
    region.regionBase = base ∧ region.regionSize = size ∧
      region.slides.Sublist (entries.map Prod.fst) := by
  rw [growAll_eq] at grown
  split at grown
  · cases grown
  · rw [Option.some.injEq] at grown
    subst grown
    obtain ⟨bases, sizes⟩ := ResultRegion.appendAll_base ⟨base, size, [], []⟩ entries
    exact ⟨bases, sizes, ResultRegion.appendAll_slides_sublist _ entries⟩

/-- A region grown with or without types has the entries it was grown from. -/
theorem typed_of_growAll {entries : List (Nat × Int)} {region : ResultRegion} {fallback : Int}
    {typed : Bool}
    (grown : growAll base size (entries.map fun entry =>
      (entry.1, if typed then entry.2 else 0)) = some region)
    (types : ∀ entry ∈ entries, entry.2 ≠ 0 ∧ (typed = false → entry.2 = fallback)) :
    region.typed fallback = entries := by
  cases typed with
  | true =>
      have appended : ∀ entry ∈ entries.map fun entry => (entry.1, entry.2), entry.2 ≠ 0 :=
        fun entry member => (types entry (by simpa using member)).1
      simp only [↓reduceIte] at grown
      rw [growAll_typed appended] at grown
      split_ifs at grown with empty
      rw [← Option.some.inj grown, ResultRegion.typed_of_typed (by simp) (by simpa using empty)]
      simp [List.zip_map']
  | false =>
      have untyped : ∀ entry ∈ entries.map fun entry => (entry.1, (0 : Int)), entry.2 = 0 := by
        intro entry member
        obtain ⟨old, -, rfl⟩ := List.mem_map.mp member
        rfl
      simp only [Bool.false_eq_true, ↓reduceIte] at grown
      rw [growAll_untyped untyped] at grown
      split_ifs at grown
      rw [← Option.some.inj grown, ResultRegion.typed_of_untyped rfl, List.map_map, List.map_map]
      refine (List.map_congr_left fun entry member => ?_).trans (List.map_id _)
      rw [Function.comp_apply, Function.comp_apply, id, ← (types entry member).2 rfl]

theorem growAll_invariantHolds {entries : List (Nat × Int)} {region : ResultRegion}
    (grown : growAll base size entries = some region) : region.invariantHolds = true := by
  rw [growAll_eq] at grown
  split at grown
  · cases grown
  · rw [Option.some.injEq] at grown
    exact grown ▸ ResultRegion.appendAll_invariantHolds rfl entries

end

namespace Result

@[simp] theorem allRegions_ofRegions (regions : List ResultRegion) :
    (ofRegions regions).allRegions = regions := by
  induction regions with
  | nil => rfl
  | cons region rest ih =>
      simp only [allRegions, ofRegions, List.map_cons, List.reduceOption_cons_of_some] at ih ⊢
      rw [ih]

theorem hits_filterMap {α : Type} {build : α → Option ResultRegion} {fallback : Int}
    (parts : List α) :
    (ofRegions (parts.filterMap build)).hits fallback =
      parts.flatMap fun part => (build part).elim [] (·.hits fallback) := by
  rw [hits, allRegions_ofRegions]
  induction parts with
  | nil => rfl
  | cons part rest ih =>
      cases built : build part with
      | none => simpa [built] using ih
      | some region => simp [built, ih]

theorem hits_nonempty {regions : List ResultRegion} {fallback : Int} :
    (ofRegions (regions.filter fun region => region.slides ≠ [])).hits fallback =
      (ofRegions regions).hits fallback := by
  rw [hits, hits, allRegions_ofRegions, allRegions_ofRegions]
  induction regions with
  | nil => rfl
  | cons region rest ih =>
      rw [List.flatMap_cons, ← ih, List.filter_cons]
      by_cases found : region.slides = []
      · simp [found, ResultRegion.hits_eq_nil found]
      · simp [found]

theorem invariantHolds_ofRegions {regions : List ResultRegion} :
    (ofRegions regions).invariantHolds = true ↔
      ∀ region ∈ regions, region.invariantHolds = true := by
  simp [invariantHolds, ofRegions]

theorem invariantHolds_iff {result : Result} : result.invariantHolds = true ↔
    result = ofRegions result.allRegions ∧
      ∀ region ∈ result.allRegions, region.invariantHolds = true := by
  constructor
  · intro holds
    simp only [invariantHolds, Bool.and_eq_true, List.all_eq_true, decide_eq_true_eq] at holds
    obtain ⟨each, counted⟩ := holds
    have shape : result.regions = result.allRegions.map some := by
      have present : ∀ region ∈ result.regions, region.isSome = true := by
        intro region member
        have holds := each region member
        cases region with
        | none => simp at holds
        | some region => rfl
      unfold allRegions
      generalize result.regions = regions at present
      induction regions with
      | nil => rfl
      | cons region rest ih =>
          obtain ⟨value, rfl⟩ := Option.isSome_iff_exists.mp (present region List.mem_cons_self)
          rw [List.reduceOption_cons_of_some, List.map_cons,
            ← ih fun r member => present r (List.mem_cons_of_mem _ member)]
    refine ⟨?_, fun region member => ?_⟩
    · rw [ofRegions, ← shape, counted]
    · have := each (some region) (by rw [shape]; exact List.mem_map_of_mem member)
      simpa using this
  · rintro ⟨shape, each⟩
    rw [shape]
    exact invariantHolds_ofRegions.mpr each

theorem foldl_add {α : Type} {scan : α → Option ResultRegion}
    (valid : ∀ clip region, scan clip = some region → region.invariantHolds = true)
    (clips : List α) (regions : List ResultRegion) :
    clips.foldl (fun result clip => result.add (scan clip)) (ofRegions regions) =
      ofRegions (regions ++ clips.filterMap scan) := by
  induction clips generalizing regions with
  | nil => simp
  | cons clip rest ih =>
      rw [List.foldl_cons]
      cases scanned : scan clip with
      | none => rw [add, ih, List.filterMap_cons_none scanned]
      | some region =>
          have step : (ofRegions regions).add (some region) = ofRegions (regions ++ [region]) := by
            simp [add, valid clip region scanned, ofRegions, slideCount]
          rw [step, ih, List.filterMap_cons_some scanned, List.append_assoc, List.singleton_append]

theorem foldl_add_regions {scanned : List (Option ResultRegion)}
    (valid : ∀ region, some region ∈ scanned → region.invariantHolds = true) (result : Result) :
    (scanned.foldl add result).regions = result.regions ++ scanned.reduceOption.map some := by
  induction scanned generalizing result with
  | nil => simp
  | cons region rest ih =>
      rw [List.foldl_cons, ih fun r member => valid r (List.mem_cons_of_mem _ member)]
      cases region with
      | none => simp [add]
      | some region => simp [add, valid region List.mem_cons_self]

theorem removeEmptyRegions_eq (result : Result) :
    result.removeEmptyRegions =
      ofRegions (result.allRegions.filter fun region => region.slides ≠ []) := by
  have shape : (result.regions.filter fun region => region.any (·.slides ≠ [])) =
      (result.allRegions.filter fun region => region.slides ≠ []).map some := by
    unfold allRegions
    induction result.regions with
    | nil => rfl
    | cons region rest ih =>
        cases region with
        | none => simpa using ih
        | some region =>
            rw [List.reduceOption_cons_of_some, List.filter_cons, List.filter_cons, ih]
            simp only [Option.any_some]
            split <;> rfl
  simp only [removeEmptyRegions, recount, ofRegions, shape]

theorem replace_accepted {result : Result} {index : Nat} {region : Option ResultRegion}
    (valid : ∀ r, region = some r → r.invariantHolds = true) :
    (result.replace index region).regions = result.regions.set index region := by
  have accepted : region.any (!·.invariantHolds) = false := by
    cases region with
    | none => rfl
    | some r => simp [valid r rfl]
  unfold replace recount
  simp only [accepted, Bool.or_false, decide_eq_true_eq]
  split
  · rename_i outside
    rw [List.set_eq_of_length_le outside]
  · rfl

theorem foldl_replace {values : Nat → Option ResultRegion → Option ResultRegion}
    (valid : ∀ i region r, values i region = some r → r.invariantHolds = true)
    {indices : List Nat} (distinct : indices.Nodup) (result : Result) (j : Nat) :
    (indices.foldl (fun result i => result.replace i (values i (result.regionAt i)))
        result).regions[j]? =
      if j ∈ indices then result.regions[j]?.map (values j) else result.regions[j]? := by
  induction indices generalizing result with
  | nil => simp
  | cons i rest ih =>
      have ⟨fresh, distinct⟩ := List.nodup_cons.mp distinct
      rw [List.foldl_cons, ih distinct, replace_accepted (valid _ _), List.getElem?_set]
      by_cases here : i = j
      · subst here
        simp only [fresh, ↓reduceIte, List.mem_cons_self, regionAt]
        by_cases bound : i < result.regions.length
        · simp [bound]
        · simp [bound]
      · simp [here, Ne.symm here]

/-- Values computed from the result set before any replacement are those chosen on the way. -/
theorem foldl_replace_ahead {values : Nat → Option ResultRegion → Option ResultRegion}
    (valid : ∀ i region r, values i region = some r → r.invariantHolds = true)
    {indices : List Nat} (distinct : indices.Nodup) (old result : Result)
    (same : ∀ i ∈ indices, result.regionAt i = old.regionAt i) :
    indices.foldl (fun result i => result.replace i (values i (old.regionAt i))) result =
      indices.foldl (fun result i => result.replace i (values i (result.regionAt i))) result := by
  induction indices generalizing result with
  | nil => rfl
  | cons i rest ih =>
      have ⟨fresh, distinct⟩ := List.nodup_cons.mp distinct
      rw [List.foldl_cons, List.foldl_cons, same i List.mem_cons_self]
      refine ih distinct _ fun j member => ?_
      have apart : i ≠ j := fun equal => fresh (equal ▸ member)
      rw [regionAt, replace_accepted (valid _ _), List.getElem?_set_ne apart]
      exact same j (List.mem_cons_of_mem _ member)

theorem foldl_replace_below {values : Nat → Option ResultRegion → Option ResultRegion}
    (valid : ∀ i region r, values i region = some r → r.invariantHolds = true) (result : Result)
    (count : Nat) :
    ((List.range count).foldl (fun result i => result.replace i (values i (result.regionAt i)))
        result).regions =
      result.regions.mapIdx fun i region => if i < count then values i region else region := by
  apply List.ext_getElem?
  intro j
  rw [foldl_replace valid List.nodup_range, List.getElem?_mapIdx]
  simp only [List.mem_range]
  split <;> simp

/-- The loop of `ScanAgainAny` over `activeIndices`, with `newRegions` filled beforehand. -/
theorem replace_active (active : ResultRegion → Bool)
    {rebuild : Nat → ResultRegion → Option ResultRegion}
    (valid : ∀ i region r, rebuild i region = some r → r.invariantHolds = true) (result : Result)
    (indices : List Nat) (chosen : indices = (List.range result.regionCount).filter fun i =>
      (result.regionAt i).any active) :
    ((indices.zip (indices.map fun i => (result.regionAt i).bind (rebuild i))).foldl
        (fun result entry => result.replace entry.1 entry.2) result).regions =
      result.regions.mapIdx fun i region => region.bind fun region =>
        if active region then rebuild i region else some region := by
  let values := fun (i : Nat) (region : Option ResultRegion) => region.bind (rebuild i)
  have accepted : ∀ i region r, values i region = some r → r.invariantHolds = true := by
    intro i region r built
    obtain ⟨old, -, built⟩ := Option.bind_eq_some_iff.mp built
    exact valid i old r built
  have distinct : indices.Nodup := chosen ▸ List.nodup_range.filter _
  rw [← List.map_prod_left_eq_zip, List.foldl_map]
  rw [show indices.foldl (fun result' i => result'.replace i ((result.regionAt i).bind (rebuild i)))
    result = _ from foldl_replace_ahead accepted distinct result result fun _ _ => rfl]
  apply List.ext_getElem?
  intro j
  rw [foldl_replace accepted distinct, List.getElem?_mapIdx]
  by_cases bound : j < result.regions.length
  · cases region : result.regions[j] with
    | none => simp [chosen, regionCount, regionAt, bound, region]
    | some old =>
        simp only [chosen, regionCount, regionAt, bound, region, List.mem_filter, List.mem_range,
          true_and, getElem?_pos, Option.join_some, Option.any_some, Option.map_some,
          Option.bind_some, values]
        split <;> rfl
  · simp [regionCount, bound, chosen]

theorem replaceEach_eq {rebuild : ResultRegion → Option ResultRegion}
    (valid : ∀ region r, rebuild region = some r → r.invariantHolds = true) (result : Result) :
    result.replaceEach rebuild = ofRegions ((result.allRegions.filterMap rebuild).filter
      fun region => region.slides ≠ []) := by
  have accepted : ∀ (i : Nat) region r, Option.bind region rebuild = some r →
      r.invariantHolds = true := by
    intro i region r grown
    obtain ⟨old, -, built⟩ := Option.bind_eq_some_iff.mp grown
    exact valid old r built
  have shape : ((List.range result.regionCount).foldl
      (fun result i => result.replace i ((result.regionAt i).bind rebuild)) result).regions =
        result.regions.map (·.bind rebuild) := by
    rw [foldl_replace_below accepted, List.mapIdx_eq_iff]
    intro j
    rw [List.getElem?_map]
    by_cases bound : j < result.regions.length
    · simp [regionCount, bound]
    · simp [bound]
  rw [replaceEach, removeEmptyRegions_eq]
  congr 2
  rw [allRegions, shape]
  change List.filterMap id _ = List.filterMap rebuild (List.filterMap id result.regions)
  rw [List.filterMap_map, List.filterMap_filterMap]
  rfl

end Result

end H5GG

import H5GG.Proof.Engine.WellFormed

/-!
# The order of a nearby search's results

A window may carry over an old result that lies behind a later match. Where none does, what the
windows append is ascending.
-/

namespace H5GG

def windowMatches (buffer : Buffer) (target : JJSearchValue) (type : SearchType) (tolerance : Nat)
    (window : Nat × Nat) : List Nat :=
  (Stride.positions type.len window.1 window.2).filter (scanForHit buffer target type tolerance)

/-- No old result within reach of an earlier match lies at or behind a later one. -/
def nearbyOrdered (buffer : Buffer) (region : ResultRegion) (target : JJSearchValue)
    (type : SearchType) (tolerance reach : Nat) : Prop :=
  ((nearbyWindows reach region.regionSize 0 region.slides).map
    (windowMatches buffer target type tolerance)).Pairwise fun earlier later =>
      ∀ m ∈ earlier, ∀ f ∈ later, ∀ s ∈ region.slides, f ≤ s → m + reach ≤ s

instance (buffer : Buffer) (region : ResultRegion) (target : JJSearchValue) (type : SearchType)
    (tolerance reach : Nat) : Decidable (nearbyOrdered buffer region target type tolerance reach) :=
  inferInstanceAs (Decidable (List.Pairwise _ _))

/-! ### The old results that a window carries over -/

section
variable {region : ResultRegion} {lastNumberType : Int} {reach : Nat}

theorem nearSlide_iff {oldslide found : Nat} :
    nearSlide reach oldslide found = true ↔ found < oldslide + reach ∧ oldslide < found + reach := by
  simp only [nearSlide, Bool.and_eq_true, decide_eq_true_eq]
  omega

theorem mem_drop_zipIdx {lastold : Nat} {old : (Nat × Int) × Nat} :
    old ∈ (region.typed lastNumberType).zipIdx.drop lastold ↔
      lastold ≤ old.2 ∧ (region.typed lastNumberType)[old.2]? = some old.1 := by
  rw [List.mem_iff_getElem?]
  simp only [List.getElem?_drop, List.getElem?_zipIdx, Option.map_eq_some_iff, Nat.zero_add]
  constructor
  · rintro ⟨i, entry, found, rfl⟩
    exact ⟨Nat.le_add_right _ _, found⟩
  · rintro ⟨behind, found⟩
    have index : lastold + (old.2 - lastold) = old.2 := by omega
    exact ⟨old.2 - lastold, old.1, by rw [index]; exact found, by rw [index]⟩

theorem typed_getElem? {o : Nat} {entry : Nat × Int}
    (listed : (region.typed lastNumberType)[o]? = some entry) :
    region.slides[o]? = some entry.1 := by
  rw [← ResultRegion.typed_map_fst region lastNumberType, List.getElem?_map, listed]
  rfl

theorem exists_typed_getElem? (lastNumberType : Int) {o slide : Nat}
    (listed : region.slides[o]? = some slide) :
    ∃ type, (region.typed lastNumberType)[o]? = some (slide, type) := by
  rw [← ResultRegion.typed_map_fst region lastNumberType, List.getElem?_map,
    Option.map_eq_some_iff] at listed
  obtain ⟨entry, found, rfl⟩ := listed
  exact ⟨entry.2, found⟩

theorem mem_windowCarried_iff {found : List Nat} {first last lastold : Nat}
    {old : (Nat × Int) × Nat} (head : found.head? = some first) (final : found.getLast? = some last) :
    old ∈ windowCarried region reach lastNumberType found lastold ↔
      (lastold ≤ old.2 ∧ (region.typed lastNumberType)[old.2]? = some old.1) ∧
        (nearSlide reach old.1.1 first = true ∨ nearSlide reach old.1.1 last = true) := by
  simp only [windowCarried, head, final, List.mem_filter, mem_drop_zipIdx, Bool.or_eq_true]

theorem near_of_carried {found : List Nat} {lastold : Nat} {old : (Nat × Int) × Nat}
    (carried : old ∈ windowCarried region reach lastNumberType found lastold) :
    ∃ f ∈ found, nearSlide reach old.1.1 f = true := by
  unfold windowCarried at carried
  split at carried
  · rename_i first last head final
    rcases Bool.or_eq_true_iff.mp (List.mem_filter.mp carried).2 with near | near
    · exact ⟨first, List.mem_of_head? head, near⟩
    · exact ⟨last, List.mem_of_getLast? final, near⟩
  · cases carried

theorem windowCarried_nil {lastold : Nat} :
    windowCarried region reach lastNumberType [] lastold = [] := rfl

theorem le_nextOld {carried : List ((Nat × Int) × Nat)} {lastold : Nat}
    (behind : ∀ old ∈ carried, lastold ≤ old.2) : lastold ≤ nextOld carried lastold := by
  unfold nextOld
  cases final : carried.getLast? with
  | none => exact le_rfl
  | some old =>
      have := behind old (List.mem_of_getLast? final)
      simp only [Option.elim_some]
      omega

theorem lt_nextOld (lastold : Nat) {carried : List ((Nat × Int) × Nat)}
    (ascending : carried.Pairwise fun a b => a.2 < b.2) :
    ∀ old ∈ carried, old.2 < nextOld carried lastold := by
  induction carried generalizing lastold with
  | nil => simp
  | cons old rest ih =>
      obtain ⟨before, ascending⟩ := List.pairwise_cons.mp ascending
      intro other member
      rw [nextOld_cons]
      rcases List.mem_cons.mp member with rfl | member
      · exact le_nextOld fun next listed => before next listed
      · exact ih _ ascending other member

theorem windowCarried_ascending (found : List Nat) (lastold : Nat) :
    (windowCarried region reach lastNumberType found lastold).Pairwise fun a b => a.2 < b.2 := by
  refine List.Pairwise.sublist (windowCarried_sublist found lastold) ?_
  refine List.Pairwise.sublist (List.drop_sublist _ _) ?_
  rw [List.pairwise_iff_getElem]
  intro i j _ _ below
  simpa using below

theorem windowCarried_behind (found : List Nat) (lastold : Nat) :
    ∀ old ∈ windowCarried region reach lastNumberType found lastold, lastold ≤ old.2 :=
  fun _ member => (mem_drop_zipIdx.mp ((windowCarried_sublist found lastold).subset member)).1

end

/-! ### What later windows append -/

theorem le_getLast_of_sorted {found : List Nat} {last : Nat} (sorted : found.Pairwise (· < ·))
    (final : found.getLast? = some last) : ∀ m ∈ found, m ≤ last := by
  obtain ⟨before, rfl⟩ := List.getLast?_eq_some_iff.mp final
  intro m member
  rcases List.mem_append.mp member with earlier | only
  · exact ((List.pairwise_append.mp sorted).2.2 m earlier last (by simp)).le
  · simp at only
    exact only.le

section
variable {buffer : Buffer} {region : ResultRegion} {target : JJSearchValue} {type : SearchType}
  {tolerance reach : Nat} {lastNumberType : Int}

theorem windowMatches_sorted (window : Nat × Nat) :
    (windowMatches buffer target type tolerance window).Pairwise (· < ·) :=
  (Stride.positions_sorted type.len_pos _ _).filter _

theorem windowMatches_bounds {window : Nat × Nat} {m : Nat}
    (member : m ∈ windowMatches buffer target type tolerance window) :
    window.1 ≤ m ∧ m < window.2 := by
  have := Stride.positions_bounds type.len_pos (List.mem_filter.mp member).1
  have := type.len_pos
  omega

theorem windowFound_eq (narrow : region.regionSize < 2 ^ 32) (lastpos curslide : Nat) :
    windowFound buffer region target type tolerance reach lastpos curslide =
      windowMatches buffer target type tolerance
        (max (curslide - reach) lastpos, min (curslide + reach) region.regionSize) := by
  have shape : windowFound buffer region target type tolerance reach lastpos curslide =
      (windowMatches buffer target type tolerance
        (max (curslide - reach) lastpos, min (curslide + reach) region.regionSize)).map u32 := rfl
  rw [shape]
  refine map_u32 fun m member => ?_
  have := windowMatches_bounds member
  dsimp only at this
  omega

theorem window_ends_before {curslide size : Nat} {rest : List Nat}
    (before : ∀ slide ∈ rest, curslide < slide) :
    ∀ slide ∈ rest, min (curslide + reach) size ≤ min (slide + reach) size := by
  intro slide listed
  have := before slide listed
  omega

theorem exists_head_of_getLast {found : List Nat} {last : Nat} (final : found.getLast? = some last) :
    ∃ first, found.head? = some first := by
  cases found with
  | nil => cases final
  | cons first rest => exact ⟨first, rfl⟩

/-- Which slides the windows from `lastpos` on may append: matches, and old results from `lastold`
on that are near one. -/
theorem mem_nearbyPicks_later (narrow : region.regionSize < 2 ^ 32) {slides : List Nat}
    {lastold lastpos : Nat} (sorted : slides.Pairwise (· < ·))
    (ahead : ∀ slide ∈ slides, lastpos ≤ min (slide + reach) region.regionSize) {b : Nat}
    (member : b ∈ (nearbyPicks buffer region target type tolerance reach lastNumberType slides
      lastold lastpos).map Prod.fst) :
    ∃ later ∈ (nearbyWindows reach region.regionSize lastpos slides).map
        (windowMatches buffer target type tolerance),
      ∃ f ∈ later, lastpos ≤ f ∧
        (b = f ∨ ∃ o, lastold ≤ o ∧ region.slides[o]? = some b ∧ nearSlide reach b f = true) := by
  induction slides generalizing lastold lastpos with
  | nil => simp [nearbyPicks] at member
  | cons curslide rest ih =>
      obtain ⟨before, sorted⟩ := List.pairwise_cons.mp sorted
      have onward := ahead curslide List.mem_cons_self
      rw [nearbyPicks, List.map_append, List.mem_append, windowFound_eq narrow] at member
      rw [nearbyWindows, List.map_cons]
      generalize window :
        (max (curslide - reach) lastpos, min (curslide + reach) region.regionSize) = w at member ⊢
      have start : lastpos ≤ w.1 := window ▸ le_max_right _ _
      rcases member with here | later
      · refine ⟨_, List.mem_cons_self, ?_⟩
        rcases mem_windowPicks_keys.mp here with found | ⟨old, carried, rfl⟩
        · exact ⟨b, found, start.trans (windowMatches_bounds found).1, .inl rfl⟩
        · obtain ⟨f, matched, near⟩ := near_of_carried carried
          obtain ⟨behind, listed⟩ :=
            mem_drop_zipIdx.mp ((windowCarried_sublist _ _).subset carried)
          exact ⟨f, matched, start.trans (windowMatches_bounds matched).1,
            .inr ⟨old.2, behind, typed_getElem? listed, near⟩⟩
      · obtain ⟨found, listed, f, inside, behind, shape⟩ :=
          ih sorted (window_ends_before before) later
        refine ⟨found, List.mem_cons_of_mem _ listed, f, inside, onward.trans behind,
          shape.imp_right ?_⟩
        rintro ⟨o, index, slide, near⟩
        exact ⟨o, (le_nextOld (windowCarried_behind _ _)).trans index, slide, near⟩

theorem getElem?_lt_of_sorted {slides : List Nat} (sorted : slides.Pairwise (· < ·)) {i j a b : Nat}
    (atI : slides[i]? = some a) (atJ : slides[j]? = some b) (below : i < j) : a < b := by
  obtain ⟨inI, rfl⟩ := List.getElem?_eq_some_iff.mp atI
  obtain ⟨inJ, rfl⟩ := List.getElem?_eq_some_iff.mp atJ
  exact List.pairwise_iff_getElem.mp sorted i j inI inJ below

theorem far_of_left {found : List Nat} {last lastold o b : Nat} (final : found.getLast? = some last)
    (left : nextOld (windowCarried region reach lastNumberType found lastold) lastold ≤ o)
    (slide : region.slides[o]? = some b) : nearSlide reach b last = false := by
  by_contra near
  rw [Bool.not_eq_false] at near
  obtain ⟨oldtype, typed⟩ := exists_typed_getElem? lastNumberType slide
  obtain ⟨first, head⟩ := exists_head_of_getLast final
  have onward := (le_nextOld (windowCarried_behind _ _)).trans left
  have carried : ((b, oldtype), o) ∈ windowCarried region reach lastNumberType found lastold :=
    (mem_windowCarried_iff head final).mpr ⟨⟨onward, typed⟩, .inr near⟩
  have := lt_nextOld lastold (windowCarried_ascending _ lastold) _ carried
  dsimp only at this
  omega

/-- What a window appends lies before what the later ones append: `f` is a later match, and `b` is
either that match or an old result near it. -/
theorem windowPicks_before (ascending : region.slides.Pairwise (· < ·)) {window : Nat × Nat}
    {lastold a b f : Nat}
    (here : a ∈ (windowPicks type (windowMatches buffer target type tolerance window)
      (windowCarried region reach lastNumberType
        (windowMatches buffer target type tolerance window) lastold)).map Prod.fst)
    (behind : window.2 ≤ f)
    (apart : ∀ m ∈ windowMatches buffer target type tolerance window, ∀ s ∈ region.slides,
      f ≤ s → m + reach ≤ s)
    (shape : b = f ∨ ∃ o, nextOld (windowCarried region reach lastNumberType
        (windowMatches buffer target type tolerance window) lastold) lastold ≤ o ∧
      region.slides[o]? = some b ∧ nearSlide reach b f = true) : a < b := by
  have bounds : ∀ m ∈ windowMatches buffer target type tolerance window, m < window.2 :=
    fun m member => (windowMatches_bounds member).2
  have sorted : (windowMatches buffer target type tolerance window).Pairwise (· < ·) :=
    windowMatches_sorted window
  generalize windowMatches buffer target type tolerance window = found
    at here apart shape bounds sorted
  cases final : found.getLast? with
  | none =>
      rw [List.getLast?_eq_none_iff.mp final, windowCarried_nil] at here
      have := mem_windowPicks_keys.mp here
      simp at this
  | some last =>
      obtain ⟨first, head⟩ := exists_head_of_getLast final
      have below := bounds last (List.mem_of_getLast? final)
      rcases mem_windowPicks_keys.mp here with matched | ⟨old, carried, rfl⟩
      · have inWindow := bounds a matched
        rcases shape with rfl | ⟨o, left, slide, near⟩
        · omega
        · have far := far_of_left final left slide
          have greatest := le_getLast_of_sorted sorted final a matched
          rw [Bool.eq_false_iff, ne_eq, nearSlide_iff] at far
          rw [nearSlide_iff] at near
          omega
      · obtain ⟨⟨-, typed⟩, near⟩ := (mem_windowCarried_iff head final).mp carried
        have slide := typed_getElem? typed
        rcases shape with rfl | ⟨o, left, slide', -⟩
        · by_contra overtaken
          have listed := List.mem_of_getElem? slide
          have farFirst := apart first (List.mem_of_head? head) _ listed (not_lt.mp overtaken)
          have farLast := apart last (List.mem_of_getLast? final) _ listed (not_lt.mp overtaken)
          rw [nearSlide_iff, nearSlide_iff] at near
          omega
        · have carriedBefore := lt_nextOld lastold (windowCarried_ascending _ lastold) old carried
          exact getElem?_lt_of_sorted ascending slide slide' (by omega)

/-- The slides that a nearby search appends are strictly ascending where it is ordered. -/
theorem nearbyPicks_sorted (narrow : region.regionSize < 2 ^ 32)
    (ascending : region.slides.Pairwise (· < ·)) {slides : List Nat} {lastold lastpos : Nat}
    (sorted : slides.Pairwise (· < ·))
    (ordered : ((nearbyWindows reach region.regionSize lastpos slides).map
      (windowMatches buffer target type tolerance)).Pairwise fun earlier later =>
        ∀ m ∈ earlier, ∀ f ∈ later, ∀ s ∈ region.slides, f ≤ s → m + reach ≤ s) :
    ((nearbyPicks buffer region target type tolerance reach lastNumberType slides lastold
      lastpos).map Prod.fst).Pairwise (· < ·) := by
  induction slides generalizing lastold lastpos with
  | nil => exact .nil
  | cons curslide rest ih =>
      obtain ⟨before, sorted⟩ := List.pairwise_cons.mp sorted
      rw [nearbyWindows, List.map_cons, List.pairwise_cons] at ordered
      obtain ⟨apart, ordered⟩ := ordered
      rw [nearbyPicks, List.map_append, windowFound_eq narrow]
      refine List.pairwise_append.mpr ⟨windowPicks_sorted _ _, ih sorted ordered, ?_⟩
      intro a here b later
      obtain ⟨found, listed, f, inside, behind, shape⟩ :=
        mem_nearbyPicks_later narrow sorted (window_ends_before before) later
      exact windowPicks_before ascending here behind
        (fun m matched s => apart found listed m matched f inside s) shape

end

end H5GG

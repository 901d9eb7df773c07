import H5GG.Engine.Step

/-!
# The windows of a nearby search

A nearby search walks the old results with a window around each. What a window finds and what it
carries over from the old results end up in one map, whose entries are appended in key order.
-/

namespace H5GG

def nearbyWindows (reach size : Nat) : Nat → List Nat → List (Nat × Nat)
  | _, [] => []
  | lastpos, slide :: rest =>
      (max (slide - reach) lastpos, min (slide + reach) size) ::
        nearbyWindows reach size (min (slide + reach) size) rest

/-! ### Insertions into the map of matches -/

section
variable {α : Type*} (key : α → Nat) (value : α → Int)

def insertAll (entries : List α) (matched : Std.TreeMap Nat Int) : Std.TreeMap Nat Int :=
  entries.foldl (fun matched entry => matched.insert (key entry) (value entry)) matched

variable {key value}

theorem mem_insertAll {entries : List α} {matched : Std.TreeMap Nat Int} {k : Nat} :
    k ∈ insertAll key value entries matched ↔ k ∈ matched ∨ ∃ entry ∈ entries, key entry = k := by
  induction entries generalizing matched with
  | nil => simp [insertAll]
  | cons entry rest ih =>
      rw [insertAll, List.foldl_cons, ← insertAll, ih, Std.TreeMap.mem_insert]
      simp only [Nat.compare_eq_eq, List.mem_cons, exists_eq_or_imp]
      tauto

theorem getElem?_insertAll {entries : List α} {matched : Std.TreeMap Nat Int} {k : Nat} {v : Int}
    (bound : (insertAll key value entries matched)[k]? = some v) :
    matched[k]? = some v ∨ ∃ entry ∈ entries, key entry = k ∧ value entry = v := by
  induction entries generalizing matched with
  | nil => exact .inl bound
  | cons entry rest ih =>
      rcases ih bound with inserted | ⟨other, member, same⟩
      · rw [Std.TreeMap.getElem?_insert] at inserted
        split at inserted
        · rename_i here
          rw [Option.some.injEq] at inserted
          exact .inr ⟨entry, List.mem_cons_self, Nat.compare_eq_eq.mp here, inserted⟩
        · exact .inl inserted
      · exact .inr ⟨other, List.mem_cons_of_mem _ member, same⟩

theorem getElem?_insertAll_of_not_mem {entries : List α} {matched : Std.TreeMap Nat Int} {k : Nat}
    (absent : ∀ entry ∈ entries, key entry ≠ k) :
    (insertAll key value entries matched)[k]? = matched[k]? := by
  induction entries generalizing matched with
  | nil => rfl
  | cons entry rest ih =>
      obtain ⟨here, later⟩ := List.forall_mem_cons.mp absent
      rw [insertAll, List.foldl_cons, ← insertAll, ih later, Std.TreeMap.getElem?_insert,
        if_neg (fun same => here (Nat.compare_eq_eq.mp same))]

theorem getElem?_insertAll_of_mem {entries : List α} {matched : Std.TreeMap Nat Int} {entry : α}
    (distinct : entries.Pairwise fun a b => key a ≠ key b) (member : entry ∈ entries) :
    (insertAll key value entries matched)[key entry]? = some (value entry) := by
  induction entries generalizing matched with
  | nil => exact absurd member List.not_mem_nil
  | cons first rest ih =>
      obtain ⟨before, distinct⟩ := List.pairwise_cons.mp distinct
      rw [insertAll, List.foldl_cons, ← insertAll]
      rcases List.mem_cons.mp member with rfl | later
      · rw [getElem?_insertAll_of_not_mem fun other listed => (before other listed).symm,
          Std.TreeMap.getElem?_insert_self]
      · exact ih distinct later

end

section
variable (buffer : Buffer) (region : ResultRegion) (target : JJSearchValue) (type : SearchType)
  (tolerance reach : Nat) (lastNumberType : Int)

def windowFound (lastpos curslide : Nat) : List Nat :=
  ((Stride.positions type.len (max (curslide - reach) lastpos)
    (min (curslide + reach) region.regionSize)).filter
      (scanForHit buffer target type tolerance)).map u32

/-- The old results from `lastold` on that lie near the first or the last match. -/
def windowCarried (found : List Nat) (lastold : Nat) : List ((Nat × Int) × Nat) :=
  match found.head?, found.getLast? with
  | some first, some last =>
      ((region.typed lastNumberType).zipIdx.drop lastold).filter fun old =>
        nearSlide reach old.1.1 first || nearSlide reach old.1.1 last
  | _, _ => []

def nextOld (carried : List ((Nat × Int) × Nat)) (lastold : Nat) : Nat :=
  carried.getLast?.elim lastold fun old => old.2 + 1

def windowPicks (found : List Nat) (carried : List ((Nat × Int) × Nat)) : List (Nat × Int) :=
  (insertAll (fun old => old.1.1) (fun old => int8 old.1.2) carried
    (insertAll id (fun _ => type.code) found ∅)).toList

/-- What the windows append, from the old result `lastold` and the position `lastpos` on. -/
def nearbyPicks : List Nat → Nat → Nat → List (Nat × Int)
  | [], _, _ => []
  | curslide :: rest, lastold, lastpos =>
      let found := windowFound buffer region target type tolerance reach lastpos curslide
      let carried := windowCarried region reach lastNumberType found lastold
      windowPicks type found carried ++
        nearbyPicks rest (nextOld carried lastold) (min (curslide + reach) region.regionSize)

variable {buffer region target type tolerance reach lastNumberType}

theorem nextOld_cons {carried : List ((Nat × Int) × Nat)} {old : (Nat × Int) × Nat}
    {lastold : Nat} : nextOld (old :: carried) lastold = nextOld carried (old.2 + 1) := by
  cases carried with
  | nil => rfl
  | cons next rest => simp [nextOld, List.getLast?_cons]

theorem carryOld_eq (first last : Nat) (matched : Std.TreeMap Nat Int) (lastold : Nat) :
    carryOld region reach lastNumberType first last matched lastold =
      let carried := ((region.typed lastNumberType).zipIdx.drop lastold).filter fun old =>
        nearSlide reach old.1.1 first || nearSlide reach old.1.1 last
      (insertAll (fun old => old.1.1) (fun old => int8 old.1.2) carried matched,
        nextOld carried lastold) := by
  unfold carryOld
  suffices walked : ∀ (olds : List ((Nat × Int) × Nat)) (matched : Std.TreeMap Nat Int)
      (lastold : Nat),
      olds.foldl (fun state old =>
        if nearSlide reach old.1.1 first || nearSlide reach old.1.1 last then
          (state.1.insert old.1.1 (int8 old.1.2), old.2 + 1)
        else (state.1, state.2)) (matched, lastold) =
      let carried := olds.filter fun old =>
        nearSlide reach old.1.1 first || nearSlide reach old.1.1 last
      (insertAll (fun old => old.1.1) (fun old => int8 old.1.2) carried matched,
        nextOld carried lastold) from walked _ matched lastold
  intro olds
  induction olds with
  | nil => exact fun _ _ => rfl
  | cons old rest ih =>
      intro matched lastold
      rw [List.foldl_cons, List.filter_cons]
      by_cases near : (nearSlide reach old.1.1 first || nearSlide reach old.1.1 last) = true
      · simp only [near, ↓reduceIte, ih, nextOld_cons]
        rfl
      · simp only [near, Bool.false_eq_true, ↓reduceIte, ih]

theorem nearbyStep_eq (needType : Bool) (state : NearbyState) (curslide : Nat) :
    nearbyStep buffer region target type tolerance reach lastNumberType needType state curslide =
      let found := windowFound buffer region target type tolerance reach state.lastpos curslide
      let carried := windowCarried region reach lastNumberType found state.lastold
      { newRegion := (windowPicks type found carried).foldl (fun newRegion entry =>
          grow region.regionBase region.regionSize newRegion entry.1
            (if needType then entry.2 else 0)) state.newRegion
        lastold := nextOld carried state.lastold
        lastpos := min (curslide + reach) region.regionSize
        reads := state.reads ++ (Stride.positions type.len (max (curslide - reach) state.lastpos)
          (min (curslide + reach) region.regionSize)).map fun offset =>
            ⟨offset, type.len, buffer.size⟩ } := by
  have found : (Stride.collect (scanForHit buffer target type tolerance) (fun _ => true) type.len
      (min (curslide + reach) region.regionSize) (min (curslide + reach) region.regionSize)
      (max (curslide - reach) state.lastpos)).1.map u32 =
        windowFound buffer region target type tolerance reach state.lastpos curslide := by
    rw [windowFound, Stride.collect_fst_of_keep type.len_pos (fun _ => rfl) (by omega)]
  rw [nearbyStep]
  simp only [found, Stride.collect_snd_of_keep type.len_pos (fun _ => rfl)
    (Nat.le_add_right (min (curslide + reach) region.regionSize) _)]
  generalize windowFound buffer region target type tolerance reach state.lastpos curslide = found
  unfold windowCarried
  cases first : found.head? with
  | none => rfl
  | some first =>
      cases last : found.getLast? with
      | none => rfl
      | some last =>
          simp only [carryOld_eq]
          rfl

/-! ### What a window appends -/

theorem mem_windowPicks {found : List Nat} {carried : List ((Nat × Int) × Nat)}
    {entry : Nat × Int} (member : entry ∈ windowPicks type found carried) :
    entry.1 ∈ found ∧ entry.2 = type.code ∨
      ∃ old ∈ carried, old.1.1 = entry.1 ∧ int8 old.1.2 = entry.2 := by
  rcases getElem?_insertAll (Std.TreeMap.mem_toList_iff_getElem?_eq_some.mp member) with
    inserted | old
  · rcases getElem?_insertAll inserted with absent | ⟨slide, listed, rfl, same⟩
    · simp at absent
    · exact .inl ⟨listed, same.symm⟩
  · exact .inr old

theorem mem_windowPicks_keys {found : List Nat} {carried : List ((Nat × Int) × Nat)} {k : Nat} :
    k ∈ (windowPicks type found carried).map Prod.fst ↔
      k ∈ found ∨ ∃ old ∈ carried, old.1.1 = k := by
  rw [windowPicks, Std.TreeMap.map_fst_toList_eq_keys, Std.TreeMap.mem_keys, mem_insertAll,
    mem_insertAll]
  simp

theorem windowPicks_sorted (found : List Nat) (carried : List ((Nat × Int) × Nat)) :
    ((windowPicks type found carried).map Prod.fst).Pairwise (· < ·) := by
  rw [List.pairwise_map]
  exact Std.TreeMap.ordered_keys_toList.imp fun below => Nat.compare_eq_lt.mp below

theorem windowPicks_eq_nil (found : List Nat) (lastold : Nat) :
    windowPicks type found (windowCarried region reach lastNumberType found lastold) = [] ↔
      found = [] := by
  rw [← List.map_eq_nil_iff (f := Prod.fst), List.eq_nil_iff_forall_not_mem]
  constructor
  · intro none'
    refine List.eq_nil_iff_forall_not_mem.mpr fun slide listed => ?_
    exact none' slide (mem_windowPicks_keys.mpr (.inl listed))
  · rintro rfl key listed
    cases mem_windowPicks_keys.mp listed with
    | inl found => cases found
    | inr carried =>
        obtain ⟨old, carried, -⟩ := carried
        cases carried

theorem windowFound_inside {lastpos curslide slide : Nat}
    (member : slide ∈ windowFound buffer region target type tolerance reach lastpos curslide) :
    slide < region.regionSize ∧ slide < 2 ^ 32 := by
  obtain ⟨offset, found, rfl⟩ := List.mem_map.mp member
  have bounds := Stride.positions_bounds type.len_pos (List.mem_filter.mp found).1
  have positive := type.len_pos
  have narrow := u32_le offset
  exact ⟨by omega, u32_lt offset⟩

theorem windowFound_hit {lastpos curslide slide : Nat}
    (member : slide ∈ windowFound buffer region target type tolerance reach lastpos curslide) :
    ∃ offset, scanForHit buffer target type tolerance offset = true ∧ u32 offset = slide := by
  obtain ⟨offset, found, rfl⟩ := List.mem_map.mp member
  exact ⟨offset, (List.mem_filter.mp found).2, rfl⟩

theorem windowCarried_sublist (found : List Nat) (lastold : Nat) :
    (windowCarried region reach lastNumberType found lastold).Sublist
      ((region.typed lastNumberType).zipIdx.drop lastold) := by
  unfold windowCarried
  split
  · exact List.filter_sublist
  · exact List.nil_sublist _

theorem mem_windowCarried {found : List Nat} {lastold : Nat} {old : (Nat × Int) × Nat}
    (member : old ∈ windowCarried region reach lastNumberType found lastold) :
    old.1 ∈ region.typed lastNumberType := by
  have listed := List.mem_of_mem_drop ((windowCarried_sublist found lastold).subset member)
  exact List.fst_mem_of_mem_zipIdx listed

theorem mem_nearbyPicks {slides : List Nat} {lastold lastpos : Nat} {entry : Nat × Int}
    (member : entry ∈ nearbyPicks buffer region target type tolerance reach lastNumberType slides
      lastold lastpos) :
    ((∃ offset, scanForHit buffer target type tolerance offset = true ∧ u32 offset = entry.1) ∧
        entry.1 < region.regionSize ∧ entry.1 < 2 ^ 32 ∧ entry.2 = type.code) ∨
      ∃ old ∈ region.typed lastNumberType, old.1 = entry.1 ∧ int8 old.2 = entry.2 := by
  induction slides generalizing lastold lastpos with
  | nil => simp [nearbyPicks] at member
  | cons curslide rest ih =>
      rcases List.mem_append.mp member with here | later
      · rcases mem_windowPicks here with ⟨found, same⟩ | ⟨old, carried, same⟩
        · obtain ⟨inside, narrow⟩ := windowFound_inside found
          exact .inl ⟨windowFound_hit found, inside, narrow, same⟩
        · exact .inr ⟨old.1, mem_windowCarried carried, same⟩
      · exact ih later

theorem nearbyPicks_eq_nil {slides : List Nat} {lastold lastpos : Nat} :
    nearbyPicks buffer region target type tolerance reach lastNumberType slides lastold lastpos =
        [] ↔
      ∀ window ∈ nearbyWindows reach region.regionSize lastpos slides,
        ∀ offset ∈ Stride.positions type.len window.1 window.2,
          scanForHit buffer target type tolerance offset = false := by
  induction slides generalizing lastold lastpos with
  | nil => simp [nearbyPicks, nearbyWindows]
  | cons curslide rest ih =>
      rw [nearbyPicks, nearbyWindows, List.forall_mem_cons]
      simp only [List.append_eq_nil_iff, windowPicks_eq_nil, ih, windowFound, List.map_eq_nil_iff,
        List.filter_eq_nil_iff, Bool.not_eq_true]

theorem foldl_nearbyStep_reads {needType : Bool} (slides : List Nat) (state : NearbyState) :
    (slides.foldl (nearbyStep buffer region target type tolerance reach lastNumberType needType)
        state).reads =
      state.reads ++ (nearbyWindows reach region.regionSize state.lastpos slides).flatMap
        fun window => (Stride.positions type.len window.1 window.2).map fun offset =>
          ⟨offset, type.len, buffer.size⟩ := by
  induction slides generalizing state with
  | nil => simp [nearbyWindows]
  | cons slide rest ih =>
      rw [List.foldl_cons, ih, nearbyStep_eq, nearbyWindows, List.flatMap_cons, List.append_assoc]

theorem foldl_nearbyStep_newRegion {needType : Bool} (slides : List Nat) (state : NearbyState) :
    (slides.foldl (nearbyStep buffer region target type tolerance reach lastNumberType needType)
        state).newRegion =
      (nearbyPicks buffer region target type tolerance reach lastNumberType slides state.lastold
        state.lastpos).foldl (fun newRegion entry =>
          grow region.regionBase region.regionSize newRegion entry.1
            (if needType then entry.2 else 0)) state.newRegion := by
  induction slides generalizing state with
  | nil => rfl
  | cons slide rest ih => rw [List.foldl_cons, ih, nearbyStep_eq, nearbyPicks, List.foldl_append]

end

section
variable {t : Target} {tolerance : Nat} {lastNumberType : Int} {range : Nat}
  {target : JJSearchValue} {type : SearchType} {region : ResultRegion} {buffer : Buffer}

theorem nearbyRegion_reads
    (loaded : t.loadRegion region.regionBase region.regionSize = some buffer) :
    (nearbyRegion t tolerance lastNumberType range target type region).reads =
      (nearbyWindows (nearbyReach range type.len) region.regionSize 0 region.slides).flatMap
        fun window => (Stride.positions type.len window.1 window.2).map fun offset =>
          ⟨offset, type.len, buffer.size⟩ := by
  simp only [nearbyRegion, loaded]
  rw [foldl_nearbyStep_reads]
  rfl

theorem nearbyRegion_value
    (loaded : t.loadRegion region.regionBase region.regionSize = some buffer) :
    (nearbyRegion t tolerance lastNumberType range target type region).value =
      growAll region.regionBase region.regionSize
        ((nearbyPicks buffer region target type tolerance (nearbyReach range type.len)
          lastNumberType region.slides 0 0).map fun entry =>
            (entry.1, if region.hasTypes || type.code ≠ lastNumberType then entry.2 else 0)) := by
  simp only [nearbyRegion, loaded]
  rw [foldl_nearbyStep_newRegion, growAll, List.foldl_map]

theorem nearbyRegion_built {built : ResultRegion}
    (searched : (nearbyRegion t tolerance lastNumberType range target type region).value =
      some built) :
    ∃ buffer, t.loadRegion region.regionBase region.regionSize = some buffer ∧
      growAll region.regionBase region.regionSize
        ((nearbyPicks buffer region target type tolerance (nearbyReach range type.len)
          lastNumberType region.slides 0 0).map fun entry =>
            (entry.1, if region.hasTypes || type.code ≠ lastNumberType then entry.2 else 0)) =
        some built := by
  cases loaded : t.loadRegion region.regionBase region.regionSize with
  | none => simp [nearbyRegion, loaded] at searched
  | some buffer =>
      rw [nearbyRegion_value loaded] at searched
      exact ⟨buffer, rfl, searched⟩

end

end H5GG

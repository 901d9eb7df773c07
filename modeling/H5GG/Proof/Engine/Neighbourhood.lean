import H5GG.Proof.Engine.Exact
import H5GG.Proof.Engine.Nearby
import H5GG.Proof.Engine.Typed

/-!
# What a nearby search keeps

The windows cover the old results' neighbourhoods, with the element at the lower end of the reach
besides. An old result is carried over by the first window with a match near it.
-/

namespace H5GG

/-! ### Lists of matches, one for each window -/

/-- The matches of consecutive windows: ascending, and each list within two reaches. -/
structure Spread (reach : Nat) (founds : List (List Nat)) : Prop where
  sorted : ∀ found ∈ founds, found.Pairwise (· < ·)
  short : ∀ found ∈ founds, ∀ a ∈ found, ∀ b ∈ found, b < a + 2 * reach
  apart : founds.Pairwise fun earlier later => ∀ a ∈ earlier, ∀ b ∈ later, a < b

theorem Spread.tail {reach : Nat} {found : List Nat} {rest : List (List Nat)}
    (spread : Spread reach (found :: rest)) : Spread reach rest where
  sorted later member := spread.sorted later (List.mem_cons_of_mem _ member)
  short later member := spread.short later (List.mem_cons_of_mem _ member)
  apart := (List.pairwise_cons.mp spread.apart).2

section
variable (region : ResultRegion) (type : SearchType) (reach : Nat) (lastNumberType : Int)

def carryPicks : List (List Nat) → Nat → List (Nat × Int)
  | [], _ => []
  | found :: rest, lastold =>
      let carried := windowCarried region reach lastNumberType found lastold
      windowPicks type found carried ++ carryPicks rest (nextOld carried lastold)

variable {region type reach lastNumberType}

theorem nearbyPicks_eq {buffer : Buffer} {target : JJSearchValue} {tolerance : Nat}
    {slides : List Nat} {lastold lastpos : Nat} :
    nearbyPicks buffer region target type tolerance reach lastNumberType slides lastold lastpos =
      carryPicks region type reach lastNumberType
        ((nearbyWindows reach region.regionSize lastpos slides).map fun window =>
          (windowMatches buffer target type tolerance window).map u32) lastold := by
  induction slides generalizing lastold lastpos with
  | nil => rfl
  | cons curslide rest ih =>
      rw [nearbyPicks, nearbyWindows, List.map_cons, carryPicks, ih]
      rfl

/-- Between the first and the last match of a window no gap is wide enough to hide in. -/
theorem near_of_between {found : List Nat} {first last m s : Nat}
    (sorted : found.Pairwise (· < ·)) (short : ∀ a ∈ found, ∀ b ∈ found, b < a + 2 * reach)
    (head : found.head? = some first) (final : found.getLast? = some last) (member : m ∈ found)
    (near : nearSlide reach s m = true) :
    nearSlide reach s first = true ∨ nearSlide reach s last = true := by
  have least : first ≤ m := by
    obtain ⟨rest, rfl⟩ := List.head?_eq_some_iff.mp head
    rcases List.mem_cons.mp member with rfl | later
    · exact le_rfl
    · exact ((List.pairwise_cons.mp sorted).1 m later).le
  have greatest := le_getLast_of_sorted sorted final m member
  have close := short first (List.mem_of_head? head) last (List.mem_of_getLast? final)
  rw [nearSlide_iff] at near ⊢
  rw [nearSlide_iff]
  omega

theorem mem_windowCarried_near {found : List Nat} {lastold : Nat} {old : (Nat × Int) × Nat}
    (sorted : found.Pairwise (· < ·)) (short : ∀ a ∈ found, ∀ b ∈ found, b < a + 2 * reach) :
    old ∈ windowCarried region reach lastNumberType found lastold ↔
      lastold ≤ old.2 ∧ (region.typed lastNumberType)[old.2]? = some old.1 ∧
        ∃ m ∈ found, nearSlide reach old.1.1 m = true := by
  constructor
  · intro carried
    obtain ⟨behind, listed⟩ := mem_drop_zipIdx.mp ((windowCarried_sublist _ _).subset carried)
    exact ⟨behind, listed, near_of_carried carried⟩
  · rintro ⟨behind, listed, m, member, near⟩
    cases head : found.head? with
    | none => exact absurd member (List.head?_eq_none_iff.mp head ▸ List.not_mem_nil)
    | some first =>
        cases final : found.getLast? with
        | none => exact absurd member (List.getLast?_eq_none_iff.mp final ▸ List.not_mem_nil)
        | some last =>
            exact (mem_windowCarried_iff head final).mpr
              ⟨⟨behind, listed⟩, near_of_between sorted short head final member near⟩

/-- An old result that a window skips lies too low for every later match. -/
theorem far_of_skipped {found : List Nat} {lastold o s m : Nat}
    (ascending : region.slides.Pairwise (· < ·)) (sorted : found.Pairwise (· < ·))
    (short : ∀ a ∈ found, ∀ b ∈ found, b < a + 2 * reach) (slide : region.slides[o]? = some s)
    (behind : lastold ≤ o)
    (skipped : o < nextOld (windowCarried region reach lastNumberType found lastold) lastold)
    (missed : ∀ f ∈ found, nearSlide reach s f = false) (above : ∀ f ∈ found, f < m) :
    nearSlide reach s m = false := by
  cases final : (windowCarried region reach lastNumberType found lastold).getLast? with
  | none =>
      rw [nextOld, final] at skipped
      simp only [Option.elim_none] at skipped
      omega
  | some old =>
      rw [nextOld, final, Option.elim_some] at skipped
      obtain ⟨-, listed, f, member, near⟩ :=
        (mem_windowCarried_near sorted short).mp (List.mem_of_getLast? final)
      have far := missed f member
      have under := above f member
      have below : s ≤ old.1.1 := by
        rcases Nat.lt_succ_iff_lt_or_eq.mp skipped with before | rfl
        · exact (getElem?_lt_of_sorted ascending slide (typed_getElem? listed) before).le
        · have same := (typed_getElem? listed).symm.trans slide
          exact (Option.some.inj same).ge
      rw [Bool.eq_false_iff, ne_eq, nearSlide_iff] at far ⊢
      rw [nearSlide_iff] at near
      omega

/-- Every old result that is left has a chance to be carried over exactly where it lies near a
match. -/
theorem carried_or_left {found : List Nat} {rest : List (List Nat)} {lastold o s : Nat}
    (ascending : region.slides.Pairwise (· < ·)) (spread : Spread reach (found :: rest))
    (slide : region.slides[o]? = some s) (behind : lastold ≤ o)
    (missed : ∀ f ∈ found, nearSlide reach s f = false) :
    nextOld (windowCarried region reach lastNumberType found lastold) lastold ≤ o ∨
      ∀ later ∈ rest, ∀ m ∈ later, nearSlide reach s m = false := by
  rcases Nat.lt_or_ge o
    (nextOld (windowCarried region reach lastNumberType found lastold) lastold) with skipped | left
  · refine .inr fun later listed m member => ?_
    apply far_of_skipped ascending (spread.sorted found List.mem_cons_self)
      (spread.short found List.mem_cons_self) slide behind skipped missed
    exact fun f inside => (List.pairwise_cons.mp spread.apart).1 later listed f inside m member
  · exact .inl left

theorem windowCarried_distinct (ascending : region.slides.Pairwise (· < ·)) (found : List Nat)
    (lastold : Nat) :
    (windowCarried region reach lastNumberType found lastold).Pairwise
      fun a b => a.1.1 ≠ b.1.1 := by
  refine List.Pairwise.imp_of_mem ?_ (windowCarried_ascending found lastold)
  intro a b carriedA carriedB before
  have listedA := (mem_drop_zipIdx.mp ((windowCarried_sublist _ _).subset carriedA)).2
  have listedB := (mem_drop_zipIdx.mp ((windowCarried_sublist _ _).subset carriedB)).2
  exact (getElem?_lt_of_sorted ascending (typed_getElem? listedA) (typed_getElem? listedB)
    before).ne

theorem mem_windowPicks_iff {found : List Nat} {carried : List ((Nat × Int) × Nat)}
    {entry : Nat × Int} (sorted : found.Pairwise (· < ·))
    (distinct : carried.Pairwise fun a b => a.1.1 ≠ b.1.1) :
    entry ∈ windowPicks type found carried ↔
      (∃ old ∈ carried, old.1.1 = entry.1 ∧ int8 old.1.2 = entry.2) ∨
        entry.1 ∈ found ∧ entry.2 = type.code ∧ ∀ old ∈ carried, old.1.1 ≠ entry.1 := by
  constructor
  · intro member
    by_cases kept : ∃ old ∈ carried, old.1.1 = entry.1
    · obtain ⟨old, carries, same⟩ := kept
      have bound := Std.TreeMap.mem_toList_iff_getElem?_eq_some.mp member
      rw [← same, getElem?_insertAll_of_mem distinct carries] at bound
      exact .inl ⟨old, carries, same, Option.some.inj bound⟩
    · have absent : ∀ old ∈ carried, old.1.1 ≠ entry.1 := fun old carries same =>
        kept ⟨old, carries, same⟩
      rcases mem_windowPicks member with ⟨here, code⟩ | ⟨old, carries, same, -⟩
      · exact .inr ⟨here, code, absent⟩
      · exact absurd same (absent old carries)
  · intro shape
    rw [windowPicks, Std.TreeMap.mem_toList_iff_getElem?_eq_some]
    rcases shape with ⟨old, carries, same, type⟩ | ⟨here, code, absent⟩
    · rw [← same, getElem?_insertAll_of_mem distinct carries, type]
    · rw [getElem?_insertAll_of_not_mem absent, code]
      exact @getElem?_insertAll_of_mem _ id _ _ _ _ (sorted.imp fun below => below.ne) here

/-- An old result that no window has passed yet lies near a match, with the type it is given. -/
def Carries (region : ResultRegion) (reach : Nat) (lastNumberType : Int) (founds : List (List Nat))
    (lastold : Nat) (entry : Nat × Int) : Prop :=
  ∃ o old, lastold ≤ o ∧ (region.typed lastNumberType)[o]? = some old ∧
    (∃ found ∈ founds, ∃ m ∈ found, nearSlide reach old.1 m = true) ∧
    old.1 = entry.1 ∧ int8 old.2 = entry.2

/-- A match of some window, unless it is an old result that an earlier window carries over. -/
def Reports (region : ResultRegion) (type : SearchType) (reach : Nat) (founds : List (List Nat))
    (lastold : Nat) (entry : Nat × Int) : Prop :=
  entry.2 = type.code ∧ ∃ before found after, founds = before ++ found :: after ∧
    entry.1 ∈ found ∧ ∀ o, lastold ≤ o → region.slides[o]? = some entry.1 →
      ∃ earlier ∈ before, ∃ m ∈ earlier, nearSlide reach entry.1 m = true

section
variable {found : List Nat} {rest : List (List Nat)} {lastold : Nat} {entry : Nat × Int}
  (ascending : region.slides.Pairwise (· < ·)) (spread : Spread reach (found :: rest))
include ascending spread

theorem carries_cons : Carries region reach lastNumberType (found :: rest) lastold entry ↔
    (∃ old ∈ windowCarried region reach lastNumberType found lastold,
      old.1.1 = entry.1 ∧ int8 old.1.2 = entry.2) ∨
      Carries region reach lastNumberType rest
        (nextOld (windowCarried region reach lastNumberType found lastold) lastold) entry := by
  have sorted := spread.sorted found List.mem_cons_self
  have short := spread.short found List.mem_cons_self
  constructor
  · rintro ⟨o, old, behind, listed, ⟨later, member, m, inside, near⟩, same⟩
    by_cases carries : ∃ f ∈ found, nearSlide reach old.1 f = true
    · exact .inl ⟨(old, o),
        (mem_windowCarried_near sorted short).mpr ⟨behind, listed, carries⟩, same⟩
    · have missed : ∀ f ∈ found, nearSlide reach old.1 f = false := fun f inside =>
        Bool.eq_false_iff.mpr fun close => carries ⟨f, inside, close⟩
      have remaining : later ∈ rest := by
        rcases List.mem_cons.mp member with rfl | remaining
        · exact absurd ⟨m, inside, near⟩ carries
        · exact remaining
      rcases carried_or_left ascending spread (typed_getElem? listed) behind missed with left | far
      · exact .inr ⟨o, old, left, listed, ⟨later, remaining, m, inside, near⟩, same⟩
      · exact absurd near (Bool.eq_false_iff.mp (far later remaining m inside))
  · rintro (⟨old, carried, same⟩ | ⟨o, old, left, listed, ⟨later, member, near⟩, same⟩)
    · obtain ⟨behind, listed, near⟩ := (mem_windowCarried_near sorted short).mp carried
      exact ⟨old.2, old.1, behind, listed, ⟨found, List.mem_cons_self, near⟩, same⟩
    · have behind : lastold ≤ o := (le_nextOld (windowCarried_behind found lastold)).trans left
      exact ⟨o, old, behind, listed, ⟨later, List.mem_cons_of_mem _ member, near⟩, same⟩

theorem reports_cons (positive : 0 < reach) :
    Reports region type reach (found :: rest) lastold entry ↔
      (entry.1 ∈ found ∧ entry.2 = type.code ∧
        ∀ old ∈ windowCarried region reach lastNumberType found lastold, old.1.1 ≠ entry.1) ∨
      Reports region type reach rest
        (nextOld (windowCarried region reach lastNumberType found lastold) lastold) entry := by
  have sorted := spread.sorted found List.mem_cons_self
  have short := spread.short found List.mem_cons_self
  have self (s : Nat) : nearSlide reach s s = true := nearSlide_iff.mpr (by omega)
  have carried {o : Nat} (behind : lastold ≤ o) (slide : region.slides[o]? = some entry.1)
      (near : ∃ f ∈ found, nearSlide reach entry.1 f = true) :
      ∃ oldtype, ((entry.1, oldtype), o) ∈
        windowCarried region reach lastNumberType found lastold := by
    obtain ⟨oldtype, listed⟩ := exists_typed_getElem? lastNumberType slide
    exact ⟨oldtype, (mem_windowCarried_near sorted short).mpr ⟨behind, listed, near⟩⟩
  constructor
  · rintro ⟨code, before, here, after, shape, member, only⟩
    cases before with
    | nil =>
        obtain ⟨rfl, rfl⟩ := List.cons.inj shape
        refine .inl ⟨member, code, fun old carried same => ?_⟩
        obtain ⟨behind, listed, -⟩ := (mem_windowCarried_near sorted short).mp carried
        obtain ⟨earlier, none', -⟩ := only old.2 behind (same ▸ typed_getElem? listed)
        exact absurd none' List.not_mem_nil
    | cons first before =>
        obtain ⟨rfl, rfl⟩ := List.cons.inj shape
        refine .inr ⟨code, before, here, after, rfl, member, fun o left slide => ?_⟩
        have behind : lastold ≤ o := (le_nextOld (windowCarried_behind found lastold)).trans left
        obtain ⟨earlier, listed, near⟩ := only o behind slide
        rcases List.mem_cons.mp listed with rfl | later
        · obtain ⟨oldtype, passed⟩ := carried behind slide near
          have before := lt_nextOld lastold (windowCarried_ascending _ lastold) _ passed
          exact absurd left (not_le.mpr before)
        · exact ⟨earlier, later, near⟩
  · rintro (⟨here, code, absent⟩ | ⟨code, before, here, after, rfl, member, only⟩)
    · refine ⟨code, [], found, rest, rfl, here, fun o behind slide => ?_⟩
      obtain ⟨oldtype, passed⟩ := carried behind slide ⟨entry.1, here, self _⟩
      exact absurd rfl (absent _ passed)
    · refine ⟨code, found :: before, here, after, rfl, member, fun o behind slide => ?_⟩
      by_cases near : ∃ f ∈ found, nearSlide reach entry.1 f = true
      · exact ⟨found, List.mem_cons_self, near⟩
      · have missed : ∀ f ∈ found, nearSlide reach entry.1 f = false := fun f inside =>
          Bool.eq_false_iff.mpr fun close => near ⟨f, inside, close⟩
        rcases carried_or_left ascending spread slide behind missed with left | far
        · obtain ⟨earlier, listed, close⟩ := only o left slide
          exact ⟨earlier, List.mem_cons_of_mem _ listed, close⟩
        · have apart := far here (by simp) entry.1 member
          exact absurd (self entry.1) (Bool.eq_false_iff.mp apart)

end

/-- An old result is kept where a match is near it, whichever window finds it; a match is reported
with the searched type unless it is an old result that no earlier window has carried over. -/
theorem mem_carryPicks {founds : List (List Nat)} {lastold : Nat} {entry : Nat × Int}
    (ascending : region.slides.Pairwise (· < ·)) (spread : Spread reach founds)
    (positive : 0 < reach) :
    entry ∈ carryPicks region type reach lastNumberType founds lastold ↔
      Carries region reach lastNumberType founds lastold entry ∨
        Reports region type reach founds lastold entry := by
  induction founds generalizing lastold with
  | nil => simp [carryPicks, Carries, Reports]
  | cons found rest ih =>
      rw [carryPicks, List.mem_append, ih spread.tail,
        mem_windowPicks_iff (spread.sorted found List.mem_cons_self)
          (windowCarried_distinct ascending found lastold),
        carries_cons ascending spread, reports_cons ascending spread positive]
      exact or_or_or_comm

end

/-! ### What the windows cover -/

section
variable {reach size lastpos : Nat} {slides : List Nat}

theorem nearbyWindows_shape {window : Nat × Nat}
    (member : window ∈ nearbyWindows reach size lastpos slides) :
    ∃ c ∈ slides, c ≤ window.1 + reach ∧ window.2 = min (c + reach) size := by
  induction slides generalizing lastpos with
  | nil => exact absurd member List.not_mem_nil
  | cons curslide rest ih =>
      rcases List.mem_cons.mp member with rfl | later
      · refine ⟨curslide, List.mem_cons_self, ?_, rfl⟩
        have := le_max_left (curslide - reach) lastpos
        dsimp only
        omega
      · obtain ⟨c, listed, shape⟩ := ih later
        exact ⟨c, List.mem_cons_of_mem _ listed, shape⟩

theorem nearbyWindows_ahead {curslide : Nat} {rest : List Nat}
    (sorted : (curslide :: rest).Pairwise (· < ·)) :
    ∀ slide ∈ rest, min (curslide + reach) size ≤ min (slide + reach) size := by
  intro slide listed
  have before := (List.pairwise_cons.mp sorted).1 slide listed
  omega

theorem nearbyWindows_start (sorted : slides.Pairwise (· < ·))
    (ahead : ∀ slide ∈ slides, lastpos ≤ min (slide + reach) size) :
    ∀ window ∈ nearbyWindows reach size lastpos slides, lastpos ≤ window.1 := by
  induction slides generalizing lastpos with
  | nil => exact fun _ member => absurd member List.not_mem_nil
  | cons curslide rest ih =>
      rw [nearbyWindows, List.forall_mem_cons]
      refine ⟨le_max_right _ _, fun window later => ?_⟩
      exact (ahead curslide List.mem_cons_self).trans
        (ih (List.pairwise_cons.mp sorted).2 (nearbyWindows_ahead sorted) window later)

theorem nearbyWindows_apart (sorted : slides.Pairwise (· < ·)) :
    (nearbyWindows reach size lastpos slides).Pairwise fun earlier later =>
      earlier.2 ≤ later.1 := by
  induction slides generalizing lastpos with
  | nil => exact .nil
  | cons curslide rest ih =>
      have sorted' := (List.pairwise_cons.mp sorted).2
      exact List.pairwise_cons.mpr
        ⟨nearbyWindows_start sorted' (nearbyWindows_ahead sorted), ih sorted'⟩

/-- A window starts on a multiple of the width, or behind the region. -/
theorem nearbyWindows_aligned {len : Nat} (aligned : ∀ slide ∈ slides, len ∣ slide)
    (unit : len ∣ reach) (start : len ∣ lastpos ∨ size ≤ lastpos) :
    ∀ window ∈ nearbyWindows reach size lastpos slides, len ∣ window.1 ∨ size ≤ window.1 := by
  induction slides generalizing lastpos with
  | nil => exact fun _ member => absurd member List.not_mem_nil
  | cons curslide rest ih =>
      obtain ⟨here, aligned⟩ := List.forall_mem_cons.mp aligned
      rw [nearbyWindows, List.forall_mem_cons]
      constructor
      · rcases le_total (curslide - reach) lastpos with below | above
        · rw [max_eq_right below]
          exact start
        · rw [max_eq_left above]
          exact .inl (Nat.dvd_sub here unit)
      · apply ih aligned
        rcases le_total (curslide + reach) size with inside | beyond
        · rw [min_eq_left inside]
          exact .inl (Nat.dvd_add here unit)
        · rw [min_eq_right beyond]
          exact .inr le_rfl

/-- A window lies on one side of the end of every other. -/
theorem nearbyWindows_side (sorted : slides.Pairwise (· < ·)) {c : Nat} (listed : c ∈ slides) :
    ∀ window ∈ nearbyWindows reach size lastpos slides,
      min (c + reach) size ≤ window.1 ∨ window.2 ≤ min (c + reach) size := by
  induction slides generalizing lastpos with
  | nil => exact absurd listed List.not_mem_nil
  | cons curslide rest ih =>
      obtain ⟨before, sorted'⟩ := List.pairwise_cons.mp sorted
      rw [nearbyWindows, List.forall_mem_cons]
      rcases List.mem_cons.mp listed with rfl | later
      · exact ⟨.inr le_rfl, fun window member => .inl
          (nearbyWindows_start sorted' (nearbyWindows_ahead sorted) window member)⟩
      · refine ⟨.inr (nearbyWindows_ahead sorted c later), ih sorted' later⟩

theorem mem_nearbyWindows (sorted : slides.Pairwise (· < ·))
    (ahead : ∀ slide ∈ slides, lastpos ≤ min (slide + reach) size) {m : Nat} :
    (∃ window ∈ nearbyWindows reach size lastpos slides, window.1 ≤ m ∧ m < window.2) ↔
      lastpos ≤ m ∧ m < size ∧ ∃ c ∈ slides, c ≤ m + reach ∧ m < c + reach := by
  induction slides generalizing lastpos with
  | nil => simp [nearbyWindows]
  | cons curslide rest ih =>
      obtain ⟨before, sorted'⟩ := List.pairwise_cons.mp sorted
      have onward := ahead curslide List.mem_cons_self
      simp only [nearbyWindows, List.mem_cons, exists_eq_or_imp,
        ih sorted' (nearbyWindows_ahead sorted)]
      constructor
      · rintro (⟨from', below⟩ | ⟨from', inside, c, listed, covers⟩)
        · exact ⟨by omega, by omega, .inl ⟨by omega, by omega⟩⟩
        · exact ⟨by omega, inside, .inr ⟨c, listed, covers⟩⟩
      · rintro ⟨from', inside, ⟨low, high⟩ | ⟨c, listed, low, high⟩⟩
        · exact .inl ⟨by omega, by omega⟩
        · have above := before c listed
          rcases Nat.lt_or_ge m (min (curslide + reach) size) with here | later
          · exact .inl ⟨by omega, by omega⟩
          · exact .inr ⟨later, inside, c, listed, low, high⟩

end

/-! ### Distances -/

def withinRange (range a b : Nat) : Prop := a ≤ b + range ∧ b ≤ a + range

section
variable {range len : Nat}

theorem dvd_nearbyReach (range len : Nat) : len ∣ nearbyReach range len :=
  Nat.dvd_add (Nat.dvd_sub_mod range) (Nat.dvd_refl len)

theorem nearbyReach_pos (range : Nat) (positive : 0 < len) : 0 < nearbyReach range len := by
  unfold nearbyReach
  omega

/-- The widened range holds no further multiple of the width, its end apart. -/
theorem le_add_range_iff (positive : 0 < len) {a b : Nat} (left : len ∣ a) (right : len ∣ b) :
    a ≤ b + range ↔ a < b + nearbyReach range len := by
  have remainder := Nat.mod_lt range positive
  have rounded := Nat.mod_le range len
  constructor
  · intro close
    unfold nearbyReach
    omega
  · intro close
    have unit : len ∣ b + (range - range % len) := Nat.dvd_add right (Nat.dvd_sub_mod range)
    obtain ⟨i, rfl⟩ := left
    obtain ⟨j, shape⟩ := unit
    have bound : len * i < len * (j + 1) := by
      rw [Nat.mul_succ, ← shape]
      unfold nearbyReach at close
      omega
    have := Nat.mul_le_mul_left len (Nat.lt_succ_iff.mp (Nat.lt_of_mul_lt_mul_left bound))
    omega

theorem withinRange_iff (positive : 0 < len) {a b : Nat} (left : len ∣ a) (right : len ∣ b) :
    withinRange range a b ↔ nearSlide (nearbyReach range len) a b = true := by
  rw [withinRange, nearSlide_iff, le_add_range_iff positive left right,
    le_add_range_iff positive right left, and_comm]

end

/-! ### The neighbourhood -/

section
variable (t : Target) (tolerance range : Nat) (target : JJSearchValue) (type : SearchType)
  (region : ResultRegion) (lastNumberType : Int)

/-- The whole value at `p` lies inside the region and in the interval. -/
def nearbyMatch (p : Nat) : Prop :=
  type.len ∣ p ∧ p + type.len ≤ region.regionSize ∧
    type.scalar.searchValueMatches (t.bytesAt (region.regionBase + p) type.len)
      (target.lower type.len) (target.upper type.len) tolerance = true

def nearOld (p : Nat) : Prop := ∃ c ∈ region.slides, withinRange range p c

instance (range a b : Nat) : Decidable (withinRange range a b) :=
  inferInstanceAs (Decidable (_ ∧ _))

instance (p : Nat) : Decidable (nearbyMatch t tolerance target type region p) :=
  inferInstanceAs (Decidable (_ ∧ _ ∧ _))

instance (p : Nat) : Decidable (nearOld range region p) :=
  inferInstanceAs (Decidable (∃ c ∈ region.slides, withinRange range p c))

/-- The matches within range of an old result, and the old results within range of such a match,
with the types they are to have. -/
def neighbourhood (entry : Nat × Int) : Prop :=
  nearbyMatch t tolerance target type region entry.1 ∧ nearOld range region entry.1 ∧
      entry.1 ∉ region.slides ∧ entry.2 = type.code ∨
    entry ∈ region.typed lastNumberType ∧ ∃ m, nearbyMatch t tolerance target type region m ∧
      nearOld range region m ∧ withinRange range entry.1 m

structure NearbySettled : Prop where
  /-- A match keeps its offset as a `uint32_t`. -/
  narrow : ∀ m, nearbyMatch t tolerance target type region m → nearOld range region m → m < 2 ^ 32
  /-- The element at the lower end of a window is no match, or within range of another result. -/
  edge : ∀ c ∈ region.slides, nearbyReach range type.len ≤ c →
    nearbyMatch t tolerance target type region (c - nearbyReach range type.len) →
    nearOld range region (c - nearbyReach range type.len)
  /-- No old result that is a match of another type is within range of a match below it that is
  found around an old result out of its own range. -/
  retyped : ∀ old ∈ region.typed lastNumberType, old.2 ≠ type.code →
    nearbyMatch t tolerance target type region old.1 → ∀ m,
    nearbyMatch t tolerance target type region m → ∀ c ∈ region.slides, c < m → m < old.1 →
    withinRange range m c → withinRange range old.1 m → withinRange range old.1 c

end

section
variable {t : Target} {tolerance range : Nat} {target : JJSearchValue} {type : SearchType}
  {region : ResultRegion} {lastNumberType : Int} {buffer : Buffer}

theorem mem_windowMatches (loaded : t.loadRegion region.regionBase region.regionSize = some buffer)
    (whole : buffer.size = region.regionSize) (aligned : ∀ slide ∈ region.slides, type.len ∣ slide)
    {window : Nat × Nat}
    (member : window ∈ nearbyWindows (nearbyReach range type.len) region.regionSize 0
      region.slides) {m : Nat} :
    m ∈ windowMatches buffer target type tolerance window ↔
      window.1 ≤ m ∧ m < window.2 ∧ nearbyMatch t tolerance target type region m := by
  have positive := type.len_pos
  obtain ⟨c, listed, -, stop⟩ := nearbyWindows_shape member
  have start := nearbyWindows_aligned aligned (dvd_nearbyReach range type.len)
    (.inl (Nat.dvd_zero _)) window member
  have unit : type.len ∣ c + nearbyReach range type.len :=
    Nat.dvd_add (aligned c listed) (dvd_nearbyReach range type.len)
  have hit (fits : m + type.len ≤ region.regionSize) :
      scanForHit buffer target type tolerance m = true ↔
        type.scalar.searchValueMatches (t.bytesAt (region.regionBase + m) type.len)
          (target.lower type.len) (target.upper type.len) tolerance = true := by
    rw [scanForHit, Target.loadRegion_bytes loaded (whole ▸ fits)]
  rw [windowMatches, List.mem_filter, Stride.mem_positions positive]
  constructor
  · rintro ⟨⟨k, rfl, fits⟩, matched⟩
    have inside : window.1 + k * type.len + type.len ≤ region.regionSize := by omega
    rcases start with multiple | beyond
    · exact ⟨by omega, by omega, Nat.dvd_add multiple (Nat.dvd_mul_left _ _), inside,
        (hit inside).mp matched⟩
    · omega
  · rintro ⟨from', below, multiple, inside, matched⟩
    refine ⟨?_, (hit inside).mpr matched⟩
    rcases start with first | beyond
    · obtain ⟨k, gap⟩ := Nat.dvd_sub multiple first
      refine ⟨k, by rw [Nat.mul_comm, ← gap]; omega, ?_⟩
      obtain ⟨i, rfl⟩ := multiple
      obtain ⟨j, shape⟩ := unit
      have bound : type.len * i < type.len * j := by omega
      have := Nat.mul_le_mul_left type.len (Nat.succ_le_of_lt (Nat.lt_of_mul_lt_mul_left bound))
      rw [Nat.mul_succ] at this
      omega
    · omega

/-- What the proofs below take a region to be: readable in whole, with its results in order and each
on a multiple of the width. -/
structure Searchable (t : Target) (type : SearchType) (region : ResultRegion) (buffer : Buffer) :
    Prop where
  loaded : t.loadRegion region.regionBase region.regionSize = some buffer
  whole : buffer.size = region.regionSize
  sorted : region.slides.Pairwise (· < ·)
  aligned : ∀ slide ∈ region.slides, type.len ∣ slide

variable (tolerance range target region) in
def regionFounds (buffer : Buffer) (type : SearchType) : List (List Nat) :=
  (nearbyWindows (nearbyReach range type.len) region.regionSize 0 region.slides).map
    (windowMatches buffer target type tolerance)

theorem mem_regionFounds (given : Searchable t type region buffer) {m : Nat} :
    (∃ found ∈ regionFounds tolerance range target region buffer type, m ∈ found) ↔
      nearbyMatch t tolerance target type region m ∧
        ∃ c ∈ region.slides, c ≤ m + nearbyReach range type.len ∧
          m < c + nearbyReach range type.len := by
  have covered : (∃ window ∈ nearbyWindows (nearbyReach range type.len) region.regionSize 0
      region.slides, window.1 ≤ m ∧ m < window.2) ↔ _ :=
    mem_nearbyWindows given.sorted fun _ _ => Nat.zero_le _
  constructor
  · rintro ⟨found, listed, member⟩
    obtain ⟨window, inside, rfl⟩ := List.mem_map.mp listed
    obtain ⟨from', below, matched⟩ :=
      (mem_windowMatches given.loaded given.whole given.aligned inside).mp member
    exact ⟨matched, (covered.mp ⟨window, inside, from', below⟩).2.2⟩
  · rintro ⟨matched, close⟩
    have positive := type.len_pos
    obtain ⟨window, inside, from', below⟩ :=
      covered.mpr ⟨Nat.zero_le _, by have := matched.2.1; omega, close⟩
    exact ⟨_, List.mem_map_of_mem inside,
      (mem_windowMatches given.loaded given.whole given.aligned inside).mpr
        ⟨from', below, matched⟩⟩

theorem regionFounds_spread (given : Searchable t type region buffer) :
    Spread (nearbyReach range type.len)
      (regionFounds tolerance range target region buffer type) where
  sorted found listed := by
    obtain ⟨window, -, rfl⟩ := List.mem_map.mp listed
    exact windowMatches_sorted window
  short found listed a memberA b memberB := by
    obtain ⟨window, inside, rfl⟩ := List.mem_map.mp listed
    obtain ⟨c, -, low, high⟩ := nearbyWindows_shape inside
    have boundsA := windowMatches_bounds memberA
    have boundsB := windowMatches_bounds memberB
    omega
  apart := by
    refine List.pairwise_map.mpr ((nearbyWindows_apart given.sorted).imp ?_)
    intro earlier later before a memberA b memberB
    have boundsA := windowMatches_bounds memberA
    have boundsB := windowMatches_bounds memberB
    omega

/-- A match `m` is found by an earlier window than a match `s` exactly where some window ends
between the two. -/
theorem found_earlier (given : Searchable t type region buffer)
    {before after : List (List Nat)} {found : List Nat} {s m : Nat}
    (shape : regionFounds tolerance range target region buffer type = before ++ found :: after)
    (member : s ∈ found) :
    (∃ earlier ∈ before, m ∈ earlier) ↔
      (∃ other ∈ regionFounds tolerance range target region buffer type, m ∈ other) ∧
        ∃ c ∈ region.slides, m < c + nearbyReach range type.len ∧
          c + nearbyReach range type.len ≤ s := by
  obtain ⟨windows, others, split, rfl, tail⟩ := List.map_eq_append_iff.mp shape
  obtain ⟨window, rest, rfl, rfl, rfl⟩ := List.map_eq_cons_iff.mp tail
  have ordered : (nearbyWindows (nearbyReach range type.len) region.regionSize 0
      region.slides).Pairwise fun earlier later => earlier.2 ≤ later.1 :=
    nearbyWindows_apart given.sorted
  rw [split] at ordered
  obtain ⟨-, later, across⟩ := List.pairwise_append.mp ordered
  have bounds := windowMatches_bounds member
  have inside : window ∈ nearbyWindows (nearbyReach range type.len) region.regionSize 0
      region.slides := by
    rw [split]
    simp
  obtain ⟨own, -, -, stop⟩ := nearbyWindows_shape inside
  constructor
  · rintro ⟨earlier, listed, below⟩
    obtain ⟨first, at', rfl⟩ := List.mem_map.mp listed
    have there : first ∈ nearbyWindows (nearbyReach range type.len) region.regionSize 0
        region.slides := by
      rw [split]
      exact List.mem_append_left _ at'
    obtain ⟨c, old, -, final⟩ := nearbyWindows_shape there
    have gap : first.2 ≤ window.1 := across first at' window List.mem_cons_self
    have boundsM := windowMatches_bounds below
    refine ⟨⟨_, List.mem_map_of_mem there, below⟩, c, old, by omega, by omega⟩
  · rintro ⟨⟨other, listed, there⟩, c, old, low, high⟩
    have side := nearbyWindows_side given.sorted old window inside
    rw [shape] at listed
    rcases List.mem_append.mp listed with earlier | behind
    · exact ⟨other, earlier, there⟩
    · have start : window.1 ≤ m := by
        rcases List.mem_cons.mp behind with rfl | beyond
        · exact (windowMatches_bounds there).1
        · obtain ⟨last, at', rfl⟩ := List.mem_map.mp beyond
          have gap : window.2 ≤ last.1 := (List.pairwise_cons.mp later).1 last at'
          have boundsM := windowMatches_bounds there
          omega
      omega

theorem typed_code (typed : region.Typed lastNumberType) {old : Nat × Int}
    (listed : old ∈ region.typed lastNumberType) : ∃ known : SearchType, old.2 = known.code := by
  rcases ResultRegion.mem_typed_type typed.complete listed with ⟨untyped, fallback⟩ | member
  · exact fallback ▸ typed.fallback untyped
  · exact typed.known _ member

theorem nearbyRegion_typed (loaded : t.loadRegion region.regionBase region.regionSize = some buffer)
    (typed : region.Typed lastNumberType) :
    (nearbyRegion t tolerance lastNumberType range target type region).value.elim []
        (·.typed lastNumberType) =
      nearbyPicks buffer region target type tolerance (nearbyReach range type.len) lastNumberType
        region.slides 0 0 := by
  rw [nearbyRegion_value loaded]
  generalize listed : nearbyPicks buffer region target type tolerance
    (nearbyReach range type.len) lastNumberType region.slides 0 0 = picks
  cases grown : growAll region.regionBase region.regionSize (picks.map fun entry =>
      (entry.1, if region.hasTypes || type.code ≠ lastNumberType then entry.2 else 0)) with
  | none =>
      by_contra some
      rw [growAll_eq, if_neg fun empty => some (List.map_eq_nil_iff.mp empty).symm] at grown
      exact Option.some_ne_none _ grown
  | some built =>
      refine typed_of_growAll grown fun entry member => ?_
      rw [← listed] at member
      rcases mem_nearbyPicks member with ⟨-, -, -, code⟩ | ⟨old, kept, -, code⟩
      · refine ⟨code ▸ type.code_ne_zero, fun same => ?_⟩
        simp only [Bool.or_eq_false_iff, decide_eq_false_iff_not, not_not] at same
        exact code.trans same.2
      · obtain ⟨known, shape⟩ := typed_code typed kept
        rw [shape, int8_code] at code
        refine ⟨code ▸ known.code_ne_zero, fun same => ?_⟩
        simp only [Bool.or_eq_false_iff, ResultRegion.hasTypes, decide_eq_false_iff_not,
          not_not] at same
        rw [ResultRegion.typed_of_untyped same.1] at kept
        obtain ⟨slide, -, rfl⟩ := List.mem_map.mp kept
        exact code.symm.trans shape.symm

theorem typed_unique (sorted : region.slides.Pairwise (· < ·)) {a b : Nat × Int}
    (listedA : a ∈ region.typed lastNumberType) (listedB : b ∈ region.typed lastNumberType)
    (same : a.1 = b.1) : a = b := by
  refine List.inj_on_of_nodup_map ?_ listedA listedB same
  rw [ResultRegion.typed_map_fst]
  exact sorted.imp fun below => below.ne

theorem nearOld_iff (given : Searchable t type region buffer) {m : Nat}
    (multiple : type.len ∣ m) :
    nearOld range region m ↔ ∃ c ∈ region.slides,
      c < m + nearbyReach range type.len ∧ m < c + nearbyReach range type.len := by
  refine exists_congr fun c => and_congr_right fun listed => ?_
  rw [withinRange_iff type.len_pos multiple (given.aligned c listed), nearSlide_iff]

/-- Where the lower end of every window is settled, the windows find the matches that count. -/
theorem mem_regionFounds_of_edge (given : Searchable t type region buffer)
    (edge : ∀ c ∈ region.slides, nearbyReach range type.len ≤ c →
      nearbyMatch t tolerance target type region (c - nearbyReach range type.len) →
      nearOld range region (c - nearbyReach range type.len)) {m : Nat} :
    (∃ found ∈ regionFounds tolerance range target region buffer type, m ∈ found) ↔
      nearbyMatch t tolerance target type region m ∧ nearOld range region m := by
  rw [mem_regionFounds given]
  refine and_congr_right fun matched => ?_
  rw [nearOld_iff given matched.1]
  constructor
  · rintro ⟨c, listed, low, high⟩
    rcases low.lt_or_eq with inside | end'
    · exact ⟨c, listed, inside, high⟩
    · have there : c - nearbyReach range type.len = m := by omega
      exact (nearOld_iff given matched.1).mp (there ▸ edge c listed (by omega) (there ▸ matched))
  · rintro ⟨c, listed, low, high⟩
    exact ⟨c, listed, low.le, high⟩

/-- What a nearby search reports, once every match keeps its offset. -/
theorem mem_nearbyRegion (given : Searchable t type region buffer)
    (typed : region.Typed lastNumberType)
    (narrow : ∀ found ∈ regionFounds tolerance range target region buffer type, ∀ m ∈ found,
      m < 2 ^ 32) {entry : Nat × Int} :
    entry ∈ (nearbyRegion t tolerance lastNumberType range target type region).value.elim []
        (·.typed lastNumberType) ↔
      (entry ∈ region.typed lastNumberType ∧
          ∃ found ∈ regionFounds tolerance range target region buffer type, ∃ m ∈ found,
            nearSlide (nearbyReach range type.len) entry.1 m = true) ∨
        entry.2 = type.code ∧ ∃ before found after,
          regionFounds tolerance range target region buffer type = before ++ found :: after ∧
          entry.1 ∈ found ∧ (entry.1 ∈ region.slides →
            ∃ earlier ∈ before, ∃ m ∈ earlier,
              nearSlide (nearbyReach range type.len) entry.1 m = true) := by
  have founds : ((nearbyWindows (nearbyReach range type.len) region.regionSize 0
      region.slides).map fun window => (windowMatches buffer target type tolerance window).map u32) =
        regionFounds tolerance range target region buffer type :=
    List.map_congr_left fun window listed =>
      map_u32 (narrow _ (List.mem_map_of_mem listed))
  rw [nearbyRegion_typed given.loaded typed, nearbyPicks_eq, founds,
    mem_carryPicks given.sorted (regionFounds_spread given) (nearbyReach_pos range type.len_pos)]
  constructor
  · rintro (⟨o, old, -, listed, near, slide, code⟩ | ⟨code, before, found, after, shape, member, only⟩)
    · have kept := List.mem_of_getElem? listed
      obtain ⟨known, same⟩ := typed_code typed kept
      rw [same, int8_code, ← same] at code
      obtain rfl : old = entry := Prod.ext slide code
      exact .inl ⟨kept, near⟩
    · refine .inr ⟨code, before, found, after, shape, member, fun listed => ?_⟩
      obtain ⟨o, slide⟩ := List.mem_iff_getElem?.mp listed
      exact only o (Nat.zero_le _) slide
  · rintro (⟨listed, near⟩ | ⟨code, before, found, after, shape, member, only⟩)
    · obtain ⟨o, at'⟩ := List.mem_iff_getElem?.mp listed
      obtain ⟨known, same⟩ := typed_code typed listed
      exact .inl ⟨o, entry, Nat.zero_le _, at', near, rfl, by rw [same, int8_code]⟩
    · exact .inr ⟨code, before, found, after, shape, member, fun o _ slide =>
        only (List.mem_of_getElem? slide)⟩

/-- An old result that an earlier window carries over lies above the end of that window. -/
theorem carried_earlier (given : Searchable t type region buffer)
    {before after : List (List Nat)} {found : List Nat} {s : Nat}
    (shape : regionFounds tolerance range target region buffer type = before ++ found :: after)
    (member : s ∈ found) :
    (∃ earlier ∈ before, ∃ m ∈ earlier, nearSlide (nearbyReach range type.len) s m = true) ↔
      ∃ m, (∃ other ∈ regionFounds tolerance range target region buffer type, m ∈ other) ∧
        nearSlide (nearbyReach range type.len) s m = true ∧
        ∃ c ∈ region.slides, m < c + nearbyReach range type.len ∧
          c + nearbyReach range type.len ≤ s := by
  constructor
  · rintro ⟨earlier, listed, m, inside, near⟩
    obtain ⟨found', ends⟩ := (found_earlier given shape member).mp ⟨earlier, listed, inside⟩
    exact ⟨m, found', near, ends⟩
  · rintro ⟨m, found', near, ends⟩
    obtain ⟨earlier, listed, inside⟩ := (found_earlier given shape member).mpr ⟨found', ends⟩
    exact ⟨earlier, listed, m, inside, near⟩

theorem exists_split {founds : List (List Nat)} {s : Nat} (found : ∃ found ∈ founds, s ∈ found) :
    ∃ before found after, founds = before ++ found :: after ∧ s ∈ found := by
  obtain ⟨found, listed, member⟩ := found
  obtain ⟨before, after, shape⟩ := List.append_of_mem listed
  exact ⟨before, found, after, shape, member⟩

theorem neighbourhood_of_settled (given : Searchable t type region buffer)
    (typed : region.Typed lastNumberType)
    (settled : NearbySettled t tolerance range target type region lastNumberType)
    (entry : Nat × Int) :
    entry ∈ (nearbyRegion t tolerance lastNumberType range target type region).value.elim []
        (·.typed lastNumberType) ↔
      neighbourhood t tolerance range target type region lastNumberType entry := by
  have founds {m : Nat} := mem_regionFounds_of_edge (m := m) given settled.edge
  have narrow : ∀ found ∈ regionFounds tolerance range target region buffer type, ∀ m ∈ found,
      m < 2 ^ 32 := by
    intro found listed m member
    obtain ⟨matched, near⟩ := founds.mp ⟨found, listed, member⟩
    exact settled.narrow m matched near
  have close {s m : Nat} (multiple : type.len ∣ s)
      (matched : nearbyMatch t tolerance target type region m) :
      withinRange range s m ↔ nearSlide (nearbyReach range type.len) s m = true :=
    withinRange_iff type.len_pos multiple matched.1
  rw [mem_nearbyRegion given typed narrow]
  constructor
  · rintro (⟨listed, found, inside, m, member, near⟩ |
      ⟨code, before, found, after, shape, member, only⟩)
    · obtain ⟨matched, old⟩ := founds.mp ⟨found, inside, member⟩
      have multiple := given.aligned _ (ResultRegion.mem_typed_slide listed)
      exact .inr ⟨listed, m, matched, old, (close multiple matched).mpr near⟩
    · obtain ⟨matched, old⟩ := founds.mp ⟨found, by rw [shape]; simp, member⟩
      by_cases listed : entry.1 ∈ region.slides
      · obtain ⟨o, slide⟩ := List.mem_iff_getElem?.mp listed
        obtain ⟨oldtype, at'⟩ := exists_typed_getElem? lastNumberType slide
        have kept := List.mem_of_getElem? at'
        by_cases same : oldtype = type.code
        · have here : entry = (entry.1, oldtype) := Prod.ext rfl (code.trans same.symm)
          refine .inr ⟨here ▸ kept, entry.1, matched, old, ?_⟩
          exact ⟨Nat.le_add_right _ _, Nat.le_add_right _ _⟩
        · obtain ⟨m, other, near, c, base, low, high⟩ :=
            (carried_earlier given shape member).mp (only listed)
          obtain ⟨matchedM, -⟩ := founds.mp other
          have multipleC := given.aligned c base
          rw [nearSlide_iff] at near
          have nearC : withinRange range m c :=
            (withinRange_iff type.len_pos matchedM.1 multipleC).mpr (nearSlide_iff.mpr (by omega))
          have apart := settled.retyped _ kept same matched m matchedM c base (by omega) (by omega)
            nearC ((close matched.1 matchedM).mpr (nearSlide_iff.mpr near))
          rw [withinRange_iff type.len_pos matched.1 multipleC, nearSlide_iff] at apart
          omega
      · exact .inl ⟨matched, old, listed, code⟩
  · rintro (⟨matched, old, fresh, code⟩ | ⟨listed, m, matched, old, near⟩)
    · obtain ⟨before, found, after, shape, member⟩ := exists_split (founds.mpr ⟨matched, old⟩)
      exact .inr ⟨code, before, found, after, shape, member, fun listed => absurd listed fresh⟩
    · have multiple := given.aligned _ (ResultRegion.mem_typed_slide listed)
      obtain ⟨found, inside, member⟩ := founds.mpr ⟨matched, old⟩
      exact .inl ⟨listed, found, inside, m, member, (close multiple matched).mp near⟩

theorem settled_of_neighbourhood (given : Searchable t type region buffer)
    (typed : region.Typed lastNumberType) (offsets : ∀ slide ∈ region.slides, slide < 2 ^ 32)
    (exact' : ∀ entry : Nat × Int,
      entry ∈ (nearbyRegion t tolerance lastNumberType range target type region).value.elim []
          (·.typed lastNumberType) ↔
        neighbourhood t tolerance range target type region lastNumberType entry) :
    NearbySettled t tolerance range target type region lastNumberType := by
  have near_narrow : ∀ m, nearbyMatch t tolerance target type region m →
      nearOld range region m → m < 2 ^ 32 := by
    intro m matched old
    by_cases listed : m ∈ region.slides
    · exact offsets m listed
    · have kept := (exact' (m, type.code)).mpr (.inl ⟨matched, old, listed, rfl⟩)
      rw [nearbyRegion_typed given.loaded typed] at kept
      rcases mem_nearbyPicks kept with ⟨-, -, narrow, -⟩ | ⟨old, kept, slide, -⟩
      · exact narrow
      · have bound := offsets _ (ResultRegion.mem_typed_slide kept)
        rwa [slide] at bound
  have narrow : ∀ found ∈ regionFounds tolerance range target region buffer type, ∀ m ∈ found,
      m < 2 ^ 32 := by
    intro found listed m member
    obtain ⟨matched, c, old, low, high⟩ := (mem_regionFounds given).mp ⟨found, listed, member⟩
    rcases low.lt_or_eq with inside | end'
    · exact near_narrow m matched ((nearOld_iff given matched.1).mpr ⟨c, old, inside, high⟩)
    · have := offsets c old
      omega
  have reported {m : Nat} (found : ∃ found ∈ regionFounds tolerance range target region buffer type,
      m ∈ found) (fresh : ∀ before found after, regionFounds tolerance range target region buffer
        type = before ++ found :: after → m ∈ found → m ∈ region.slides →
        ∃ earlier ∈ before, ∃ m' ∈ earlier,
          nearSlide (nearbyReach range type.len) m m' = true) :
      neighbourhood t tolerance range target type region lastNumberType (m, type.code) := by
    obtain ⟨before, found, after, shape, member⟩ := exists_split found
    exact (exact' _).mp ((mem_nearbyRegion given typed narrow).mpr
      (.inr ⟨rfl, before, found, after, shape, member, fresh before found after shape member⟩))
  refine ⟨near_narrow, fun c old reach matched => ?_, ?_⟩
  · by_contra far
    have absent : c - nearbyReach range type.len ∉ region.slides := fun listed =>
      far ⟨_, listed, Nat.le_add_right _ _, Nat.le_add_right _ _⟩
    have positive := nearbyReach_pos range type.len_pos
    have found : ∃ found ∈ regionFounds tolerance range target region buffer type,
        c - nearbyReach range type.len ∈ found :=
      (mem_regionFounds given).mpr ⟨matched, c, old, by omega, by omega⟩
    rcases reported found fun _ _ _ _ _ listed => absurd listed absent with
      ⟨-, old, -⟩ | ⟨listed, -⟩
    · exact far old
    · exact absent (ResultRegion.mem_typed_slide listed)
  · intro old kept retype matched m matchedM c base below above nearC nearM
    by_contra far
    have multipleC := given.aligned c base
    rw [withinRange_iff type.len_pos matchedM.1 multipleC, nearSlide_iff] at nearC
    rw [withinRange_iff type.len_pos matched.1 matchedM.1, nearSlide_iff] at nearM
    rw [withinRange_iff type.len_pos matched.1 multipleC, nearSlide_iff] at far
    have listed := ResultRegion.mem_typed_slide kept
    have foundM : ∃ found ∈ regionFounds tolerance range target region buffer type, m ∈ found :=
      (mem_regionFounds given).mpr ⟨matchedM, c, base, by omega, by omega⟩
    have positive := nearbyReach_pos range type.len_pos
    have found : ∃ found ∈ regionFounds tolerance range target region buffer type,
        old.1 ∈ found :=
      (mem_regionFounds given).mpr ⟨matched, old.1, listed, by omega, by omega⟩
    rcases reported found fun before found after shape member _ =>
        (carried_earlier given shape member).mpr
          ⟨m, foundM, nearSlide_iff.mpr nearM, c, base, by omega, by omega⟩ with
      ⟨-, -, fresh, -⟩ | ⟨kept', -⟩
    · exact fresh listed
    · have same := typed_unique given.sorted kept kept' rfl
      exact retype (by rw [same])

/-- A nearby search reports the neighbourhood of the old results exactly where it is settled. -/
theorem nearbySearch_exact_iff
    (whole : t.loadedSize region.regionBase region.regionSize = region.regionSize)
    (sorted : region.slides.Pairwise (· < ·))
    (aligned : ∀ slide ∈ region.slides, type.len ∣ slide)
    (offsets : ∀ slide ∈ region.slides, slide < 2 ^ 32)
    (typed : region.Typed lastNumberType) :
    (∀ entry : Nat × Int,
      entry ∈ (nearbyRegion t tolerance lastNumberType range target type region).value.elim []
          (·.typed lastNumberType) ↔
        neighbourhood t tolerance range target type region lastNumberType entry) ↔
      NearbySettled t tolerance range target type region lastNumberType := by
  cases loaded : t.loadRegion region.regionBase region.regionSize with
  | some buffer =>
      have given : Searchable t type region buffer :=
        ⟨loaded, by rw [← Target.loadedSize_of_some loaded, whole], sorted, aligned⟩
      exact ⟨settled_of_neighbourhood given typed offsets, neighbourhood_of_settled given typed⟩
  | none =>
      have empty : region.regionSize = 0 := by
        rw [← whole, Target.loadedSize, loaded]
      have unmatched (m : Nat) : ¬ nearbyMatch t tolerance target type region m := by
        intro matched
        have := matched.2.1
        have := type.len_pos
        omega
      constructor
      · intro _
        exact ⟨fun m matched => absurd matched (unmatched m),
          fun c _ _ matched => absurd matched (unmatched _),
          fun old _ _ matched => absurd matched (unmatched _)⟩
      · intro _ entry
        rw [nearbyRegion, loaded]
        constructor
        · intro member
          exact absurd member List.not_mem_nil
        · rintro (⟨matched, -⟩ | ⟨-, m, matched, -⟩) <;> exact absurd matched (unmatched _)

end

/-- Sixteen readable bytes, of which the ones at these offsets are 1. -/
def markedTarget (marks : List Nat) : Target :=
  .ofMemory 16 (by decide) (fun a => if a - 0x100000000 ∈ marks then 1 else 0) (fun _ => true)
    { entries := [(0x100000000, 16)], ascending := by simp, bounded := by decide }

def markedRegion : ResultRegion := ⟨0x100000000, 16, [8], []⟩

def markedTwice : ResultRegion := ⟨0x100000000, 16, [4, 12], []⟩

/-- The bytes near the two old results are reported, the one between them is not. -/
theorem nearbySearch_exact_marked :
    ((3, SearchType.uByte.code) ∈ (nearbyRegion (markedTarget [3, 8, 13]) 0 SearchType.uByte.code 2
        (byteValue 1) .uByte markedTwice).value.elim [] (·.typed SearchType.uByte.code) ↔
      neighbourhood (markedTarget [3, 8, 13]) 0 2 (byteValue 1) .uByte markedTwice
        SearchType.uByte.code (3, SearchType.uByte.code)) ∧
    ((8, SearchType.uByte.code) ∈ (nearbyRegion (markedTarget [3, 8, 13]) 0 SearchType.uByte.code 2
        (byteValue 1) .uByte markedTwice).value.elim [] (·.typed SearchType.uByte.code) ↔
      neighbourhood (markedTarget [3, 8, 13]) 0 2 (byteValue 1) .uByte markedTwice
        SearchType.uByte.code (8, SearchType.uByte.code)) := by
  have settled : NearbySettled (markedTarget [3, 8, 13]) 0 2 (byteValue 1) .uByte markedTwice
      SearchType.uByte.code := by
    refine ⟨?_, by decide, ?_⟩
    · intro m matched _
      have inside : m + 1 ≤ 16 := matched.2.1
      omega
    · intro old listed other
      have untyped : old.2 = SearchType.uByte.code :=
        (by decide : ∀ old ∈ markedTwice.typed SearchType.uByte.code, old.2 = SearchType.uByte.code)
          old listed
      exact absurd untyped other
  have exact' := (nearbySearch_exact_iff (Target.loadedSize_ofMemory _ _) (by decide) (by decide)
    (by decide) ⟨rfl, by simp [markedTwice], fun _ => ⟨_, rfl⟩⟩).mpr settled
  exact ⟨exact' _, exact' _⟩

/-- The byte three below the old result is reported in a range of two. -/
theorem nearbySearch_not_exact : ¬ ∀ entry : Nat × Int,
    entry ∈ (nearbyRegion (markedTarget [5]) 0 SearchType.uByte.code 2 (byteValue 1) .uByte
        markedRegion).value.elim [] (·.typed SearchType.uByte.code) ↔
      neighbourhood (markedTarget [5]) 0 2 (byteValue 1) .uByte markedRegion
        SearchType.uByte.code entry := by
  intro every
  have reported : (5, SearchType.uByte.code) ∈ (nearbyRegion (markedTarget [5]) 0
      SearchType.uByte.code 2 (byteValue 1) .uByte markedRegion).value.elim []
        (·.typed SearchType.uByte.code) := by decide +kernel
  rcases (every _).mp reported with ⟨-, near, -⟩ | ⟨listed, -⟩
  · exact absurd near (by decide)
  · exact absurd listed (by decide)

end H5GG

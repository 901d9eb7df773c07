import Mathlib.Data.List.TakeWhile
import Mathlib.Tactic.SplitIfs

namespace Stride

def positions (width start stop : Nat) : List Nat :=
  (List.range ((stop - start) / width)).map fun k => start + k * width

/-- First element from `cur` on that `hit` accepts, with the elements looked at on the way. -/
def find (hit : Nat → Bool) (width stop : Nat) : Nat → Nat → Option Nat × List Nat
  | 0, _ => (none, [])
  | fuel + 1, cur =>
      if cur + width ≤ stop then
        if hit cur then (some cur, [cur])
        else
          let rest := find hit width stop fuel (cur + width)
          (rest.1, cur :: rest.2)
      else (none, [])

/-- Restart `find` behind every element it reports, until one fails `keep`. -/
def collect (hit keep : Nat → Bool) (width stop : Nat) : Nat → Nat → List Nat × List Nat
  | 0, _ => ([], [])
  | fuel + 1, cur =>
      if cur + width ≤ stop then
        let scan := find hit width stop stop cur
        match scan.1 with
        | none => ([], scan.2)
        | some found =>
            if keep found then
              let rest := collect hit keep width stop fuel (found + width)
              (found :: rest.1, scan.2 ++ rest.2)
            else ([], scan.2)
      else ([], [])

theorem positions_of_lt {width start stop : Nat} (positive : 0 < width)
    (short : stop < start + width) : positions width start stop = [] := by
  have : (stop - start) / width = 0 := Nat.div_eq_of_lt (by omega)
  simp [positions, this]

theorem positions_cons {width start stop : Nat} (positive : 0 < width)
    (fits : start + width ≤ stop) :
    positions width start stop = start :: positions width (start + width) stop := by
  have count : (stop - start) / width = (stop - (start + width)) / width + 1 := by
    rw [show stop - start = stop - (start + width) + width by omega,
      Nat.add_div_right _ positive]
  simp only [positions, count, List.range_succ_eq_map, List.map_cons, List.map_map, Nat.zero_mul,
    Nat.add_zero]
  congr 1
  apply List.map_congr_left
  intro k _
  simp only [Function.comp_apply, Nat.succ_mul]
  omega

theorem mem_positions {width start stop p : Nat} (positive : 0 < width) :
    p ∈ positions width start stop ↔ ∃ k, p = start + k * width ∧ p + width ≤ stop := by
  simp only [positions, List.mem_map, List.mem_range]
  constructor
  · rintro ⟨k, bound, rfl⟩
    have := (Nat.le_div_iff_mul_le positive).mp (Nat.succ_le_of_lt bound)
    refine ⟨k, rfl, ?_⟩
    rw [Nat.succ_mul] at this
    omega
  · rintro ⟨k, rfl, fits⟩
    refine ⟨k, Nat.lt_of_succ_le ((Nat.le_div_iff_mul_le positive).mpr ?_), rfl⟩
    rw [Nat.succ_mul]
    omega

theorem positions_bounds {width start stop p : Nat} (positive : 0 < width)
    (member : p ∈ positions width start stop) : start ≤ p ∧ p + width ≤ stop := by
  obtain ⟨k, rfl, fits⟩ := (mem_positions positive).mp member
  exact ⟨Nat.le_add_right _ _, fits⟩

theorem positions_sorted {width : Nat} (positive : 0 < width) (start stop : Nat) :
    (positions width start stop).Pairwise (· < ·) := by
  refine List.pairwise_map.mpr (List.pairwise_lt_range.imp ?_)
  intro i j below
  exact Nat.add_lt_add_left (Nat.mul_lt_mul_of_pos_right below positive) start

theorem positions_end {width start stop limit : Nat} (positive : 0 < width) :
    (∀ p ∈ positions width start stop, p + width ≤ limit) ↔
      (start + width ≤ stop → start + (stop - start) / width * width ≤ limit) := by
  constructor
  · intro every fits
    have count : 1 ≤ (stop - start) / width := (Nat.one_le_div_iff positive).mpr (by omega)
    have within := Nat.div_mul_le_self (stop - start) width
    obtain ⟨last, shape⟩ := Nat.exists_eq_add_of_le' count
    rw [shape, Nat.succ_mul] at within
    have bound := every (start + last * width) ((mem_positions positive).mpr ⟨last, rfl, by omega⟩)
    rw [shape, Nat.succ_mul]
    omega
  · intro last p member
    obtain ⟨k, rfl, fits⟩ := (mem_positions positive).mp member
    have within : k + 1 ≤ (stop - start) / width := by
      rw [Nat.le_div_iff_mul_le positive, Nat.succ_mul]
      omega
    have := Nat.mul_le_mul_right width within
    rw [Nat.succ_mul] at this
    have := last (by have := Nat.zero_le (k * width); omega)
    omega

section
variable {hit keep : Nat → Bool} {width stop : Nat}

theorem find_fst (positive : 0 < width) {fuel cur : Nat} (enough : stop ≤ fuel + cur) :
    (find hit width stop fuel cur).1 = (positions width cur stop).find? hit := by
  induction fuel generalizing cur with
  | zero => simp [find, positions_of_lt positive (show stop < cur + width by omega)]
  | succ fuel ih =>
      by_cases fits : cur + width ≤ stop
      · rw [find, if_pos fits, positions_cons positive fits]
        by_cases accepted : hit cur = true
        · simp [accepted]
        · simp [accepted, ih (show stop ≤ fuel + (cur + width) by omega)]
      · rw [find, if_neg fits, positions_of_lt positive (by omega)]
        rfl

theorem find_snd_subset (positive : 0 < width) {fuel cur : Nat} :
    ∀ p ∈ (find hit width stop fuel cur).2, p ∈ positions width cur stop := by
  induction fuel generalizing cur with
  | zero => simp [find]
  | succ fuel ih =>
      by_cases fits : cur + width ≤ stop
      · rw [find, if_pos fits, positions_cons positive fits]
        intro p member
        by_cases accepted : hit cur = true
        · simp_all
        · simp only [accepted, Bool.false_eq_true, ↓reduceIte, List.mem_cons] at member ⊢
          exact member.imp_right (ih p)
      · simp [find, fits]

theorem positions_split (positive : 0 < width) {fuel cur found : Nat}
    (enough : stop ≤ fuel + cur) (scan : (find hit width stop fuel cur).1 = some found) :
    positions width cur stop =
        (find hit width stop fuel cur).2 ++ positions width (found + width) stop ∧
      (find hit width stop fuel cur).2.filter hit = [found] ∧
      cur ≤ found ∧ found + width ≤ stop := by
  induction fuel generalizing cur with
  | zero => simp [find] at scan
  | succ fuel ih =>
      by_cases fits : cur + width ≤ stop
      · rw [find, if_pos fits] at scan ⊢
        rw [positions_cons positive fits]
        by_cases accepted : hit cur = true
        · simp only [accepted, ↓reduceIte, Option.some.injEq] at scan ⊢
          subst scan
          simp [accepted, fits]
        · simp only [accepted, Bool.false_eq_true, ↓reduceIte] at scan ⊢
          obtain ⟨split, only, below, inside⟩ := ih (by omega) scan
          exact ⟨by rw [split]; rfl, by simp [accepted, only], by omega, inside⟩
      · simp [find, fits] at scan

theorem find_none_snd (positive : 0 < width) {fuel cur : Nat} (enough : stop ≤ fuel + cur)
    (scan : (find hit width stop fuel cur).1 = none) :
    (find hit width stop fuel cur).2 = positions width cur stop := by
  induction fuel generalizing cur with
  | zero => simp [find, positions_of_lt positive (show stop < cur + width by omega)]
  | succ fuel ih =>
      by_cases fits : cur + width ≤ stop
      · rw [find, if_pos fits] at scan ⊢
        rw [positions_cons positive fits]
        by_cases accepted : hit cur = true
        · simp [accepted] at scan
        · simp only [accepted, Bool.false_eq_true, ↓reduceIte] at scan ⊢
          rw [ih (by omega) scan]
      · rw [find, if_neg fits, positions_of_lt positive (by omega)]

/-- Restarting behind every hit misses none: the reports are the hits, in order. -/
theorem collect_fst (positive : 0 < width) {fuel cur : Nat} (enough : stop ≤ fuel + cur) :
    (collect hit keep width stop fuel cur).1 =
      ((positions width cur stop).filter hit).takeWhile keep := by
  induction fuel generalizing cur with
  | zero => simp [collect, positions_of_lt positive (show stop < cur + width by omega)]
  | succ fuel ih =>
      by_cases fits : cur + width ≤ stop
      · rw [collect, if_pos fits]
        cases scan : (find hit width stop stop cur).1 with
        | none =>
            have missed := scan
            rw [find_fst positive (by omega), List.find?_eq_none] at missed
            have empty : (positions width cur stop).filter hit = [] := by
              simpa [List.filter_eq_nil_iff] using missed
            simp [scan, empty]
        | some found =>
            obtain ⟨split, only, below, -⟩ := positions_split positive (by omega) scan
            have shape : (positions width cur stop).filter hit =
                found :: (positions width (found + width) stop).filter hit := by
              rw [split, List.filter_append, only]
              rfl
            simp only [scan, shape, List.takeWhile_cons]
            split_ifs
            · rw [ih (show stop ≤ fuel + (found + width) by omega)]
            · rfl
      · rw [collect, if_neg fits, positions_of_lt positive (by omega)]
        rfl

theorem collect_snd_subset (positive : 0 < width) {fuel cur : Nat} :
    ∀ p ∈ (collect hit keep width stop fuel cur).2, p ∈ positions width cur stop := by
  induction fuel generalizing cur with
  | zero => simp [collect]
  | succ fuel ih =>
      by_cases fits : cur + width ≤ stop
      · intro p member
        rw [collect, if_pos fits] at member
        cases scan : (find hit width stop stop cur).1 with
        | none =>
            simp only [scan] at member
            exact find_snd_subset positive p member
        | some found =>
            obtain ⟨split, -, below, -⟩ := positions_split positive (by omega) scan
            simp only [scan] at member
            split_ifs at member
            · rw [split, List.mem_append]
              exact (List.mem_append.mp member).imp_right (ih p)
            · exact find_snd_subset positive p member
      · simp [collect, fits]

theorem collect_fst_of_keep (positive : 0 < width) (endless : ∀ p, keep p = true)
    {fuel cur : Nat} (enough : stop ≤ fuel + cur) :
    (collect hit keep width stop fuel cur).1 = (positions width cur stop).filter hit := by
  rw [collect_fst positive enough, List.takeWhile_eq_self_iff]
  exact fun p _ => endless p

theorem collect_snd_of_keep (positive : 0 < width) (endless : ∀ p, keep p = true)
    {fuel cur : Nat} (enough : stop ≤ fuel + cur) :
    (collect hit keep width stop fuel cur).2 = positions width cur stop := by
  induction fuel generalizing cur with
  | zero => simp [collect, positions_of_lt positive (show stop < cur + width by omega)]
  | succ fuel ih =>
      by_cases fits : cur + width ≤ stop
      · rw [collect, if_pos fits]
        cases scan : (find hit width stop stop cur).1 with
        | none => simpa only [scan] using find_none_snd positive (by omega) scan
        | some found =>
            obtain ⟨split, -, below, -⟩ := positions_split positive (by omega) scan
            simp only [scan, endless, ↓reduceIte]
            rw [ih (show stop ≤ fuel + (found + width) by omega), ← split]
      · rw [collect, if_neg fits, positions_of_lt positive (by omega)]

end

end Stride

import Mathlib.Algebra.GroupWithZero.Nat
import Mathlib.Data.Nat.Log

/-!
# Decimal texts

The bytes that `printf` writes for `%u`, `%f` and `%g`, in the C locale. A number with a fraction
is the ratio of two naturals, so that only the rounding to the digits shown is not exact.
-/

namespace Decimal

def digits (n : Nat) : List UInt8 := (Nat.toDigits 10 n).map fun c => UInt8.ofNat c.toNat

/-- The last `places` digits of `n`, its leading zeros among them. -/
def lastDigits : Nat → Nat → List UInt8
  | 0, _ => []
  | places + 1, n => lastDigits places (n / 10) ++ [UInt8.ofNat (0x30 + n % 10)]

/-- `numerator / denominator` to the nearest integer, ties to even. -/
def nearest (numerator denominator : Nat) : Nat :=
  let quotient := numerator / denominator
  let remainder := numerator % denominator
  let up := denominator < 2 * remainder || (denominator = 2 * remainder && quotient % 2 = 1)
  if up then quotient + 1 else quotient

/-- `n / 10 ^ places`, with every digit behind the point. -/
def pointed (places n : Nat) : List UInt8 :=
  digits (n / 10 ^ places) ++ if places = 0 then [] else 0x2E :: lastDigits places n

/-- `%f` of a ratio that is not negative. -/
def fixed (places numerator denominator : Nat) : List UInt8 :=
  pointed places (nearest (numerator * 10 ^ places) denominator)

/-- The `x` with `10 ^ x ≤ numerator / denominator < 10 ^ (x + 1)`. -/
def magnitude (numerator denominator : Nat) : Int :=
  if denominator ≤ numerator then Nat.log 10 (numerator / denominator)
  else -Nat.clog 10 ((denominator + numerator - 1) / numerator)

/-- The digits and the exponent of `%e`, which a carry out of the first digit raises. -/
def scientific (places numerator denominator : Nat) : Nat × Int :=
  if numerator = 0 then (0, 0)
  else
    let x := magnitude numerator denominator
    let rounded :=
      nearest (numerator * 10 ^ (places - x).toNat) (denominator * 10 ^ (x - places).toNat)
    if rounded = 10 ^ (places + 1) then (10 ^ places, x + 1) else (rounded, x)

/-- What `%g` leaves of a text: no zeros at the end of a fraction and no point without one. -/
def trimmed (text : List UInt8) : List UInt8 :=
  if 0x2E ∈ text then
    let kept := text.reverse.dropWhile (· = 0x30)
    (if kept.head? = some 0x2E then kept.tail else kept).reverse
  else text

def exponentText (x : Int) : List UInt8 :=
  0x65 :: (if x < 0 then 0x2D else 0x2B) ::
    if x.natAbs < 10 then 0x30 :: digits x.natAbs else digits x.natAbs

/-- `%g` of a ratio that is not negative, with `places + 1` significant digits. -/
def general (places numerator denominator : Nat) : List UInt8 :=
  let (rounded, x) := scientific places numerator denominator
  if -4 ≤ x && x ≤ places then trimmed (fixed (places - x).toNat numerator denominator)
  else trimmed (pointed places rounded) ++ exponentText x

/-! ## Digits -/

theorem mem_toDigits {base n : Nat} (many : 1 < base) {c : Char} (member : c ∈ Nat.toDigits base n) :
    ∃ d < base, c = d.digitChar := by
  induction n using Nat.strong_induction_on with
  | _ n ih =>
      rw [Nat.toDigits_eq_if many] at member
      split at member
      next small => exact ⟨n, small, List.mem_singleton.mp member⟩
      next large =>
        rcases List.mem_append.mp member with head | last
        · exact ih (n / base) (Nat.div_lt_self (by omega) many) head
        · exact ⟨n % base, Nat.mod_lt n (by omega), List.mem_singleton.mp last⟩

theorem foldl_toDigits {base : Nat} (many : 1 < base) {read : Char → Nat}
    (reads : ∀ d < base, read d.digitChar = d) (n : Nat) :
    (Nat.toDigits base n).foldl (fun value c => value * base + read c) 0 = n := by
  induction n using Nat.strong_induction_on with
  | _ n ih =>
      rw [Nat.toDigits_eq_if many]
      split
      next small => simp [reads n small]
      next large =>
        rw [List.foldl_append, ih (n / base) (Nat.div_lt_self (by omega) many), List.foldl_cons,
          List.foldl_nil, reads _ (Nat.mod_lt n (by omega)), Nat.mul_comm]
        exact Nat.div_add_mod n base

theorem mem_digits {n : Nat} {c : UInt8} (member : c ∈ digits n) : 0x30 ≤ c ∧ c ≤ 0x39 := by
  obtain ⟨char, inside, rfl⟩ := List.mem_map.mp member
  obtain ⟨d, below, rfl⟩ := mem_toDigits (by decide) inside
  have all : ∀ d : Fin 10, 0x30 ≤ UInt8.ofNat (Nat.digitChar d).toNat ∧
      UInt8.ofNat (Nat.digitChar d).toNat ≤ 0x39 := by decide
  exact all ⟨d, below⟩

theorem digits_ne_nil (n : Nat) : digits n ≠ [] := by
  rw [digits, ne_eq, List.map_eq_nil_iff]
  exact Nat.toDigits_ne_nil

theorem digits_length_le_iff {n k : Nat} (positive : 0 < k) : (digits n).length ≤ k ↔ n < 10 ^ k := by
  rw [digits, List.length_map]
  exact Nat.length_toDigits_le_iff (by decide) positive

theorem lastDigits_length (places n : Nat) : (lastDigits places n).length = places := by
  induction places generalizing n with
  | zero => rfl
  | succ places ih => rw [lastDigits, List.length_append, ih, List.length_singleton]

theorem pointed_length (places n : Nat) :
    (pointed places n).length =
      (digits (n / 10 ^ places)).length + if places = 0 then 0 else places + 1 := by
  rw [pointed, List.length_append]
  split
  · rfl
  · rw [List.length_cons, lastDigits_length]

/-! ## Rounding -/

section
variable {numerator denominator : Nat}

theorem nearest_le {bound : Nat} (below : numerator < bound * denominator) :
    nearest numerator denominator ≤ bound := by
  have positive : 0 < denominator := Nat.pos_of_mul_pos_left (Nat.zero_lt_of_lt below)
  have quotient := (Nat.div_lt_iff_lt_mul positive).mpr below
  unfold nearest
  dsimp only
  split <;> omega

theorem nearest_mul (positive : 0 < denominator) (n : Nat) :
    nearest (n * denominator) denominator = n := by
  unfold nearest
  rw [Nat.mul_mod_left, Nat.mul_div_cancel n positive]
  simp [Nat.pos_iff_ne_zero.mp positive]

/-! ## `%f` -/

theorem fixed_length (places : Nat) :
    (fixed places numerator denominator).length =
      (digits (nearest (numerator * 10 ^ places) denominator / 10 ^ places)).length +
        if places = 0 then 0 else places + 1 :=
  pointed_length places _

/-- The integer before the point, of an integer or of a ratio well below the bound. -/
theorem whole_lt_iff (places : Nat) {bound small : Nat} (positive : 0 < denominator)
    (exact : denominator ∣ numerator ∨ numerator < small * denominator) (room : small < bound) :
    nearest (numerator * 10 ^ places) denominator / 10 ^ places < bound ↔
      numerator < bound * denominator := by
  have scale : 0 < 10 ^ places := Nat.pow_pos (by decide)
  cases exact with
  | inl divides =>
      obtain ⟨n, rfl⟩ := divides
      rw [Nat.mul_comm denominator n, Nat.mul_right_comm, nearest_mul positive,
        Nat.mul_div_cancel n scale, Nat.mul_lt_mul_right positive]
  | inr below =>
      have rounded : nearest (numerator * 10 ^ places) denominator ≤ 10 ^ places * small := by
        apply nearest_le
        rw [Nat.mul_comm numerator, Nat.mul_assoc]
        exact Nat.mul_lt_mul_of_pos_left below scale
      have whole := Nat.div_le_of_le_mul rounded
      exact iff_of_true (whole.trans_lt room)
        (below.trans_le (Nat.mul_le_mul_right denominator room.le))

/-! ## `%g` -/

theorem magnitude_small (some' : 0 < numerator) (small : numerator < denominator) {bound : Nat}
    (limit : denominator ≤ 10 ^ bound) :
    ∃ k ≤ bound, magnitude numerator denominator = -k ∧ numerator * 10 ^ k < 10 * denominator := by
  obtain ⟨ceiling, known⟩ : ∃ c, c = (denominator + numerator - 1) / numerator := ⟨_, rfl⟩
  have under : numerator * ceiling < denominator + numerator := by
    have := Nat.mul_div_le (denominator + numerator - 1) numerator
    rw [known]
    omega
  have above : 1 < ceiling := by
    rw [known, ← Nat.succ_le_iff, Nat.le_div_iff_mul_le some']
    omega
  have most : ceiling ≤ denominator := by
    rw [known]
    apply Nat.div_le_of_le_mul
    obtain ⟨n, rfl⟩ := Nat.exists_eq_add_of_lt some'
    have := Nat.le_mul_of_pos_right n (some'.trans small)
    rw [Nat.zero_add, Nat.succ_mul]
    omega
  refine ⟨Nat.clog 10 ceiling, Nat.clog_le_of_le_pow (most.trans limit), ?_, ?_⟩
  · rw [magnitude, if_neg (not_le.mpr small), known]
  · obtain ⟨k, same⟩ := Nat.exists_eq_add_of_lt (Nat.clog_pos (b := 10) (by decide) above)
    have step := Nat.pow_pred_clog_lt_self (b := 10) (by decide) above
    rw [same] at step ⊢
    rw [Nat.zero_add, Nat.pred_succ] at step
    rw [Nat.zero_add, Nat.pow_succ, Nat.mul_comm 10 denominator, ← Nat.mul_assoc]
    apply Nat.mul_lt_mul_of_pos_right _ (by decide)
    have := Nat.mul_le_mul_left numerator (Nat.succ_le_iff.mpr step)
    rw [Nat.mul_succ] at this
    omega

theorem scientific_small (places : Nat) (small : numerator < denominator) {bound : Nat}
    (limit : denominator ≤ 10 ^ bound) :
    (scientific places numerator denominator).1 < 10 ^ (places + 1) ∧
      -bound ≤ (scientific places numerator denominator).2 ∧
      (scientific places numerator denominator).2 ≤ 1 := by
  have power : (10 : Nat) ^ (places + 1) = 10 ^ places * 10 := Nat.pow_succ 10 places
  have scale : 0 < (10 : Nat) ^ places := Nat.pow_pos (by decide)
  unfold scientific
  split
  next =>
    dsimp only
    omega
  next some' =>
    obtain ⟨k, under, same, scaled⟩ := magnitude_small (Nat.pos_of_ne_zero some') small limit
    have up : ((places : Int) - -k).toNat = places + k := by omega
    have down : (-(k : Int) - places).toNat = 0 := by omega
    have rounded : nearest (numerator * 10 ^ (places + k)) (denominator * 10 ^ 0) ≤
        10 ^ (places + 1) := by
      apply nearest_le
      calc numerator * 10 ^ (places + k) = numerator * 10 ^ k * 10 ^ places := by
            rw [Nat.pow_add, Nat.mul_comm (10 ^ places), Nat.mul_assoc]
        _ < 10 * denominator * 10 ^ places := Nat.mul_lt_mul_of_pos_right scaled scale
        _ = 10 ^ (places + 1) * (denominator * 10 ^ 0) := by
            rw [power, Nat.pow_zero, Nat.mul_one, Nat.mul_comm, Nat.mul_assoc]
    simp only [same, up, down]
    split
    next => exact ⟨by omega, by omega, by omega⟩
    next other => exact ⟨lt_of_le_of_ne rounded other, by omega, by omega⟩

theorem digits_not_point (n : Nat) : 0x2E ∉ digits n := by
  intro member
  exact absurd (mem_digits member).1 (by decide)

theorem trimmed_length_le (text : List UInt8) : (trimmed text).length ≤ text.length := by
  have kept := (List.dropWhile_sublist (fun c => decide (c = 0x30)) (l := text.reverse)).length_le
  rw [List.length_reverse] at kept
  unfold trimmed
  split
  · rw [List.length_reverse]
    split
    · rw [List.length_tail]
      omega
    · exact kept
  · exact le_rfl

theorem prefix_trimmed (whole fraction : List UInt8) :
    whole <+: trimmed (whole ++ 0x2E :: fraction) := by
  have present : (0x2E : UInt8) ∈ whole ++ 0x2E :: fraction := by simp
  rw [trimmed, if_pos present, List.reverse_append, List.reverse_cons, List.append_assoc,
    List.dropWhile_append]
  split
  next none' => simp
  next some' =>
    obtain ⟨c, rest, kept⟩ := List.exists_cons_of_ne_nil
      (mt List.isEmpty_iff.mpr some')
    rw [kept]
    dsimp only
    split
    next => simp
    next => simp

theorem trimmed_digits (n : Nat) : trimmed (digits n) = digits n := if_neg (digits_not_point n)

theorem trimmed_pointed (places n : Nat) : digits (n / 10 ^ places) <+: trimmed (pointed places n) := by
  unfold pointed
  split
  · simp only [List.append_nil, trimmed_digits, List.prefix_rfl]
  · exact prefix_trimmed _ _

theorem general_ne_nil (places : Nat) : general places numerator denominator ≠ [] := by
  have some' (places n : Nat) : trimmed (pointed places n) ≠ [] := by
    intro none'
    have shown := trimmed_pointed places n
    rw [none', List.prefix_nil] at shown
    exact digits_ne_nil _ shown
  unfold general
  dsimp only
  split
  · exact some' _ _
  · exact List.append_ne_nil_of_left_ne_nil (some' _ _) _

theorem exponentText_length_le {x : Int} (small : x.natAbs < 1000) : (exponentText x).length ≤ 5 := by
  simp only [exponentText, List.length_cons]
  split
  next one =>
    have := (digits_length_le_iff (k := 1) (by decide)).mpr (show x.natAbs < 10 ^ 1 by omega)
    rw [List.length_cons]
    omega
  next =>
    have := (digits_length_le_iff (k := 3) (by decide)).mpr (show x.natAbs < 10 ^ 3 by omega)
    omega

theorem trimmed_pointed_length {places n : Nat} (one : n < 10 ^ (places + 1)) :
    (trimmed (pointed places n)).length ≤ places + 2 := by
  have whole : (digits (n / 10 ^ places)).length ≤ 1 := by
    rw [digits_length_le_iff (by decide), Nat.div_lt_iff_lt_mul (Nat.pow_pos (by decide)),
      Nat.pow_one, Nat.mul_comm, ← Nat.pow_succ]
    exact one
  have shorter := trimmed_length_le (pointed places n)
  rw [pointed_length] at shorter
  split at shorter <;> omega

theorem nearest_small (places : Nat) (small : numerator < denominator) :
    nearest (numerator * 10 ^ places) denominator < 10 ^ (places + 1) := by
  have rounded : nearest (numerator * 10 ^ places) denominator ≤ 10 ^ places := by
    apply nearest_le
    rw [Nat.mul_comm]
    exact Nat.mul_lt_mul_of_pos_left small (Nat.pow_pos (by decide))
  exact rounded.trans_lt (Nat.pow_lt_pow_succ (by decide))

theorem general_length_le (places : Nat) (small : numerator < denominator) {bound : Nat}
    (limit : denominator ≤ 10 ^ bound) (near : bound < 1000) :
    (general places numerator denominator).length ≤ places + 7 := by
  obtain ⟨few, low, high⟩ := scientific_small places small limit
  unfold general
  dsimp only
  split
  next shown =>
    simp only [Bool.and_eq_true, decide_eq_true_eq] at shown
    have := trimmed_pointed_length
      (nearest_small (places - (scientific places numerator denominator).2).toNat small)
    rw [fixed]
    omega
  next =>
    have := trimmed_pointed_length few
    have := exponentText_length_le (x := (scientific places numerator denominator).2) (by omega)
    rw [List.length_append]
    omega

end

end Decimal

import H5GG.Library.Machine
import H5GG.TextEncoding
import Mathlib.Data.Nat.Bitwise

/-!
# What is valid UTF-8

A character's encoding is a first byte followed by as many bytes of six bits as it needs.
-/

namespace H5GG

/-! ### The bytes of a sequence -/

/-- The low `6 * count` bits of a code point, six to a byte. -/
def continuationBytes : Nat → Nat → List UInt8
  | 0, _ => []
  | count + 1, codePoint =>
      UInt8.ofNat (codePoint / 64 ^ count % 64 + 0x80) :: continuationBytes count codePoint

/-- The first byte of a sequence with `count` more, before the code point's own bits. -/
def leadMark : Nat → Nat
  | 1 => 0xC0
  | 2 => 0xE0
  | _ => 0xF0

/-- The least code point that needs `count` further bytes. -/
def least : Nat → Nat
  | 1 => 0x80
  | 2 => 0x800
  | _ => 0x10000

@[simp] theorem continuationBytes_length (count codePoint : Nat) :
    (continuationBytes count codePoint).length = count := by
  induction count with
  | zero => rfl
  | succ count ih => rw [continuationBytes, List.length_cons, ih]

theorem leadByte_eq (first : UInt8) : leadByte first =
    if 0xC0 ≤ first.toNat ∧ first.toNat < 0xE0 then
      some (1, UInt32.ofNat (first.toNat - 0xC0), 0x80)
    else if 0xE0 ≤ first.toNat ∧ first.toNat < 0xF0 then
      some (2, UInt32.ofNat (first.toNat - 0xE0), 0x800)
    else if 0xF0 ≤ first.toNat ∧ first.toNat < 0xF8 then
      some (3, UInt32.ofNat (first.toNat - 0xF0), 0x10000)
    else none := by
  induction first using Word.byte_cases with
  | each n small =>
      revert n
      decide +kernel

theorem continues_iff (byte : UInt8) :
    byte &&& 0xC0 = 0x80 ↔ 0x80 ≤ byte.toNat ∧ byte.toNat < 0xC0 := by
  induction byte using Word.byte_cases with
  | each n small =>
      revert n
      decide +kernel

theorem leadByte_eq_some {first : UInt8} {count : Nat} {bits minimum : UInt32} :
    leadByte first = some (count, bits, minimum) ↔
      (1 ≤ count ∧ count ≤ 3) ∧ first.toNat = leadMark count + bits.toNat ∧
        bits.toNat < 64 / 2 ^ count ∧ minimum.toNat = least count := by
  rw [leadByte_eq]
  constructor
  · intro found
    split at found
    · obtain ⟨rfl, rfl, rfl⟩ : 1 = count ∧ _ = bits ∧ _ = minimum := by simpa using found
      simp [leadMark, least]
      omega
    · split at found
      · obtain ⟨rfl, rfl, rfl⟩ : 2 = count ∧ _ = bits ∧ _ = minimum := by simpa using found
        simp [leadMark, least]
        omega
      · split at found
        · obtain ⟨rfl, rfl, rfl⟩ : 3 = count ∧ _ = bits ∧ _ = minimum := by simpa using found
          simp [leadMark, least]
          omega
        · cases found
  · rintro ⟨⟨low, high⟩, first_eq, small, minimum_eq⟩
    have least_toNat : (UInt32.ofNat (least count)).toNat = least count := by
      unfold least
      split <;> rfl
    obtain rfl : minimum = UInt32.ofNat (least count) :=
      UInt32.toNat_inj.mp (minimum_eq.trans least_toNat.symm)
    obtain rfl | rfl | rfl : count = 1 ∨ count = 2 ∨ count = 3 := by omega
    all_goals
      simp only [leadMark, Nat.reducePow, Nat.reduceDiv] at first_eq small
      obtain rfl : bits = UInt32.ofNat (first.toNat - _) :=
        UInt32.toNat_inj.mp (by rw [first_eq, Nat.add_sub_cancel_left, UInt32.ofNat_toNat])
      split_ifs
      all_goals first | rfl | omega

theorem continued_toNat {codePoint : UInt32} (fits : codePoint.toNat < 2 ^ 26) (byte : UInt8) :
    ((codePoint <<< 6) ||| (byte &&& 0x3F).toUInt32).toNat = codePoint.toNat * 64 + byte.toNat % 64 := by
  have low : (byte &&& 0x3F).toUInt32.toNat = byte.toNat % 64 := by
    rw [UInt8.toNat_toUInt32, UInt8.toNat_and]
    exact Nat.and_two_pow_sub_one_eq_mod byte.toNat 6
  have high : (codePoint <<< 6).toNat = 2 ^ 6 * codePoint.toNat := by
    rw [UInt32.toNat_shiftLeft]
    show codePoint.toNat <<< 6 % 2 ^ 32 = _
    rw [Nat.shiftLeft_eq, Nat.mod_eq_of_lt (by omega), Nat.mul_comm]
  rw [UInt32.toNat_or, low, high, ← Nat.two_pow_add_eq_or_of_lt (by omega), Nat.mul_comm]

theorem continuation_eq_some {bytes : List UInt8} {codePoint result : UInt32}
    (fits : (codePoint.toNat + 1) * 64 ^ bytes.length ≤ 2 ^ 32) :
    continuation codePoint bytes = some result ↔
      result.toNat / 64 ^ bytes.length = codePoint.toNat ∧
        bytes = continuationBytes bytes.length result.toNat := by
  induction bytes generalizing codePoint with
  | nil =>
      simp [continuation, continuationBytes, UInt32.toNat_inj, eq_comm]
  | cons byte rest ih =>
      rw [List.length_cons, pow_succ] at fits
      have room : codePoint.toNat < 2 ^ 26 := by
        have : (codePoint.toNat + 1) * 64 ≤ 2 ^ 32 := by
          apply le_trans (Nat.mul_le_mul_left _ _) fits
          exact Nat.le_mul_of_pos_left 64 (Nat.pow_pos (by decide))
        omega
      have next := continued_toNat room byte
      have step : continuation codePoint (byte :: rest) = some result ↔
          (byte &&& 0xC0 = 0x80) ∧
            continuation ((codePoint <<< 6) ||| (byte &&& 0x3F).toUInt32) rest = some result := by
        unfold continuation
        rw [List.foldlM_cons]
        split <;> simp [*]
      rw [step, ih ?_, next, continues_iff, List.length_cons, continuationBytes, List.cons.injEq,
        pow_succ, ← Nat.div_div_eq_div_mul, ← UInt8.toNat_inj, UInt8.toNat_ofNat']
      · generalize result.toNat / 64 ^ rest.length = high
        constructor
        · rintro ⟨range, rfl, same⟩
          refine ⟨by omega, by omega, same⟩
        · rintro ⟨bits, byte_eq, same⟩
          refine ⟨by omega, by omega, same⟩
      · rw [next]
        have : byte.toNat % 64 + 1 ≤ 64 := by omega
        calc (codePoint.toNat * 64 + byte.toNat % 64 + 1) * 64 ^ rest.length
            ≤ ((codePoint.toNat + 1) * 64) * 64 ^ rest.length := by
              apply Nat.mul_le_mul_right
              omega
          _ = (codePoint.toNat + 1) * (64 ^ rest.length * 64) := by
              rw [Nat.mul_assoc, Nat.mul_comm 64]
          _ ≤ 2 ^ 32 := fits

/-! ### Encodings -/

theorem encode_ascii {char : Char} (short : char.toNat < 0x80) :
    String.utf8EncodeChar char = [UInt8.ofNat char.toNat] := by
  have : char.toNat ≤ 0x7f := Nat.le_of_lt_succ short
  simp [String.utf8EncodeChar, this]

theorem encode_longer {char : Char} (long : 0x80 ≤ char.toNat) :
    ∃ count, (1 ≤ count ∧ count ≤ 3) ∧ least count ≤ char.toNat ∧
      char.toNat / 64 ^ count < 64 / 2 ^ count ∧
      String.utf8EncodeChar char = UInt8.ofNat (leadMark count + char.toNat / 64 ^ count) ::
        continuationBytes count char.toNat := by
  have valid : char.toNat < 0x110000 := by
    rcases char.valid with low | ⟨_, high⟩
    · exact Nat.lt_trans low (by decide)
    · exact high
  have one : ¬char.toNat ≤ 0x7f := by omega
  by_cases two : char.toNat ≤ 0x7ff
  · refine ⟨1, by decide, long, by omega, ?_⟩
    have small : char.toNat / 64 % 32 = char.toNat / 64 := by omega
    simp [String.utf8EncodeChar, continuationBytes, leadMark, one, two, small, add_comm]
  · by_cases three : char.toNat ≤ 0xffff
    · refine ⟨2, by decide, by simp only [least]; omega, by omega, ?_⟩
      have small : char.toNat / 4096 % 16 = char.toNat / 4096 := by omega
      simp [String.utf8EncodeChar, continuationBytes, leadMark, one, two, three, small, add_comm]
    · refine ⟨3, by decide, by simp only [least]; omega, by omega, ?_⟩
      have small : char.toNat / 262144 % 8 = char.toNat / 262144 := by omega
      simp [String.utf8EncodeChar, continuationBytes, leadMark, one, two, three, small, add_comm]

/-- A code point has one shortest form. -/
theorem count_unique {codePoint count count' : Nat} (range : 1 ≤ count ∧ count ≤ 3)
    (range' : 1 ≤ count' ∧ count' ≤ 3) (long : least count ≤ codePoint)
    (long' : least count' ≤ codePoint) (fits : codePoint / 64 ^ count < 64 / 2 ^ count)
    (fits' : codePoint / 64 ^ count' < 64 / 2 ^ count') : count = count' := by
  obtain rfl | rfl | rfl : count = 1 ∨ count = 2 ∨ count = 3 := by omega
  all_goals
    obtain rfl | rfl | rfl : count' = 1 ∨ count' = 2 ∨ count' = 3 := by omega
    all_goals
      simp only [least] at long long'
      omega

/-! ### The whole text -/

theorem exists_char {n : Nat} (valid : n.isValidChar) : ∃ char : Char, char.toNat = n :=
  ⟨Char.ofNatAux n valid, rfl⟩

theorem valid_codePoint {codePoint : UInt32} {count : Nat} {minimum : UInt32}
    (minimum_eq : minimum.toNat = least count) :
    ¬(codePoint < minimum ∨ 0x10FFFF < codePoint ∨ (0xD800 ≤ codePoint ∧ codePoint ≤ 0xDFFF)) ↔
      least count ≤ codePoint.toNat ∧ codePoint.toNat.isValidChar := by
  simp only [UInt32.lt_iff_toNat_lt, UInt32.le_iff_toNat_le, minimum_eq, Nat.isValidChar]
  simp only [UInt32.reduceToNat]
  omega

theorem encode_of_count {char : Char} {count : Nat} (range : 1 ≤ count ∧ count ≤ 3)
    (long : least count ≤ char.toNat) (fits : char.toNat / 64 ^ count < 64 / 2 ^ count) :
    String.utf8EncodeChar char = UInt8.ofNat (leadMark count + char.toNat / 64 ^ count) ::
      continuationBytes count char.toNat := by
  have : 0x80 ≤ least count := by
    unfold least
    split <;> decide
  obtain ⟨count', range', long', fits', encoded⟩ := encode_longer (this.trans long)
  rw [encoded, count_unique range range' long long' fits fits']

theorem lead_fits {bits : UInt32} {count : Nat} (range : 1 ≤ count ∧ count ≤ 3)
    (small : bits.toNat < 64 / 2 ^ count) : (bits.toNat + 1) * 64 ^ count ≤ 2 ^ 32 := by
  obtain rfl | rfl | rfl : count = 1 ∨ count = 2 ∨ count = 3 := by omega
  all_goals omega

theorem sequence_of_read {first : UInt8} {rest : List UInt8} {count : Nat}
    {bits minimum codePoint : UInt32} (lead : leadByte first = some (count, bits, minimum))
    (enough : count ≤ rest.length) (read : continuation bits (rest.take count) = some codePoint)
    (long : least count ≤ codePoint.toNat) (scalar : codePoint.toNat.isValidChar) :
    ∃ char : Char, char.toNat = codePoint.toNat ∧
      first :: rest = String.utf8EncodeChar char ++ rest.drop count := by
  obtain ⟨range, first_eq, small, _⟩ := leadByte_eq_some.mp lead
  have length : (rest.take count).length = count := List.length_take_of_le enough
  rw [continuation_eq_some (by rw [length]; exact lead_fits range small), length] at read
  obtain ⟨high, low⟩ := read
  obtain ⟨char, same⟩ := exists_char scalar
  refine ⟨char, same, ?_⟩
  rw [encode_of_count range (by rwa [same]) (by rwa [same, high]), same, high, ← first_eq, ← low,
    UInt8.ofNat_toNat, List.cons_append, List.take_append_drop]

theorem read_of_sequence {char : Char} {first : UInt8} {rest later : List UInt8}
    (long : 0x80 ≤ char.toNat) (same : first :: rest = String.utf8EncodeChar char ++ later) :
    ∃ count bits minimum, leadByte first = some (count, bits, minimum) ∧ count ≤ rest.length ∧
      continuation bits (rest.take count) = some char.val ∧ rest.drop count = later ∧
      least count ≤ char.toNat := by
  obtain ⟨count, range, long, fits, encoded⟩ := encode_longer long
  rw [encoded, List.cons_append, List.cons.injEq] at same
  obtain ⟨rfl, rfl⟩ := same
  have top : leadMark count + 64 / 2 ^ count ≤ 256 ∧ least count < 2 ^ 32 := by
    obtain rfl | rfl | rfl : count = 1 ∨ count = 2 ∨ count = 3 := by omega
    all_goals decide
  have bits_eq : (UInt32.ofNat (char.toNat / 64 ^ count)).toNat = char.toNat / 64 ^ count :=
    Nat.mod_eq_of_lt (show _ < 2 ^ 32 by omega)
  have least_eq : (UInt32.ofNat (least count)).toNat = least count := Nat.mod_eq_of_lt top.2
  refine ⟨count, UInt32.ofNat (char.toNat / 64 ^ count), UInt32.ofNat (least count),
    leadByte_eq_some.mpr ⟨range, ?_, by rwa [bits_eq], least_eq⟩, by simp, ?_, by simp, long⟩
  · rw [bits_eq]
    exact Nat.mod_eq_of_lt (show _ < 256 by omega)
  · rw [List.take_left' (by simp), continuation_eq_some]
    · rw [continuationBytes_length, bits_eq]
      exact ⟨rfl, rfl⟩
    · rw [continuationBytes_length]
      exact lead_fits range (by rwa [bits_eq])

theorem valid_short {nullPolicy : UTF8NullPolicy} {first : UInt8} (rest : List UInt8)
    (short : first ≤ 0x7F) : h5ggIsValidUTF8 nullPolicy (first :: rest) = true ↔
      ¬(first = 0 ∧ nullPolicy = .reject) ∧ h5ggIsValidUTF8 nullPolicy rest = true := by
  rw [h5ggIsValidUTF8, if_pos short]
  split
  next rejected => exact iff_of_false Bool.false_ne_true fun valid => valid.1 rejected
  next allowed => exact (and_iff_right allowed).symm

theorem valid_long {nullPolicy : UTF8NullPolicy} {first : UInt8} (rest : List UInt8)
    (long : ¬first ≤ 0x7F) : h5ggIsValidUTF8 nullPolicy (first :: rest) = true ↔
      ∃ count bits minimum codePoint, leadByte first = some (count, bits, minimum) ∧
        count ≤ rest.length ∧ continuation bits (rest.take count) = some codePoint ∧
        (least count ≤ codePoint.toNat ∧ codePoint.toNat.isValidChar) ∧
        h5ggIsValidUTF8 nullPolicy (rest.drop count) = true := by
  rw [h5ggIsValidUTF8, if_neg long]
  constructor
  · intro valid
    split at valid
    next => cases valid
    next count bits minimum lead =>
      split at valid
      next => cases valid
      next enough =>
        split at valid
        next => cases valid
        next codePoint read =>
          split at valid
          next => cases valid
          next accepted =>
            obtain ⟨_, _, _, minimum_eq⟩ := leadByte_eq_some.mp lead
            exact ⟨count, bits, minimum, codePoint, lead, Nat.le_of_not_lt enough, read,
              (valid_codePoint minimum_eq).mp accepted, valid⟩
  · rintro ⟨count, bits, minimum, codePoint, lead, enough, read, scalar, valid⟩
    obtain ⟨_, _, _, minimum_eq⟩ := leadByte_eq_some.mp lead
    rw [lead]
    dsimp only
    rw [if_neg (Nat.not_lt.mpr enough), read]
    dsimp only
    rw [if_neg ((valid_codePoint minimum_eq).mpr scalar)]
    exact valid

theorem least_pos (count : Nat) : 0 < least count := by
  unfold least
  split <;> decide

theorem leadByte_high {first : UInt8} {found : Nat × UInt32 × UInt32}
    (lead : leadByte first = some found) : ¬first ≤ 0x7F := by
  obtain ⟨count, bits, minimum⟩ := found
  obtain ⟨_, first_eq, _⟩ := leadByte_eq_some.mp lead
  have : 0xC0 ≤ leadMark count := by
    unfold leadMark
    split <;> decide
  rw [UInt8.le_iff_toNat_le, first_eq]
  show ¬_ ≤ 0x7F
  omega

theorem valid_cons (nullPolicy : UTF8NullPolicy) (first : UInt8) (rest : List UInt8) :
    h5ggIsValidUTF8 nullPolicy (first :: rest) = true ↔
      ∃ char later, first :: rest = String.utf8EncodeChar char ++ later ∧
        (nullPolicy = .reject → char.toNat ≠ 0) ∧ h5ggIsValidUTF8 nullPolicy later = true := by
  constructor
  · intro valid
    by_cases short : first ≤ 0x7F
    · obtain ⟨allowed, valid⟩ := (valid_short rest short).mp valid
      have small : first.toNat ≤ 0x7F := short
      obtain ⟨char, same⟩ := exists_char (n := first.toNat) (.inl (by omega))
      refine ⟨char, rest, ?_, ?_, valid⟩
      · rw [encode_ascii (by omega), same, UInt8.ofNat_toNat]
        rfl
      · intro rejected zero
        rw [same] at zero
        exact allowed ⟨UInt8.toNat_inj.mp zero, rejected⟩
    · obtain ⟨count, bits, minimum, codePoint, lead, enough, read, ⟨long, scalar⟩, valid⟩ :=
        (valid_long rest short).mp valid
      obtain ⟨char, same, split⟩ := sequence_of_read lead enough read long scalar
      refine ⟨char, _, split, ?_, valid⟩
      intro _
      rw [same]
      exact Nat.ne_zero_of_lt ((least_pos count).trans_le long)
  · rintro ⟨char, later, same, allowed, valid⟩
    by_cases short : char.toNat < 0x80
    · rw [encode_ascii short, List.singleton_append, List.cons.injEq] at same
      obtain ⟨rfl, rfl⟩ := same
      have first_eq : (UInt8.ofNat char.toNat).toNat = char.toNat := by
        rw [UInt8.toNat_ofNat']
        omega
      have small : UInt8.ofNat char.toNat ≤ 0x7F := by
        rw [UInt8.le_iff_toNat_le, first_eq]
        exact Nat.le_of_lt_succ short
      refine (valid_short rest small).mpr ⟨?_, valid⟩
      rintro ⟨zero, rejected⟩
      apply allowed rejected
      rw [← first_eq, zero]
      rfl
    · obtain ⟨count, bits, minimum, lead, enough, read, rfl, long⟩ :=
        read_of_sequence (Nat.le_of_not_lt short) same
      exact (valid_long rest (leadByte_high lead)).mpr
        ⟨count, bits, minimum, char.val, lead, enough, read, ⟨long, char.valid⟩, valid⟩

/-- The texts that are valid are the encodings of the lists of scalar values, without a zero where
that is turned away. -/
theorem valid_iff (nullPolicy : UTF8NullPolicy) (text : List UInt8) :
    h5ggIsValidUTF8 nullPolicy text = true ↔ ∃ chars : List Char,
      text = chars.flatMap String.utf8EncodeChar ∧
        (nullPolicy = .reject → ∀ char ∈ chars, char.toNat ≠ 0) := by
  constructor
  · intro valid
    induction length : text.length using Nat.strong_induction_on generalizing text with
    | h n ih =>
        cases text with
        | nil => exact ⟨[], rfl, by simp⟩
        | cons first rest =>
            obtain ⟨char, later, same, allowed, valid⟩ := (valid_cons nullPolicy first rest).mp valid
            have shorter : later.length < n := by
              rw [← length, same, List.length_append]
              have := List.length_pos_iff.mpr (String.utf8EncodeChar_ne_nil (c := char))
              omega
            obtain ⟨chars, rfl, none⟩ := ih later.length shorter later valid rfl
            refine ⟨char :: chars, same, ?_⟩
            intro rejected
            exact List.forall_mem_cons.mpr ⟨allowed rejected, none rejected⟩
  · rintro ⟨chars, rfl, none⟩
    induction chars with
    | nil => simp [h5ggIsValidUTF8]
    | cons char chars ih =>
        rw [List.flatMap_cons]
        obtain ⟨first, rest, same⟩ :=
          List.exists_cons_of_ne_nil (String.utf8EncodeChar_ne_nil (c := char))
        rw [same, List.cons_append]
        refine (valid_cons nullPolicy first _).mpr ⟨char, _, ?_, ?_, ih ?_⟩
        · rw [same, List.cons_append]
        · intro rejected
          exact none rejected char List.mem_cons_self
        · intro rejected other member
          exact none rejected other (List.mem_cons_of_mem _ member)

/-! ### The reads -/

theorem continuationAt_eq {text : List UInt8} {index count : Nat}
    (inside : index + count ≤ text.length) (codePoint : UInt32) :
    continuationAt text index count codePoint =
      some (continuation codePoint ((text.drop index).take count)) := by
  induction count generalizing index codePoint with
  | zero =>
      rw [continuationAt, List.take_zero]
      rfl
  | succ count ih =>
      have bound : index < text.length := by omega
      rw [continuationAt, List.getElem?_eq_getElem bound, List.drop_eq_getElem_cons bound,
        List.take_succ_cons]
      unfold continuation
      rw [List.foldlM_cons]
      dsimp only
      split
      · rw [ih (by omega)]
        rfl
      · rfl

theorem validAt_eq (nullPolicy : UTF8NullPolicy) (text : List UInt8) (index : Nat) :
    h5ggIsValidUTF8At nullPolicy text index = some (h5ggIsValidUTF8 nullPolicy (text.drop index)) := by
  induction left : text.length - index using Nat.strong_induction_on generalizing index with
  | h n ih =>
      rw [h5ggIsValidUTF8At]
      by_cases inside : index < text.length
      · rw [if_pos inside, List.getElem?_eq_getElem inside, List.drop_eq_getElem_cons inside,
          h5ggIsValidUTF8]
        dsimp only
        generalize text[index] = first
        split
        · split
          · rfl
          · exact ih _ (by omega) _ rfl
        · split
          · rfl
          · rename_i count bits minimum _
            rw [List.length_drop]
            -- `index + continuationCount >= text.size()`, before the bytes are read.
            by_cases short : text.length ≤ index + count
            · rw [if_pos short, if_pos (by omega)]
            · rw [if_neg short, if_neg (by omega), continuationAt_eq (by omega)]
              cases continuation bits ((text.drop (index + 1)).take count) with
              | none => rfl
              | some codePoint =>
                  dsimp only
                  split
                  · rfl
                  · rw [ih _ (by omega) _ rfl, List.drop_drop]
                    congr 3
                    omega
      · rw [if_neg inside, List.drop_of_length_le (Nat.le_of_not_lt inside), h5ggIsValidUTF8]

/-- The check never reads behind the end of the text, ends, and is right. -/
theorem h5ggIsValidUTF8_exact (nullPolicy : UTF8NullPolicy) (text : List UInt8) :
    ∃ valid, h5ggIsValidUTF8At nullPolicy text 0 = some valid ∧
      (valid = true ↔ ∃ chars : List Char, text = chars.flatMap String.utf8EncodeChar ∧
        (nullPolicy = .reject → ∀ char ∈ chars, char.toNat ≠ 0)) :=
  ⟨_, validAt_eq nullPolicy text 0, valid_iff nullPolicy text⟩

end H5GG

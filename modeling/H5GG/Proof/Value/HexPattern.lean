import H5GG.Value.Parse
import Mathlib.Data.Nat.Bitwise

/-!
# Hex patterns, nibble by nibble
-/

namespace H5GG

/-- The text of a pattern without its white space. -/
def patternDigits (text : CString) : List UInt8 := text.filter fun c => !isSpace c

structure PatternText (digits : List UInt8) : Prop where
  positive : 0 < digits.length
  even : digits.length % 2 = 0
  each : ∀ c ∈ digits, isXDigit c = true ∨ c = 0x3F

/-- The nibble at a position, the high one of each byte first. -/
def nibbleAt (bytes : Bytes) (i : Nat) : Option Nat :=
  bytes[i / 2]?.map fun byte => if i % 2 = 0 then byte.toNat / 16 else byte.toNat % 16

/-- Every digit that is no `?` is the nibble at its position. -/
def NibblesMatch (digits : List UInt8) (bytes : Bytes) : Prop :=
  ∀ i c, digits[i]? = some c → c ≠ 0x3F → nibbleAt bytes i = hexDigitValue c

/-! ### One byte -/

theorem hexDigitValue_lt {c : UInt8} {digit : Nat} (value : hexDigitValue c = some digit) :
    digit < 16 := by
  have each (c : UInt8) : ∀ digit ∈ hexDigitValue c, digit < 16 := by
    induction c using Word.byte_cases with
    | each n small =>
        revert n
        decide +kernel
  exact each c digit value

theorem low_nibble (x : UInt8) : (x &&& 0x0F).toNat = x.toNat % 16 := by
  rw [UInt8.toNat_and]
  exact Nat.and_two_pow_sub_one_eq_mod x.toNat 4

theorem high_nibble (x : UInt8) : (x &&& 0xF0).toNat = x.toNat / 16 * 16 := by
  induction x using Word.byte_cases with
  | each n small =>
      revert n
      decide +kernel

theorem both_nibbles (x : UInt8) : x &&& 0xFF = x := by
  induction x using Word.byte_cases with
  | each n small =>
      revert n
      decide +kernel

theorem nibbles_toNat {high low : Nat} (highSmall : high < 16) (lowSmall : low < 16) :
    ((UInt8.ofNat high <<< 4) ||| UInt8.ofNat low).toNat = 16 * high + low := by
  have each : ∀ high < 16, ∀ low < 16,
      ((UInt8.ofNat high <<< 4) ||| UInt8.ofNat low).toNat = 16 * high + low := by decide
  exact each high highSmall low lowSmall

/-- The digit's own nibble and its mask in `patternByte`. -/
def patternNibble (c : UInt8) : Nat × Bool :=
  if c = 0x3F then (0, false) else ((hexDigitValue c).getD 0, true)

theorem patternNibble_lt (c : UInt8) : (patternNibble c).1 < 16 := by
  unfold patternNibble
  split
  · decide
  · cases value : hexDigitValue c with
    | none => decide
    | some digit => exact hexDigitValue_lt value

theorem patternByte_eq (high low : UInt8) : patternByte high low =
    ((UInt8.ofNat (patternNibble high).1 <<< 4) ||| UInt8.ofNat (patternNibble low).1,
      (if (patternNibble high).2 then 0xF0 else 0) ||| (if (patternNibble low).2 then 0x0F else 0)) := by
  unfold patternByte patternNibble
  by_cases first : high = 0x3F <;> by_cases second : low = 0x3F
  all_goals
    simp only [first, second, ↓reduceIte, Bool.false_eq_true]
    rfl

/-- Masking nibbles away is leaving them out of the comparison. -/
theorem masked_eq_iff (byte value : UInt8) (highMask lowMask : Bool) :
    (byte &&& ((if highMask then 0xF0 else 0) ||| (if lowMask then 0x0F else 0)) =
        value &&& ((if highMask then 0xF0 else 0) ||| (if lowMask then 0x0F else 0))) ↔
      (highMask = true → byte.toNat / 16 = value.toNat / 16) ∧
        (lowMask = true → byte.toNat % 16 = value.toNat % 16) := by
  cases highMask <;> cases lowMask
  · simp
  · simp only [Bool.false_eq_true, ↓reduceIte, UInt8.zero_or, ← UInt8.toNat_inj, low_nibble]
    simp
  · simp only [Bool.false_eq_true, ↓reduceIte, UInt8.or_zero, ← UInt8.toNat_inj, high_nibble]
    simp
  · have full : (0xF0 ||| 0x0F : UInt8) = 0xFF := rfl
    simp only [↓reduceIte, full, both_nibbles, ← UInt8.toNat_inj, true_implies]
    omega

theorem patternByte_iff {high low : UInt8} (highDigit : isXDigit high = true ∨ high = 0x3F)
    (lowDigit : isXDigit low = true ∨ low = 0x3F) (byte : UInt8) :
    (byte &&& (patternByte high low).2 = (patternByte high low).1 &&& (patternByte high low).2) ↔
      (high ≠ 0x3F → some (byte.toNat / 16) = hexDigitValue high) ∧
        (low ≠ 0x3F → some (byte.toNat % 16) = hexDigitValue low) := by
  have nibble (c : UInt8) (digit : isXDigit c = true ∨ c = 0x3F) (n : Nat) :
      ((patternNibble c).2 = true → n = (patternNibble c).1) ↔ (c ≠ 0x3F → some n = hexDigitValue c) := by
    unfold patternNibble
    by_cases wild : c = 0x3F
    · simp [wild]
    · obtain ⟨value, same⟩ := Option.isSome_iff_exists.mp (digit.resolve_right wild)
      simp [wild, same]
  have values := nibbles_toNat (patternNibble_lt high) (patternNibble_lt low)
  have := patternNibble_lt low
  rw [patternByte_eq, masked_eq_iff, values, ← nibble high highDigit, ← nibble low lowDigit,
    show (16 * (patternNibble high).1 + (patternNibble low).1) / 16 = (patternNibble high).1 by omega,
    show (16 * (patternNibble high).1 + (patternNibble low).1) % 16 = (patternNibble low).1 by omega]

/-! ### Whole patterns -/

theorem nibbleAt_cons (byte : UInt8) (rest : Bytes) (i : Nat) :
    nibbleAt (byte :: rest) (i + 2) = nibbleAt rest i := by
  have half : (i + 2) / 2 = i / 2 + 1 := by omega
  have turn : (i + 2) % 2 = i % 2 := by omega
  unfold nibbleAt
  rw [half, turn, List.getElem?_cons_succ]

theorem nibblesMatch_cons (high low : UInt8) (digits : List UInt8) (byte : UInt8) (rest : Bytes) :
    NibblesMatch (high :: low :: digits) (byte :: rest) ↔
      ((high ≠ 0x3F → some (byte.toNat / 16) = hexDigitValue high) ∧
        (low ≠ 0x3F → some (byte.toNat % 16) = hexDigitValue low)) ∧ NibblesMatch digits rest := by
  constructor
  · intro all
    refine ⟨⟨fun known => ?_, fun known => ?_⟩, fun i c found known => ?_⟩
    · exact all 0 high rfl known
    · exact all 1 low rfl known
    · rw [← nibbleAt_cons byte]
      exact all (i + 2) c found known
  · rintro ⟨⟨first, second⟩, later⟩ i c found known
    rcases i with _ | _ | i
    · obtain rfl := Option.some.inj found
      exact first known
    · obtain rfl := Option.some.inj found
      exact second known
    · rw [nibbleAt_cons]
      exact later i c found known

theorem eq_nil_of_short {digits : List UInt8} (even : digits.length % 2 = 0)
    (short : ∀ high low rest, digits = high :: low :: rest → False) : digits = [] := by
  rcases digits with _ | ⟨high, _ | ⟨low, rest⟩⟩
  · rfl
  · simp at even
  · exact absurd rfl (short high low rest)

theorem patternBytes_matches {digits : List UInt8} (even : digits.length % 2 = 0)
    (each : ∀ c ∈ digits, isXDigit c = true ∨ c = 0x3F) (bytes : Bytes) :
    ((patternBytes digits).length ≤ bytes.length ∧
      ∀ compared ∈ bytes.zip (patternBytes digits),
        compared.1 &&& compared.2.2 = compared.2.1 &&& compared.2.2) ↔
      digits.length / 2 ≤ bytes.length ∧ NibblesMatch digits bytes := by
  induction digits using patternBytes.induct generalizing bytes with
  | case1 high low rest ih =>
      rw [List.length_cons, List.length_cons] at even
      have half : (rest.length + 1 + 1) / 2 = rest.length / 2 + 1 := by omega
      rw [List.forall_mem_cons, List.forall_mem_cons] at each
      rw [patternBytes, List.length_cons, List.length_cons, List.length_cons, half]
      cases bytes with
      | nil => simp
      | cons byte bytes =>
          rw [List.zip_cons_cons, List.forall_mem_cons, patternByte_iff each.1 each.2.1,
            nibblesMatch_cons, List.length_cons, Nat.add_le_add_iff_right, Nat.add_le_add_iff_right]
          have rest := ih (by omega) each.2.2 bytes
          tauto
  | case2 digits short =>
      obtain rfl := eq_nil_of_short even short
      simp [patternBytes, NibblesMatch]

@[simp] theorem patternBytes_length (digits : List UInt8) :
    (patternBytes digits).length = digits.length / 2 := by
  induction digits using patternBytes.induct with
  | case1 high low rest ih =>
      rw [patternBytes, List.length_cons, ih, List.length_cons, List.length_cons]
      omega
  | case2 digits short =>
      rcases digits with _ | ⟨high, _ | ⟨low, rest⟩⟩
      · rfl
      · simp [patternBytes]
      · exact absurd rfl (short high low rest)

theorem patternText_legal {digits : List UInt8} :
    (digits.any fun c => !(isXDigit c || c = 0x3F)) = false ↔
      ∀ c ∈ digits, isXDigit c = true ∨ c = 0x3F := by
  rw [List.any_eq_false]
  apply forall₂_congr
  intro c _
  cases isXDigit c <;> simp

theorem patternText_paired {digits : List UInt8} :
    (digits = [] || digits.length % 2 ≠ 0) = false ↔ 0 < digits.length ∧ digits.length % 2 = 0 := by
  simp [List.length_pos_iff]

theorem jjParseMaskedHexPattern_eq_some {text : CString} {pattern : JJHexPattern} :
    jjParseMaskedHexPattern text = some pattern ↔
      PatternText (patternDigits text) ∧ pattern = ⟨patternBytes (patternDigits text)⟩ := by
  unfold jjParseMaskedHexPattern
  dsimp only
  rw [← patternDigits]
  constructor
  · intro parsed
    split at parsed
    · cases parsed
    · rename_i legal
      split at parsed
      · cases parsed
      · rename_i paired
        rw [Bool.not_eq_true] at legal paired
        obtain ⟨positive, even⟩ := patternText_paired.mp paired
        exact ⟨⟨positive, even, patternText_legal.mp legal⟩, (Option.some.inj parsed).symm⟩
  · rintro ⟨grammar, rfl⟩
    rw [patternText_legal.mpr grammar.each, patternText_paired.mpr ⟨grammar.positive, grammar.even⟩]
    rfl

theorem jjHexPatternMatches_iff {digits : List UInt8} (grammar : PatternText digits)
    (bytes : Bytes) : jjHexPatternMatches bytes ⟨patternBytes digits⟩ = true ↔
      digits.length / 2 ≤ bytes.length ∧ NibblesMatch digits bytes := by
  have nonempty : patternBytes digits ≠ [] := by
    apply List.ne_nil_of_length_pos
    rw [patternBytes_length]
    have := grammar.positive
    have := grammar.even
    omega
  rw [← patternBytes_matches grammar.even grammar.each]
  simp only [jjHexPatternMatches, nonempty, ne_eq, not_false_eq_true, decide_true,
    Bool.true_and, Bool.and_eq_true, decide_eq_true_eq, List.all_eq_true]
  exact Iff.rfl

theorem mask_full_iff (high low : UInt8) :
    (patternByte high low).2 = 0xFF ↔ high ≠ 0x3F ∧ low ≠ 0x3F := by
  rw [patternByte_eq]
  unfold patternNibble
  by_cases first : high = 0x3F <;> by_cases second : low = 0x3F
  all_goals
    simp only [first, second, ↓reduceIte, ne_eq, not_true_eq_false, not_false_eq_true, and_self,
      and_false, false_and, iff_true, iff_false]
    decide

theorem masks_full_iff {digits : List UInt8} (even : digits.length % 2 = 0) :
    (∀ byte ∈ patternBytes digits, byte.2 = 0xFF) ↔ 0x3F ∉ digits := by
  induction digits using patternBytes.induct with
  | case1 high low rest ih =>
      rw [List.length_cons, List.length_cons] at even
      rw [patternBytes, List.forall_mem_cons, mask_full_iff, ih (by omega)]
      simp only [List.mem_cons, not_or, and_assoc, ne_eq, eq_comm]
  | case2 digits short =>
      obtain rfl := eq_nil_of_short even short
      simp [patternBytes]

theorem jjParseHexPattern_eq_some {text : CString} {values : Bytes} :
    jjParseHexPattern text = some values ↔
      (PatternText (patternDigits text) ∧ 0x3F ∉ patternDigits text) ∧
        values = (patternBytes (patternDigits text)).map Prod.fst := by
  unfold jjParseHexPattern
  constructor
  · intro parsed
    split at parsed
    · cases parsed
    · rename_i pattern masked
      obtain ⟨grammar, rfl⟩ := jjParseMaskedHexPattern_eq_some.mp masked
      rw [Option.ite_none_left_eq_some] at parsed
      obtain ⟨full, same⟩ := parsed
      refine ⟨⟨grammar, (masks_full_iff grammar.even).mp ?_⟩, (Option.some.inj same).symm⟩
      simpa using full
  · rintro ⟨⟨grammar, known⟩, rfl⟩
    rw [jjParseMaskedHexPattern_eq_some.mpr ⟨grammar, rfl⟩]
    dsimp only
    rw [if_neg]
    have full := (masks_full_iff grammar.even).mpr known
    simpa using full

/-- With every nibble compared, the pattern stands for its own values only. -/
theorem zip_full_iff {pattern : List (UInt8 × UInt8)} (full : ∀ byte ∈ pattern, byte.2 = 0xFF)
    {bytes : Bytes} (length : bytes.length = pattern.length) :
    (∀ compared ∈ bytes.zip pattern, compared.1 &&& compared.2.2 = compared.2.1 &&& compared.2.2) ↔
      bytes = pattern.map Prod.fst := by
  induction pattern generalizing bytes with
  | nil => simp [List.length_eq_zero_iff.mp length]
  | cons byte rest ih =>
      cases bytes with
      | nil => cases length
      | cons first bytes =>
          rw [List.forall_mem_cons] at full
          rw [List.zip_cons_cons, List.forall_mem_cons, ih full.2 (Nat.succ.inj length), full.1,
            both_nibbles, both_nibbles, List.map_cons, List.cons.injEq]

theorem matched_only {digits : List UInt8} (grammar : PatternText digits) (known : 0x3F ∉ digits)
    {bytes : Bytes} (length : bytes.length = digits.length / 2) :
    jjHexPatternMatches bytes ⟨patternBytes digits⟩ = true ↔
      bytes = (patternBytes digits).map Prod.fst := by
  rw [jjHexPatternMatches_iff grammar, ← patternBytes_matches grammar.even grammar.each,
    zip_full_iff ((masks_full_iff grammar.even).mpr known) (by rw [length, patternBytes_length])]
  simp [length]

/-- The texts that are patterns, and what each matches. -/
structure PatternMeaning (text : CString) : Prop where
  masked : (jjParseMaskedHexPattern text).isSome = true ↔ PatternText (patternDigits text)
  matches_iff : ∀ pattern, jjParseMaskedHexPattern text = some pattern → ∀ bytes,
    (jjHexPatternMatches bytes pattern = true ↔
      (patternDigits text).length / 2 ≤ bytes.length ∧ NibblesMatch (patternDigits text) bytes)
  strict : (jjParseHexPattern text).isSome = true ↔
    PatternText (patternDigits text) ∧ 0x3F ∉ patternDigits text
  only : ∀ values, jjParseHexPattern text = some values →
    ∃ pattern, jjParseMaskedHexPattern text = some pattern ∧ values.length = pattern.size ∧
      ∀ bytes : Bytes, bytes.length = pattern.size →
        (jjHexPatternMatches bytes pattern = true ↔ bytes = values)

theorem hexPatterns_exact (text : CString) : PatternMeaning text where
  masked := by
    rw [Option.isSome_iff_exists]
    constructor
    · rintro ⟨pattern, parsed⟩
      exact (jjParseMaskedHexPattern_eq_some.mp parsed).1
    · intro grammar
      exact ⟨_, jjParseMaskedHexPattern_eq_some.mpr ⟨grammar, rfl⟩⟩
  matches_iff pattern parsed bytes := by
    obtain ⟨grammar, rfl⟩ := jjParseMaskedHexPattern_eq_some.mp parsed
    exact jjHexPatternMatches_iff grammar bytes
  strict := by
    rw [Option.isSome_iff_exists]
    constructor
    · rintro ⟨values, parsed⟩
      exact (jjParseHexPattern_eq_some.mp parsed).1
    · intro grammar
      exact ⟨_, jjParseHexPattern_eq_some.mpr ⟨grammar, rfl⟩⟩
  only values parsed := by
    obtain ⟨⟨grammar, known⟩, rfl⟩ := jjParseHexPattern_eq_some.mp parsed
    refine ⟨_, jjParseMaskedHexPattern_eq_some.mpr ⟨grammar, rfl⟩, by simp [JJHexPattern.size], ?_⟩
    intro bytes length
    exact matched_only grammar known (by simpa [JJHexPattern.size] using length)

end H5GG

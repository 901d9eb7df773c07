import H5GG.Proof.Value.Format
import H5GG.Proof.Value.Parse

/-!
# Texts that parse back

The text of an integer denotes it, and the hexadecimal text of an address spells it.
-/

namespace H5GG

/-! ### Digits -/

theorem digitsValue_toDigits {base : Nat} (many : 1 < base) {write : Char → UInt8}
    (writes : ∀ d < base, hexDigitValue (write d.digitChar) = some d) (n : Nat) :
    digitsValue base ((Nat.toDigits base n).map write) = n := by
  rw [digitsValue, List.foldl_map]
  apply Decimal.foldl_toDigits many
  intro d below
  rw [writes d below, Option.getD_some]

theorem digitsValue_digits (n : Nat) : digitsValue 10 (Decimal.digits n) = n := by
  apply digitsValue_toDigits (by decide)
  decide

theorem isDigit_digits {n : Nat} {c : UInt8} (member : c ∈ Decimal.digits n) : isDigit c = true := by
  have := Decimal.mem_digits member
  simpa [isDigit] using this

/-! ### Integers -/

theorem integerText_formatInteger (n : Int) :
    ∃ negative, IntegerText (formatInteger n) negative (Decimal.digits n.natAbs) ∧
      denoted negative (Decimal.digits n.natAbs) = n ∧ (negative = true ↔ n < 0) := by
  have some' := Decimal.digits_ne_nil n.natAbs
  have decimal (c : UInt8) (member : c ∈ Decimal.digits n.natAbs) := isDigit_digits member
  by_cases minus : n < 0
  · refine ⟨true, ⟨some', decimal, [], [0x2D], ?_, by simp, rfl⟩, ?_, iff_of_true rfl minus⟩
    · rw [formatInteger, if_pos minus]
      rfl
    · rw [denoted, if_pos rfl, digitsValue_digits]
      omega
  · refine ⟨false, ⟨some', decimal, [], [], ?_, by simp, .inl rfl⟩, ?_,
      iff_of_false Bool.false_ne_true minus⟩
    · rw [formatInteger, if_neg minus]
      rfl
    · rw [denoted, if_neg Bool.false_ne_true, digitsValue_digits]
      omega

theorem storeValue_ofLittleEndian {width : Nat} {bytes : Bytes} (length : bytes.length = width) :
    storeValue width (Word.ofLittleEndian bytes) = bytes ++ List.replicate (8 - width) 0 := by
  subst length
  rw [storeValue, Word.toLittleEndian_ofLittleEndian]

theorem parseSigned_formatInteger {width : Nat} (positive : 0 < width) (fits : width ≤ 8) {bytes : Bytes}
    (length : bytes.length = width) :
    parseSigned width (formatInteger (loadInteger true bytes)) =
      some (bytes ++ List.replicate (8 - width) 0) := by
  have below := Word.ofLittleEndian_lt bytes
  rw [length] at below
  obtain ⟨negative, spelled, same, -⟩ := integerText_formatInteger (loadInteger true bytes)
  have loaded : loadInteger true bytes = Word.toSigned width (Word.ofLittleEndian bytes) := by
    rw [← length]
    rfl
  refine (parseSigned_eq_some fits).mpr ⟨negative, _, spelled, ?_, ?_⟩
  · have bounds := Word.toSigned_bounds below
    have power : 256 ^ width = 2 * 2 ^ (8 * width - 1) := by
      rw [← Nat.pow_succ', show (256 : Nat) = 2 ^ 8 from rfl, ← Nat.pow_mul]
      congr 1
      omega
    rw [power] at bounds
    push_cast at bounds
    rw [same, loaded]
    omega
  · rw [same, loaded, Word.toSigned_emod below, storeValue_ofLittleEndian length]

theorem parseUnsigned_formatInteger {width : Nat} (fits : width ≤ 8) {bytes : Bytes}
    (length : bytes.length = width) :
    parseUnsigned width (formatInteger (loadInteger false bytes)) =
      some (bytes ++ List.replicate (8 - width) 0) := by
  have below := Word.ofLittleEndian_lt bytes
  rw [length] at below
  have limit : 256 ^ width ≤ 256 ^ 8 := Nat.pow_le_pow_right (by decide) fits
  obtain ⟨negative, spelled, -, sign⟩ := integerText_formatInteger (loadInteger false bytes)
  have plain : negative = false := by
    rw [← Bool.not_eq_true, sign]
    exact Int.not_lt.mpr (Int.natCast_nonneg _)
  subst plain
  have value : digitsValue 10 (Decimal.digits (loadInteger false bytes).natAbs) =
      Word.ofLittleEndian bytes := digitsValue_digits _
  refine parseUnsigned_eq_some.mpr ⟨plain_head spelled, false, _, spelled, ?_, ?_, ?_⟩
  · rw [value]
    exact below.trans_le limit
  · rw [unsignedValue, if_neg Bool.false_ne_true, value]
    exact Nat.le_sub_one_of_lt below
  · rw [unsignedValue, if_neg Bool.false_ne_true, value, storeValue_ofLittleEndian length]

/-! ### Addresses -/

def hexDigits (address : Nat) : CString :=
  (Nat.toDigits 16 address).map fun c => UInt8.ofNat c.toUpper.toNat

theorem hexDigits_digit {address : Nat} {c : UInt8} (member : c ∈ hexDigits address) :
    isXDigit c = true ∧ c ≠ 0 := by
  obtain ⟨char, inside, rfl⟩ := List.mem_map.mp member
  obtain ⟨d, below, rfl⟩ := Decimal.mem_toDigits (by decide) inside
  have all : ∀ d < 16, isXDigit (UInt8.ofNat d.digitChar.toUpper.toNat) = true ∧
      UInt8.ofNat d.digitChar.toUpper.toNat ≠ 0 := by decide
  exact all d below

theorem spells_hexDigits (address : Nat) : Spells address (0x30 :: 0x78 :: hexDigits address) := by
  refine .hexadecimal _ ?_ (fun c member => (hexDigits_digit member).1) ?_
  · rw [hexDigits, ne_eq, List.map_eq_nil_iff]
    exact Nat.toDigits_ne_nil
  · apply digitsValue_toDigits (by decide)
    decide

theorem utf8String_hexAddress (address : Nat) :
    NSString.utf8String (some (.ofAscii (hexAddress address))) =
      some (0x30 :: 0x78 :: hexDigits address) := by
  have text : (hexAddress address).toList.map (fun c => UInt8.ofNat c.toNat) =
      0x30 :: 0x78 :: hexDigits address := by
    simp only [hexAddress, String.toList_append, String.toList_ofList, List.map_append, List.map_map]
    rfl
  simp only [NSString.utf8String, NSString.ofAscii, Option.bind_some, Option.map_some, text]
  rw [List.takeWhile_eq_self_iff.mpr]
  intro c member
  simp only [List.mem_cons] at member
  rcases member with rfl | rfl | member
  · rfl
  · rfl
  · exact decide_eq_true (hexDigits_digit member).2

/-- What is shown of an integer or an address parses back to it. -/
theorem shown_parsesBack :
    (∀ (t : SearchType) (value : Bytes), t.scalar = .signed ∨ t.scalar = .unsigned →
      value.length = 8 → ∃ text, jjFormatValue value t.code = some text ∧
        jjParseValue text t.code = some (value.take t.len ++ List.replicate (8 - t.len) 0)) ∧
      ∀ address < 2 ^ 64,
        (NSString.utf8String (some (.ofAscii (hexAddress address)))).bind (jjParseAddress · 16) =
            some address ∧
          FreezerController.parseAddress (some (.ofAscii (hexAddress address))) = some address := by
  constructor
  · intro t value integer eight
    have length : (value.take t.len).length = t.len := by
      rw [List.length_take, eight]
      exact Nat.min_eq_left (len_le_eight t)
    have fits : ¬TextOverflows t value := by
      rintro ⟨rfl, -⟩
      cases integer <;> contradiction
    refine ⟨_, jjFormatValue_eq_some.mpr ⟨(formatScalar_length t value).mpr fits, rfl⟩, ?_⟩
    cases integer with
    | inl signed =>
        rw [jjParseValue_signed signed, signed]
        exact parseSigned_formatInteger t.len_pos (len_le_eight t) length
    | inr unsigned =>
        rw [jjParseValue_unsigned unsigned, unsigned]
        exact parseUnsigned_formatInteger (len_le_eight t) length
  · intro address small
    have text := utf8String_hexAddress address
    have spelled := spells_hexDigits address
    constructor
    · rw [text, Option.bind_some]
      exact jjParseAddress_hexadecimal.mpr ⟨spelled, small⟩
    · exact parseAddress_eq_some.mpr ⟨_, text, spelled, small⟩

/-- `"-128"` and `"0xFFFFFFFFFFFFFFFF"`. -/
theorem shown_parsesBack_extremes :
    (∃ text, jjFormatValue [0x80, 1, 2, 3, 4, 5, 6, 7] SearchType.sByte.code = some text ∧
        jjParseValue text SearchType.sByte.code = some [0x80, 0, 0, 0, 0, 0, 0, 0]) ∧
      (NSString.utf8String (some (.ofAscii (hexAddress (2 ^ 64 - 1))))).bind (jjParseAddress · 16) =
        some (2 ^ 64 - 1) :=
  ⟨shown_parsesBack.1 .sByte [0x80, 1, 2, 3, 4, 5, 6, 7] (.inl rfl) rfl,
    (shown_parsesBack.2 (2 ^ 64 - 1) (by decide)).1⟩

end H5GG

import H5GG.Proof.Freezer
import H5GG.Value.Output
import Mathlib.Algebra.Order.Ring.Int

/-!
# Which texts are integers of a type

An unsigned conversion accepts a minus sign that white space hides from the test of the first
character, and negates.
-/

namespace H5GG

/-! ### The buffer -/

section
variable {buffer output : Bytes} {start : Nat}

theorem writeBytes_getElem? (bytes : Bytes) (i : Nat) :
    (writeBytes buffer start bytes)[i]? = buffer[i]?.map fun byte =>
      if start ≤ i then bytes.getD (i - start) byte else byte := by
  simp [writeBytes, List.getElem?_zipIdx, Function.comp_def]

theorem len_le_eight (t : SearchType) : t.len ≤ 8 := by cases t <;> decide

theorem storeValueInto_eq {width : Nat} (fits : width ≤ 8) (value : Nat) :
    storeValueInto output start width value = writeBytes output start (storeValue width value) := by
  apply List.ext_getElem?
  intro i
  rw [storeValueInto, writeBytes_getElem?, writeBytes_getElem?, writeBytes_getElem?, Option.map_map]
  congr 1
  funext byte
  rw [Function.comp_apply]
  split
  · simp only [storeValue, List.getD_eq_getElem?_getD, List.getElem?_append,
      Word.toLittleEndian_length, List.getElem?_replicate]
    by_cases inside : i - start < width
    · have known : i - start < (Word.toLittleEndian width value).length := by
        rwa [Word.toLittleEndian_length]
      rw [if_pos inside, List.getElem?_eq_getElem known]
      rfl
    · have absent : (Word.toLittleEndian width value)[i - start]? = none := by
        rw [List.getElem?_eq_none_iff, Word.toLittleEndian_length]
        omega
      have same : i - start - width < 8 - width ↔ i - start < 8 := by omega
      rw [if_neg inside, absent]
      simp only [same]
      rfl
  · rfl

theorem jjParseValueInto_eq (text : CString) (type : Int) :
    jjParseValueInto output start (some text) type =
      match jjParseValue text type with
      | none => (false, output)
      | some stored => (true, writeBytes output start stored) := by
  cases valid : SearchType.ofCode? type with
  | none => simp only [jjParseValueInto, jjParseValue, valid]
  | some t =>
      have fits := len_le_eight t
      simp only [jjParseValueInto, jjParseValue, valid]
      cases t.scalar with
      | signed =>
          simp only [parseSignedInto, parseSigned, storeValueInto_eq fits]
          split <;> rfl
      | unsigned =>
          simp only [parseUnsignedInto, parseUnsigned, storeValueInto_eq fits]
          split
          · rfl
          · split <;> rfl
      | floating format =>
          simp only [parseFloatingInto, parseFloating, storeValueInto_eq fits]
          split
          · rfl
          · cases (strtofloat format text).value <;> rfl

end

/-! ### The text -/

/-- White space, a sign and digits are all of the text. -/
structure IntegerText (text : CString) (negative : Bool) (digits : CString) : Prop where
  some' : digits ≠ []
  decimal : ∀ c ∈ digits, isDigit c = true
  shape : ∃ space sign, text = space ++ (sign ++ digits) ∧ (∀ c ∈ space, isSpace c = true) ∧
    (if negative then sign = [0x2D] else sign = [] ∨ sign = [0x2B])

theorem plain_of_isDigit {c : UInt8} (digit : isDigit c = true) :
    isSpace c = false ∧ c ≠ 0x2D ∧ c ≠ 0x2B := by
  obtain ⟨space, minus, plus, -⟩ := plain_of_isXDigit c (isXDigit_of_isDigit c digit)
  exact ⟨space, minus, plus⟩

theorem dropWhile_space {space rest : CString} (all : ∀ c ∈ space, isSpace c = true)
    (head : ∀ c ∈ rest.head?, isSpace c = false) :
    (space ++ rest).dropWhile isSpace = rest := by
  rw [List.dropWhile_append_of_pos all]
  cases rest with
  | nil => rfl
  | cons c tail => rw [List.dropWhile_cons_of_neg (by rw [head c rfl]; exact Bool.false_ne_true)]

theorem skipSign_shape (text : CString) :
    ∃ space sign, text = space ++ (sign ++ (skipSign text).2) ∧ (∀ c ∈ space, isSpace c = true) ∧
      (if (skipSign text).1 then sign = [0x2D] else sign = [] ∨ sign = [0x2B]) := by
  have split := List.takeWhile_append_dropWhile (p := isSpace) (l := text)
  have spaces : ∀ c ∈ text.takeWhile isSpace, isSpace c = true := fun c => List.mem_takeWhile_imp
  unfold skipSign
  split
  · rename_i rest body
    rw [body] at split
    exact ⟨_, [0x2D], split.symm, spaces, rfl⟩
  · rename_i rest body
    rw [body] at split
    exact ⟨_, [0x2B], split.symm, spaces, .inr rfl⟩
  · exact ⟨_, [], split.symm, spaces, .inl rfl⟩

theorem subjectSequence_ten (text : CString) :
    subjectSequence text 10 =
      if (skipSign text).2.takeWhile isDigit = [] then none
      else some ((skipSign text).1, (skipSign text).2.takeWhile isDigit,
        (skipSign text).2.drop ((skipSign text).2.takeWhile isDigit).length) := rfl

/-- The converse: white space and a sign in front of digits are skipped. -/
theorem skipSign_text {space sign digits : CString} {negative : Bool} (some' : digits ≠ [])
    (all : ∀ c ∈ digits, isDigit c = true) (spaces : ∀ c ∈ space, isSpace c = true)
    (signs : if negative then sign = [0x2D] else sign = [] ∨ sign = [0x2B]) :
    skipSign (space ++ (sign ++ digits)) = (negative, digits) := by
  obtain ⟨first, rest, rfl⟩ := List.exists_cons_of_ne_nil some'
  obtain ⟨plain, minus, plus⟩ := plain_of_isDigit (all first List.mem_cons_self)
  cases negative with
  | true =>
      obtain rfl : sign = [0x2D] := signs
      unfold skipSign
      rw [dropWhile_space spaces (by rintro c ⟨⟩; rfl)]
      rfl
  | false =>
      rcases signs with rfl | rfl
      · have same := @skipSign_plain first rest plain minus plus
        unfold skipSign at same ⊢
        rw [List.nil_append, dropWhile_space spaces (by rintro c ⟨⟩; exact plain)]
        rwa [List.dropWhile_cons_of_neg (by rw [plain]; exact Bool.false_ne_true)] at same
      · unfold skipSign
        rw [dropWhile_space spaces (by rintro c ⟨⟩; rfl)]
        rfl

theorem subjectSequence_eq_iff {text digits : CString} {negative : Bool} :
    subjectSequence text 10 = some (negative, digits, []) ↔ IntegerText text negative digits := by
  rw [subjectSequence_ten]
  constructor
  · intro same
    obtain ⟨rfl, rfl, some', all⟩ := digits_left.mp same
    exact ⟨some', all, skipSign_shape text⟩
  · rintro ⟨some', all, space, sign, rfl, spaces, signs⟩
    rw [skipSign_text some' all spaces signs]
    exact digits_left.mpr ⟨rfl, rfl, some', all⟩

/-! ### The conversions -/

def denoted (negative : Bool) (digits : CString) : Int :=
  if negative then -(digitsValue 10 digits : Int) else digitsValue 10 digits

/-- `strtoull` negates in 64 bits. -/
def unsignedValue (negative : Bool) (digits : CString) : Nat :=
  if negative then (2 ^ 64 - digitsValue 10 digits) % 2 ^ 64 else digitsValue 10 digits

/-- A text that denotes `n`, with a minus sign for the signed types only. -/
def IntegerFor (t : SearchType) (text : CString) (n : Int) : Prop :=
  ∃ negative digits, IntegerText text negative digits ∧ n = denoted negative digits ∧
    (negative = true → t.scalar = .signed)

def InRange (t : SearchType) (n : Int) : Prop :=
  if t.scalar = .signed then -2 ^ (8 * t.len - 1) ≤ n ∧ n ≤ 2 ^ (8 * t.len - 1) - 1
  else 0 ≤ n ∧ n ≤ 256 ^ t.len - 1

section
variable {text digits : CString} {negative : Bool}

theorem strtoll_ten {rest : CString}
    (subject : subjectSequence text 10 = some (negative, digits, rest)) :
    strtoll text 10 =
      if denoted negative digits < -2 ^ 63 then ⟨-2 ^ 63, rest, true⟩
      else if 2 ^ 63 - 1 < denoted negative digits then ⟨2 ^ 63 - 1, rest, true⟩
      else ⟨denoted negative digits, rest, false⟩ := by
  simp only [strtoll, subject]
  rfl

theorem strtoull_ten {rest : CString}
    (subject : subjectSequence text 10 = some (negative, digits, rest)) :
    strtoull text 10 =
      if 2 ^ 64 ≤ digitsValue 10 digits then ⟨2 ^ 64 - 1, rest, true⟩
      else ⟨unsignedValue negative digits, rest, false⟩ := by
  simp only [strtoull, subject]
  rfl

theorem parseSigned_eq_some {width : Nat} (fits : width ≤ 8) {stored : Bytes} :
    parseSigned width text = some stored ↔ ∃ negative digits, IntegerText text negative digits ∧
      (-2 ^ (8 * width - 1) ≤ denoted negative digits ∧
        denoted negative digits ≤ 2 ^ (8 * width - 1) - 1) ∧
      stored = storeValue width (denoted negative digits % 256 ^ width).toNat := by
  have bound : (2 : Int) ^ (8 * width - 1) ≤ 2 ^ 63 :=
    pow_le_pow_right₀ (by decide) (by omega)
  simp only [← subjectSequence_eq_iff]
  cases subject : subjectSequence text 10 with
  | none =>
      have parsed : strtoll text 10 = ⟨0, text, false⟩ := by simp only [strtoll, subject]
      simp [parseSigned, parsed]
  | some found =>
      obtain ⟨negative, digits, rest⟩ := found
      have some' : text ≠ [] := by
        rintro rfl
        cases subject
      simp only [parseSigned, strtoll_ten subject, some', decide_false, Bool.false_or]
      constructor
      · intro accepted
        by_cases low : denoted negative digits < -2 ^ 63
        · rw [if_pos low] at accepted
          simp at accepted
        by_cases high : 2 ^ 63 - 1 < denoted negative digits
        · rw [if_neg low, if_pos high] at accepted
          simp at accepted
        rw [if_neg low, if_neg high] at accepted
        split at accepted
        · cases accepted
        · rename_i inside
          simp only [Bool.or_eq_true, decide_eq_true_eq, not_or, not_not, not_lt] at inside
          obtain ⟨⟨⟨rfl, -⟩, above⟩, below⟩ := inside
          exact ⟨negative, digits, rfl, ⟨above, below⟩, (Option.some.inj accepted).symm⟩
      · rintro ⟨negative', digits', same, ⟨above, below⟩, rfl⟩
        obtain ⟨rfl, rfl, rfl⟩ : negative = negative' ∧ digits = digits' ∧ rest = [] := by
          simpa using same
        rw [if_neg (show ¬denoted negative digits < -2 ^ 63 by omega),
          if_neg (show ¬2 ^ 63 - 1 < denoted negative digits by omega)]
        rw [if_neg (by simp; omega)]

theorem parseUnsigned_eq_some {width : Nat} {stored : Bytes} :
    parseUnsigned width text = some stored ↔ text.head? ≠ some 0x2D ∧ ∃ negative digits,
      IntegerText text negative digits ∧ digitsValue 10 digits < 2 ^ 64 ∧
      unsignedValue negative digits ≤ 256 ^ width - 1 ∧
      stored = storeValue width (unsignedValue negative digits) := by
  simp only [← subjectSequence_eq_iff]
  by_cases minus : text.head? = some 0x2D
  · simp [parseUnsigned, minus]
  cases subject : subjectSequence text 10 with
  | none =>
      have parsed : strtoull text 10 = ⟨0, text, false⟩ := by simp only [strtoull, subject]
      by_cases empty : text = []
      · simp [parseUnsigned, empty]
      · simp [parseUnsigned, parsed, empty]
  | some found =>
      obtain ⟨negative, digits, rest⟩ := found
      have some' : text ≠ [] := by
        rintro rfl
        cases subject
      simp only [parseUnsigned, strtoull_ten subject, some', minus, decide_false, Bool.false_or,
        Bool.false_eq_true, if_false, ne_eq, not_false_eq_true, true_and]
      constructor
      · intro accepted
        by_cases large : 2 ^ 64 ≤ digitsValue 10 digits
        · rw [if_pos large] at accepted
          simp at accepted
        rw [if_neg large] at accepted
        split at accepted
        · cases accepted
        · rename_i inside
          simp only [Bool.or_eq_true, decide_eq_true_eq, not_or, not_not, not_lt] at inside
          obtain ⟨⟨rfl, -⟩, below⟩ := inside
          exact ⟨negative, digits, rfl, not_le.mp large, below, (Option.some.inj accepted).symm⟩
      · rintro ⟨negative', digits', same, small, below, rfl⟩
        obtain ⟨rfl, rfl, rfl⟩ : negative = negative' ∧ digits = digits' ∧ rest = [] := by
          simpa using same
        rw [if_neg (not_le.mpr small), if_neg]
        simp only [Bool.or_eq_true, decide_eq_true_eq, not_or, not_not, not_lt]
        exact ⟨⟨trivial, Bool.false_ne_true⟩, below⟩

theorem integerText_unique {negative' : Bool} {digits' : CString}
    (first : IntegerText text negative digits) (second : IntegerText text negative' digits') :
    negative = negative' ∧ digits = digits' := by
  have same := (subjectSequence_eq_iff.mpr first).symm.trans (subjectSequence_eq_iff.mpr second)
  simpa using same

end

/-! ### Exact parsing -/

/-- A minus sign behind white space, before an unsigned value that its negation makes fit. -/
def HiddenMinus (t : SearchType) (text : CString) : Prop :=
  t.scalar = .unsigned ∧ text.head? ≠ some 0x2D ∧ ∃ digits, IntegerText text true digits ∧
    (digitsValue 10 digits = 0 ∨
      digitsValue 10 digits < 2 ^ 64 ∧ 2 ^ 64 - digitsValue 10 digits ≤ 256 ^ t.len - 1)

/-- The parse accepts the integers in range, stores them, and otherwise leaves the buffer alone. -/
def ParsesExactly (t : SearchType) (text : CString) : Prop :=
  ∀ (output : Bytes) (start : Nat), start + 8 ≤ output.length →
    let parsed := jjParseValueInto output start (some text) t.code
    (parsed.1 = true ↔ ∃ n, IntegerFor t text n ∧ InRange t n) ∧
      (∀ n, IntegerFor t text n → InRange t n → parsed.2 = writeBytes output start
        (Word.toLittleEndian t.len (n % 256 ^ t.len).toNat ++ List.replicate (8 - t.len) 0)) ∧
      (parsed.1 = false → parsed.2 = output)

section
variable {t : SearchType} {text : CString}

theorem jjParseValue_signed (signed : t.scalar = .signed) :
    jjParseValue text t.code = parseSigned t.len text := by
  simp only [jjParseValue, SearchType.ofCode?_code, signed]

theorem jjParseValue_unsigned (unsigned : t.scalar = .unsigned) :
    jjParseValue text t.code = parseUnsigned t.len text := by
  simp only [jjParseValue, SearchType.ofCode?_code, unsigned]

theorem parsesExactly_of
    (complete : ∀ n, IntegerFor t text n → InRange t n →
      jjParseValue text t.code = some (storeValue t.len (n % 256 ^ t.len).toNat))
    (sound : ∀ stored, jjParseValue text t.code = some stored →
      ∃ n, IntegerFor t text n ∧ InRange t n) : ParsesExactly t text := by
  intro output start _
  rw [jjParseValueInto_eq]
  cases parsed : jjParseValue text t.code with
  | none =>
      have refused (n : Int) (spelled : IntegerFor t text n) : ¬InRange t n := fun inside =>
        Option.some_ne_none _ ((complete n spelled inside).symm.trans parsed)
      refine ⟨⟨fun accepted => absurd accepted Bool.false_ne_true, ?_⟩, ?_, fun _ => rfl⟩
      · rintro ⟨n, spelled, inside⟩
        exact absurd inside (refused n spelled)
      · exact fun n spelled inside => absurd inside (refused n spelled)
  | some stored =>
      refine ⟨⟨fun _ => sound stored parsed, fun _ => rfl⟩, fun n spelled inside => ?_, ?_⟩
      · have same := Option.some.inj (parsed.symm.trans (complete n spelled inside))
        rw [same]
        rfl
      · exact fun refused => absurd refused.symm Bool.false_ne_true

theorem parses_of_parsesExactly (exactly : ParsesExactly t text) {stored : Bytes}
    (parsed : jjParseValue text t.code = some stored) : ∃ n, IntegerFor t text n ∧ InRange t n := by
  refine (exactly (List.replicate 8 0) 0 (by simp)).1.mp ?_
  rw [jjParseValueInto_eq, parsed]

theorem plain_head {digits : CString} (spelled : IntegerText text false digits) :
    text.head? ≠ some 0x2D := by
  obtain ⟨space, sign, rfl, spaces, signs⟩ := spelled.shape
  obtain ⟨first, rest, rfl⟩ := List.exists_cons_of_ne_nil spelled.some'
  obtain ⟨-, minus, -⟩ := plain_of_isDigit (spelled.decimal first List.mem_cons_self)
  cases space with
  | nil =>
      rcases signs with rfl | rfl
      · simpa using minus
      · simp
  | cons c tail =>
      have blank := spaces c List.mem_cons_self
      intro same
      obtain rfl : c = 0x2D := Option.some.inj same
      exact absurd blank (by decide)

theorem parsesExactly_signed (signed : t.scalar = .signed) : ParsesExactly t text := by
  apply parsesExactly_of
  · rintro n ⟨negative, digits, spelled, rfl, -⟩ inside
    rw [InRange, if_pos signed] at inside
    rw [jjParseValue_signed signed]
    exact (parseSigned_eq_some (len_le_eight t)).mpr ⟨negative, digits, spelled, inside, rfl⟩
  · intro stored parsed
    rw [jjParseValue_signed signed] at parsed
    obtain ⟨negative, digits, spelled, inside, -⟩ :=
      (parseSigned_eq_some (len_le_eight t)).mp parsed
    refine ⟨_, ⟨negative, digits, spelled, rfl, fun _ => signed⟩, ?_⟩
    rw [InRange, if_pos signed]
    exact inside

theorem natCast_pow (width : Nat) : ((256 ^ width : Nat) : Int) = 256 ^ width :=
  Int.natCast_pow 256 width

theorem toNat_mod_pow (value width : Nat) :
    ((value : Int) % 256 ^ width).toNat = value % 256 ^ width := by
  rw [← natCast_pow, ← Int.natCast_mod, Int.toNat_natCast]

theorem parsesExactly_unsigned (unsigned : t.scalar = .unsigned) :
    ParsesExactly t text ↔ ¬HiddenMinus t text := by
  have other : t.scalar ≠ .signed := by simp [unsigned]
  have width : (256 : Nat) ^ t.len ≤ 2 ^ 64 :=
    (Nat.pow_le_pow_right (by decide) (len_le_eight t)).trans (by decide)
  have positive : 0 < (256 : Nat) ^ t.len := Nat.pow_pos (by decide)
  constructor
  · rintro exactly ⟨-, head, digits, spelled, fits⟩
    have accepted : unsignedValue true digits ≤ 256 ^ t.len - 1 ∧ digitsValue 10 digits < 2 ^ 64 := by
      unfold unsignedValue
      rw [if_pos rfl]
      omega
    have parsed := parseUnsigned_eq_some.mpr
      ⟨head, true, digits, spelled, accepted.2, accepted.1, rfl⟩
    rw [← jjParseValue_unsigned unsigned] at parsed
    obtain ⟨n, ⟨negative, digits', spelled', -, plain⟩, -⟩ := parses_of_parsesExactly exactly parsed
    obtain ⟨rfl, -⟩ := integerText_unique spelled spelled'
    exact other (plain rfl)
  · intro shown
    apply parsesExactly_of
    · rintro n ⟨negative, digits, spelled, rfl, plain⟩ inside
      have positive' : negative = false := Bool.eq_false_iff.mpr fun minus => other (plain minus)
      subst positive'
      rw [InRange, if_neg other] at inside
      have value : denoted false digits = ((digitsValue 10 digits : Nat) : Int) := rfl
      rw [value] at inside ⊢
      have small : digitsValue 10 digits < 256 ^ t.len := by
        have upper := Int.le_sub_one_iff.mp inside.2
        rw [← natCast_pow] at upper
        exact Int.ofNat_lt.mp upper
      rw [jjParseValue_unsigned unsigned, toNat_mod_pow, Nat.mod_eq_of_lt small]
      exact parseUnsigned_eq_some.mpr
        ⟨plain_head spelled, false, digits, spelled, small.trans_le width,
          Nat.le_sub_one_of_lt small, rfl⟩
    · intro stored parsed
      rw [jjParseValue_unsigned unsigned] at parsed
      obtain ⟨head, negative, digits, spelled, small, below, -⟩ := parseUnsigned_eq_some.mp parsed
      cases negative with
      | true =>
          refine absurd ⟨unsigned, head, digits, spelled, ?_⟩ shown
          unfold unsignedValue at below
          rw [if_pos rfl] at below
          omega
      | false =>
          refine ⟨_, ⟨false, digits, spelled, rfl, fun minus => absurd minus Bool.false_ne_true⟩, ?_⟩
          rw [InRange, if_neg other]
          refine ⟨Int.natCast_nonneg _, Int.le_sub_one_iff.mpr ?_⟩
          rw [← natCast_pow]
          exact Int.ofNat_lt.mpr ((Nat.le_sub_one_iff_lt positive).mp below)

/-- An integer parse is exact unless the text hides a minus sign. -/
theorem parseValue_exact_iff (integer : t.scalar = .signed ∨ t.scalar = .unsigned) :
    ParsesExactly t text ↔ ¬HiddenMinus t text := by
  rcases integer with signed | unsigned
  · refine iff_of_true (parsesExactly_signed signed) fun hidden => ?_
    simpa using signed.symm.trans hidden.1
  · exact parsesExactly_unsigned unsigned

/-- `"42"`. -/
theorem parseValue_exact_plain : ParsesExactly .uByte [0x34, 0x32] := by
  refine (parseValue_exact_iff (.inr rfl)).mpr ?_
  rintro ⟨-, -, digits, spelled, -⟩
  have plain : subjectSequence [0x34, 0x32] 10 = some (false, [0x34, 0x32], []) := rfl
  have hidden := subjectSequence_eq_iff.mpr spelled
  rw [plain] at hidden
  simp at hidden

/-- `" -18446744073709551615"` is 1 as a `uint8_t`. -/
theorem parseValue_not_exact :
    ¬ParsesExactly .uByte (0x20 :: 0x2D ::
      [49, 56, 52, 52, 54, 55, 52, 52, 48, 55, 51, 55, 48, 57, 53, 53, 49, 54, 49, 53]) := by
  intro exactly
  have accepted := (exactly (List.replicate 8 7) 0 (by decide)).1.mp (by decide)
  obtain ⟨n, ⟨negative, digits, spelled, -, plain⟩, -⟩ := accepted
  have hidden := subjectSequence_eq_iff.mpr spelled
  have minus : negative = true := (congrArg Prod.fst (Option.some.inj hidden)).symm
  have signed : SearchType.uByte.scalar = .signed := plain minus
  simp [SearchType.scalar] at signed

end

end H5GG

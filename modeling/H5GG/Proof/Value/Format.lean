import H5GG.Facade

/-!
# Which values have a text

The text of an integer or a `float` fits the buffer of 128 characters. That of a `double` has all
the digits before its point.
-/

namespace H5GG
open IEEE754 Validation

/-! ### Integers -/

theorem formatInteger_ne_nil (n : Int) : formatInteger n ≠ [] := by
  unfold formatInteger
  split
  · exact List.cons_ne_nil _ _
  · exact Decimal.digits_ne_nil _

theorem formatInteger_length {n : Int} (small : n.natAbs < 256 ^ 8) : (formatInteger n).length < 128 := by
  have := (Decimal.digits_length_le_iff (k := 20) (by decide)).mpr (small.trans (by decide))
  unfold formatInteger
  split
  · rw [List.length_cons]
    omega
  · omega

theorem loadInteger_natAbs (signed : Bool) {bytes : Bytes} (short : bytes.length ≤ 8) :
    (loadInteger signed bytes).natAbs < 256 ^ 8 := by
  have below := Word.ofLittleEndian_lt bytes
  have width : 256 ^ bytes.length ≤ 256 ^ 8 := Nat.pow_le_pow_right (by decide) short
  unfold loadInteger
  dsimp only
  split
  · have := Word.toSigned_bounds below
    omega
  · exact below.trans_le width

/-! ### Floating values -/

section
variable {format : Format} {bits : Nat}

theorem formatFloating_ne_nil : formatFloating format bits ≠ [] := by
  unfold formatFloating
  dsimp only
  split
  · exact List.cons_ne_nil _ _
  · exact List.append_ne_nil_of_right_ne_nil _ (List.cons_ne_nil _ _)
  · split
    · exact List.append_ne_nil_of_right_ne_nil _ (Decimal.general_ne_nil 5)
    · exact List.append_ne_nil_of_right_ne_nil _ (List.append_ne_nil_of_left_ne_nil (Decimal.digits_ne_nil _) _)

theorem fixed_length_le_iff {magnitude k : Nat} (representable : format.Representable magnitude)
    (precise : 2 ^ (format.fractionBits + 1) < 10 ^ k) :
    (Decimal.fixed 6 magnitude format.one).length ≤ k + 7 ↔ magnitude < 10 ^ k * format.one := by
  have positive : 0 < k := by
    rw [Nat.pos_iff_ne_zero]
    rintro rfl
    exact absurd precise (not_lt.mpr (Nat.two_pow_pos _))
  have exact : format.one ∣ magnitude ∨ magnitude < 2 ^ (format.fractionBits + 1) * format.one := by
    rw [or_iff_not_imp_right, not_lt, Format.one, ← Nat.pow_add]
    exact representable.grid _
  rw [← Decimal.whole_lt_iff 6 (Format.one_pos format) exact precise,
    ← Decimal.digits_length_le_iff positive, Decimal.fixed_length]
  simp

/-- A finite number whose fixed text does not fit: `10 ^ 120` or more, or `-10 ^ 119` or less. -/
def Overlong (format : Format) (bits : Nat) : Prop :=
  ∃ units, format.decode bits = .finite units ∧
    (10 ^ 120 * (format.one : Int) ≤ units ∨ units ≤ -(10 ^ 119 * (format.one : Int)))

theorem formatFloating_length (bits : Nat) {scale : Nat} (unit : format.one ≤ 10 ^ scale) (near : scale < 1000)
    (precise : 2 ^ (format.fractionBits + 1) < 10 ^ 119) :
    (formatFloating format bits).length < 128 ↔ ¬Overlong format bits := by
  have positive := Format.one_pos format
  unfold formatFloating Overlong
  cases decoded : format.decode bits with
  | nan => simp
  | infinite negative => cases format.sign bits <;> simp
  | finite units =>
      obtain ⟨magnitude, same, representable⟩ := Format.decode_finite decoded
      have absolute : units.natAbs = magnitude := by
        rw [same]
        split <;> omega
      have short := fixed_length_le_iff (k := 119) representable precise
      have long := fixed_length_le_iff (k := 120) representable (precise.trans (by decide))
      simp only [absolute, IEEE754.Value.finite.injEq, exists_eq_left']
      have signed : (if format.sign bits then [0x2D] else [] : CString).length ≤ 1 := by
        split <;> simp
      split
      next tiny =>
        simp only [Bool.and_eq_true, decide_eq_true_eq] at tiny
        have shown := Decimal.general_length_le 5 tiny.2 unit near
        rw [List.length_append]
        exact iff_of_true (by omega) (by omega)
      next =>
        rw [List.length_append]
        cases sign : format.sign bits with
        | true =>
            rw [sign] at same
            simp only [if_true, List.length_singleton] at same ⊢
            omega
        | false =>
            rw [sign] at same
            simp only [Bool.false_eq_true, if_false, List.length_nil] at same ⊢
            omega

theorem not_overlong_binary32 : ¬Overlong binary32 bits := by
  rintro ⟨units, decoded, outside⟩
  obtain ⟨magnitude, rfl, representable⟩ := Format.decode_finite decoded
  have limit : binary32.limit < 10 ^ 119 * binary32.one := by decide +kernel
  have below := representable.below.trans limit
  split at outside <;> omega

end

/-! ### Every value -/

/-- The doubles whose text does not fit the buffer. -/
def TextOverflows (t : SearchType) (value : Bytes) : Prop :=
  t = .double ∧ Overlong binary64 (Word.ofLittleEndian (value.take t.len))

/-- The value has a text, and it is not empty. -/
def Shown (value : Bytes) (type : Int) : Prop :=
  ∃ text, jjFormatValue value type = some text ∧ text ≠ []

theorem formatScalar_ne_nil (scalar : Scalar) (bytes : Bytes) : formatScalar scalar bytes ≠ [] := by
  cases scalar with
  | unsigned => exact formatInteger_ne_nil _
  | signed => exact formatInteger_ne_nil _
  | floating format => exact formatFloating_ne_nil

theorem formatScalar_length (t : SearchType) (value : Bytes) :
    (formatScalar t.scalar (value.take t.len)).length < 128 ↔ ¬TextOverflows t value := by
  have short : (value.take t.len).length ≤ 8 := by
    rw [List.length_take]
    exact (Nat.min_le_left _ _).trans (by cases t <;> decide)
  have integer (signed : Bool) := formatInteger_length (loadInteger_natAbs signed short)
  have other (different : t ≠ .double) : ¬TextOverflows t value := fun overflows => different overflows.1
  cases t with
  | double =>
      have double := formatFloating_length (Word.ofLittleEndian (value.take 8))
        (show binary64.one ≤ 10 ^ 400 by decide +kernel) (by decide) (by decide +kernel)
      exact double.trans (not_congr (and_iff_right rfl).symm)
  | float =>
      have single := formatFloating_length (Word.ofLittleEndian (value.take 4))
        (show binary32.one ≤ 10 ^ 400 by decide +kernel) (by decide) (by decide +kernel)
      exact iff_of_true (single.mpr not_overlong_binary32) (other (by decide))
  | sLong | sInt | sShort | sByte => exact iff_of_true (integer true) (other (by decide))
  | uLong | uInt | uShort | uByte => exact iff_of_true (integer false) (other (by decide))

theorem jjFormatValue_eq_some {t : SearchType} {value : Bytes} {text : CString} :
    jjFormatValue value t.code = some text ↔
      (formatScalar t.scalar (value.take t.len)).length < 128 ∧
        formatScalar t.scalar (value.take t.len) = text := by
  simp only [jjFormatValue, SearchType.ofCode?_code]
  split
  next long => exact iff_of_false (by simp) fun fits => absurd fits.1 (not_lt.mpr long)
  next short => rw [Option.some.injEq, and_iff_right (not_le.mp short)]

theorem shown_iff (value : Bytes) (t : SearchType) : Shown value t.code ↔ ¬TextOverflows t value := by
  rw [← formatScalar_length, Shown]
  simp only [jjFormatValue_eq_some]
  constructor
  · rintro ⟨text, ⟨fits, -⟩, -⟩
    exact fits
  · intro fits
    exact ⟨_, ⟨fits, rfl⟩, formatScalar_ne_nil t.scalar _⟩

/-! ### A page of results -/

theorem name_eq_jjTypeName {t : SearchType} {type : Int} : t.name = jjTypeName type ↔ t.code = type := by
  have apart : ∀ t u : SearchType, t.name = u.name → t = u := by
    intro t u
    cases t <;> cases u <;> decide
  have some' : t.name ≠ "" := by cases t <;> decide
  rw [← SearchType.ofCode?_eq_some, jjTypeName]
  cases SearchType.ofCode? type with
  | none => simp [some']
  | some u =>
      rw [Option.some.injEq]
      exact ⟨fun same => (apart t u same).symm, fun same => congrArg SearchType.name same.symm⟩

theorem formatValue_ok_iff {value : Bytes} {type : Int} :
    (∃ text, MemorySession.formatValue value type = .ok text) ↔
      ∃ t : SearchType, t.name = jjTypeName type ∧ ¬TextOverflows t value := by
  simp only [MemorySession.formatValue, bind_eq_ok, accept_eq_ok, pure_eq_ok, name_eq_jjTypeName]
  constructor
  · rintro ⟨_, text, formatted, -⟩
    cases valid : SearchType.ofCode? type with
    | none => simp [jjFormatValue, valid] at formatted
    | some t =>
        rw [SearchType.ofCode?_eq_some] at valid
        subst valid
        have scalar := jjFormatValue_eq_some.mp formatted
        exact ⟨t, rfl, (formatScalar_length t value).mp scalar.1⟩
  · rintro ⟨t, rfl, fits⟩
    exact ⟨_, _, jjFormatValue_eq_some.mpr ⟨(formatScalar_length t value).mpr fits, rfl⟩, rfl⟩

/-- A value has a text, and a page shows all of its values, just if no text overflows. -/
theorem values_shown_iff (value : Bytes) (t : SearchType) (system : System) (session : MemorySession)
    (maxCount skipCount : Int) :
    (Shown value t.code ↔ ¬TextOverflows t value) ∧
      ((∃ page, session.getResultDictionaries system maxCount skipCount = .ok page) ↔
        ∀ result ∈ session.getResults system maxCount skipCount,
          ∃ t : SearchType, t.name = result.type ∧ ¬TextOverflows t result.value) := by
  refine ⟨shown_iff value t, ?_⟩
  rw [MemorySession.getResultDictionaries, mapM_ok_iff, MemorySession.getResults, List.forall_mem_map]
  apply forall₂_congr
  rintro ⟨address, jjtype⟩ -
  rw [← formatValue_ok_iff]
  simp only [bind_eq_ok, pure_eq_ok]
  constructor
  · rintro ⟨_, text, formatted, -⟩
    exact ⟨text, formatted⟩
  · rintro ⟨text, formatted⟩
    exact ⟨_, text, formatted, rfl⟩

/-- The largest finite double. -/
def largestDouble : Bytes := [0xFF, 0xFF, 0xFF, 0xFF, 0xFF, 0xFF, 0xEF, 0x7F]

def largestSystem : System where
  memory := .onePage fun address => largestDouble.getD (address % 8) 0
  getpid := 1
  running _ := true
  taskForPid _ := (true, 1)

def largestSession : MemorySession where
  target := {}
  engine := { Engine.fresh with result := .ofRegions [⟨0x100000000, 0x4000, [8], [1]⟩] }

theorem largestDouble_unshown :
    ¬Shown largestDouble SearchType.double.code ∧
      largestSession.getResultDictionaries largestSystem 1 0 = .error (some "不支持的数值类型") := by
  have refused : jjFormatValue largestDouble SearchType.double.code = none := by decide +kernel
  constructor
  · rintro ⟨text, formatted, -⟩
    rw [refused] at formatted
    cases formatted
  · decide +kernel

end H5GG

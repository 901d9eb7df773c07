import H5GG.Library.Decimal
import H5GG.Value.Parse

/-!
# Formatting values

`snprintf` in the C locale, where a NaN is the text `nan` whatever its sign.
-/

namespace H5GG
open IEEE754

/-- `%d`, `%u`, `%lld` and `%llu` of an argument they hold. -/
def formatInteger (n : Int) : CString :=
  if n < 0 then 0x2D :: Decimal.digits n.natAbs else Decimal.digits n.natAbs

/-- `%g` below 1 unless all bits are zero, and `%f` otherwise. -/
def formatFloating (format : Format) (bits : Nat) : CString :=
  let sign := if format.sign bits then [0x2D] else []
  match format.decode bits with
  | .nan => [0x6E, 0x61, 0x6E]
  | .infinite _ => sign ++ [0x69, 0x6E, 0x66]
  | .finite units =>
      if bits ≠ 0 && units.natAbs < format.one then
        sign ++ Decimal.general 5 units.natAbs format.one
      else sign ++ Decimal.fixed 6 units.natAbs format.one

def formatScalar (scalar : Scalar) (bytes : Bytes) : CString :=
  match scalar with
  | .signed => formatInteger (loadInteger true bytes)
  | .unsigned => formatInteger (loadInteger false bytes)
  | .floating format => formatFloating format (Word.ofLittleEndian bytes)

/-- `JJFormatValue`: the text, or `none` when it returns false and leaves `output` empty. -/
def jjFormatValue (value : Bytes) (type : Int) : Option CString :=
  match SearchType.ofCode? type with
  | none => none
  | some t =>
      let formatted := formatScalar t.scalar (value.take t.len)
      if 128 ≤ formatted.length then none else some formatted

/-- `"-42"` and `"0.5"`. -/
example : jjFormatValue (storeValue 8 (2 ^ 64 - 42)) 3 = some [0x2D, 0x34, 0x32] ∧
    jjFormatValue (storeValue 4 0x3F000000) 4 = some [0x30, 0x2E, 0x35] := by decide +kernel

end H5GG

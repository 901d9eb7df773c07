import H5GG.Library.IEEE754
import H5GG.Library.Machine

/-!
# Value types and their comparisons

The enumerators, widths and typed comparisons of `MemoryValue.h` and `MemoryValue.cpp`. A C
`int` that holds a type is an `Int` here; `SearchType.ofCode?` is the range check that every
entry point makes on it.
-/

namespace H5GG
open IEEE754

abbrev Bytes := List UInt8

inductive SearchType
  | double | uLong | sLong | float | uInt | sInt | uShort | sShort | uByte | sByte
  deriving DecidableEq, Repr

inductive Scalar
  | unsigned
  | signed
  | floating (format : Format)
  deriving DecidableEq

namespace SearchType

def code : SearchType → Int
  | double => 1 | uLong => 2 | sLong => 3 | float => 4 | uInt => 5
  | sInt => 6 | uShort => 7 | sShort => 8 | uByte => 9 | sByte => 10

def all : List SearchType :=
  [double, uLong, sLong, float, uInt, sInt, uShort, sShort, uByte, sByte]

/-- `JJ_Search_Type_Error < type && type < JJ_Search_Type_Max`. -/
def ofCode? (type : Int) : Option SearchType := all.find? fun t => t.code = type

def name : SearchType → String
  | double => "F64" | uLong => "U64" | sLong => "I64" | float => "F32" | uInt => "U32"
  | sInt => "I32" | uShort => "U16" | sShort => "I16" | uByte => "U8" | sByte => "I8"

def scalar : SearchType → Scalar
  | double => .floating binary64
  | float => .floating binary32
  | uLong | uInt | uShort | uByte => .unsigned
  | sLong | sInt | sShort | sByte => .signed

end SearchType

/-- `JJ_Search_Type_Len`. C leaves a read past the table undefined; `0` here reads nothing. -/
def searchTypeLen (type : Int) : Nat :=
  if type < 0 then 0 else [0, 8, 8, 8, 4, 4, 4, 2, 2, 1, 1].getD type.toNat 0

namespace SearchType

def len (t : SearchType) : Nat := searchTypeLen t.code

@[simp] theorem ofCode?_code (t : SearchType) : ofCode? t.code = some t := by
  cases t <;> rfl

theorem ofCode?_eq_some {type : Int} {t : SearchType} :
    ofCode? type = some t ↔ t.code = type := by
  constructor
  · intro h
    simpa using List.find?_some h
  · rintro rfl
    exact ofCode?_code t

theorem len_pos (t : SearchType) : 0 < t.len := by cases t <;> decide

theorem code_bounds (t : SearchType) : 1 ≤ t.code ∧ t.code ≤ 10 := by cases t <;> decide

end SearchType

def jjTypeName (type : Int) : String := (SearchType.ofCode? type).elim "" SearchType.name

/-- `JJSearchValue`: a lower and an upper bound, back to back from the first byte on. -/
structure JJSearchValue where
  bytes : Bytes
  size : bytes.length = 16

namespace JJSearchValue

def lower (value : JJSearchValue) (len : Nat) : Bytes := value.bytes.take len
def upper (value : JJSearchValue) (len : Nat) : Bytes := (value.bytes.drop len).take len

end JJSearchValue

def loadInteger (signed : Bool) (bytes : Bytes) : Int :=
  let word := Word.ofLittleEndian bytes
  if signed then Word.toSigned bytes.length word else word

inductive FilterMode
  | equal | greater | less
  deriving DecidableEq, Repr

def FilterMode.ofCode? (mode : Int) : Option FilterMode :=
  if mode = 0 then some .equal else if mode = 2 then some .greater
  else if mode = 3 then some .less else none

namespace Scalar

def compareValues (scalar : Scalar) (current target : Bytes) (mode : FilterMode) : Bool :=
  match scalar with
  | .floating format =>
      let c := format.decode (Word.ofLittleEndian current)
      let t := format.decode (Word.ofLittleEndian target)
      match mode with | .equal => c.eq t | .greater => t.lt c | .less => c.lt t
  | .signed | .unsigned =>
      let c := loadInteger (scalar = .signed) current
      let t := loadInteger (scalar = .signed) target
      match mode with | .equal => c = t | .greater => t < c | .less => c < t

/-- `searchValueMatches<T>`, the bounds widened by the `float` tolerance for a floating `T`. -/
def searchValueMatches (scalar : Scalar) (current lower upper : Bytes) (tolerance : Nat) : Bool :=
  match scalar with
  | .floating format =>
      let c := format.decode (Word.ofLittleEndian current)
      let slack := format.widen binary32 (binary32.decode tolerance)
      (format.sub (format.decode (Word.ofLittleEndian lower)) slack).le c &&
        c.le (format.add (format.decode (Word.ofLittleEndian upper)) slack)
  | .signed | .unsigned =>
      let load := loadInteger (scalar = .signed)
      load lower ≤ load current && load current ≤ load upper

end Scalar

def toleranceNegative (tolerance : Nat) : Bool := (binary32.decode tolerance).lt (.finite 0)

def jjSearchValueMatchesAny (current : Bytes) (values : List JJSearchValue) (t : SearchType)
    (tolerance : Nat) : Bool :=
  !toleranceNegative tolerance && values.any fun value =>
    t.scalar.searchValueMatches (current.take t.len) (value.lower t.len) (value.upper t.len) tolerance

def jjValueMatchesFilter (current target : Bytes) (t : SearchType) (mode : FilterMode) : Bool :=
  t.scalar.compareValues (current.take t.len) (target.take t.len) mode

/-- `JJHexPattern`: `values` and `masks` grow together, so a pattern is a list of pairs. -/
structure JJHexPattern where
  nibbles : List (UInt8 × UInt8)
  deriving DecidableEq

namespace JJHexPattern

def size (pattern : JJHexPattern) : Nat := pattern.nibbles.length

end JJHexPattern

def jjHexPatternMatches (bytes : Bytes) (pattern : JJHexPattern) : Bool :=
  pattern.nibbles ≠ [] && pattern.size ≤ bytes.length &&
    (bytes.zip pattern.nibbles).all fun (byte, value, mask) => byte &&& mask = value &&& mask

end H5GG

import Mathlib.Algebra.GroupWithZero.Nat
import Mathlib.Algebra.Ring.Int.Defs
import Mathlib.Data.Nat.Log

/-!
# Binary interchange formats

A finite value is kept as the integer number of units of its format, a unit being the least
positive subnormal. Sums and differences of two values are then exact integers and only the
rounding to the format's precision remains.
-/

namespace IEEE754

structure Format where
  exponentBits : Nat
  fractionBits : Nat
  deriving DecidableEq

def binary32 : Format := ⟨8, 23⟩
def binary64 : Format := ⟨11, 52⟩

inductive Value
  | nan
  | infinite (negative : Bool)
  | finite (units : Int)
  deriving DecidableEq

namespace Value

def negate : Value → Value
  | .nan => .nan
  | .infinite negative => .infinite (!negative)
  | .finite units => .finite (-units)

def le : Value → Value → Bool
  | .finite x, .finite y => x ≤ y
  | .infinite true, .finite _ | .infinite true, .infinite _ => true
  | .finite _, .infinite false | .infinite false, .infinite false => true
  | _, _ => false

def lt (x y : Value) : Bool := le x y && !le y x

def eq (x y : Value) : Bool := le x y && le y x

end Value

namespace Format

def sign (format : Format) (bits : Nat) : Bool :=
  bits / 2 ^ (format.fractionBits + format.exponentBits) % 2 = 1

def decode (format : Format) (bits : Nat) : Value :=
  let fraction := bits % 2 ^ format.fractionBits
  let exponent := bits / 2 ^ format.fractionBits % 2 ^ format.exponentBits
  if exponent = 2 ^ format.exponentBits - 1 then
    if fraction = 0 then .infinite (format.sign bits) else .nan
  else
    let magnitude : Int :=
      if exponent = 0 then fraction else (2 ^ format.fractionBits + fraction) * 2 ^ (exponent - 1)
    .finite (if format.sign bits then -magnitude else magnitude)

/-- The units of 1. -/
def one (format : Format) : Nat := 2 ^ (2 ^ (format.exponentBits - 1) + format.fractionBits - 2)

/-- Units from which on a magnitude has no finite value. -/
def limit (format : Format) : Nat :=
  2 ^ (format.fractionBits + 1 + (2 ^ format.exponentBits - 3))

/-- `numerator / denominator` units to the nearest magnitude of the format, ties to even. -/
def roundRatio (format : Format) (numerator denominator : Nat) : Nat :=
  let unit := denominator * 2 ^ (Nat.log 2 (numerator / denominator) - format.fractionBits)
  let quotient := numerator / unit
  let remainder := numerator % unit
  let up := unit < 2 * remainder || (unit = 2 * remainder && quotient % 2 = 1)
  (if up then quotient + 1 else quotient) * (unit / denominator)

def round (format : Format) (units : Int) : Value :=
  let magnitude := format.roundRatio units.natAbs 1
  if format.limit ≤ magnitude then .infinite (units < 0)
  else .finite (if units < 0 then -magnitude else magnitude)

def add (format : Format) : Value → Value → Value
  | .finite x, .finite y => format.round (x + y)
  | .infinite s, .infinite t => if s = t then .infinite s else .nan
  | .infinite s, .finite _ | .finite _, .infinite s => .infinite s
  | _, _ => .nan

def sub (format : Format) (x y : Value) : Value := format.add x y.negate

/-- The units of a narrower format, counted in those of `format`. -/
def widen (format narrow : Format) : Value → Value
  | .finite units => .finite (units * 2 ^
      ((2 ^ (format.exponentBits - 1) + format.fractionBits) -
        (2 ^ (narrow.exponentBits - 1) + narrow.fractionBits)))
  | special => special

def encodeMagnitude (format : Format) (magnitude : Nat) : Nat :=
  if magnitude < 2 ^ format.fractionBits then magnitude
  else
    let exponent := Nat.log 2 magnitude - format.fractionBits
    (exponent + 1) * 2 ^ format.fractionBits + (magnitude / 2 ^ exponent - 2 ^ format.fractionBits)

example : binary32.decode 0x3FC00000 = .finite (3 * 2 ^ 148) := by decide
example : binary64.sub (binary64.decode 0x3FF0000000000000)
    (binary64.widen binary32 (binary32.decode 0x3F000000)) =
      binary64.decode 0x3FE0000000000000 := by decide +kernel

/-! ## Finite values -/

section
variable {format : Format} {bits : Nat} {units : Int}

theorem one_pos (format : Format) : 0 < format.one := Nat.pow_pos (by decide)

/-- A magnitude of the format is below its limit, and on the grid that its precision leaves. -/
structure Representable (format : Format) (magnitude : Nat) : Prop where
  below : magnitude < format.limit
  grid : ∀ k, 2 ^ (format.fractionBits + 1 + k) ≤ magnitude → 2 ^ k ∣ magnitude

theorem representable_subnormal {fraction : Nat} (small : fraction < 2 ^ format.fractionBits) :
    format.Representable fraction := by
  have power (k : Nat) : 2 ^ format.fractionBits ≤ 2 ^ (format.fractionBits + 1 + k) :=
    Nat.pow_le_pow_right (by decide) (by omega)
  constructor
  · exact small.trans_le (power _)
  · intro k large
    have := power k
    omega

theorem representable_normal {fraction exponent : Nat} (small : fraction < 2 ^ format.fractionBits)
    (finite : exponent + 3 ≤ 2 ^ format.exponentBits) :
    format.Representable ((2 ^ format.fractionBits + fraction) * 2 ^ exponent) := by
  have under : (2 ^ format.fractionBits + fraction) * 2 ^ exponent <
      2 ^ (format.fractionBits + 1 + exponent) := by
    rw [Nat.pow_add]
    apply Nat.mul_lt_mul_of_pos_right _ (Nat.two_pow_pos exponent)
    rw [Nat.pow_succ]
    omega
  constructor
  · exact under.trans_le (Nat.pow_le_pow_right (by decide) (by omega))
  · intro k large
    have order := (Nat.pow_lt_pow_iff_right (by decide)).mp (large.trans_lt under)
    exact Nat.dvd_mul_left_of_dvd (Nat.pow_dvd_pow 2 (by omega)) _

theorem decode_finite (finite : format.decode bits = .finite units) :
    ∃ magnitude : Nat, units = (if format.sign bits then -(magnitude : Int) else magnitude) ∧
      format.Representable magnitude := by
  have small := Nat.mod_lt bits (Nat.two_pow_pos format.fractionBits)
  have bound :=
    Nat.mod_lt (bits / 2 ^ format.fractionBits) (Nat.two_pow_pos format.exponentBits)
  simp only [decode] at finite
  generalize bits % 2 ^ format.fractionBits = fraction at finite small
  generalize bits / 2 ^ format.fractionBits % 2 ^ format.exponentBits = exponent at finite bound
  split at finite
  next => split at finite <;> cases finite
  next regular =>
    have same := (Value.finite.inj finite).symm
    by_cases zero : exponent = 0
    · rw [if_pos zero] at same
      exact ⟨fraction, same, representable_subnormal small⟩
    · rw [if_neg zero] at same
      refine ⟨(2 ^ format.fractionBits + fraction) * 2 ^ (exponent - 1), ?_,
        representable_normal small (by omega)⟩
      push_cast
      exact same

end

end Format

end IEEE754

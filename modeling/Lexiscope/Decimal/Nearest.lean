/-
  Lexiscope.Decimal.Nearest

  Decimal numbers and the double nearest to one.

  A nonnegative finite double is written here as `mantissa * 2 ^ shift` in units
  of `2 ^ (-1074)`, the smallest positive double. Its 63 bits without the sign
  are then `shift * 2 ^ 52 + mantissa`: the leading one of a full mantissa carries
  into the exponent field by itself, and so does a mantissa that rounding has
  pushed up to the next power of two. Rounding is to nearest, ties to even, in
  exact arithmetic on `Nat`.
-/

namespace Lexiscope

/-- The number `digits * 10 ^ exponent`. -/
structure Decimal where
  digits : Nat
  exponent : Int
deriving DecidableEq, Inhabited

namespace Decimal

/-- Ten to the power of `n`. -/
def tenPow (n : Nat) : Nat := Nat.pow 10 n

/-- Numerator of the number as a fraction. -/
def num (d : Decimal) : Nat := d.digits * tenPow d.exponent.toNat

/-- Denominator of the number as a fraction. -/
def den (d : Decimal) : Nat := tenPow (-d.exponent).toNat

/-- The quotient `a / b` rounded to the nearest natural number, a half going to the even one. -/
def roundDiv (a b : Nat) : Nat :=
  let q := a / b
  let r := a % b
  if 2 * r < b then q
  else if b < 2 * r then q + 1
  else if q % 2 = 0 then q
  else q + 1

/-- Bits of positive infinity. -/
def infinityBits : Nat := 0x7FF <<< 52

/-- How far the mantissa of a number is shifted to the left, given the number's
    floor in units of `2 ^ (-1074)`: until it has at most 53 bits. -/
def shiftOf (units : Nat) : Nat :=
  if units < 1 <<< 53 then 0 else units.log2 - 52

/-- Bits of the double nearest to `a / b`; what is too large becomes infinity. -/
def nearestBits (a b : Nat) : Nat :=
  let units := a <<< 1074
  let shift := shiftOf (units / b)
  min ((shift <<< 52) + roundDiv units (b <<< shift)) infinityBits

/-- Bits of the double nearest to a decimal number. -/
def bits (d : Decimal) : Nat := nearestBits d.num d.den

/-- The double nearest to a decimal number. -/
def toFloat (d : Decimal) : Float := Float.ofBits (UInt64.ofNat d.bits)

/-- Mantissa of the finite double with these bits. -/
def mantissaOf (bits : Nat) : Nat :=
  if bits >>> 52 = 0 then bits else bits % (1 <<< 52) + (1 <<< 52)

/-- Shift of the finite double with these bits. -/
def exponentOf (bits : Nat) : Nat := (bits >>> 52) - 1

-- ============================================================================
-- Small laws
-- ============================================================================

/-- A whole quotient is its own rounding. -/
theorem roundDiv_mul (q : Nat) {b : Nat} (hb : 0 < b) : roundDiv (q * b) b = q := by
  simp [roundDiv, Nat.mul_div_cancel q hb, hb]

end Decimal

end Lexiscope

/-
  Lexiscope.Decimal.Shortest

  The fewest digits that read back.

  For one digit, two digits and so on, the grid of decimals with that many
  digits has two neighbours of the given double. The first grid on which a
  neighbour reads back as the same double wins; if both do, the nearer one, and
  the upper one of a tie. The search starts one place above the first digit,
  because the decimal may be the next power of ten. Seventeen digits are always
  enough; the exact value stands behind them so that the function needs no proof
  of that to be total.
-/
import Lexiscope.Decimal.Nearest

namespace Lexiscope.Decimal

/-- Numerator of the double with these bits as a fraction. -/
def valueNum (bits : Nat) : Nat := mantissaOf bits <<< exponentOf bits

/-- Denominator of every double as a fraction: `2 ^ 1074`. -/
def valueDen : Nat := 1 <<< 1074

/-- How often `a` is multiplied by ten until it reaches `b`, at most `bound` times. -/
def leadingZeros (b : Nat) : Nat → Nat → Nat
  | 0, _ => 0
  | bound + 1, a => if b ≤ a then 0 else leadingZeros b bound (a * 10) + 1

/-- The place of the first digit of `a / b`: the `e` with `10 ^ e ≤ a / b < 10 ^ (e + 1)`. -/
def leadingPlace (a b : Nat) : Int :=
  let whole := a / b
  if whole = 0 then -(leadingZeros b 400 a : Int)
  else (Nat.toDigits 10 whole).length - 1

/-- The two decimals with exponent `place` between which `a / b` lies. -/
def neighbours (a b : Nat) (place : Int) : Decimal × Decimal :=
  let below := a * tenPow (-place).toNat / (b * tenPow place.toNat)
  (⟨below, place⟩, ⟨below + 1, place⟩)

/-- Is the upper of two neighbouring decimals at least as near to `a / b` as the lower one? -/
def upperIsNearer (a b : Nat) (below : Decimal) : Bool :=
  let scaled := a * tenPow (-below.exponent).toNat
  let unit := b * tenPow below.exponent.toNat
  unit ≤ 2 * (scaled - below.digits * unit)

/-- The neighbour with exponent `place` that reads back as `bits`, if there is one. -/
def onGrid (bits : Nat) (place : Int) : Option Decimal :=
  let a := valueNum bits
  let (below, above) := neighbours a valueDen place
  let hitBelow := below.bits = bits
  let hitAbove := above.bits = bits
  if hitAbove ∧ (¬ hitBelow ∨ upperIsNearer a valueDen below) then some above
  else if hitBelow then some below
  else none

/-- All digits of the double with these bits. -/
def exactly (bits : Nat) : Decimal := ⟨valueNum bits * Nat.pow 5 1074, -1074⟩

/-- The shortest decimal that reads back as the positive finite double with these bits. -/
def shortest (bits : Nat) : Decimal :=
  let top := leadingPlace (valueNum bits) valueDen + 1
  ((List.range 18).findSome? fun (n : Nat) => onGrid bits (top - n)).getD (exactly bits)

end Lexiscope.Decimal

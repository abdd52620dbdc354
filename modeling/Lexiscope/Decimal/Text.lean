/-
  Lexiscope.Decimal.Text

  Numbers as text, both ways.

  Writing is positional at every size: the shortest digits that read back, no
  exponent, no point for a whole number. Reading accepts an optional sign, then
  digits with an optional point and an optional exponent, or one of the words
  for infinity and for a number that is none.
-/
import Lexiscope.Decimal.Shortest
import Lexiscope.Text.Digits

namespace Lexiscope

namespace Decimal

/-- The digits of `n`, filled up with zeros on the left to `width` places. -/
def padded (width n : Nat) : List Char :=
  let digits := Nat.toDigits 10 n
  List.replicate (width - digits.length) '0' ++ digits

/-- The number without an exponent: a whole number has no point. -/
def positional (d : Decimal) : List Char :=
  if 0 ≤ d.exponent then Nat.toDigits 10 (d.digits * tenPow d.exponent.toNat)
  else
    let places := (-d.exponent).toNat
    Nat.toDigits 10 (d.digits / tenPow places) ++ '.' :: padded places (d.digits % tenPow places)

/-- A decimal exponent from its digits. Digits that follow one of 65536 or more are passed over:
    no double is that large or that small. -/
def exponentOfDigits (digits : List Char) : Nat :=
  digits.foldl (fun n c => if n < 65536 then 10 * n + Text.digitValue c else n) 0

/-- What may follow the digits: nothing, or `e`, an optional sign and digits. -/
def exponentOfText? : List Char → Option Int
  | [] => some 0
  | mark :: rest =>
    if mark = 'e' ∨ mark = 'E' then
      let (negative, digits) := match rest with
        | '-' :: r => (true, r)
        | '+' :: r => (false, r)
        | r => (false, r)
      if Text.isDigits digits then
        let n : Int := exponentOfDigits digits
        some (if negative then -n else n)
      else none
    else none

/-- Reads digits with an optional point and an optional exponent. -/
def ofText? (text : List Char) : Option Decimal :=
  let whole := text.takeWhile Char.isDigit
  let afterWhole := text.dropWhile Char.isDigit
  let fraction := match afterWhole with
    | '.' :: r => r.takeWhile Char.isDigit
    | _ => []
  let afterFraction := match afterWhole with
    | '.' :: r => r.dropWhile Char.isDigit
    | r => r
  if whole = [] ∧ fraction = [] then none
  else (exponentOfText? afterFraction).map fun e =>
    ⟨Text.ofDigits (whole ++ fraction), e - fraction.length⟩

end Decimal

namespace Number

/-- Writes a number: `NaN`, `inf`, or its shortest digits in positional notation,
    with a minus sign for a negative number and for negative zero. -/
def text (x : Float) : String :=
  let bits := x.toBits.toNat
  let magnitude := bits % (1 <<< 63)
  if Decimal.infinityBits < magnitude then "NaN"
  else
    let body :=
      if magnitude = Decimal.infinityBits then "inf".toList
      else if magnitude = 0 then ['0']
      else (Decimal.shortest magnitude).positional
    String.ofList (if 1 <<< 63 ≤ bits then '-' :: body else body)

/-- Reads a number without a sign. -/
def ofUnsigned? (text : List Char) : Option Float :=
  let word := String.ofList (text.map Char.toLower)
  if word = "nan" then some (0.0 / 0.0)
  else if word = "inf" ∨ word = "infinity" then some (1.0 / 0.0)
  else (Decimal.ofText? text).map Decimal.toFloat

/-- Reads a number. -/
def ofText? (text : String) : Option Float :=
  match text.toList with
  | '-' :: rest => (ofUnsigned? rest).map fun x => -x
  | '+' :: rest => ofUnsigned? rest
  | rest => ofUnsigned? rest

end Number

end Lexiscope

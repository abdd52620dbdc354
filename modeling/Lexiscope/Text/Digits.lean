/-
  Lexiscope.Text.Digits

  Rows of digits as numbers.
-/

namespace Lexiscope.Text

/-- The value of a digit. -/
def digitValue (c : Char) : Nat := c.toNat - '0'.toNat

/-- The number that a row of digits stands for. -/
def ofDigits (digits : List Char) : Nat := digits.foldl (fun n c => 10 * n + digitValue c) 0

/-- Is the text a row of at least one digit? -/
def isDigits (text : List Char) : Bool := !text.isEmpty && text.all Char.isDigit

/-- The number below `2 ^ 64` that digits with an optional plus sign stand for. -/
def word? (text : String) : Option Nat :=
  let digits := match text.toList with
    | '+' :: rest => rest
    | other => other
  if isDigits digits ∧ ofDigits digits < UInt64.size then some (ofDigits digits) else none

end Lexiscope.Text

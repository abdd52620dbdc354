/-
  Lexiscope.Text.CodeSet

  Sets of code points, for properties of characters that are data of a standard.
  A set is the ascending row of places where it begins and where it ends again,
  so a character is in the set exactly when an odd number of these bounds is
  not above it.
-/

namespace Lexiscope.Text

/-- A set of code points: it begins at the first bound, ends before the second, and so on. -/
structure CodeSet where
  bounds : List Nat
deriving DecidableEq, Inhabited

namespace CodeSet

/-- Is the character in the set? -/
def contains (s : CodeSet) (c : Char) : Bool :=
  (s.bounds.takeWhile fun bound => bound ≤ c.toNat).length % 2 = 1

end CodeSet

end Lexiscope.Text

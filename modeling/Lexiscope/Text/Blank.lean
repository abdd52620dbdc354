/-
  Lexiscope.Text.Blank

  Blank characters: the twenty-five code points with the Unicode property
  White_Space. The lexer skips them between tokens and the shell trims them
  from the end of a line, so both sides of the program share this one table.
-/

namespace Lexiscope.Text

/-- Does the character have the Unicode property White_Space? -/
def isBlank (c : Char) : Bool :=
  let n := c.toNat
  (0x09 ≤ n && n ≤ 0x0D) || n == 0x20 || n == 0x85 || n == 0xA0 || n == 0x1680
    || (0x2000 ≤ n && n ≤ 0x200A) || n == 0x2028 || n == 0x2029 || n == 0x202F
    || n == 0x205F || n == 0x3000

/-- The text without the blank characters at its end. -/
def trimEnd (text : List Char) : List Char :=
  (text.reverse.dropWhile isBlank).reverse

end Lexiscope.Text

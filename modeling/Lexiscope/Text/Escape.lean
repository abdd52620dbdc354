/-
  Lexiscope.Text.Escape

  Quoted text in two styles. The echo style writes every string on one line of
  printable ASCII, so two different strings never look alike. The field style
  is for log fields: readable characters of any script stay as they are.
-/
import Lexiscope.Text.Extender
import Lexiscope.Text.Visible

namespace Lexiscope.Text

/-- A code point in braces: `\u`, then the hexadecimal digits of the code point. -/
def codePoint (c : Char) : List Char :=
  '\\' :: 'u' :: '\x7b' :: (Nat.toDigits 16 c.toNat ++ ['\x7d'])

/-- Is the character printable ASCII? -/
def isPrintable (c : Char) : Bool := 0x20 ≤ c.toNat && c.toNat ≤ 0x7E

/-- One character of a string in echo style. -/
def escapeChar (c : Char) : List Char :=
  if c = '\t' then ['\\', 't']
  else if c = '\r' then ['\\', 'r']
  else if c = '\n' then ['\\', 'n']
  else if c = '\'' ∨ c = '"' ∨ c = '\\' then ['\\', c]
  else if isPrintable c then [c]
  else codePoint c

/-- A string in echo style, with its quotes. -/
def echo (s : String) : String :=
  String.ofList ('\'' :: (s.toList.flatMap escapeChar ++ ['\'']))

/-- Can the character stand as it is in field style? It has to be a space or a visible character
    that does not join the one before it. -/
def isPlain (c : Char) : Bool := c == ' ' || (isVisible c && !isExtender c)

/-- One character of a string in field style. -/
def fieldChar (c : Char) : List Char :=
  if c = '\t' then ['\\', 't']
  else if c = '\r' then ['\\', 'r']
  else if c = '\n' then ['\\', 'n']
  else if c.toNat = 0 then ['\\', '0']
  else if c = '"' ∨ c = '\\' then ['\\', c]
  else if isPlain c then [c]
  else codePoint c

/-- A string in field style, with its quotes. -/
def field (s : String) : String :=
  String.ofList ('"' :: (s.toList.flatMap fieldChar ++ ['"']))

end Lexiscope.Text

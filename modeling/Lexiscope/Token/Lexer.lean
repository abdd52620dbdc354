/-
  Lexiscope.Token.Lexer

  From source text to tokens.

  A token is read in two steps. `skipGap` passes over blanks and comments,
  one character or one comment mark at a time, and keeps the place. `munch`
  then looks at the characters alone and says how many of them the longest
  lexeme takes, or what is wrong with them; it knows no positions. `scan` puts
  both together and gives the cursor behind what it has read, also after an
  error, so that scanning can go on. A gap is structural in the text, and each
  token but the last takes at least one character, so the length of the text
  bounds the number of tokens.
-/
import Lexiscope.Text.Blank
import Lexiscope.Token.Basic

namespace Lexiscope

-- ============================================================================
-- Character classes
-- ============================================================================

/-- May the character begin an identifier? ASCII letters and the underscore do. -/
def isLetter (c : Char) : Bool := c.isAlpha || c == '_'

/-- May the character stand in a number? ASCII digits do. -/
def isDigit (c : Char) : Bool := c.isDigit

/-- May the character stand inside an identifier? -/
def isWordChar (c : Char) : Bool := isLetter c || isDigit c

-- ============================================================================
-- Errors
-- ============================================================================

/-- Why a source text is not a row of tokens. -/
inductive LexError where
  | unexpectedCharacter (pos : Pos) (c : Char)
  | unterminatedString (pos : Pos)
  | unterminatedComment (pos : Pos)
  | invalidEscape (pos : Pos) (c : Char)
deriving DecidableEq, Inhabited

namespace LexError

/-- The place of the error: of the character, the opening quote or comment mark, the backslash. -/
def pos : LexError → Pos
  | unexpectedCharacter p _ => p
  | unterminatedString p => p
  | unterminatedComment p => p
  | invalidEscape p _ => p

/-- What is wrong, in words. -/
def message : LexError → String
  | unexpectedCharacter _ c => "Unexpected character '" ++ String.singleton c ++ "'"
  | unterminatedString _ => "Unterminated string"
  | unterminatedComment _ => "Unterminated block comment"
  | invalidEscape _ c => "Invalid escape sequence '\\" ++ String.singleton c ++ "'"

end LexError

-- ============================================================================
-- Lexemes, without positions
-- ============================================================================

/-- What stands at the beginning of a text that is neither blank nor a comment. -/
inductive Munch where
  /-- A lexeme of this kind and length. -/
  | token (kind : Kind) (length : Nat)
  /-- A character that begins nothing. -/
  | stray (c : Char)
  /-- A quote that is never closed. -/
  | openString
  /-- A string with a backslash at this index before a character that cannot be escaped. -/
  | badEscape (index : Nat) (c : Char)
deriving DecidableEq, Inhabited

namespace Munch

/-- May the character follow a backslash in a string? -/
def isEscapable (c : Char) : Bool := c == 'n' || c == 't' || c == '\\' || c == '\''

/-- The rest of a string whose first `read` characters, the opening quote among them, are read. -/
def string (read : Nat) : List Char → Munch
  | [] => .openString
  | '\'' :: _ => .token .string (read + 1)
  | ['\\'] => .openString
  | '\\' :: c :: rest => if isEscapable c then string (read + 2) rest else .badEscape read c
  | _ :: rest => string (read + 1) rest

/-- Length of the number at the beginning of a text: digits, and a point if digits follow it. -/
def numberLength (text : List Char) : Nat :=
  let whole := (text.takeWhile isDigit).length
  match text.dropWhile isDigit with
  | '.' :: rest =>
    let places := (rest.takeWhile isDigit).length
    if places = 0 then whole else whole + 1 + places
  | _ => whole

/-- The word at the beginning of a text. -/
def word (text : List Char) : Munch :=
  let letters := text.takeWhile isWordChar
  .token (Kind.ofWord (String.ofList letters)) letters.length

/-- A lexeme that may be one character longer: two characters long if `second` follows the first. -/
def oneOrTwo (second : Char) (short long : Kind) (rest : List Char) : Munch :=
  if rest.head? = some second then .token long 2 else .token short 1

/-- A lexeme that needs `second` to follow its first character `c`. -/
def onlyTwo (c second : Char) (long : Kind) (rest : List Char) : Munch :=
  if rest.head? = some second then .token long 2 else .stray c

/-- The longest lexeme at the beginning of a text, or what is wrong there. -/
def ofText : List Char → Munch
  | [] => .token .eof 0
  | c :: rest =>
    match c with
    | '(' => .token .leftParen 1
    | ')' => .token .rightParen 1
    | '\x7b' => .token .leftBrace 1
    | '\x7d' => .token .rightBrace 1
    | ',' => .token .comma 1
    | ';' => .token .semicolon 1
    | '=' => oneOrTwo '=' .assign .equal rest
    | '!' => oneOrTwo '=' .not .notEqual rest
    | '>' => oneOrTwo '=' .greater .greaterEqual rest
    | '<' => oneOrTwo '=' .less .lessEqual rest
    | '&' => onlyTwo c '&' .andSign rest
    | '|' => onlyTwo c '|' .orSign rest
    | '+' => .token .plus 1
    | '-' => .token .minus 1
    | '*' => .token .star 1
    | '/' => .token .slash 1
    | '\'' => string 1 rest
    | _ =>
      if isDigit c then .token .number (numberLength (c :: rest))
      else if isLetter c then word (c :: rest)
      else .stray c

end Munch

-- ============================================================================
-- Gaps
-- ============================================================================

/-- Where in a source text reading has come to. -/
structure Cursor where
  rest : List Char
  pos : Pos
deriving DecidableEq, Inhabited

namespace Cursor

/-- The beginning of a source text. -/
def ofSource (source : String) : Cursor := ⟨source.toList, Pos.first⟩

/-- The cursor behind the next `n` characters. -/
def advance (c : Cursor) (n : Nat) : Cursor := ⟨c.rest.drop n, c.pos.after (c.rest.take n)⟩

end Cursor

/-- What kind of gap a character stands in. -/
inductive GapMode where
  /-- Between comments. -/
  | blank
  /-- In a comment up to the end of the line. -/
  | line
  /-- In a block comment opened at `opened`, `depth` levels below the outermost one. -/
  | block (opened : Pos) (depth : Nat)
deriving DecidableEq, Inhabited

/-- Passes over blanks and comments. Gives the place of a block comment that is never closed, if
    there is one, and the cursor behind the gap. Comment marks are two characters taken at once:
    `/*/` opens a comment and does not close it. -/
def skipGap : GapMode → List Char → Pos → Option Pos × Cursor
  | .block opened _, [], p => (some opened, ⟨[], p⟩)
  | _, [], p => (none, ⟨[], p⟩)
  | .blank, '/' :: '/' :: rest, p => skipGap .line rest (p.after ['/', '/'])
  | .blank, '/' :: '*' :: rest, p => skipGap (.block p 0) rest (p.after ['/', '*'])
  | .blank, c :: rest, p =>
    if Text.isBlank c then skipGap .blank rest (p.step c) else (none, ⟨c :: rest, p⟩)
  | .line, c :: rest, p => skipGap (if c = '\n' then .blank else .line) rest (p.step c)
  | .block opened depth, '/' :: '*' :: rest, p =>
    skipGap (.block opened (depth + 1)) rest (p.after ['/', '*'])
  | .block _ 0, '*' :: '/' :: rest, p => skipGap .blank rest (p.after ['*', '/'])
  | .block opened (depth + 1), '*' :: '/' :: rest, p =>
    skipGap (.block opened depth) rest (p.after ['*', '/'])
  | .block opened depth, c :: rest, p => skipGap (.block opened depth) rest (p.step c)

-- ============================================================================
-- Scanning
-- ============================================================================

namespace Token

/-- Reads the lexeme at a cursor that stands behind a gap. -/
def scanLexeme (c : Cursor) : Except LexError Token × Cursor :=
  match Munch.ofText c.rest with
  | .token kind length =>
    let next := c.advance length
    (.ok ⟨kind, String.ofList (c.rest.take length), c.pos, next.pos⟩, next)
  | .stray ch => (.error (.unexpectedCharacter c.pos ch), c.advance 1)
  | .openString => (.error (.unterminatedString c.pos), c.advance c.rest.length)
  | .badEscape index ch => (.error (.invalidEscape (c.advance index).pos ch), c.advance (index + 2))

/-- Reads the next token. The cursor it gives stands behind everything that was read, also when
    that was not a token; at the end of the text the token is the end marker, again and again. -/
def scan (c : Cursor) : Except LexError Token × Cursor :=
  match skipGap .blank c.rest c.pos with
  | (some opened, next) => (.error (.unterminatedComment opened), next)
  | (none, next) => scanLexeme next

/-- What `count` scans one after the other give. -/
def scanTimes : Nat → Cursor → List (Except LexError Token)
  | 0, _ => []
  | count + 1, c =>
    let (result, next) := scan c
    result :: scanTimes count next

/-- The tokens from a cursor on, the end marker being the last. Each token but that one takes a
    character, so a `bound` of at least the number of characters left is never used up early. -/
def tokensFrom : Nat → Cursor → Except LexError (List Token)
  | 0, c => .ok [⟨.eof, "", c.pos, c.pos⟩]
  | bound + 1, c =>
    match scan c with
    | (.error e, _) => .error e
    | (.ok t, next) =>
      if t.kind = .eof then .ok [t] else (tokensFrom bound next).map (t :: ·)

/-- The tokens of a source text; the last one, and no other, is the end marker. -/
def tokenize (source : String) : Except LexError (List Token) :=
  let c := Cursor.ofSource source
  tokensFrom c.rest.length c

end Token

end Lexiscope

/-
  Lexiscope.Token.Basic

  Tokens: what a lexeme is (`Kind`), the sort of thing its kind is (`Group`),
  and where it stands (`Pos`). A string token knows its decoded contents.
-/

namespace Lexiscope

-- ============================================================================
-- Positions
-- ============================================================================

/-- A place in a source text. Lines and columns count from one, columns in characters. -/
structure Pos where
  line : Nat
  column : Nat
deriving DecidableEq, Inhabited

namespace Pos

/-- Where every source text begins. -/
def first : Pos := ⟨1, 1⟩

/-- The place behind one character: only a newline begins a new line. -/
def step (p : Pos) (c : Char) : Pos :=
  if c = '\n' then ⟨p.line + 1, 1⟩ else ⟨p.line, p.column + 1⟩

/-- The place behind a run of characters. -/
def after (p : Pos) (text : List Char) : Pos := text.foldl step p

theorem after_nil (p : Pos) : p.after [] = p := rfl

theorem after_cons (p : Pos) (c : Char) (text : List Char) :
    p.after (c :: text) = (p.step c).after text := rfl

theorem after_append (p : Pos) (a b : List Char) : p.after (a ++ b) = (p.after a).after b :=
  List.foldl_append ..

end Pos

-- ============================================================================
-- Kinds
-- ============================================================================

/-- What a token is. -/
inductive Kind where
  | leftParen | rightParen | leftBrace | rightBrace | comma | semicolon
  | assign | equal | not | notEqual | greater | greaterEqual | less | lessEqual
  | plus | minus | star | slash | andSign | orSign
  | identifier | number | string
  | letWord | fnWord | ifWord | elseWord | whileWord | returnWord
  | andWord | orWord | trueWord | falseWord | nilWord
  | eof
deriving DecidableEq, Inhabited

/-- The sort of thing that a kind of token is. -/
inductive Group where
  | identifier | number | string | keyword | operator | punctuation | eof
deriving DecidableEq, Inhabited

namespace Kind

/-- The group that a kind belongs to. -/
def group : Kind → Group
  | leftParen | rightParen | leftBrace | rightBrace | comma | semicolon => .punctuation
  | assign | equal | not | notEqual | greater | greaterEqual | less | lessEqual
  | plus | minus | star | slash | andSign | orSign => .operator
  | identifier => .identifier
  | number => .number
  | string => .string
  | letWord | fnWord | ifWord | elseWord | whileWord | returnWord
  | andWord | orWord | trueWord | falseWord | nilWord => .keyword
  | eof => .eof

/-- The reserved words. -/
def keywords : List (String × Kind) :=
  [("let", letWord), ("fn", fnWord), ("if", ifWord), ("else", elseWord), ("while", whileWord),
   ("return", returnWord), ("and", andWord), ("or", orWord), ("true", trueWord),
   ("false", falseWord), ("nil", nilWord)]

/-- The kind of a reserved word. -/
def keyword? (name : String) : Option Kind := keywords.lookup name

/-- The kind of a word: reserved, or else an identifier. -/
def ofWord (word : String) : Kind := (keyword? word).getD .identifier

end Kind

-- ============================================================================
-- Tokens
-- ============================================================================

/-- A piece of source text with its kind, and the places where it begins and ends. -/
structure Token where
  kind : Kind
  lexeme : String
  start : Pos
  stop : Pos
deriving DecidableEq, Inhabited

namespace Token

/-- Decodes the text between the quotes of a string: `\n` and `\t` stand for a newline and a tab,
    any other escaped character for itself, and a lone backslash at the end for nothing. -/
def unescape : List Char → List Char
  | [] => []
  | ['\\'] => []
  | '\\' :: c :: rest =>
    (if c = 'n' then '\n' else if c = 't' then '\t' else c) :: unescape rest
  | c :: rest => c :: unescape rest

/-- The text between the quotes of a string lexeme; both quotes have to be there. -/
def unquote? : List Char → Option (List Char)
  | '\'' :: rest => if rest.getLast? = some '\'' then some rest.dropLast else none
  | _ => none

/-- The string that a string token stands for. -/
def stringValue? (t : Token) : Option String :=
  if t.kind = .string then
    (unquote? t.lexeme.toList).map fun inner => String.ofList (unescape inner)
  else none

/-- The token as error messages show it. -/
def describe (t : Token) : String :=
  if t.kind = .eof then "end of input" else "'" ++ t.lexeme ++ "'"

end Token

end Lexiscope

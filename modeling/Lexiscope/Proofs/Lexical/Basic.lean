/-
  Lexiscope.Proofs.Lexical.Basic

  What lexemes and gaps are, and what it means that a source text is made of
  them.

  A text is split into pieces, each a gap and the lexeme behind it, and a last
  gap. The classes of lexemes are said without any order of reading; that the
  longest lexeme wins is a condition on the split. Places are said by counting:
  a text leads to the line behind its newlines, and to the column behind the
  characters that follow the last of them.
-/
import Lexiscope.Token.Lexer

namespace Lexiscope.Lexical

-- ============================================================================
-- Lexemes
-- ============================================================================

/-- Lexemes made of signs. -/
def signs : List (List Char × Kind) :=
  [(['('], .leftParen), ([')'], .rightParen), (['\x7b'], .leftBrace), (['\x7d'], .rightBrace),
   ([','], .comma), ([';'], .semicolon), (['='], .assign), (['=', '='], .equal), (['!'], .not),
   (['!', '='], .notEqual), (['>'], .greater), (['>', '='], .greaterEqual), (['<'], .less),
   (['<', '='], .lessEqual), (['&', '&'], .andSign), (['|', '|'], .orSign), (['+'], .plus),
   (['-'], .minus), (['*'], .star), (['/'], .slash)]

/-- Reserved words. -/
def words : List (List Char × Kind) :=
  [(['l', 'e', 't'], .letWord), (['f', 'n'], .fnWord), (['i', 'f'], .ifWord),
   (['e', 'l', 's', 'e'], .elseWord), (['w', 'h', 'i', 'l', 'e'], .whileWord),
   (['r', 'e', 't', 'u', 'r', 'n'], .returnWord), (['a', 'n', 'd'], .andWord),
   (['o', 'r'], .orWord), (['t', 'r', 'u', 'e'], .trueWord),
   (['f', 'a', 'l', 's', 'e'], .falseWord), (['n', 'i', 'l'], .nilWord)]

/-- A letter or underscore, then letters, underscores and digits. -/
def IsWord : List Char → Prop
  | [] => False
  | c :: rest => isLetter c = true ∧ ∀ d ∈ rest, isWordChar d = true

instance : DecidablePred IsWord
  | [] => inferInstanceAs (Decidable False)
  | c :: rest =>
    decidable_of_iff (isLetter c = true ∧ rest.all isWordChar = true) (by simp [IsWord])

/-- One digit or more. -/
def IsDigits (text : List Char) : Prop := text ≠ [] ∧ ∀ d ∈ text, isDigit d = true

/-- What stands between the quotes of a string: characters other than the quote and the backslash,
    and a backslash before one of the letters `n` and `t`, a backslash or a quote. -/
inductive StringBody : List Char → Prop where
  | nil : StringBody []
  | plain {c : Char} {rest : List Char} (hquote : c ≠ '\'') (hslash : c ≠ '\\')
      (h : StringBody rest) : StringBody (c :: rest)
  | escape {c : Char} {rest : List Char} (hc : c ∈ ['n', 't', '\\', '\''])
      (h : StringBody rest) : StringBody ('\\' :: c :: rest)

/-- The texts that are tokens of a kind. -/
inductive Lexeme : Kind → List Char → Prop where
  | sign {kind : Kind} {text : List Char} (h : (text, kind) ∈ signs) : Lexeme kind text
  | word {kind : Kind} {text : List Char} (h : (text, kind) ∈ words) : Lexeme kind text
  | identifier {text : List Char} (hword : IsWord text) (hfree : ∀ kind, (text, kind) ∉ words) :
      Lexeme .identifier text
  | whole {text : List Char} (h : IsDigits text) : Lexeme .number text
  | fraction {whole places : List Char} (hwhole : IsDigits whole) (hplaces : IsDigits places) :
      Lexeme .number (whole ++ '.' :: places)
  | string {body : List Char} (h : StringBody body) : Lexeme .string ('\'' :: body ++ ['\''])

-- ============================================================================
-- Gaps
-- ============================================================================

/-- The rest of a block comment behind the mark that opens it: comments inside, characters that
    begin no mark, and the mark that closes it. -/
inductive CommentRest : List Char → Prop where
  | close : CommentRest ['*', '/']
  | nested {inner rest : List Char} (hinner : CommentRest inner) (h : CommentRest rest) :
      CommentRest ('/' :: '*' :: inner ++ rest)
  | other {c : Char} {rest : List Char} (hopen : ¬ ['/', '*'] <+: c :: rest)
      (hclose : ¬ ['*', '/'] <+: c :: rest) (h : CommentRest rest) : CommentRest (c :: rest)

/-- Blanks and comments. At the end of a source text (`last`) a comment up to the end of the line
    needs no newline. -/
inductive Gap (last : Bool) : List Char → Prop where
  | nil : Gap last []
  | blank {c : Char} {rest : List Char} (hblank : Text.isBlank c = true) (h : Gap last rest) :
      Gap last (c :: rest)
  | line {body rest : List Char} (hbody : '\n' ∉ body) (h : Gap last rest) :
      Gap last ('/' :: '/' :: body ++ '\n' :: rest)
  | lastLine {body : List Char} (hlast : last = true) (hbody : '\n' ∉ body) :
      Gap last ('/' :: '/' :: body)
  | block {comment rest : List Char} (hcomment : CommentRest comment) (h : Gap last rest) :
      Gap last ('/' :: '*' :: comment ++ rest)

-- ============================================================================
-- Splits
-- ============================================================================

/-- A gap and the lexeme behind it. -/
structure Piece where
  gap : List Char
  kind : Kind
  lexeme : List Char
deriving DecidableEq

/-- May the piece be cut off before the text `after`? Its lexeme has to be the longest one there,
    and what looks like the beginning of a comment is no division sign. -/
structure Piece.Fits (p : Piece) (after : List Char) : Prop where
  gap : Gap false p.gap
  lexeme : Lexeme p.kind p.lexeme
  longest : ∀ kind text, Lexeme kind text → text <+: p.lexeme ++ after →
    text.length ≤ p.lexeme.length
  no_comment : p.kind = .slash → after.head? ≠ some '/' ∧ after.head? ≠ some '*'

/-- The text is made of the pieces, one behind the other, and a last gap. -/
inductive Splits : List Char → List Piece → List Char → Prop where
  | last {gap : List Char} (h : Gap true gap) : Splits gap [] gap
  | piece {p : Piece} {after gap : List Char} {ps : List Piece} (hp : p.Fits after)
      (h : Splits after ps gap) : Splits (p.gap ++ (p.lexeme ++ after)) (p :: ps) gap

-- ============================================================================
-- Places
-- ============================================================================

/-- The place behind a text that begins where source texts begin. -/
def reached (text : List Char) : Pos :=
  ⟨1 + text.count '\n', 1 + (text.reverse.takeWhile (· ≠ '\n')).length⟩

/-- The tokens of the pieces behind the text `before`, and the end marker behind the last gap. -/
def tokens (before : List Char) : List Piece → List Char → List Token
  | [], gap => [⟨.eof, "", reached (before ++ gap), reached (before ++ gap)⟩]
  | p :: ps, gap =>
    ⟨p.kind, String.ofList p.lexeme, reached (before ++ p.gap),
      reached (before ++ p.gap ++ p.lexeme)⟩ :: tokens (before ++ p.gap ++ p.lexeme) ps gap

theorem reached_snoc (text : List Char) (c : Char) :
    reached (text ++ [c]) = (reached text).step c := by
  by_cases hc : c = '\n'
  · simp [reached, Pos.step, hc, Nat.add_assoc]
  · simp [reached, Pos.step, hc, Nat.add_comm]

theorem reached_append (before text : List Char) :
    reached (before ++ text) = (reached before).after text := by
  induction text generalizing before with
  | nil => rw [List.append_nil, Pos.after_nil]
  | cons c text ih => rw [List.append_cons, ih, reached_snoc, Pos.after_cons]

end Lexiscope.Lexical

/-
  Lexiscope.Proofs.Printing.Pieces

  The text of a program, cut into gaps and lexemes.

  The pieces are those that the printer has in mind: a name is a name, a string
  constant is one string, whatever stands in it. Whether the lexer finds the
  same pieces is another question. Written one behind the other, the pieces
  give the text of the program.
-/
import Lexiscope.Proofs.Lexical.Basic
import Lexiscope.Syntax.Print

namespace Lexiscope

open Lexical (Piece)

-- ============================================================================
-- Pieces
-- ============================================================================

/-- The text of some pieces. -/
def flat (ps : List Piece) : List Char := ps.flatMap fun p => p.gap ++ p.lexeme

@[simp] theorem flat_nil : flat [] = [] := rfl

@[simp] theorem flat_cons (p : Piece) (ps : List Piece) :
    flat (p :: ps) = p.gap ++ (p.lexeme ++ flat ps) := by
  simp [flat]

@[simp] theorem flat_append (ps qs : List Piece) : flat (ps ++ qs) = flat ps ++ flat qs := by
  simp [flat]

/-- A token that is written out behind a gap. -/
def Token.piece (gap : List Char) (t : Token) : Piece := ⟨gap, t.kind, t.lexeme.toList⟩

namespace Printing

/-- A sign or word of the syntax behind a gap. -/
abbrev opening (gap : List Char) : Piece := ⟨gap, .leftParen, ['(']⟩
abbrev closing : Piece := ⟨[], .rightParen, [')']⟩
abbrev comma : Piece := ⟨[], .comma, [',']⟩
abbrev semicolon : Piece := ⟨[], .semicolon, [';']⟩
abbrev equals : Piece := ⟨[' '], .assign, ['=']⟩
abbrev leftBrace (gap : List Char) : Piece := ⟨gap, .leftBrace, ['\x7b']⟩
abbrev rightBrace (gap : List Char) : Piece := ⟨gap, .rightBrace, ['\x7d']⟩
abbrev letWord (gap : List Char) : Piece := ⟨gap, .letWord, ['l', 'e', 't']⟩
abbrev fnWord (gap : List Char) : Piece := ⟨gap, .fnWord, ['f', 'n']⟩
abbrev ifWord (gap : List Char) : Piece := ⟨gap, .ifWord, ['i', 'f']⟩
abbrev elseWord : Piece := ⟨[' '], .elseWord, ['e', 'l', 's', 'e']⟩
abbrev whileWord (gap : List Char) : Piece := ⟨gap, .whileWord, ['w', 'h', 'i', 'l', 'e']⟩
abbrev returnWord (gap : List Char) : Piece := ⟨gap, .returnWord, ['r', 'e', 't', 'u', 'r', 'n']⟩

/-- A number. Infinity has no digits and is a name for the lexer. -/
def numberPiece (gap : List Char) (x : Float) : Piece :=
  ⟨gap, if x.isFinite then .number else .identifier, (Number.text x).toList⟩

/-- A string between quotes. -/
def stringPiece (gap : List Char) (s : String) : Piece := ⟨gap, .string, '\'' :: s.toList ++ ['\'']⟩

/-- One of the words for truth values, and the word for nothing. -/
def booleanPiece (gap : List Char) : Bool → Piece
  | true => ⟨gap, .trueWord, ['t', 'r', 'u', 'e']⟩
  | false => ⟨gap, .falseWord, ['f', 'a', 'l', 's', 'e']⟩

abbrev nilWord (gap : List Char) : Piece := ⟨gap, .nilWord, ['n', 'i', 'l']⟩

/-- Names behind the first one, with commas before them. -/
def moreNames : List Token → List Piece
  | [] => []
  | t :: rest => comma :: t.piece [' '] :: moreNames rest

/-- Names with commas between them. -/
def names : List Token → List Piece
  | [] => []
  | t :: rest => t.piece [] :: moreNames rest

end Printing

open Printing

mutual

/-- The pieces of an expression behind a gap. -/
def Expr.pieces (gap : List Char) : Expr → List Piece
  | .number value => [numberPiece gap value]
  | .string value => [stringPiece gap value]
  | .boolean value => [booleanPiece gap value]
  | .nil => [nilWord gap]
  | .identifier name => [name.piece gap]
  | .unary _ mark operand =>
    opening gap :: mark.piece [] :: (operand.pieces [] ++ [closing])
  | .binary _ mark left right =>
    opening gap :: (left.pieces [] ++ mark.piece [' '] :: (right.pieces [' '] ++ [closing]))
  | .assign target value =>
    opening gap :: target.piece [] :: equals :: (value.pieces [' '] ++ [closing])
  | .call callee _ args =>
    opening gap :: (callee.pieces [] ++ opening [] :: (Expr.rowPieces args ++ [closing, closing]))

/-- The pieces of expressions with commas between them. -/
def Expr.rowPieces : List Expr → List Piece
  | [] => []
  | e :: rest => e.pieces [] ++ Expr.moreRowPieces rest

/-- The pieces of expressions behind the first one, with commas before them. -/
def Expr.moreRowPieces : List Expr → List Piece
  | [] => []
  | e :: rest => comma :: (e.pieces [' '] ++ Expr.moreRowPieces rest)

end

mutual

/-- The pieces of a statement behind a gap. -/
def Stmt.pieces (gap : List Char) : Stmt → List Piece
  | .expression e => e.pieces gap ++ [semicolon]
  | .letVar name none => [letWord gap, name.piece [' '], semicolon]
  | .letVar name (some value) =>
    letWord gap :: name.piece [' '] :: equals :: (value.pieces [' '] ++ [semicolon])
  | .block _ body => leftBrace gap :: Stmt.bodyPieces body
  | .ifThen _ condition yes =>
    ifWord gap :: opening [' '] :: (condition.pieces [] ++ closing :: yes.pieces [' '])
  | .ifThenElse _ condition yes no =>
    ifWord gap :: opening [' '] :: (condition.pieces [] ++ closing ::
      (yes.pieces [' '] ++ elseWord :: no.pieces [' ']))
  | .whileLoop _ condition body =>
    whileWord gap :: opening [' '] :: (condition.pieces [] ++ closing :: body.pieces [' '])
  | .function _ name params body =>
    fnWord gap :: name.piece [' '] :: opening [] :: (names params ++ closing ::
      leftBrace [' '] :: Stmt.bodyPieces body)
  | .returnStmt _ none => [returnWord gap, semicolon]
  | .returnStmt _ (some value) => returnWord gap :: (value.pieces [' '] ++ [semicolon])

/-- The pieces of statements behind a brace, and the brace that closes it. -/
def Stmt.bodyPieces : List Stmt → List Piece
  | [] => [rightBrace [' ', ' ']]
  | s :: rest => s.pieces [' '] ++ (Stmt.morePieces rest ++ [rightBrace [' ']])

/-- The pieces of statements behind the first one. -/
def Stmt.morePieces : List Stmt → List Piece
  | [] => []
  | s :: rest => s.pieces [' '] ++ Stmt.morePieces rest

end

/-- The pieces of a program. -/
def Program.pieces (p : Program) : List Piece :=
  match p.statements with
  | [] => []
  | s :: rest => s.pieces [] ++ Stmt.morePieces rest

-- ============================================================================
-- The text of the pieces
-- ============================================================================

/-- Texts with separators between them: each but the first has one before it. -/
theorem toList_intercalate_cons (separator first : String) (rest : List String) :
    (separator.intercalate (first :: rest)).toList =
      first.toList ++ rest.flatMap fun s => separator.toList ++ s.toList := by
  induction rest generalizing first with
  | nil => rw [String.intercalate_singleton, List.flatMap_nil, List.append_nil]
  | cons second rest ih =>
    rw [String.intercalate_cons_cons, String.toList_append, String.toList_append, ih,
      List.flatMap_cons]
    simp only [List.append_assoc]

theorem flat_moreNames (ts : List Token) :
    flat (moreNames ts) = (ts.map Token.lexeme).flatMap fun s => ", ".toList ++ s.toList := by
  induction ts with
  | nil => rfl
  | cons t rest ih => simp [moreNames, Token.piece, ih]

theorem flat_names (ts : List Token) :
    flat (names ts) = (", ".intercalate (ts.map Token.lexeme)).toList := by
  cases ts with
  | nil => rfl
  | cons t rest =>
    rw [names, flat_cons, flat_moreNames, List.map_cons, toList_intercalate_cons]
    rfl

theorem flat_booleanPiece (gap : List Char) (b : Bool) :
    flat [booleanPiece gap b] = gap ++ (if b then "true" else "false").toList := by
  cases b <;> simp [booleanPiece]

mutual

/-- The pieces of an expression give its text. -/
theorem Expr.flat_pieces (gap : List Char) : (e : Expr) → flat (e.pieces gap) = gap ++ e.text.toList
  | .number _ | .identifier _ => by simp [Expr.pieces, Expr.text, numberPiece, Token.piece]
  | .string _ => by simp [Expr.pieces, Expr.text, stringPiece]
  | .boolean value => flat_booleanPiece gap value
  | .nil => by simp [Expr.pieces, Expr.text]
  | .unary _ mark operand => by
    simp [Expr.pieces, Expr.text, Token.piece, operand.flat_pieces]
  | .binary _ mark left right => by
    simp [Expr.pieces, Expr.text, Token.piece, left.flat_pieces, right.flat_pieces]
  | .assign target value => by
    simp [Expr.pieces, Expr.text, Token.piece, value.flat_pieces]
  | .call callee _ args => by
    simp [Expr.pieces, Expr.text, callee.flat_pieces, Expr.flat_rowPieces args]

theorem Expr.flat_rowPieces :
    (es : List Expr) → flat (Expr.rowPieces es) = (", ".intercalate (Expr.texts es)).toList
  | [] => rfl
  | e :: rest => by
    rw [Expr.rowPieces, flat_append, e.flat_pieces, Expr.flat_moreRowPieces rest, Expr.texts,
      toList_intercalate_cons]
    rfl

theorem Expr.flat_moreRowPieces :
    (es : List Expr) → flat (Expr.moreRowPieces es) =
      (Expr.texts es).flatMap fun s => ", ".toList ++ s.toList
  | [] => rfl
  | e :: rest => by
    simp [Expr.moreRowPieces, Expr.texts, e.flat_pieces, Expr.flat_moreRowPieces rest]

end

mutual

/-- The pieces of a statement give its text. -/
theorem Stmt.flat_pieces (gap : List Char) : (s : Stmt) → flat (s.pieces gap) = gap ++ s.text.toList
  | .expression e => by simp [Stmt.pieces, Stmt.text, e.flat_pieces]
  | .letVar name none => by simp [Stmt.pieces, Stmt.text, Token.piece]
  | .letVar name (some value) => by
    simp [Stmt.pieces, Stmt.text, Token.piece, value.flat_pieces]
  | .block _ body => by simp [Stmt.pieces, Stmt.text, Stmt.flat_bodyPieces body]
  | .ifThen _ condition yes => by
    simp [Stmt.pieces, Stmt.text, condition.flat_pieces, yes.flat_pieces]
  | .ifThenElse _ condition yes no => by
    simp [Stmt.pieces, Stmt.text, condition.flat_pieces, yes.flat_pieces, no.flat_pieces]
  | .whileLoop _ condition body => by
    simp [Stmt.pieces, Stmt.text, condition.flat_pieces, body.flat_pieces]
  | .function _ name params body => by
    simp [Stmt.pieces, Stmt.text, Token.piece, flat_names, Stmt.flat_bodyPieces body]
  | .returnStmt _ none => by simp [Stmt.pieces, Stmt.text]
  | .returnStmt _ (some value) => by simp [Stmt.pieces, Stmt.text, value.flat_pieces]

theorem Stmt.flat_bodyPieces :
    (ss : List Stmt) → flat (Stmt.bodyPieces ss) =
      ' ' :: ((" ".intercalate (Stmt.texts ss)).toList ++ [' ', '\x7d'])
  | [] => rfl
  | s :: rest => by
    rw [Stmt.bodyPieces, flat_append, flat_append, s.flat_pieces, Stmt.flat_morePieces rest,
      Stmt.texts, toList_intercalate_cons]
    simp

theorem Stmt.flat_morePieces :
    (ss : List Stmt) → flat (Stmt.morePieces ss) =
      (Stmt.texts ss).flatMap fun s => " ".toList ++ s.toList
  | [] => rfl
  | s :: rest => by
    simp [Stmt.morePieces, Stmt.texts, s.flat_pieces, Stmt.flat_morePieces rest]

end

/-- The pieces of a program give its text. -/
theorem Program.flat_pieces (p : Program) : flat p.pieces = p.text.toList := by
  obtain ⟨statements⟩ := p
  cases statements with
  | nil => rfl
  | cons s rest =>
    rw [Program.pieces, Program.text]
    simp only
    rw [flat_append, s.flat_pieces, Stmt.flat_morePieces, Stmt.texts, toList_intercalate_cons]
    rfl

end Lexiscope

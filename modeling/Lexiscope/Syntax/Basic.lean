/-
  Lexiscope.Syntax.Basic

  Programs as trees. Operators carry their meaning and the token that marks
  them, because an error in an operation is reported at that token. A function
  definition carries a label: two function values come from the same definition
  when the labels agree. A parser leaves all labels at zero, and loading a
  program numbers them.
-/
import Lexiscope.Token.Basic

namespace Lexiscope

/-- Operators before their operand. -/
inductive UnaryOp where
  | negate | not
deriving DecidableEq, Inhabited

/-- Operators between their operands. -/
inductive BinaryOp where
  | or | and
  | equal | notEqual
  | less | lessEqual | greater | greaterEqual
  | add | subtract
  | multiply | divide
deriving DecidableEq, Inhabited

/-- The operator that a token before an operand stands for. -/
def UnaryOp.ofKind? : Kind → Option UnaryOp
  | .minus => some .negate
  | .not => some .not
  | _ => none

/-- The operator that a token between two operands stands for. -/
def BinaryOp.ofKind? : Kind → Option BinaryOp
  | .orWord | .orSign => some .or
  | .andWord | .andSign => some .and
  | .equal => some .equal
  | .notEqual => some .notEqual
  | .less => some .less
  | .lessEqual => some .lessEqual
  | .greater => some .greater
  | .greaterEqual => some .greaterEqual
  | .plus => some .add
  | .minus => some .subtract
  | .star => some .multiply
  | .slash => some .divide
  | _ => none

/-- Expressions. -/
inductive Expr where
  | number (value : Float)
  | string (value : String)
  | boolean (value : Bool)
  | nil
  | identifier (name : Token)
  | unary (op : UnaryOp) (mark : Token) (operand : Expr)
  | binary (op : BinaryOp) (mark : Token) (left right : Expr)
  | assign (target : Token) (value : Expr)
  | call (callee : Expr) (paren : Token) (args : List Expr)
deriving BEq, Inhabited

/-- Statements. -/
inductive Stmt where
  | expression (e : Expr)
  | letVar (name : Token) (value : Option Expr)
  | block (brace : Token) (body : List Stmt)
  | ifThen (word : Token) (condition : Expr) (yes : Stmt)
  | ifThenElse (word : Token) (condition : Expr) (yes no : Stmt)
  | whileLoop (word : Token) (condition : Expr) (body : Stmt)
  | function (label : Nat) (name : Token) (params : List Token) (body : List Stmt)
  | returnStmt (word : Token) (value : Option Expr)
deriving BEq, Inhabited

/-- A function definition on its own, as function values hold it. -/
structure FunctionDef where
  label : Nat
  name : Token
  params : List Token
  body : List Stmt
deriving BEq, Inhabited

/-- How many arguments the function takes. -/
def FunctionDef.arity (f : FunctionDef) : Nat := f.params.length

/-- A source unit. Its statements run directly in the scope that it is given. -/
structure Program where
  statements : List Stmt
deriving BEq, Inhabited

-- ============================================================================
-- Labels
-- ============================================================================

mutual

/-- Numbers the function definitions of a statement from `next` on, an outer one before those
    inside it. Gives the first number that is still free. -/
def Stmt.relabel (next : Nat) : Stmt → Stmt × Nat
  | .expression e => (.expression e, next)
  | .letVar name value => (.letVar name value, next)
  | .block brace body =>
    let (body', free) := Stmt.relabelAll next body
    (.block brace body', free)
  | .ifThen word condition yes =>
    let (yes', free) := yes.relabel next
    (.ifThen word condition yes', free)
  | .ifThenElse word condition yes no =>
    let (yes', middle) := yes.relabel next
    let (no', free) := no.relabel middle
    (.ifThenElse word condition yes' no', free)
  | .whileLoop word condition body =>
    let (body', free) := body.relabel next
    (.whileLoop word condition body', free)
  | .function _ name params body =>
    let (body', free) := Stmt.relabelAll (next + 1) body
    (.function next name params body', free)
  | .returnStmt word value => (.returnStmt word value, next)

/-- Numbers the function definitions of a row of statements. -/
def Stmt.relabelAll (next : Nat) : List Stmt → List Stmt × Nat
  | [] => ([], next)
  | s :: rest =>
    let (s', middle) := s.relabel next
    let (rest', free) := Stmt.relabelAll middle rest
    (s' :: rest', free)

end

/-- Numbers the function definitions of a program from `next` on. -/
def Program.relabel (p : Program) (next : Nat) : Program × Nat :=
  let (statements, free) := Stmt.relabelAll next p.statements
  (⟨statements⟩, free)

end Lexiscope

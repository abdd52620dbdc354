/-
  Lexiscope.Syntax.Print

  Programs as text. Every operation stands in parentheses, so the text shows
  how the operands were grouped. A string constant is written between quotes
  as it is, without escapes.
-/
import Lexiscope.Decimal.Text
import Lexiscope.Syntax.Basic

namespace Lexiscope

mutual

/-- An expression, with parentheses around every operation, assignment and call. -/
def Expr.text : Expr → String
  | .number value => Number.text value
  | .string value => "'" ++ value ++ "'"
  | .boolean value => if value then "true" else "false"
  | .nil => "nil"
  | .identifier name => name.lexeme
  | .unary _ mark operand => "(" ++ mark.lexeme ++ operand.text ++ ")"
  | .binary _ mark left right => "(" ++ left.text ++ " " ++ mark.lexeme ++ " " ++ right.text ++ ")"
  | .assign target value => "(" ++ target.lexeme ++ " = " ++ value.text ++ ")"
  | .call callee _ args => "(" ++ callee.text ++ "(" ++ ", ".intercalate (Expr.texts args) ++ "))"

/-- Expressions one by one. -/
def Expr.texts : List Expr → List String
  | [] => []
  | e :: rest => e.text :: Expr.texts rest

end

mutual

/-- A statement on one line. -/
def Stmt.text : Stmt → String
  | .expression e => e.text ++ ";"
  | .letVar name none => "let " ++ name.lexeme ++ ";"
  | .letVar name (some value) => "let " ++ name.lexeme ++ " = " ++ value.text ++ ";"
  | .block _ body => "\x7b " ++ " ".intercalate (Stmt.texts body) ++ " \x7d"
  | .ifThen _ condition yes => "if (" ++ condition.text ++ ") " ++ yes.text
  | .ifThenElse _ condition yes no =>
    "if (" ++ condition.text ++ ") " ++ yes.text ++ " else " ++ no.text
  | .whileLoop _ condition body => "while (" ++ condition.text ++ ") " ++ body.text
  | .function _ name params body =>
    "fn " ++ name.lexeme ++ "(" ++ ", ".intercalate (params.map Token.lexeme) ++ ") \x7b "
      ++ " ".intercalate (Stmt.texts body) ++ " \x7d"
  | .returnStmt _ none => "return;"
  | .returnStmt _ (some value) => "return " ++ value.text ++ ";"

/-- Statements one by one. -/
def Stmt.texts : List Stmt → List String
  | [] => []
  | s :: rest => s.text :: Stmt.texts rest

end

/-- A program on one line. -/
def Program.text (p : Program) : String := " ".intercalate (Stmt.texts p.statements)

/-- A function definition on one line. -/
def FunctionDef.text (f : FunctionDef) : String :=
  (Stmt.function f.label f.name f.params f.body).text

end Lexiscope

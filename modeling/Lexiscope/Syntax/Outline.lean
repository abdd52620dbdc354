/-
  Lexiscope.Syntax.Outline

  Programs as lists of nodes. Each node of the tree is one line, a parent before
  its children and the children from left to right; nodes that hold a token show
  where it stands, and nodes with a varying number of children say how many.
-/
import Lexiscope.Decimal.Text
import Lexiscope.Syntax.Basic

namespace Lexiscope

/-- A position as `line:column`. -/
def Pos.text (p : Pos) : String := toString p.line ++ ":" ++ toString p.column

/-- A token as its lexeme with the places where it begins and ends. -/
def Token.located (t : Token) : String := t.lexeme ++ " @" ++ t.start.text ++ "-" ++ t.stop.text

/-- A node with a token and `count` children. -/
def outlineNode (what : String) (t : Token) (count : Nat) : String :=
  what ++ " " ++ t.located ++ " /" ++ toString count

mutual

/-- The nodes of an expression. -/
def Expr.outline : Expr → List String
  | .number value => ["number " ++ Number.text value]
  | .string value => ["string " ++ value]
  | .boolean value => [if value then "boolean true" else "boolean false"]
  | .nil => ["nil"]
  | .identifier name => ["identifier " ++ name.located]
  | .unary _ mark operand => ("unary " ++ mark.located) :: operand.outline
  | .binary _ mark left right => ("binary " ++ mark.located) :: (left.outline ++ right.outline)
  | .assign target value => ("assign " ++ target.located) :: value.outline
  | .call callee paren args =>
    outlineNode "call" paren args.length :: (callee.outline ++ Expr.outlineAll args)

/-- The nodes of expressions one after the other. -/
def Expr.outlineAll : List Expr → List String
  | [] => []
  | e :: rest => e.outline ++ Expr.outlineAll rest

end

/-- The nodes of an expression that may be missing. -/
def Expr.outlineOption : Option Expr → List String
  | none => []
  | some e => e.outline

mutual

/-- The nodes of a statement. -/
def Stmt.outline : Stmt → List String
  | .expression e => "expression" :: e.outline
  | .letVar name value =>
    outlineNode "let" name (if value.isSome then 1 else 0) :: Expr.outlineOption value
  | .block brace body => outlineNode "block" brace body.length :: Stmt.outlineAll body
  | .ifThen word condition yes => outlineNode "if" word 2 :: (condition.outline ++ yes.outline)
  | .ifThenElse word condition yes no =>
    outlineNode "if" word 3 :: (condition.outline ++ yes.outline ++ no.outline)
  | .whileLoop word condition body => outlineNode "while" word 2 :: (condition.outline ++ body.outline)
  | .function _ name params body =>
    outlineNode "fn" name body.length
      :: (params.map (fun p => "param " ++ p.located) ++ Stmt.outlineAll body)
  | .returnStmt word value =>
    outlineNode "return" word (if value.isSome then 1 else 0) :: Expr.outlineOption value

/-- The nodes of statements one after the other. -/
def Stmt.outlineAll : List Stmt → List String
  | [] => []
  | s :: rest => s.outline ++ Stmt.outlineAll rest

end

/-- The nodes of a program. -/
def Program.outline (p : Program) : List String := Stmt.outlineAll p.statements

end Lexiscope

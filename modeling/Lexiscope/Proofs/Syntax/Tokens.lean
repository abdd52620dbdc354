/-
  Lexiscope.Proofs.Syntax.Tokens

  The tokens and the constants in a tree.

  A tree keeps the tokens of names and operators. What two trees have in common
  that differ in such tokens only is said by a function on tokens: the trees are
  the same once it is applied everywhere. Their tokens then stand at the same
  places of two lists. Constants are no tokens any more; they are listed in the
  order in which they were written.
-/
import Lexiscope.Syntax.Basic

namespace Lexiscope

-- ============================================================================
-- Tokens in trees
-- ============================================================================

/-- The token, taken out of its place. -/
def Token.unplaced (t : Token) : Token := ⟨t.kind, t.lexeme, Pos.first, Pos.first⟩

mutual

/-- Applies a function to all tokens of an expression. -/
def Expr.mapTokens (f : Token → Token) : Expr → Expr
  | .number value => .number value
  | .string value => .string value
  | .boolean value => .boolean value
  | .nil => .nil
  | .identifier name => .identifier (f name)
  | .unary op mark operand => .unary op (f mark) (operand.mapTokens f)
  | .binary op mark left right =>
    .binary op (f mark) (left.mapTokens f) (right.mapTokens f)
  | .assign target value => .assign (f target) (value.mapTokens f)
  | .call callee paren args => .call (callee.mapTokens f) (f paren) (Expr.mapTokensAll f args)

/-- Applies a function to all tokens of some expressions. -/
def Expr.mapTokensAll (f : Token → Token) : List Expr → List Expr
  | [] => []
  | e :: rest => e.mapTokens f :: Expr.mapTokensAll f rest

end

mutual

/-- Applies a function to all tokens of a statement. -/
def Stmt.mapTokens (f : Token → Token) : Stmt → Stmt
  | .expression e => .expression (e.mapTokens f)
  | .letVar name value => .letVar (f name) (value.map (Expr.mapTokens f))
  | .block brace body => .block (f brace) (Stmt.mapTokensAll f body)
  | .ifThen word condition yes => .ifThen (f word) (condition.mapTokens f) (yes.mapTokens f)
  | .ifThenElse word condition yes no =>
    .ifThenElse (f word) (condition.mapTokens f) (yes.mapTokens f) (no.mapTokens f)
  | .whileLoop word condition body =>
    .whileLoop (f word) (condition.mapTokens f) (body.mapTokens f)
  | .function label name params body =>
    .function label (f name) (params.map f) (Stmt.mapTokensAll f body)
  | .returnStmt word value => .returnStmt (f word) (value.map (Expr.mapTokens f))

/-- Applies a function to all tokens of some statements. -/
def Stmt.mapTokensAll (f : Token → Token) : List Stmt → List Stmt
  | [] => []
  | s :: rest => s.mapTokens f :: Stmt.mapTokensAll f rest

end

/-- Applies a function to all tokens of a program. -/
def Program.mapTokens (f : Token → Token) (p : Program) : Program :=
  ⟨Stmt.mapTokensAll f p.statements⟩

mutual

/-- The tokens of an expression. -/
def Expr.tokens : Expr → List Token
  | .number _ | .string _ | .boolean _ | .nil => []
  | .identifier name => [name]
  | .unary _ mark operand => mark :: operand.tokens
  | .binary _ mark left right => left.tokens ++ mark :: right.tokens
  | .assign target value => target :: value.tokens
  | .call callee paren args => callee.tokens ++ paren :: Expr.tokensAll args

/-- The tokens of some expressions. -/
def Expr.tokensAll : List Expr → List Token
  | [] => []
  | e :: rest => e.tokens ++ Expr.tokensAll rest

end

mutual

/-- The tokens of a statement. -/
def Stmt.tokens : Stmt → List Token
  | .expression e => e.tokens
  | .letVar name value => name :: value.elim [] Expr.tokens
  | .block brace body => brace :: Stmt.tokensAll body
  | .ifThen word condition yes => word :: (condition.tokens ++ yes.tokens)
  | .ifThenElse word condition yes no => word :: (condition.tokens ++ (yes.tokens ++ no.tokens))
  | .whileLoop word condition body => word :: (condition.tokens ++ body.tokens)
  | .function _ name params body => name :: (params ++ Stmt.tokensAll body)
  | .returnStmt word value => word :: value.elim [] Expr.tokens

/-- The tokens of some statements. -/
def Stmt.tokensAll : List Stmt → List Token
  | [] => []
  | s :: rest => s.tokens ++ Stmt.tokensAll rest

end

/-- The tokens of a program. -/
def Program.tokens (p : Program) : List Token := Stmt.tokensAll p.statements

-- ============================================================================
-- Trees that stay as they are
-- ============================================================================

mutual

theorem Expr.mapTokens_id : (e : Expr) → e.mapTokens id = e
  | .number _ | .string _ | .boolean _ | .nil | .identifier _ => rfl
  | .unary _ _ operand => by rw [Expr.mapTokens, operand.mapTokens_id, id_eq]
  | .binary _ _ left right => by
    rw [Expr.mapTokens, left.mapTokens_id, right.mapTokens_id, id_eq]
  | .assign _ value => by rw [Expr.mapTokens, value.mapTokens_id, id_eq]
  | .call callee _ args => by
    rw [Expr.mapTokens, callee.mapTokens_id, Expr.mapTokensAll_id args, id_eq]

theorem Expr.mapTokensAll_id : (es : List Expr) → Expr.mapTokensAll id es = es
  | [] => rfl
  | e :: rest => by rw [Expr.mapTokensAll, e.mapTokens_id, Expr.mapTokensAll_id rest]

end

mutual

theorem Stmt.mapTokens_id : (s : Stmt) → s.mapTokens id = s
  | .expression e => by rw [Stmt.mapTokens, e.mapTokens_id]
  | .letVar _ none | .returnStmt _ none => rfl
  | .letVar name (some e) => congrArg (fun v => Stmt.letVar name (some v)) e.mapTokens_id
  | .returnStmt word (some e) => congrArg (fun v => Stmt.returnStmt word (some v)) e.mapTokens_id
  | .block _ body => by rw [Stmt.mapTokens, Stmt.mapTokensAll_id body, id_eq]
  | .ifThen _ condition yes => by
    rw [Stmt.mapTokens, condition.mapTokens_id, yes.mapTokens_id, id_eq]
  | .ifThenElse _ condition yes no => by
    rw [Stmt.mapTokens, condition.mapTokens_id, yes.mapTokens_id, no.mapTokens_id, id_eq]
  | .whileLoop _ condition body => by
    rw [Stmt.mapTokens, condition.mapTokens_id, body.mapTokens_id, id_eq]
  | .function _ _ params body => by
    rw [Stmt.mapTokens, Stmt.mapTokensAll_id body, List.map_id, id_eq]

theorem Stmt.mapTokensAll_id : (ss : List Stmt) → Stmt.mapTokensAll id ss = ss
  | [] => rfl
  | s :: rest => by rw [Stmt.mapTokensAll, s.mapTokens_id, Stmt.mapTokensAll_id rest]

end

-- ============================================================================
-- Constants in trees
-- ============================================================================

/-- A number or a string that stands in a program. -/
inductive Constant where
  | number (value : Float)
  | string (value : String)
deriving DecidableEq

mutual

/-- The constants of an expression. -/
def Expr.constants : Expr → List Constant
  | .number value => [.number value]
  | .string value => [.string value]
  | .boolean _ | .nil | .identifier _ => []
  | .unary _ _ operand => operand.constants
  | .binary _ _ left right => left.constants ++ right.constants
  | .assign _ value => value.constants
  | .call callee _ args => callee.constants ++ Expr.constantsAll args

/-- The constants of some expressions. -/
def Expr.constantsAll : List Expr → List Constant
  | [] => []
  | e :: rest => e.constants ++ Expr.constantsAll rest

end

mutual

/-- The constants of a statement. -/
def Stmt.constants : Stmt → List Constant
  | .expression e => e.constants
  | .letVar _ value => value.elim [] Expr.constants
  | .block _ body => Stmt.constantsAll body
  | .ifThen _ condition yes => condition.constants ++ yes.constants
  | .ifThenElse _ condition yes no => condition.constants ++ yes.constants ++ no.constants
  | .whileLoop _ condition body => condition.constants ++ body.constants
  | .function _ _ _ body => Stmt.constantsAll body
  | .returnStmt _ value => value.elim [] Expr.constants

/-- The constants of some statements. -/
def Stmt.constantsAll : List Stmt → List Constant
  | [] => []
  | s :: rest => s.constants ++ Stmt.constantsAll rest

end

/-- The constants of a program. -/
def Program.constants (p : Program) : List Constant := Stmt.constantsAll p.statements

-- ============================================================================
-- Constants are no tokens
-- ============================================================================

section MapTokens

variable (f : Token → Token)

mutual

theorem Expr.constants_mapTokens : (e : Expr) → (e.mapTokens f).constants = e.constants
  | .number _ | .string _ | .boolean _ | .nil | .identifier _ => rfl
  | .unary _ _ operand => by
    rw [Expr.mapTokens, Expr.constants, Expr.constants, operand.constants_mapTokens]
  | .binary _ _ left right => by
    rw [Expr.mapTokens, Expr.constants, Expr.constants, left.constants_mapTokens,
      right.constants_mapTokens]
  | .assign _ value => by
    rw [Expr.mapTokens, Expr.constants, Expr.constants, value.constants_mapTokens]
  | .call callee _ args => by
    rw [Expr.mapTokens, Expr.constants, Expr.constants, callee.constants_mapTokens,
      Expr.constantsAll_mapTokensAll args]

theorem Expr.constantsAll_mapTokensAll :
    (es : List Expr) → Expr.constantsAll (Expr.mapTokensAll f es) = Expr.constantsAll es
  | [] => rfl
  | e :: rest => by
    rw [Expr.mapTokensAll, Expr.constantsAll, Expr.constantsAll, e.constants_mapTokens,
      Expr.constantsAll_mapTokensAll rest]

end

mutual

theorem Stmt.constants_mapTokens : (s : Stmt) → (s.mapTokens f).constants = s.constants
  | .expression e => by
    rw [Stmt.mapTokens, Stmt.constants, Stmt.constants, e.constants_mapTokens]
  | .letVar _ none | .returnStmt _ none => rfl
  | .letVar _ (some e) | .returnStmt _ (some e) => e.constants_mapTokens f
  | .block _ body => by
    rw [Stmt.mapTokens, Stmt.constants, Stmt.constants, Stmt.constantsAll_mapTokensAll body]
  | .ifThen _ condition yes => by
    rw [Stmt.mapTokens, Stmt.constants, Stmt.constants, condition.constants_mapTokens,
      yes.constants_mapTokens]
  | .ifThenElse _ condition yes no => by
    rw [Stmt.mapTokens, Stmt.constants, Stmt.constants, condition.constants_mapTokens,
      yes.constants_mapTokens, no.constants_mapTokens]
  | .whileLoop _ condition body => by
    rw [Stmt.mapTokens, Stmt.constants, Stmt.constants, condition.constants_mapTokens,
      body.constants_mapTokens]
  | .function _ _ _ body => by
    rw [Stmt.mapTokens, Stmt.constants, Stmt.constants, Stmt.constantsAll_mapTokensAll body]

theorem Stmt.constantsAll_mapTokensAll :
    (ss : List Stmt) → Stmt.constantsAll (Stmt.mapTokensAll f ss) = Stmt.constantsAll ss
  | [] => rfl
  | s :: rest => by
    rw [Stmt.mapTokensAll, Stmt.constantsAll, Stmt.constantsAll, s.constants_mapTokens,
      Stmt.constantsAll_mapTokensAll rest]

end

theorem Program.constants_mapTokens (p : Program) : (p.mapTokens f).constants = p.constants :=
  Stmt.constantsAll_mapTokensAll f p.statements

theorem Expr.mapTokensAll_eq_map (es : List Expr) :
    Expr.mapTokensAll f es = es.map (Expr.mapTokens f) := by
  induction es with
  | nil => rfl
  | cons e rest ih => rw [Expr.mapTokensAll, ih, List.map_cons]

-- ============================================================================
-- Tokens keep their places
-- ============================================================================

mutual

theorem Expr.tokens_mapTokens : (e : Expr) → (e.mapTokens f).tokens = e.tokens.map f
  | .number _ | .string _ | .boolean _ | .nil | .identifier _ => rfl
  | .unary _ _ operand => by
    rw [Expr.mapTokens, Expr.tokens, Expr.tokens, operand.tokens_mapTokens, List.map_cons]
  | .binary _ _ left right => by
    rw [Expr.mapTokens, Expr.tokens, Expr.tokens, left.tokens_mapTokens, right.tokens_mapTokens,
      List.map_append, List.map_cons]
  | .assign _ value => by
    rw [Expr.mapTokens, Expr.tokens, Expr.tokens, value.tokens_mapTokens, List.map_cons]
  | .call callee _ args => by
    rw [Expr.mapTokens, Expr.tokens, Expr.tokens, callee.tokens_mapTokens,
      Expr.tokensAll_mapTokensAll args, List.map_append, List.map_cons]

theorem Expr.tokensAll_mapTokensAll :
    (es : List Expr) → Expr.tokensAll (Expr.mapTokensAll f es) = (Expr.tokensAll es).map f
  | [] => rfl
  | e :: rest => by
    rw [Expr.mapTokensAll, Expr.tokensAll, Expr.tokensAll, e.tokens_mapTokens,
      Expr.tokensAll_mapTokensAll rest, List.map_append]

end

mutual

theorem Stmt.tokens_mapTokens : (s : Stmt) → (s.mapTokens f).tokens = s.tokens.map f
  | .expression e => by
    rw [Stmt.mapTokens, Stmt.tokens, Stmt.tokens, e.tokens_mapTokens]
  | .letVar _ none | .returnStmt _ none => rfl
  | .letVar _ (some e) | .returnStmt _ (some e) => congrArg _ (e.tokens_mapTokens f)
  | .block _ body => by
    rw [Stmt.mapTokens, Stmt.tokens, Stmt.tokens, Stmt.tokensAll_mapTokensAll body, List.map_cons]
  | .ifThen _ condition yes => by
    rw [Stmt.mapTokens, Stmt.tokens, Stmt.tokens, condition.tokens_mapTokens,
      yes.tokens_mapTokens, List.map_cons, List.map_append]
  | .ifThenElse _ condition yes no => by
    rw [Stmt.mapTokens, Stmt.tokens, Stmt.tokens, condition.tokens_mapTokens,
      yes.tokens_mapTokens, no.tokens_mapTokens, List.map_cons, List.map_append, List.map_append]
  | .whileLoop _ condition body => by
    rw [Stmt.mapTokens, Stmt.tokens, Stmt.tokens, condition.tokens_mapTokens,
      body.tokens_mapTokens, List.map_cons, List.map_append]
  | .function _ _ params body => by
    rw [Stmt.mapTokens, Stmt.tokens, Stmt.tokens, Stmt.tokensAll_mapTokensAll body,
      List.map_cons, List.map_append]

theorem Stmt.tokensAll_mapTokensAll :
    (ss : List Stmt) → Stmt.tokensAll (Stmt.mapTokensAll f ss) = (Stmt.tokensAll ss).map f
  | [] => rfl
  | s :: rest => by
    rw [Stmt.mapTokensAll, Stmt.tokensAll, Stmt.tokensAll, s.tokens_mapTokens,
      Stmt.tokensAll_mapTokensAll rest, List.map_append]

end

variable {f}

/-- Expressions that differ in their tokens only have equally many. -/
theorem Expr.length_tokens_eq {e e' : Expr} (h : e.mapTokens f = e'.mapTokens f) :
    e.tokens.length = e'.tokens.length := by
  rw [← List.length_map (f := f), ← e.tokens_mapTokens, h, e'.tokens_mapTokens, List.length_map]

/-- Statements that differ in their tokens only have equally many. -/
theorem Stmt.length_tokens_eq {s s' : Stmt} (h : s.mapTokens f = s'.mapTokens f) :
    s.tokens.length = s'.tokens.length := by
  rw [← List.length_map (f := f), ← s.tokens_mapTokens, h, s'.tokens_mapTokens, List.length_map]

end MapTokens

end Lexiscope

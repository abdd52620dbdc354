/-
  Lexiscope.Syntax.Parser

  From tokens to programs, by recursive descent.

  The nesting limit is what the recursion runs on. Every statement, expression
  and operand of a prefix operator that stands inside another one takes one
  level of the `room` that is left, and none can be entered without any; so the
  three functions that call each other (`operand`, `expression`, `statement`)
  are structural in the room. An operator or call that extends a chain nests
  the tree to the left, so the length of a chain is bounded by the room as well,
  and the numbers of parameters and arguments by their own limit. Only the
  statements of a block are bounded by nothing but the tokens.

  The end marker is kept apart from the other tokens: it is never taken, and
  stands for the current token once they are used up.
-/
import Lexiscope.Syntax.Print

namespace Lexiscope

-- ============================================================================
-- Errors
-- ============================================================================

/-- What a parser was looking for. -/
inductive Expected where
  | expression
  | statementEnd
  | variableName
  | functionName
  | parameterList
  | parameterName
  | uniqueParameters
  | parameterListEnd
  | functionBody
  | ifCondition
  | ifConditionEnd
  | whileCondition
  | whileConditionEnd
  | returnInFunction
  | blockEnd
  | argumentsEnd
  | groupEnd
  | numberLiteral
  | stringLiteral
  | assignmentTarget
  | nesting (limit : Nat)
  | fewParameters (limit : Nat)
  | fewArguments (limit : Nat)
deriving DecidableEq, Inhabited

/-- What was expected, in words. -/
def Expected.text : Expected → String
  | expression => "expression"
  | statementEnd => "';' after statement"
  | variableName => "variable name after 'let'"
  | functionName => "function name after 'fn'"
  | parameterList => "'(' after function name"
  | parameterName => "parameter name"
  | uniqueParameters => "unique parameter names"
  | parameterListEnd => "')' after function parameters"
  | functionBody => "'\x7b' before function body"
  | ifCondition => "'(' after 'if'"
  | ifConditionEnd => "')' after 'if' condition"
  | whileCondition => "'(' after 'while'"
  | whileConditionEnd => "')' after 'while' condition"
  | returnInFunction => "'return' only inside a function body"
  | blockEnd => "'\x7d' after block"
  | argumentsEnd => "')' after function call arguments"
  | groupEnd => "')' after expression"
  | numberLiteral => "number literal"
  | stringLiteral => "string literal"
  | assignmentTarget => "variable name before '='"
  | nesting limit => "at most " ++ toString limit ++ " levels of nesting"
  | fewParameters limit => "at most " ++ toString limit ++ " parameters"
  | fewArguments limit => "at most " ++ toString limit ++ " call arguments"

/-- Why tokens are not a program. -/
inductive ParseError where
  /-- The token is not what has to stand there. -/
  | unexpected (expected : Expected) (token : Token)
  /-- The expression before the token `equals` cannot be assigned to. -/
  | badTarget (equals : Token) (target : Expr)
deriving Inhabited

namespace ParseError

/-- The token at which the error is reported. -/
def token : ParseError → Token
  | unexpected _ t => t
  | badTarget equals _ => equals

/-- The place of the error. -/
def pos (e : ParseError) : Pos := e.token.start

/-- What was expected there. -/
def expected : ParseError → Expected
  | unexpected x _ => x
  | badTarget _ _ => .assignmentTarget

/-- What was found there. -/
def found : ParseError → String
  | unexpected _ t => t.describe
  | badTarget _ target => "`" ++ target.text ++ "`"

/-- What is wrong, in words. -/
def message (e : ParseError) : String :=
  "Expected " ++ e.expected.text ++ ", found " ++ e.found

end ParseError

-- ============================================================================
-- Parsers
-- ============================================================================

/-- What stays the same throughout a parse: the end marker, and how deep things may nest. -/
structure ParseContext where
  eof : Token
  maxNesting : Nat
deriving Inhabited

/-- A parser takes tokens from the front of a list that holds no end marker. -/
def Parser (α : Type) : Type :=
  ParseContext → List Token → Except ParseError (α × List Token)

namespace Parser

@[inline] protected def pure {α : Type} (a : α) : Parser α := fun _ ts => .ok (a, ts)

@[inline] protected def bind {α β : Type} (p : Parser α) (f : α → Parser β) : Parser β :=
  fun ctx ts =>
    match p ctx ts with
    | .ok (a, rest) => f a ctx rest
    | .error e => .error e

instance : Monad Parser where
  pure := Parser.pure
  bind := Parser.bind

/-- The most parameters of a function, and the most arguments of a call. -/
def maxArguments : Nat := 255

/-- The current token, which is not taken. -/
@[inline] def current : Parser Token := fun ctx ts => .ok (ts.headD ctx.eof, ts)

/-- How deep things may nest. -/
@[inline] def maxNesting : Parser Nat := fun ctx ts => .ok (ctx.maxNesting, ts)

/-- How many tokens are left before the end marker. -/
@[inline] def remaining : Parser Nat := fun _ ts => .ok (ts.length, ts)

/-- Takes the current token; the end marker stays. -/
@[inline] def take : Parser Token := fun ctx ts => .ok (ts.headD ctx.eof, ts.tail)

/-- Fails at the given token. -/
@[inline] def failAt {α : Type} (t : Token) (expected : Expected) : Parser α :=
  fun _ _ => .error (.unexpected expected t)

/-- Fails at the current token. -/
@[inline] def fail {α : Type} (expected : Expected) : Parser α :=
  fun ctx ts => .error (.unexpected expected (ts.headD ctx.eof))

/-- Fails at the given token because things are nested too deep there. -/
@[inline] def tooDeep {α : Type} (t : Token) : Parser α :=
  fun ctx _ => .error (.unexpected (.nesting ctx.maxNesting) t)

/-- Fails because the expression before an equals sign cannot be assigned to. -/
@[inline] def rejectTarget {α : Type} (equals : Token) (target : Expr) : Parser α :=
  fun _ _ => .error (.badTarget equals target)

/-- Fails at the current token because things are nested too deep there. -/
@[inline] def tooDeepHere {α : Type} : Parser α :=
  fun ctx ts => .error (.unexpected (.nesting ctx.maxNesting) (ts.headD ctx.eof))

/-- Is the current token of this kind? -/
@[inline] def at_ (kind : Kind) : Parser Bool :=
  fun ctx ts => .ok (decide ((ts.headD ctx.eof).kind = kind), ts)

/-- Takes the current token if it is of this kind, and says whether it was. -/
@[inline] def skip (kind : Kind) : Parser Bool :=
  fun ctx ts => if (ts.headD ctx.eof).kind = kind then .ok (true, ts.tail) else .ok (false, ts)

/-- Takes the current token, which has to be of this kind. -/
@[inline] def expect (kind : Kind) (expected : Expected) : Parser Token :=
  fun ctx ts =>
    let t := ts.headD ctx.eof
    if t.kind = kind then .ok (t, ts.tail) else .error (.unexpected expected t)

/-- Does a statement end before the current token? -/
@[inline] def atStatementEnd : Parser Bool :=
  fun ctx ts =>
    let kind := (ts.headD ctx.eof).kind
    .ok (kind = .semicolon || kind = .rightBrace || kind = .eof, ts)

/-- Ends a statement: takes a semicolon, which may be missing before a closing brace and at the
    end of the input. -/
def statementEnd : Parser Unit := do
  if ← skip .semicolon then pure ()
  else if ← atStatementEnd then pure ()
  else fail .statementEnd

-- ============================================================================
-- Expressions
-- ============================================================================

/-- A constant, a name, or an expression in parentheses. -/
def primary (expression : Parser Expr) : Parser Expr := do
  let t ← current
  match t.kind with
  | .number =>
    let _ ← take
    match Number.ofText? t.lexeme with
    | some value => pure (.number value)
    | none => failAt t .numberLiteral
  | .string =>
    let _ ← take
    match t.stringValue? with
    | some value => pure (.string value)
    | none => failAt t .stringLiteral
  | .trueWord => let _ ← take; pure (.boolean true)
  | .falseWord => let _ ← take; pure (.boolean false)
  | .nilWord => let _ ← take; pure .nil
  | .identifier => let _ ← take; pure (.identifier t)
  | .leftParen =>
    let _ ← take
    let e ← expression
    let _ ← expect .rightParen .groupEnd
    pure e
  | _ => fail .expression

/-- The arguments behind the first one, of which at most `slots` may follow. -/
def moreArguments (expression : Parser Expr) : Nat → Parser (List Expr)
  | 0 => do if ← skip .comma then fail (.fewArguments maxArguments) else pure []
  | slots + 1 => do
    if ← skip .comma then
      let e ← expression
      let rest ← moreArguments expression slots
      pure (e :: rest)
    else pure []

/-- The arguments of a call, of which there may be none. -/
def argumentList (expression : Parser Expr) : Parser (List Expr) := do
  if ← at_ .rightParen then pure []
  else
    let first ← expression
    let rest ← moreArguments expression (maxArguments - 1)
    pure (first :: rest)

/-- The arguments of a call and the parenthesis that ends them. -/
def arguments (expression : Parser Expr) : Parser (List Expr) := do
  let args ← argumentList expression
  let _ ← expect .rightParen .argumentsEnd
  pure args

/-- The calls that follow `callee`, of which at most `room` may stand in a chain. -/
def calls (expression : Parser Expr) : Nat → Expr → Parser Expr
  | 0, callee => do
    let t ← current
    if t.kind = .leftParen then tooDeep t else pure callee
  | room + 1, callee => do
    let t ← current
    if t.kind = .leftParen then
      let _ ← take
      let args ← arguments expression
      calls expression room (.call callee t args)
    else pure callee

/-- An operand: a prefix operator with its own operand, or a primary expression with calls. -/
def unary (room : Nat) (operand expression : Parser Expr) : Parser Expr := do
  let t ← current
  match UnaryOp.ofKind? t.kind with
  | some op =>
    let _ ← take
    let e ← operand
    pure (.unary op t e)
  | none =>
    let e ← primary expression
    calls expression room e

/-- The binary operators, those that bind loosest first. -/
def ladder : List (List BinaryOp) :=
  [[.or], [.and], [.equal, .notEqual], [.less, .lessEqual, .greater, .greaterEqual],
   [.add, .subtract], [.multiply, .divide]]

/-- The operator of one rung of the ladder that the token stands for, if it does. -/
def operatorAt? (rung : List BinaryOp) (t : Token) : Option BinaryOp :=
  (BinaryOp.ofKind? t.kind).filter fun op => rung.contains op

/-- The operators of one rung that follow `left`, of which at most `room` may stand in a chain;
    they group to the left. -/
def chain (rung : List BinaryOp) (tighter : Parser Expr) : Nat → Expr → Parser Expr
  | 0, left => do
    let t ← current
    match operatorAt? rung t with
    | some _ => tooDeep t
    | none => pure left
  | room + 1, left => do
    let t ← current
    match operatorAt? rung t with
    | some op =>
      let _ ← take
      let right ← tighter
      chain rung tighter room (.binary op t left right)
    | none => pure left

/-- Operands joined by the operators of some rungs of the ladder. -/
def binary (room : Nat) (operand : Parser Expr) : List (List BinaryOp) → Parser Expr
  | [] => operand
  | rung :: tighter => do
    let first ← binary room operand tighter
    chain rung (binary room operand tighter) room first

/-- Operators of all rungs, and an assignment if an equals sign follows; assignments group to the
    right. The value is read before the target is looked at. -/
def assignment (room : Nat) (operand expression : Parser Expr) : Parser Expr := do
  let target ← binary room (unary room operand expression) ladder
  let t ← current
  if t.kind = .assign then
    let _ ← take
    let value ← expression
    match target with
    | .identifier name => pure (.assign name value)
    | _ => rejectTarget t target
  else pure target

mutual

/-- The operand of a prefix operator, one level deeper. -/
def operand : Nat → Parser Expr
  | 0, ctx, ts => tooDeepHere ctx ts
  | room + 1, ctx, ts => unary room (operand room) (expression room) ctx ts

/-- An expression, one level deeper. -/
def expression : Nat → Parser Expr
  | 0, ctx, ts => tooDeepHere ctx ts
  | room + 1, ctx, ts => assignment room (operand room) (expression room) ctx ts

end

-- ============================================================================
-- Statements
-- ============================================================================

/-- What follows the word `let`. -/
def letVar (expression : Parser Expr) : Parser Stmt := do
  let name ← expect .identifier .variableName
  if ← skip .assign then
    let value ← expression
    statementEnd
    pure (.letVar name (some value))
  else
    statementEnd
    pure (.letVar name none)

/-- Parameters behind those already read, of which at most `slots` may follow. -/
def parameters : Nat → List Token → Parser (List Token)
  | 0, _ => fail (.fewParameters maxArguments)
  | slots + 1, read => do
    let param ← expect .identifier .parameterName
    if read.any fun other => other.lexeme == param.lexeme then failAt param .uniqueParameters
    else if ← skip .comma then parameters slots (read ++ [param])
    else pure (read ++ [param])

/-- The parameters of a function, of which there may be none. -/
def parameterList : Parser (List Token) := do
  if ← at_ .rightParen then pure [] else parameters maxArguments []

/-- Statements up to a closing brace or the end of the input, at most `bound` of them. Each takes
    a token, so the number of tokens is bound enough. -/
def statements (statement : Parser Stmt) : Nat → Parser (List Stmt)
  | 0 => pure []
  | bound + 1 => do
    let t ← current
    if t.kind = .rightBrace ∨ t.kind = .eof then pure []
    else
      let s ← statement
      let rest ← statements statement bound
      pure (s :: rest)

/-- The statements behind an opening brace, and the brace that closes them. -/
def block (statement : Parser Stmt) : Parser (List Stmt) := do
  let bound ← remaining
  let body ← statements statement bound
  let _ ← expect .rightBrace .blockEnd
  pure body

/-- What follows the word `fn`. -/
def function (statement : Parser Stmt) : Parser Stmt := do
  let name ← expect .identifier .functionName
  let _ ← expect .leftParen .parameterList
  let params ← parameterList
  let _ ← expect .rightParen .parameterListEnd
  let _ ← expect .leftBrace .functionBody
  let body ← block statement
  pure (.function 0 name params body)

/-- A condition in parentheses. -/
def condition (expression : Parser Expr) (opening closing : Expected) : Parser Expr := do
  let _ ← expect .leftParen opening
  let e ← expression
  let _ ← expect .rightParen closing
  pure e

/-- What follows the word `if`. An `else` belongs to the nearest `if` before it. -/
def ifStmt (word : Token) (statement : Parser Stmt) (expression : Parser Expr) :
    Parser Stmt := do
  let test ← condition expression .ifCondition .ifConditionEnd
  let yes ← statement
  if ← skip .elseWord then
    let no ← statement
    pure (.ifThenElse word test yes no)
  else pure (.ifThen word test yes)

/-- What follows the word `while`. -/
def whileLoop (word : Token) (statement : Parser Stmt) (expression : Parser Expr) :
    Parser Stmt := do
  let test ← condition expression .whileCondition .whileConditionEnd
  let body ← statement
  pure (.whileLoop word test body)

/-- What follows the word `return`. -/
def returnStmt (word : Token) (inFunction : Bool) (expression : Parser Expr) : Parser Stmt := do
  if !inFunction then failAt word .returnInFunction
  else if ← atStatementEnd then
    statementEnd
    pure (.returnStmt word none)
  else
    let value ← expression
    statementEnd
    pure (.returnStmt word (some value))

/-- A statement, given the parsers for what stands inside it. -/
def statementBody (inFunction : Bool) (statement : Bool → Parser Stmt) (expression : Parser Expr) :
    Parser Stmt := do
  let t ← current
  match t.kind with
  | .letWord => let _ ← take; letVar expression
  | .fnWord => let _ ← take; function (statement true)
  | .ifWord => let _ ← take; ifStmt t (statement inFunction) expression
  | .whileWord => let _ ← take; whileLoop t (statement inFunction) expression
  | .returnWord => let _ ← take; returnStmt t inFunction expression
  | .leftBrace =>
    let _ ← take
    let body ← block (statement inFunction)
    pure (.block t body)
  | _ =>
    let e ← expression
    statementEnd
    pure (.expression e)

/-- A statement, one level deeper. -/
def statement (inFunction : Bool) : Nat → Parser Stmt
  | 0, ctx, ts => tooDeepHere ctx ts
  | room + 1, ctx, ts =>
    statementBody inFunction (fun inside => statement inside room) (expression room) ctx ts

/-- Statements up to the end of the input, at most `bound` of them. -/
def topLevel : Nat → Parser (List Stmt)
  | 0 => pure []
  | bound + 1 => do
    let t ← current
    if t.kind = .eof then pure []
    else
      let room ← maxNesting
      let s ← statement false room
      let rest ← topLevel bound
      pure (s :: rest)

end Parser

-- ============================================================================
-- Programs
-- ============================================================================

/-- The tokens before the first end marker. -/
def beforeEof (tokens : List Token) : List Token := tokens.takeWhile fun t => t.kind ≠ .eof

/-- The first end marker. Where there is none, one stands behind the last token. -/
def eofOf (tokens : List Token) : Token :=
  match tokens.find? fun t => t.kind = .eof with
  | some t => t
  | none =>
    let p := (tokens.getLast?.map Token.stop).getD Pos.first
    ⟨.eof, "", p, p⟩

/-- How deep statements and expressions may nest unless someone asks for another limit. -/
def defaultMaxNesting : Nat := 256

/-- Reads tokens up to the first end marker as a program. -/
def Program.parse (tokens : List Token) (maxNesting : Nat) : Except ParseError Program :=
  let body := beforeEof tokens
  (Parser.topLevel body.length ⟨eofOf tokens, maxNesting⟩ body).map fun r => ⟨r.1⟩

end Lexiscope

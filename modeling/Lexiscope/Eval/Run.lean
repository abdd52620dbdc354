/-
  Lexiscope.Eval.Run

  Running programs.

  Every function of the evaluator takes fuel and hands on less, so all of them
  are structural in it and a run that needs more than it was given ends without
  a result. Errors stand at the token of the operator, name or parenthesis that
  they belong to. A `return` travels up through blocks, branches and loops as a
  `Flow` until the call it belongs to turns it back into a value.
-/
import Lexiscope.Eval.Machine
import Lexiscope.Eval.Operation

namespace Lexiscope

/-- How a statement ends. -/
inductive Flow where
  /-- Normally, with its value. -/
  | normal (v : Value)
  /-- With a `return`, which ends the statements around it too. -/
  | returned (v : Value)
deriving Inhabited

/-- The value of a call whose body ended like this. -/
def Flow.callResult : Flow → Value
  | normal _ => .nil
  | returned v => v

/-- Binds parameters to arguments in a scope. -/
def bindParams (scope : ScopeId) : List Token → List Value → EvalM Unit
  | p :: params, a :: args => do
    EvalM.define scope p.lexeme a
    bindParams scope params args
  | _, _ => pure ()

/-- Calls a builtin function. -/
def Builtin.call (b : Builtin) (args : List Value) (paren : Token) : EvalM Value :=
  match b with
  | print => do
    EvalM.write paren (" ".intercalate (args.map Value.text) ++ "\n")
    pure .nil

mutual

/-- The value of an expression in a scope, with at most `limit` calls active at once. -/
def eval (limit : Nat) : Nat → Expr → ScopeId → EvalM Value
  | 0, _, _ => EvalM.outOfFuel
  | fuel + 1, e, scope =>
    match e with
    | .number x => pure (.number x)
    | .string s => pure (.string s)
    | .boolean b => pure (.boolean b)
    | .nil => pure .nil
    | .identifier name => EvalM.lookup scope name
    | .unary op mark operand => do
      let v ← eval limit fuel operand scope
      EvalM.ofExcept (op.apply mark v)
    | .binary op mark left right => do
      let a ← eval limit fuel left scope
      if op.settledBy a then pure a
      else
        let b ← eval limit fuel right scope
        EvalM.ofExcept (op.apply mark a b)
    | .assign target value => do
      let v ← eval limit fuel value scope
      EvalM.assign scope target v
      pure v
    | .call callee paren args => do
      let f ← eval limit fuel callee scope
      let vs ← evalAll limit fuel args scope
      call limit fuel f vs paren

/-- The values of expressions, from left to right. -/
def evalAll (limit : Nat) : Nat → List Expr → ScopeId → EvalM (List Value)
  | 0, _, _ => EvalM.outOfFuel
  | _ + 1, [], _ => pure []
  | fuel + 1, e :: rest, scope => do
    let v ← eval limit fuel e scope
    let vs ← evalAll limit fuel rest scope
    pure (v :: vs)

/-- The value of a call. The body of a function runs in a new scope inside the one that the
    function closes over. -/
def call (limit : Nat) : Nat → Value → List Value → Token → EvalM Value
  | 0, _, _, _ => EvalM.outOfFuel
  | fuel + 1, callee, args, paren =>
    match callee with
    | .function f closure => do
      let depth ← EvalM.gets Machine.activeCalls
      if args.length ≠ f.arity then
        EvalM.fail paren (.wrongArity f.name.lexeme f.arity args.length)
      else if limit ≤ depth then EvalM.fail paren (.tooDeep limit f.name.lexeme)
      else
        let scope ← EvalM.newChild closure
        bindParams scope f.params args
        EvalM.modify fun m => m.note (.calling f.name.lexeme depth)
        let flow ← EvalM.inCall (execAll limit fuel f.body .nil scope)
        pure flow.callResult
    | .builtin b => b.call args paren
    | other => EvalM.fail paren (.notCallable other.type)

/-- Runs a statement in a scope. -/
def exec (limit : Nat) : Nat → Stmt → ScopeId → EvalM Flow
  | 0, _, _ => EvalM.outOfFuel
  | fuel + 1, s, scope =>
    match s with
    | .expression e => do
      let v ← eval limit fuel e scope
      pure (.normal v)
    | .letVar name none => do
      EvalM.define scope name.lexeme .nil
      pure (.normal .nil)
    | .letVar name (some e) => do
      let v ← eval limit fuel e scope
      EvalM.define scope name.lexeme v
      pure (.normal .nil)
    | .block _ body => do
      let inner ← EvalM.newChild scope
      execAll limit fuel body .nil inner
    | .ifThen _ condition yes => do
      let v ← eval limit fuel condition scope
      if v.isTruthy then exec limit fuel yes scope else pure (.normal .nil)
    | .ifThenElse _ condition yes no => do
      let v ← eval limit fuel condition scope
      if v.isTruthy then exec limit fuel yes scope else exec limit fuel no scope
    | .whileLoop _ condition body => repeatWhile limit fuel condition body scope
    | .function label name params body => do
      EvalM.define scope name.lexeme (.function ⟨label, name, params, body⟩ scope)
      pure (.normal .nil)
    | .returnStmt _ none => pure (.returned .nil)
    | .returnStmt _ (some e) => do
      let v ← eval limit fuel e scope
      pure (.returned v)

/-- Runs statements one after the other. The value is that of the last one, or `last` if there is
    none. -/
def execAll (limit : Nat) : Nat → List Stmt → Value → ScopeId → EvalM Flow
  | 0, _, _, _ => EvalM.outOfFuel
  | _ + 1, [], last, _ => pure (.normal last)
  | fuel + 1, s :: rest, _, scope => do
    let flow ← exec limit fuel s scope
    match flow with
    | .normal v => execAll limit fuel rest v scope
    | .returned v => pure (.returned v)

/-- Runs the body of a loop as long as the condition holds, in a new scope each time. The
    statements of a block stand directly in that scope. -/
def repeatWhile (limit : Nat) : Nat → Expr → Stmt → ScopeId → EvalM Flow
  | 0, _, _, _ => EvalM.outOfFuel
  | fuel + 1, condition, body, scope => do
    let v ← eval limit fuel condition scope
    if v.isTruthy then
      let inner ← EvalM.newChild scope
      let flow ← (match body with
        | .block _ statements => execAll limit fuel statements .nil inner
        | other => exec limit fuel other inner : EvalM Flow)
      match flow with
      | .normal _ => repeatWhile limit fuel condition body scope
      | .returned v => pure (.returned v)
    else pure (.normal .nil)

end

/-- Runs the statements of a program directly in a scope. The value is that of the last statement
    at the top level, or of a `return` there. Calls are counted from zero. -/
def Program.run (p : Program) (limit fuel : Nat) (scope : ScopeId) : EvalM Value := do
  EvalM.modify fun m => { m with activeCalls := 0 }
  let flow ← execAll limit fuel p.statements .nil scope
  match flow with
  | .normal v =>
    EvalM.modify fun m => m.note (.evaluated v.echo)
    pure v
  | .returned v => pure v

end Lexiscope

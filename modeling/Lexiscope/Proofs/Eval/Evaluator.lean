/-
  Lexiscope.Proofs.Eval.Evaluator

  The evaluator, one unit of fuel at a time.

  What the functions of the evaluator do with one unit of fuel more is said in terms
  of what they do with less (`Evaluator.next`). How the body of a loop is run in the
  scope of a turn is a parameter of this, because evaluators that agree in everything
  else can differ there. The clauses of the evaluator are the instance in which the
  statements of a block stand directly in that scope (`plain_succ`).
-/
import Lexiscope.Eval.Run

namespace Lexiscope

theorem EvalM.bind_assoc {α β γ : Type} (x : EvalM α) (f : α → EvalM β) (g : β → EvalM γ) :
    x >>= f >>= g = x >>= fun a => f a >>= g := by
  funext m
  show EvalM.bind (EvalM.bind x f) g m = EvalM.bind x (fun a => EvalM.bind (f a) g) m
  unfold EvalM.bind
  rcases x m with _ | ⟨_ | a, m'⟩ <;> rfl

theorem EvalM.bind_pure {α : Type} (x : EvalM α) : x >>= pure = x := by
  funext m
  show EvalM.bind x EvalM.pure m = x m
  unfold EvalM.bind
  rcases x m with _ | ⟨_ | a, m'⟩ <;> rfl

/-- The functions of an evaluator, with the fuel that each of them has left. -/
structure Evaluator where
  eval : Expr → ScopeId → EvalM Value
  evalAll : List Expr → ScopeId → EvalM (List Value)
  call : Value → List Value → Token → EvalM Value
  exec : Stmt → ScopeId → EvalM Flow
  execAll : List Stmt → Value → ScopeId → EvalM Flow
  repeatWhile : Expr → Stmt → ScopeId → EvalM Flow

namespace Evaluator

/-- The evaluator that programs are run with. -/
def plain (limit fuel : Nat) : Evaluator where
  eval := Lexiscope.eval limit fuel
  evalAll := Lexiscope.evalAll limit fuel
  call := Lexiscope.call limit fuel
  exec := Lexiscope.exec limit fuel
  execAll := Lexiscope.execAll limit fuel
  repeatWhile := Lexiscope.repeatWhile limit fuel

/-- Nothing can be run any more. -/
def spent : Evaluator where
  eval _ _ := EvalM.outOfFuel
  evalAll _ _ := EvalM.outOfFuel
  call _ _ _ := EvalM.outOfFuel
  exec _ _ := EvalM.outOfFuel
  execAll _ _ _ := EvalM.outOfFuel
  repeatWhile _ _ _ := EvalM.outOfFuel

/-- Runs the body of a loop once, with the statements of a block directly in the scope. -/
def turn (E : Evaluator) (body : Stmt) (inner : ScopeId) : EvalM Flow :=
  match body with
  | .block _ statements => E.execAll statements .nil inner
  | other => E.exec other inner

/-- What the functions do with one unit of fuel more, if the body of a loop is run like this. -/
def next (limit : Nat) (turn : Stmt → ScopeId → EvalM Flow) (E : Evaluator) : Evaluator where
  eval e scope :=
    match e with
    | .number x => pure (.number x)
    | .string s => pure (.string s)
    | .boolean b => pure (.boolean b)
    | .nil => pure .nil
    | .identifier name => EvalM.lookup scope name
    | .unary op mark operand => do
      let v ← E.eval operand scope
      EvalM.ofExcept (op.apply mark v)
    | .binary op mark left right => do
      let a ← E.eval left scope
      if op.settledBy a then pure a
      else
        let b ← E.eval right scope
        EvalM.ofExcept (op.apply mark a b)
    | .assign target value => do
      let v ← E.eval value scope
      EvalM.assign scope target v
      pure v
    | .call callee paren args => do
      let f ← E.eval callee scope
      let vs ← E.evalAll args scope
      E.call f vs paren
  evalAll es scope :=
    match es with
    | [] => pure []
    | e :: rest => do
      let v ← E.eval e scope
      let vs ← E.evalAll rest scope
      pure (v :: vs)
  call callee args paren :=
    match callee with
    | .function f closure => do
      let depth ← EvalM.gets Machine.activeCalls
      if args.length ≠ f.arity then
        EvalM.fail paren (.wrongArity f.name.lexeme f.arity args.length)
      else if limit ≤ depth then EvalM.fail paren (.tooDeep limit f.name.lexeme)
      else
        let scope ← EvalM.newChild closure
        bindParams scope f.params args
        EvalM.modify fun m => m.note (.calling f.name.lexeme depth)
        let flow ← EvalM.inCall (E.execAll f.body .nil scope)
        pure flow.callResult
    | .builtin b => b.call args paren
    | other => EvalM.fail paren (.notCallable other.type)
  exec s scope :=
    match s with
    | .expression e => do
      let v ← E.eval e scope
      pure (.normal v)
    | .letVar name none => do
      EvalM.define scope name.lexeme .nil
      pure (.normal .nil)
    | .letVar name (some e) => do
      let v ← E.eval e scope
      EvalM.define scope name.lexeme v
      pure (.normal .nil)
    | .block _ body => do
      let inner ← EvalM.newChild scope
      E.execAll body .nil inner
    | .ifThen _ condition yes => do
      let v ← E.eval condition scope
      if v.isTruthy then E.exec yes scope else pure (.normal .nil)
    | .ifThenElse _ condition yes no => do
      let v ← E.eval condition scope
      if v.isTruthy then E.exec yes scope else E.exec no scope
    | .whileLoop _ condition body => E.repeatWhile condition body scope
    | .function label name params body => do
      EvalM.define scope name.lexeme (.function ⟨label, name, params, body⟩ scope)
      pure (.normal .nil)
    | .returnStmt _ none => pure (.returned .nil)
    | .returnStmt _ (some e) => do
      let v ← E.eval e scope
      pure (.returned v)
  execAll ss last scope :=
    match ss with
    | [] => pure (.normal last)
    | s :: rest => do
      let flow ← E.exec s scope
      match flow with
      | .normal v => E.execAll rest v scope
      | .returned v => pure (.returned v)
  repeatWhile condition body scope := do
    let v ← E.eval condition scope
    if v.isTruthy then
      let inner ← EvalM.newChild scope
      let flow ← turn body inner
      match flow with
      | .normal _ => E.repeatWhile condition body scope
      | .returned v => pure (.returned v)
    else pure (.normal .nil)

theorem plain_zero (limit : Nat) : plain limit 0 = spent := by
  unfold plain spent
  congr 1 <;> funext
  · rw [Lexiscope.eval]
  · rw [Lexiscope.evalAll]
  · rw [Lexiscope.call]
  · rw [Lexiscope.exec]
  · rw [Lexiscope.execAll]
  · rw [Lexiscope.repeatWhile]

theorem plain_succ (limit fuel : Nat) :
    plain limit (fuel + 1) = (plain limit fuel).next limit (plain limit fuel).turn := by
  unfold plain next
  congr 1
  · funext e scope
    cases e <;> rw [Lexiscope.eval]
  · funext es scope
    cases es <;> rw [Lexiscope.evalAll]
  · funext f args paren
    cases f <;> rw [Lexiscope.call] <;> simp
  · funext s scope
    cases s with
    | letVar name value | returnStmt word value => cases value <;> rw [Lexiscope.exec]
    | _ => rw [Lexiscope.exec]
  · funext ss last scope
    cases ss with
    | nil => rw [Lexiscope.execAll]
    | cons s rest =>
      rewrite [Lexiscope.execAll]
      rfl
  · funext condition body scope
    rewrite [Lexiscope.repeatWhile]
    rfl

end Evaluator

end Lexiscope

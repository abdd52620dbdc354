/-
  Lexiscope.Proofs.Eval.Reach

  What a run comes to on its way.

  The evaluator runs a task on a machine (`Moment`), and running it means running
  other tasks first: the parts of an expression, the body of a function, the
  statements of a block, one turn of a loop after the other. `Begins` has one rule
  for each place where the evaluator calls itself. A later part is begun only if the
  earlier ones ended well, and on the machine that they left. What a run comes to is
  whatever can be got at by beginning parts of parts.
-/
import Mathlib.Logic.Relation
import Lexiscope.Proofs.Eval.Phrase

namespace Lexiscope

-- ============================================================================
-- Tasks
-- ============================================================================

/-- What the evaluator can be asked to run. -/
inductive Task where
  | eval (e : Expr) (scope : ScopeId)
  | evalAll (es : List Expr) (scope : ScopeId)
  | call (f : Value) (args : List Value) (paren : Token)
  | exec (s : Stmt) (scope : ScopeId)
  | execAll (ss : List Stmt) (last : Value) (scope : ScopeId)
  | repeatWhile (condition : Expr) (body : Stmt) (scope : ScopeId)

/-- A task, and the machine on which it is run. -/
structure Moment where
  task : Task
  machine : Machine

/-- The task that a phrase is. -/
def Phrase.task (phrase : Phrase) (scope : ScopeId) : Task :=
  match phrase with
  | program p => .execAll p.statements .nil scope
  | expression e => .eval e scope

/-- Where the run of a phrase starts. A program counts its calls from zero. -/
def Phrase.start (phrase : Phrase) (scope : ScopeId) (m : Machine) : Moment where
  task := phrase.task scope
  machine :=
    match phrase with
    | program _ => { m with activeCalls := 0 }
    | expression _ => m

namespace Task

/-- The part that is run at once when the task is, on the same machine. -/
def first? : Task → Option Task
  | eval (.unary _ _ operand) scope => some (eval operand scope)
  | eval (.binary _ _ left _) scope => some (eval left scope)
  | eval (.assign _ value) scope => some (eval value scope)
  | eval (.call callee _ _) scope => some (eval callee scope)
  | evalAll (e :: _) scope => some (eval e scope)
  | exec (.expression e) scope => some (eval e scope)
  | exec (.letVar _ (some e)) scope => some (eval e scope)
  | exec (.ifThen _ condition _) scope => some (eval condition scope)
  | exec (.ifThenElse _ condition _ _) scope => some (eval condition scope)
  | exec (.whileLoop _ condition body) scope => some (repeatWhile condition body scope)
  | exec (.returnStmt _ (some e)) scope => some (eval e scope)
  | execAll (s :: _) _ scope => some (exec s scope)
  | repeatWhile condition _ scope => some (eval condition scope)
  | _ => none

/-- The body of a loop, in the scope of one turn. The statements of a block stand directly in it. -/
def turn (body : Stmt) (inner : ScopeId) : Task :=
  match body with
  | .block _ statements => execAll statements .nil inner
  | other => exec other inner

end Task

/-- Runs the body of a loop once. -/
def runTurn (limit fuel : Nat) (body : Stmt) (inner : ScopeId) : EvalM Flow :=
  match body with
  | .block _ statements => execAll limit fuel statements .nil inner
  | other => exec limit fuel other inner

/-- Makes the scope for a call of a function and binds the arguments there. -/
def enter (f : FunctionDef) (closure : ScopeId) (args : List Value) (depth : Nat) :
    EvalM ScopeId := do
  let scope ← EvalM.newChild closure
  bindParams scope f.params args
  EvalM.modify fun m => m.note (.calling f.name.lexeme depth)
  pure scope

theorem call_function_succ_eq (limit fuel : Nat) (f : FunctionDef) (closure : ScopeId)
    (args : List Value) (paren : Token) :
    call limit (fuel + 1) (.function f closure) args paren = (do
      let depth ← EvalM.gets Machine.activeCalls
      if args.length ≠ f.arity then
        EvalM.fail paren (.wrongArity f.name.lexeme f.arity args.length)
      else if limit ≤ depth then EvalM.fail paren (.tooDeep limit f.name.lexeme)
      else
        let scope ← enter f closure args depth
        let flow ← EvalM.inCall (execAll limit fuel f.body .nil scope)
        pure flow.callResult) := by
  rw [call]
  simp only [enter, EvalM.bind_assoc]
  rfl

theorem repeatWhile_succ_eq (limit fuel : Nat) (condition : Expr) (body : Stmt)
    (scope : ScopeId) :
    repeatWhile limit (fuel + 1) condition body scope = (do
      let v ← eval limit fuel condition scope
      if v.isTruthy then
        let inner ← EvalM.newChild scope
        let flow ← runTurn limit fuel body inner
        match flow with
        | .normal _ => repeatWhile limit fuel condition body scope
        | .returned w => pure (.returned w)
      else pure (.normal .nil)) := by
  rw [repeatWhile]
  rfl

-- ============================================================================
-- Moments
-- ============================================================================

/-- Running the first task on its machine means running the second on its own, as a part. -/
inductive Begins (limit : Nat) : Moment → Moment → Prop where
  | first {task part : Task} {m : Machine} (h : task.first? = some part) :
      Begins limit ⟨task, m⟩ ⟨part, m⟩
  | right {op : BinaryOp} {mark : Token} {left right : Expr} {scope : ScopeId} {m m₁ : Machine}
      {fuel : Nat} {a : Value} (hleft : eval limit fuel left scope m = some (.ok a, m₁))
      (hopen : ¬ op.settledBy a) :
      Begins limit ⟨.eval (.binary op mark left right) scope, m⟩ ⟨.eval right scope, m₁⟩
  | arguments {callee : Expr} {paren : Token} {args : List Expr} {scope : ScopeId} {m m₁ : Machine}
      {fuel : Nat} {f : Value} (hcallee : eval limit fuel callee scope m = some (.ok f, m₁)) :
      Begins limit ⟨.eval (.call callee paren args) scope, m⟩ ⟨.evalAll args scope, m₁⟩
  | call {callee : Expr} {paren : Token} {args : List Expr} {scope : ScopeId} {m m₁ m₂ : Machine}
      {fuel : Nat} {f : Value} {values : List Value}
      (hcallee : eval limit fuel callee scope m = some (.ok f, m₁))
      (hargs : evalAll limit fuel args scope m₁ = some (.ok values, m₂)) :
      Begins limit ⟨.eval (.call callee paren args) scope, m⟩ ⟨.call f values paren, m₂⟩
  | others {e : Expr} {rest : List Expr} {scope : ScopeId} {m m₁ : Machine} {fuel : Nat}
      {v : Value} (hfirst : eval limit fuel e scope m = some (.ok v, m₁)) :
      Begins limit ⟨.evalAll (e :: rest) scope, m⟩ ⟨.evalAll rest scope, m₁⟩
  | body {f : FunctionDef} {closure scope : ScopeId} {args : List Value} {paren : Token}
      {m m₁ : Machine} (harity : args.length = f.arity) (hroom : m.activeCalls < limit)
      (henter : enter f closure args m.activeCalls m = some (.ok scope, m₁)) :
      Begins limit ⟨.call (.function f closure) args paren, m⟩
        ⟨.execAll f.body .nil scope, { m₁ with activeCalls := m₁.activeCalls + 1 }⟩
  | block {brace : Token} {body : List Stmt} {scope inner : ScopeId} {m m₁ : Machine}
      (hinner : EvalM.newChild scope m = some (.ok inner, m₁)) :
      Begins limit ⟨.exec (.block brace body) scope, m⟩ ⟨.execAll body .nil inner, m₁⟩
  | branch {word : Token} {condition : Expr} {yes : Stmt} {scope : ScopeId} {m m₁ : Machine}
      {fuel : Nat} {v : Value} (hcondition : eval limit fuel condition scope m = some (.ok v, m₁))
      (htrue : v.isTruthy) :
      Begins limit ⟨.exec (.ifThen word condition yes) scope, m⟩ ⟨.exec yes scope, m₁⟩
  | either {word : Token} {condition : Expr} {yes no : Stmt} {scope : ScopeId} {m m₁ : Machine}
      {fuel : Nat} {v : Value} (hcondition : eval limit fuel condition scope m = some (.ok v, m₁)) :
      Begins limit ⟨.exec (.ifThenElse word condition yes no) scope, m⟩
        ⟨.exec (if v.isTruthy then yes else no) scope, m₁⟩
  | next {s : Stmt} {rest : List Stmt} {last v : Value} {scope : ScopeId} {m m₁ : Machine}
      {fuel : Nat} (hfirst : exec limit fuel s scope m = some (.ok (.normal v), m₁)) :
      Begins limit ⟨.execAll (s :: rest) last scope, m⟩ ⟨.execAll rest v scope, m₁⟩
  | turn {condition : Expr} {body : Stmt} {scope inner : ScopeId} {m m₁ m₂ : Machine} {fuel : Nat}
      {v : Value} (hcondition : eval limit fuel condition scope m = some (.ok v, m₁))
      (htrue : v.isTruthy) (hinner : EvalM.newChild scope m₁ = some (.ok inner, m₂)) :
      Begins limit ⟨.repeatWhile condition body scope, m⟩ ⟨Task.turn body inner, m₂⟩
  | again {condition : Expr} {body : Stmt} {scope inner : ScopeId} {m m₁ m₂ m₃ : Machine}
      {fuel : Nat} {v w : Value} (hcondition : eval limit fuel condition scope m = some (.ok v, m₁))
      (htrue : v.isTruthy) (hinner : EvalM.newChild scope m₁ = some (.ok inner, m₂))
      (hbody : runTurn limit fuel body inner m₂ = some (.ok (.normal w), m₃)) :
      Begins limit ⟨.repeatWhile condition body scope, m⟩ ⟨.repeatWhile condition body scope, m₃⟩

/-- Running the first task on its machine comes to running the second on its own. -/
def Reaches (limit : Nat) : Moment → Moment → Prop := Relation.ReflTransGen (Begins limit)

namespace Reaches

variable {limit : Nat} {z₁ z₂ z₃ : Moment}

protected theorem refl (z : Moment) : Reaches limit z z := Relation.ReflTransGen.refl

/-- What a part of a run comes to, the run comes to. -/
theorem head (h : Begins limit z₁ z₂) (h' : Reaches limit z₂ z₃) : Reaches limit z₁ z₃ :=
  Relation.ReflTransGen.head h h'

theorem first {task part : Task} {m : Machine} (hpart : task.first? = some part)
    (h : Reaches limit ⟨part, m⟩ z₃) : Reaches limit ⟨task, m⟩ z₃ :=
  head (.first hpart) h

end Reaches

end Lexiscope

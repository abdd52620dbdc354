/-
  Lexiscope.Proofs.Curbed.Passage

  A run that ends has ended everything that it came to.

  What a run begins as a part ends before the run does, and the run only adds to
  the output of the part. So the output of whatever a run comes to stands in the
  output of the run. The two fuels do not matter: the part was begun behind others
  that ended with some fuel, and with more fuel they end in the same way.
-/
import Lexiscope.Proofs.Curbed.Run
import Lexiscope.Proofs.Eval.Reach

namespace Lexiscope

-- ============================================================================
-- Tasks that end
-- ============================================================================

/-- With this much fuel the task, run on the first machine, ends and leaves the second. -/
def Task.Leaves (limit fuel : Nat) : Task → Machine → Machine → Prop
  | eval e scope, m, m' => ∃ r, Lexiscope.eval limit fuel e scope m = some (r, m')
  | evalAll es scope, m, m' => ∃ r, Lexiscope.evalAll limit fuel es scope m = some (r, m')
  | call f args paren, m, m' => ∃ r, Lexiscope.call limit fuel f args paren m = some (r, m')
  | exec s scope, m, m' => ∃ r, Lexiscope.exec limit fuel s scope m = some (r, m')
  | execAll ss last scope, m, m' => ∃ r, Lexiscope.execAll limit fuel ss last scope m = some (r, m')
  | repeatWhile condition body scope, m, m' =>
    ∃ r, Lexiscope.repeatWhile limit fuel condition body scope m = some (r, m')

/-- Some amount of fuel is enough for the task, and then the output is part of this one. -/
def Moment.Precedes (limit : Nat) (z : Moment) (m : Machine) : Prop :=
  ∃ fuel m', z.task.Leaves limit fuel z.machine m' ∧ m'.sink.GrowsTo m.sink

theorem Task.Leaves.mono {limit fuel more : Nat} {task : Task} {m m' : Machine} (hle : fuel ≤ more)
    (h : task.Leaves limit fuel m m') : task.Leaves limit more m m' := by
  have hkeeps := FuelKeeps.of_le limit hle
  cases task with
  | eval e scope => exact h.imp fun _ => hkeeps.eval e scope m _
  | evalAll es scope => exact h.imp fun _ => hkeeps.evalAll es scope m _
  | call f args paren => exact h.imp fun _ => hkeeps.call f args paren m _
  | exec s scope => exact h.imp fun _ => hkeeps.exec s scope m _
  | execAll ss last scope => exact h.imp fun _ => hkeeps.execAll ss last scope m _
  | repeatWhile condition body scope =>
    exact h.imp fun _ => hkeeps.repeatWhile condition body scope m _

/-- There is an amount of fuel with which the task ends and no step with less fuel is changed. -/
theorem Task.Leaves.common {limit more : Nat} {task : Task} {m m' : Machine}
    (h : task.Leaves limit more m m') (fuel : Nat) :
    ∃ most, FuelKeeps limit fuel most ∧ task.Leaves limit (most + 1) m m' :=
  ⟨max more fuel, .of_le limit (Nat.le_max_right more fuel),
    h.mono (Nat.le_succ_of_le (Nat.le_max_left more fuel))⟩

theorem Task.Leaves.precedes {limit : Nat} {task : Task} {m m' : Machine} (fuel : Nat)
    (h : task.Leaves limit fuel m m') : Moment.Precedes limit ⟨task, m⟩ m' :=
  ⟨fuel, m', h, .refl _⟩

theorem Moment.Precedes.grows {limit : Nat} {z : Moment} {m m' : Machine} (h : z.Precedes limit m)
    (hm : m.sink.GrowsTo m'.sink) : z.Precedes limit m' := by
  obtain ⟨fuel, m₁, hleaves, hgrows⟩ := h
  exact ⟨fuel, m₁, hleaves, hgrows.trans hm⟩

-- ============================================================================
-- Sequences of steps
-- ============================================================================

namespace EvalM

variable {α β : Type} {x : EvalM α} {f : α → EvalM β} {m m₁ m' : Machine}
  {r : Except RuntimeError β} {a : α}

/-- A sequence that ends has ended its first step, and only adds to the output of that. -/
theorem first_of_bind (h : (x >>= f) m = some (r, m')) (hf : ∀ a, Curb.Adds (f a)) :
    ∃ r₁ m₁, x m = some (r₁, m₁) ∧ m₁.sink.GrowsTo m'.sink := by
  have h' : EvalM.bind x f m = some (r, m') := h
  unfold EvalM.bind at h'
  split at h'
  · cases h'
  · next e m₁ hfirst =>
    cases h'
    exact ⟨_, _, hfirst, .refl _⟩
  · next a m₁ hfirst => exact ⟨_, _, hfirst, (hf a).growsTo h'⟩

/-- A sequence that ends and whose first step ended well has ended the rest. -/
theorem rest_of_bind (h : (x >>= f) m = some (r, m')) (hx : x m = some (.ok a, m₁)) :
    f a m₁ = some (r, m') := by
  have h' : EvalM.bind x f m = some (r, m') := h
  unfold EvalM.bind at h'
  rw [hx] at h'
  exact h'

/-- A call that ends has ended its body, with the same output. -/
theorem body_of_inCall {r : Except RuntimeError α} (h : EvalM.inCall x m = some (r, m')) :
    ∃ m₁, x { m with activeCalls := m.activeCalls + 1 } = some (r, m₁) ∧
      m₁.sink.GrowsTo m'.sink := by
  unfold EvalM.inCall at h
  split at h
  · cases h
  · next r₁ m₁ hbody =>
    cases h
    exact ⟨m₁, hbody, .refl _⟩

end EvalM

namespace Curb.Adds

theorem ofExcept {α : Type} (r : Except RuntimeError α) : Adds (EvalM.ofExcept r) := by
  refine EvalM.Meets.ofExcept ?_
  cases r <;> trivial

theorem newChild (e : ScopeId) : Adds (EvalM.newChild e) := EvalM.Meets.newChild e

theorem define (e : ScopeId) (x : String) (v : Value) : Adds (EvalM.define e x v) :=
  EvalM.Meets.define (.all v) e x

theorem assign (e : ScopeId) (name : Token) (v : Value) : Adds (EvalM.assign e name v) :=
  @EvalM.Meets.assign _ name false trivial v (.all v) e

end Curb.Adds

/-- With this much fuel, every function of the evaluator only adds to the output. -/
structure RunsAdd (limit fuel : Nat) : Prop where
  eval : ∀ e scope, Curb.Adds (eval limit fuel e scope)
  evalAll : ∀ es scope, Curb.Adds (evalAll limit fuel es scope)
  call : ∀ f args paren, Curb.Adds (call limit fuel f args paren)
  exec : ∀ s scope, Curb.Adds (exec limit fuel s scope)
  execAll : ∀ ss last scope, Curb.Adds (execAll limit fuel ss last scope)
  repeatWhile : ∀ condition body scope, Curb.Adds (repeatWhile limit fuel condition body scope)

theorem RunsAdd.all (limit fuel : Nat) : RunsAdd limit fuel := by
  have hmeets := RunsMeet.all (.ofChange Machine.allows_growsTo) limit fuel
  constructor <;> intros
  · exact (@hmeets.eval false _ (fun _ _ => trivial) _).mono fun _ _ => trivial
  · exact (@hmeets.evalAll false _ (fun _ _ => trivial) _).mono fun _ _ => trivial
  · exact (@hmeets.call false _ _ _ (.all _) (fun _ _ => .all _) trivial).mono fun _ _ => trivial
  · exact (@hmeets.exec false _ (fun _ _ => trivial) _).mono fun _ _ => trivial
  · exact (@hmeets.execAll false _ _ (fun _ _ => trivial) (.all _) _).mono fun _ _ => trivial
  · exact (@hmeets.repeatWhile false _ _ (fun _ _ => trivial) (fun _ _ => trivial) _).mono
      fun _ _ => trivial

/-- The run of an expression that something else follows. -/
theorem Moment.precedes_of_eval {α : Type} {limit fuel : Nat} {e : Expr} {scope : ScopeId}
    {f : Value → EvalM α} {m m' : Machine} {r : Except RuntimeError α}
    (h : (eval limit fuel e scope >>= f) m = some (r, m')) (hf : ∀ a, Curb.Adds (f a)) :
    Moment.Precedes limit ⟨.eval e scope, m⟩ m' := by
  obtain ⟨r₁, m₁, hfirst, hgrows⟩ := EvalM.first_of_bind h hf
  exact ⟨fuel, m₁, ⟨r₁, hfirst⟩, hgrows⟩

-- ============================================================================
-- Parts of a run
-- ============================================================================

variable {limit fuel : Nat} {m m' : Machine} {part : Task}

theorem Expr.first_precedes {e : Expr} {scope : ScopeId}
    (hpart : (Task.eval e scope).first? = some part)
    (h : (Task.eval e scope).Leaves limit (fuel + 1) m m') :
    Moment.Precedes limit ⟨part, m⟩ m' := by
  have hadds := RunsAdd.all limit fuel
  obtain ⟨r, h⟩ := h
  cases e with
  | number _ | string _ | boolean _ | nil | identifier _ => cases hpart
  | unary op mark operand =>
    cases hpart
    rw [eval] at h
    exact Moment.precedes_of_eval h fun v => .ofExcept (op.apply mark v)
  | binary op mark left right =>
    cases hpart
    rw [eval] at h
    refine Moment.precedes_of_eval h fun a => .ite (fun _ => .pure trivial) fun _ => ?_
    exact .bind (hadds.eval right scope) fun b _ => Curb.Adds.ofExcept (op.apply mark a b)
  | assign target value =>
    cases hpart
    rw [eval] at h
    refine Moment.precedes_of_eval h fun v => .bind (Curb.Adds.assign scope target v) fun _ _ => ?_
    exact .pure trivial
  | call callee paren args =>
    cases hpart
    rw [eval] at h
    refine Moment.precedes_of_eval h fun f => .bind (hadds.evalAll args scope) fun vs _ => ?_
    exact hadds.call f vs paren

theorem Stmt.first_precedes {s : Stmt} {scope : ScopeId}
    (hpart : (Task.exec s scope).first? = some part)
    (h : (Task.exec s scope).Leaves limit (fuel + 1) m m') :
    Moment.Precedes limit ⟨part, m⟩ m' := by
  have hadds := RunsAdd.all limit fuel
  obtain ⟨r, h⟩ := h
  cases s with
  | block _ _ | function _ _ _ _ => cases hpart
  | expression e =>
    cases hpart
    rw [exec] at h
    exact Moment.precedes_of_eval h fun v => .pure trivial
  | letVar name value =>
    cases value with
    | none => cases hpart
    | some e =>
      cases hpart
      rw [exec] at h
      refine Moment.precedes_of_eval h fun v => ?_
      exact .bind (Curb.Adds.define scope name.lexeme v) fun _ _ => .pure trivial
  | ifThen word condition yes =>
    cases hpart
    rw [exec] at h
    refine Moment.precedes_of_eval h fun v => ?_
    exact .ite (fun _ => hadds.exec yes scope) fun _ => .pure trivial
  | ifThenElse word condition yes no =>
    cases hpart
    rw [exec] at h
    refine Moment.precedes_of_eval h fun v => ?_
    exact .ite (fun _ => hadds.exec yes scope) fun _ => hadds.exec no scope
  | whileLoop word condition body =>
    cases hpart
    rw [exec] at h
    exact Task.Leaves.precedes fuel ⟨r, h⟩
  | returnStmt word value =>
    cases value with
    | none => cases hpart
    | some e =>
      cases hpart
      rw [exec] at h
      exact Moment.precedes_of_eval h fun v => .pure trivial

theorem runTurn_adds (limit fuel : Nat) (body : Stmt) (inner : ScopeId) :
    Curb.Adds (runTurn limit fuel body inner) := by
  have hother := (RunsAdd.all limit fuel).exec body inner
  cases body with
  | block brace statements => exact (RunsAdd.all limit fuel).execAll statements .nil inner
  | _ => exact hother

theorem Task.first_precedes {task : Task} (hpart : task.first? = some part)
    (h : task.Leaves limit (fuel + 1) m m') : Moment.Precedes limit ⟨part, m⟩ m' := by
  have hadds := RunsAdd.all limit fuel
  cases task with
  | eval e scope => exact Expr.first_precedes hpart h
  | exec s scope => exact Stmt.first_precedes hpart h
  | call f args paren => cases hpart
  | evalAll es scope =>
    obtain ⟨r, h⟩ := h
    cases es with
    | nil => cases hpart
    | cons e rest =>
      cases hpart
      rw [Lexiscope.evalAll] at h
      refine Moment.precedes_of_eval h fun v => .bind (hadds.evalAll rest scope) fun vs _ => ?_
      exact .pure trivial
  | execAll ss last scope =>
    obtain ⟨r, h⟩ := h
    cases ss with
    | nil => cases hpart
    | cons s rest =>
      cases hpart
      rw [Lexiscope.execAll] at h
      obtain ⟨r₁, m₁, hfirst, hgrows⟩ := EvalM.first_of_bind h fun flow => by
        cases flow with
        | normal v => exact hadds.execAll rest v scope
        | returned v => exact .pure trivial
      exact ⟨fuel, m₁, ⟨r₁, hfirst⟩, hgrows⟩
  | repeatWhile condition body scope =>
    obtain ⟨r, h⟩ := h
    cases hpart
    rw [repeatWhile_succ_eq] at h
    refine Moment.precedes_of_eval h fun v => .ite (fun _ => ?_) fun _ => .pure trivial
    refine .bind (.newChild scope) fun inner _ => ?_
    refine .bind (runTurn_adds limit fuel body inner) fun flow _ => ?_
    cases flow with
    | normal w => exact hadds.repeatWhile condition body scope
    | returned w => exact .pure trivial

theorem runTurn_within {fuel more : Nat} (hkeeps : FuelKeeps limit fuel more) (body : Stmt)
    (inner : ScopeId) : (runTurn limit fuel body inner).Within (runTurn limit more body inner) := by
  have hother := hkeeps.exec body inner
  cases body with
  | block brace statements => exact hkeeps.execAll statements .nil inner
  | _ => exact hother

theorem Moment.precedes_turn {body : Stmt} {inner : ScopeId} {r : Except RuntimeError Flow}
    (h : runTurn limit fuel body inner m = some (r, m')) :
    Moment.Precedes limit ⟨Task.turn body inner, m⟩ m' := by
  cases body with
  | block brace statements => exact Task.Leaves.precedes fuel ⟨r, h⟩
  | _ => exact Task.Leaves.precedes fuel ⟨r, h⟩

-- One lemma for each way in which a part is begun behind others. With the fuel that is enough for
-- all of them, the task comes to the part; then the part has ended, since the task has.

section Later

variable {scope inner : ScopeId} {m₁ m₂ m₃ : Machine} {more : Nat} {v w : Value}

theorem Moment.precedes_right {op : BinaryOp} {mark : Token} {left right : Expr}
    (hends : (Task.eval (.binary op mark left right) scope).Leaves limit more m m')
    (hleft : eval limit fuel left scope m = some (.ok v, m₁)) (hopen : ¬ op.settledBy v) :
    Moment.Precedes limit ⟨.eval right scope, m₁⟩ m' := by
  obtain ⟨most, hkeeps, r, h⟩ := hends.common fuel
  rw [eval] at h
  have hrest := EvalM.rest_of_bind h (hkeeps.eval _ _ _ _ hleft)
  rw [if_neg hopen] at hrest
  exact Moment.precedes_of_eval hrest fun b => .ofExcept (op.apply mark v b)

theorem Moment.precedes_arguments {callee : Expr} {paren : Token} {args : List Expr}
    (hends : (Task.eval (.call callee paren args) scope).Leaves limit more m m')
    (hcallee : eval limit fuel callee scope m = some (.ok v, m₁)) :
    Moment.Precedes limit ⟨.evalAll args scope, m₁⟩ m' := by
  obtain ⟨most, hkeeps, r, h⟩ := hends.common fuel
  rw [eval] at h
  have hrest := EvalM.rest_of_bind h (hkeeps.eval _ _ _ _ hcallee)
  obtain ⟨r₁, m₂, hargs, hgrows⟩ :=
    EvalM.first_of_bind hrest fun vs => (RunsAdd.all limit _).call v vs paren
  exact ⟨_, m₂, ⟨r₁, hargs⟩, hgrows⟩

theorem Moment.precedes_call {callee : Expr} {paren : Token} {args : List Expr}
    {values : List Value}
    (hends : (Task.eval (.call callee paren args) scope).Leaves limit more m m')
    (hcallee : eval limit fuel callee scope m = some (.ok v, m₁))
    (hargs : evalAll limit fuel args scope m₁ = some (.ok values, m₂)) :
    Moment.Precedes limit ⟨.call v values paren, m₂⟩ m' := by
  obtain ⟨most, hkeeps, r, h⟩ := hends.common fuel
  rw [eval] at h
  have hrest := EvalM.rest_of_bind h (hkeeps.eval _ _ _ _ hcallee)
  have hcall := EvalM.rest_of_bind hrest (hkeeps.evalAll _ _ _ _ hargs)
  exact Task.Leaves.precedes most ⟨r, hcall⟩

theorem Moment.precedes_others {e : Expr} {rest : List Expr}
    (hends : (Task.evalAll (e :: rest) scope).Leaves limit more m m')
    (hfirst : eval limit fuel e scope m = some (.ok v, m₁)) :
    Moment.Precedes limit ⟨.evalAll rest scope, m₁⟩ m' := by
  obtain ⟨most, hkeeps, r, h⟩ := hends.common fuel
  rw [evalAll] at h
  have hrest := EvalM.rest_of_bind h (hkeeps.eval _ _ _ _ hfirst)
  obtain ⟨r₁, m₂, hothers, hgrows⟩ := EvalM.first_of_bind hrest fun vs => .pure trivial
  exact ⟨_, m₂, ⟨r₁, hothers⟩, hgrows⟩

theorem Moment.precedes_body {f : FunctionDef} {closure : ScopeId} {args : List Value}
    {paren : Token} (hends : (Task.call (.function f closure) args paren).Leaves limit more m m')
    (harity : args.length = f.arity) (hroom : m.activeCalls < limit)
    (henter : enter f closure args m.activeCalls m = some (.ok scope, m₁)) :
    Moment.Precedes limit
      ⟨.execAll f.body .nil scope, { m₁ with activeCalls := m₁.activeCalls + 1 }⟩ m' := by
  obtain ⟨r, h⟩ := hends.mono (Nat.le_succ more)
  rw [call_function_succ_eq] at h
  have hrest := EvalM.rest_of_bind h (a := m.activeCalls) rfl
  rw [if_neg (not_not.mpr harity), if_neg (Nat.not_le_of_lt hroom)] at hrest
  have hcall := EvalM.rest_of_bind hrest henter
  obtain ⟨r₁, m₂, hin, hgrows⟩ := EvalM.first_of_bind hcall fun flow => .pure trivial
  obtain ⟨m₃, hbody, hsame⟩ := EvalM.body_of_inCall hin
  exact ⟨more, m₃, ⟨r₁, hbody⟩, hsame.trans hgrows⟩

theorem Moment.precedes_block {brace : Token} {body : List Stmt}
    (hends : (Task.exec (.block brace body) scope).Leaves limit more m m')
    (hinner : EvalM.newChild scope m = some (.ok inner, m₁)) :
    Moment.Precedes limit ⟨.execAll body .nil inner, m₁⟩ m' := by
  obtain ⟨r, h⟩ := hends.mono (Nat.le_succ more)
  rw [exec] at h
  exact Task.Leaves.precedes more ⟨r, EvalM.rest_of_bind h hinner⟩

theorem Moment.precedes_branch {word : Token} {condition : Expr} {yes : Stmt}
    (hends : (Task.exec (.ifThen word condition yes) scope).Leaves limit more m m')
    (hcondition : eval limit fuel condition scope m = some (.ok v, m₁)) (htrue : v.isTruthy) :
    Moment.Precedes limit ⟨.exec yes scope, m₁⟩ m' := by
  obtain ⟨most, hkeeps, r, h⟩ := hends.common fuel
  rw [exec] at h
  have hrest := EvalM.rest_of_bind h (hkeeps.eval _ _ _ _ hcondition)
  rw [if_pos htrue] at hrest
  exact Task.Leaves.precedes most ⟨r, hrest⟩

theorem Moment.precedes_either {word : Token} {condition : Expr} {yes no : Stmt}
    (hends : (Task.exec (.ifThenElse word condition yes no) scope).Leaves limit more m m')
    (hcondition : eval limit fuel condition scope m = some (.ok v, m₁)) :
    Moment.Precedes limit ⟨.exec (if v.isTruthy then yes else no) scope, m₁⟩ m' := by
  obtain ⟨most, hkeeps, r, h⟩ := hends.common fuel
  rw [exec] at h
  have hrest := EvalM.rest_of_bind h (hkeeps.eval _ _ _ _ hcondition)
  refine Task.Leaves.precedes most ⟨r, ?_⟩
  split at hrest
  · next htrue => rwa [if_pos htrue]
  · next hfalse => rwa [if_neg hfalse]

theorem Moment.precedes_next {s : Stmt} {rest : List Stmt} {last : Value}
    (hends : (Task.execAll (s :: rest) last scope).Leaves limit more m m')
    (hfirst : exec limit fuel s scope m = some (.ok (.normal v), m₁)) :
    Moment.Precedes limit ⟨.execAll rest v scope, m₁⟩ m' := by
  obtain ⟨most, hkeeps, r, h⟩ := hends.common fuel
  rw [execAll] at h
  have hrest := EvalM.rest_of_bind h (hkeeps.exec _ _ _ _ hfirst)
  exact Task.Leaves.precedes most ⟨r, hrest⟩

/-- The run of a loop, from a turn of it on. -/
theorem turn_of_loop {condition : Expr} {body : Stmt}
    (hends : (Task.repeatWhile condition body scope).Leaves limit more m m')
    (hcondition : eval limit fuel condition scope m = some (.ok v, m₁)) (htrue : v.isTruthy)
    (hinner : EvalM.newChild scope m₁ = some (.ok inner, m₂)) :
    ∃ most, FuelKeeps limit fuel most ∧ ∃ r,
      (runTurn limit most body inner >>= fun flow =>
        match flow with
        | .normal _ => repeatWhile limit most condition body scope
        | .returned w => pure (.returned w)) m₂ = some (r, m') := by
  obtain ⟨most, hkeeps, r, h⟩ := hends.common fuel
  rw [repeatWhile_succ_eq] at h
  have hrest := EvalM.rest_of_bind h (hkeeps.eval _ _ _ _ hcondition)
  rw [if_pos htrue] at hrest
  have hturn := EvalM.rest_of_bind hrest hinner
  exact ⟨most, hkeeps, r, hturn⟩

theorem Moment.precedes_turn_of_loop {condition : Expr} {body : Stmt}
    (hends : (Task.repeatWhile condition body scope).Leaves limit more m m')
    (hcondition : eval limit fuel condition scope m = some (.ok v, m₁)) (htrue : v.isTruthy)
    (hinner : EvalM.newChild scope m₁ = some (.ok inner, m₂)) :
    Moment.Precedes limit ⟨Task.turn body inner, m₂⟩ m' := by
  obtain ⟨most, -, r, hturn⟩ := turn_of_loop hends hcondition htrue hinner
  obtain ⟨r₁, m₃, hbody, hgrows⟩ := EvalM.first_of_bind hturn fun flow => by
    cases flow with
    | normal w => exact (RunsAdd.all limit most).repeatWhile condition body scope
    | returned w => exact .pure trivial
  exact (Moment.precedes_turn hbody).grows hgrows

theorem Moment.precedes_again {condition : Expr} {body : Stmt}
    (hends : (Task.repeatWhile condition body scope).Leaves limit more m m')
    (hcondition : eval limit fuel condition scope m = some (.ok v, m₁)) (htrue : v.isTruthy)
    (hinner : EvalM.newChild scope m₁ = some (.ok inner, m₂))
    (hbody : runTurn limit fuel body inner m₂ = some (.ok (.normal w), m₃)) :
    Moment.Precedes limit ⟨.repeatWhile condition body scope, m₃⟩ m' := by
  obtain ⟨most, hkeeps, r, hturn⟩ := turn_of_loop hends hcondition htrue hinner
  have hagain := EvalM.rest_of_bind hturn (runTurn_within hkeeps body inner _ _ hbody)
  exact Task.Leaves.precedes most ⟨r, hagain⟩

end Later

/-- A run that ends has ended every part that it began, and only adds to the output of the part. -/
theorem Begins.precedes {z z₁ : Moment} (hbegins : Begins limit z z₁) {more : Nat}
    (hends : z.task.Leaves limit more z.machine m') : z₁.Precedes limit m' := by
  cases hbegins with
  | first hpart => exact Task.first_precedes hpart (hends.mono (Nat.le_succ more))
  | right hleft hopen => exact Moment.precedes_right hends hleft hopen
  | arguments hcallee => exact Moment.precedes_arguments hends hcallee
  | call hcallee hargs => exact Moment.precedes_call hends hcallee hargs
  | others hfirst => exact Moment.precedes_others hends hfirst
  | body harity hroom henter => exact Moment.precedes_body hends harity hroom henter
  | block hinner => exact Moment.precedes_block hends hinner
  | branch hcondition htrue => exact Moment.precedes_branch hends hcondition htrue
  | either hcondition => exact Moment.precedes_either hends hcondition
  | next hfirst => exact Moment.precedes_next hends hfirst
  | turn hcondition htrue hinner =>
    exact Moment.precedes_turn_of_loop hends hcondition htrue hinner
  | again hcondition htrue hinner hbody =>
    exact Moment.precedes_again hends hcondition htrue hinner hbody

/-- A part of a run is begun with what has been written so far. -/
theorem Begins.grows {z z₁ : Moment} (hbegins : Begins limit z z₁) :
    z.machine.sink.GrowsTo z₁.machine.sink := by
  cases hbegins with
  | first _ => exact .refl _
  | right hfirst _ | arguments hfirst | others hfirst | branch hfirst _ | either hfirst =>
    exact ((RunsAdd.all limit _).eval _ _).growsTo hfirst
  | call hcallee hargs =>
    have hgrows := ((RunsAdd.all limit _).eval _ _).growsTo hcallee
    exact hgrows.trans (((RunsAdd.all limit _).evalAll _ _).growsTo hargs)
  | @body f closure scope args paren m m₁ _ _ henter =>
    have hadds : Curb.Adds (enter f closure args m.activeCalls) :=
      .bind (.newChild closure) fun scope _ =>
        .bind (.bindParams scope f.params fun v _ => .all v) fun _ _ =>
          .bind (.note _) fun _ _ => .pure trivial
    have hgrows := hadds.growsTo henter
    exact hgrows
  | block hinner => exact (Curb.Adds.newChild _).growsTo hinner
  | next hfirst => exact ((RunsAdd.all limit _).exec _ _).growsTo hfirst
  | turn hcondition _ hinner =>
    have hgrows := ((RunsAdd.all limit _).eval _ _).growsTo hcondition
    exact hgrows.trans ((Curb.Adds.newChild _).growsTo hinner)
  | again hcondition _ hinner hbody =>
    have hgrows := ((RunsAdd.all limit _).eval _ _).growsTo hcondition
    have hgrows' := (Curb.Adds.newChild _).growsTo hinner
    exact hgrows.trans (hgrows'.trans ((runTurn_adds limit _ _ _).growsTo hbody))

theorem Reaches.grows {z z₁ : Moment} (hreaches : Reaches limit z z₁) :
    z.machine.sink.GrowsTo z₁.machine.sink := by
  induction hreaches with
  | refl => exact .refl _
  | tail _ hbegins ih => exact ih.trans hbegins.grows

/-- A run that ends has ended whatever it came to, and what that wrote is part of its output. -/
theorem Reaches.precedes {z z₁ : Moment} (hreaches : Reaches limit z z₁)
    (h : z.Precedes limit m') : z₁.Precedes limit m' := by
  induction hreaches with
  | refl => exact h
  | tail _ hbegins ih =>
    obtain ⟨fuel₁, m₁, hpart, hgrows⟩ := ih
    exact (hbegins.precedes hpart).grows hgrows

theorem Phrase.Ends.precedes {phrase : Phrase} {scope : ScopeId} {r : Except RuntimeError Value}
    (h : phrase.Ends limit scope m r m') : (phrase.start scope m).Precedes limit m' := by
  obtain ⟨fuel, h⟩ := h
  cases phrase with
  | expression e => exact Task.Leaves.precedes fuel ⟨r, h⟩
  | program p =>
    have hbody := EvalM.rest_of_bind h (a := ()) rfl
    obtain ⟨r₁, m₁, hrun, hgrows⟩ := EvalM.first_of_bind hbody fun flow => by
      cases flow with
      | normal v => exact .bind (.note _) fun _ _ => .pure trivial
      | returned v => exact .pure trivial
    exact ⟨fuel, m₁, ⟨r₁, hrun⟩, hgrows⟩

end Lexiscope

/-
  Lexiscope.Proofs.Curbed.Output

  A bounded sink only truncates the output.

  The same run with a sink that takes so many bytes and with one that takes all of
  them is a curbed run and a free one. They go the same way until a line does not
  fit any more. An output error can come from nowhere but a call of `print` whose
  line did not fit, and nothing happens to the scopes between that call and the end
  of the run. The free run comes to the same call on its way.
-/
import Lexiscope.Proofs.Curbed.Depth
import Lexiscope.Proofs.Curbed.Passage

namespace Lexiscope

/-- What a call of `print` writes. -/
def Builtin.line (values : List Value) : String := " ".intercalate (values.map Value.text) ++ "\n"

-- ============================================================================
-- Where output errors come from
-- ============================================================================

/-- The call of `print` on the first machine ends with the error and leaves a machine with the same
    scopes and the same sink as the second, because the sink did not take the whole line. -/
structure PrintFails (values : List Value) (paren : Token) (before : Machine) (e : RuntimeError)
    (m : Machine) : Prop where
  full : (before.sink.write (Builtin.line values)).2 = false
  error : e = ⟨paren, .outputFailed Sink.fullMessage⟩
  store : m.store = before.store
  sink : m.sink = (before.sink.write (Builtin.line values)).1

/-- If the step ends with an output error on this machine, then because a call of `print` failed at
    one of these moments. -/
def EvalM.Blames {α : Type} (Z : Moment → Prop) (x : EvalM α) (m : Machine) : Prop :=
  ∀ ⦃e m'⦄, x m = some (.error e, m') → e.kind = .output →
    ∃ values paren before, Z ⟨.call (.builtin .print) values paren, before⟩ ∧
      PrintFails values paren before e m'

namespace EvalM.Blames

variable {α β : Type} {Z Z' : Moment → Prop} {m : Machine} {limit : Nat}

theorem mono {x : EvalM α} (h : x.Blames Z m) (hZ : ∀ z, Z z → Z' z) : x.Blames Z' m := by
  intro e m' hx he
  obtain ⟨values, paren, before, hz, hfails⟩ := h hx he
  exact ⟨values, paren, before, hZ _ hz, hfails⟩

/-- What a part of a run comes to, the run comes to. -/
theorem part {x : EvalM α} {z z' : Moment} (hbegins : Begins limit z z')
    (h : x.Blames (Reaches limit z') m) : x.Blames (Reaches limit z) m :=
  h.mono fun _ hz => .head hbegins hz

theorem outOfFuel : (EvalM.outOfFuel : EvalM α).Blames Z m := by
  intro e m' hx
  cases hx

protected theorem pure (a : α) : (pure a : EvalM α).Blames Z m := by
  intro e m' hx
  cases hx

theorem fail (t : Token) {f : Fault} (hf : f.kind ≠ .output) :
    (EvalM.fail t f : EvalM α).Blames Z m := by
  rintro e m' ⟨⟩ he
  exact absurd he hf

theorem ofExcept {r : Except RuntimeError α} (h : ∀ e, r = .error e → e.kind ≠ .output) :
    (EvalM.ofExcept r).Blames Z m := by
  rintro e m' ⟨⟩ he
  exact absurd he (h e rfl)

theorem gets (f : Machine → α) : (EvalM.gets f).Blames Z m := by
  intro e m' hx
  cases hx

theorem modify (f : Machine → Machine) : (EvalM.modify f).Blames Z m := by
  intro e m' hx
  cases hx

theorem newChild (s : ScopeId) : (EvalM.newChild s).Blames Z m := by
  intro e m' hx
  cases hx

theorem define (s : ScopeId) (x : String) (v : Value) : (EvalM.define s x v).Blames Z m := by
  intro e m' hx
  cases hx

theorem lookup (s : ScopeId) (name : Token) : (EvalM.lookup s name).Blames Z m := by
  intro e m' hx he
  unfold EvalM.lookup at hx
  split at hx
  · cases hx
  · cases hx
    cases he

theorem assign (s : ScopeId) (name : Token) (v : Value) : (EvalM.assign s name v).Blames Z m := by
  intro e m' hx he
  unfold EvalM.assign at hx
  dsimp only at hx
  split at hx
  · cases hx
  · cases hx
    cases he

protected theorem bind {x : EvalM α} {f : α → EvalM β} (hx : x.Blames Z m)
    (hf : ∀ a m₁, x m = some (.ok a, m₁) → (f a).Blames Z m₁) : (x >>= f).Blames Z m := by
  intro e m' h he
  have h' : EvalM.bind x f m = some (.error e, m') := h
  unfold EvalM.bind at h'
  split at h'
  · cases h'
  · next e₁ m₁ hfirst =>
    cases h'
    exact hx hfirst he
  · next a m₁ hfirst => exact hf a m₁ hfirst h' he

theorem inCall {x : EvalM α} (h : x.Blames Z { m with activeCalls := m.activeCalls + 1 }) :
    (EvalM.inCall x).Blames Z m := by
  intro e m' hx he
  unfold EvalM.inCall at hx
  split at hx
  · cases hx
  · next r m₁ hbody =>
    cases hx
    obtain ⟨values, paren, before, hz, hfails⟩ := h hbody he
    exact ⟨values, paren, before, hz, ⟨hfails.full, hfails.error, hfails.store, hfails.sink⟩⟩

theorem bindParams (scope : ScopeId) (params : List Token) (args : List Value) :
    (Lexiscope.bindParams scope params args).Blames Z m := by
  induction params generalizing args m with
  | nil => exact .pure ()
  | cons p params ih =>
    cases args with
    | nil => exact .pure ()
    | cons a args =>
      rw [Lexiscope.bindParams]
      exact .bind (.define scope p.lexeme a) fun _ _ _ => ih args

theorem enter (f : FunctionDef) (closure : ScopeId) (args : List Value) (depth : Nat) :
    (Lexiscope.enter f closure args depth).Blames Z m :=
  .bind (.newChild closure) fun scope _ _ => .bind (.bindParams scope f.params args) fun _ _ _ =>
    .bind (.modify _) fun _ _ _ => .pure scope

end EvalM.Blames

theorem UnaryOp.kind_of_apply_error {op : UnaryOp} {mark : Token} {v : Value} {e : RuntimeError}
    (h : op.apply mark v = .error e) : e.kind ≠ .output := by
  obtain ⟨-, -, rfl⟩ := UnaryOp.eq_of_apply_error h
  nofun

theorem BinaryOp.kind_of_apply_error {op : BinaryOp} {mark : Token} {a b : Value}
    {e : RuntimeError} (h : op.apply mark a b = .error e) : e.kind ≠ .output := by
  rcases BinaryOp.eq_of_apply_error h with ⟨-, rfl⟩ | ⟨needed, -, hrejects⟩
  · nofun
  · rw [hrejects.error]
    nofun

theorem Builtin.call_blames (b : Builtin) (values : List Value) (paren : Token) {limit : Nat}
    (m : Machine) :
    (b.call values paren).Blames (Reaches limit ⟨.call (.builtin b) values paren, m⟩) m := by
  cases b with
  | print =>
    have hwrite : (EvalM.write paren (line values)).Blames
        (Reaches limit ⟨.call (.builtin print) values paren, m⟩) m := by
      intro e m' h he
      unfold EvalM.write at h
      dsimp only at h
      split at h
      · cases h
      · next sink hsink =>
        cases h
        exact ⟨values, paren, m, .refl _, ⟨by rw [hsink], rfl, rfl, by rw [hsink]⟩⟩
    exact .bind hwrite fun _ _ _ => .pure Value.nil

/-- With this much fuel, every output error of the evaluator comes from a call of `print` that the
    run came to. -/
structure RunsBlame (limit fuel : Nat) : Prop where
  eval : ∀ e scope m, (eval limit fuel e scope).Blames (Reaches limit ⟨.eval e scope, m⟩) m
  evalAll : ∀ es scope m,
    (evalAll limit fuel es scope).Blames (Reaches limit ⟨.evalAll es scope, m⟩) m
  call : ∀ f args paren m,
    (call limit fuel f args paren).Blames (Reaches limit ⟨.call f args paren, m⟩) m
  exec : ∀ s scope m, (exec limit fuel s scope).Blames (Reaches limit ⟨.exec s scope, m⟩) m
  execAll : ∀ ss last scope m,
    (execAll limit fuel ss last scope).Blames (Reaches limit ⟨.execAll ss last scope, m⟩) m
  repeatWhile : ∀ condition body scope m, (repeatWhile limit fuel condition body scope).Blames
    (Reaches limit ⟨.repeatWhile condition body scope, m⟩) m

namespace RunsBlame

variable {limit fuel : Nat}

theorem zero (limit : Nat) : RunsBlame limit 0 := by
  constructor <;> intros
  · rw [Lexiscope.eval]
    exact .outOfFuel
  · rw [Lexiscope.evalAll]
    exact .outOfFuel
  · rw [Lexiscope.call]
    exact .outOfFuel
  · rw [Lexiscope.exec]
    exact .outOfFuel
  · rw [Lexiscope.execAll]
    exact .outOfFuel
  · rw [Lexiscope.repeatWhile]
    exact .outOfFuel

section Step

variable (ih : RunsBlame limit fuel)
include ih

theorem eval_succ (e : Expr) (scope : ScopeId) (m : Machine) :
    (Lexiscope.eval limit (fuel + 1) e scope).Blames (Reaches limit ⟨.eval e scope, m⟩) m := by
  cases e with
  | number _ | string _ | boolean _ | nil =>
    rw [Lexiscope.eval]
    exact .pure _
  | identifier name =>
    rw [Lexiscope.eval]
    exact .lookup scope name
  | unary op mark operand =>
    rw [Lexiscope.eval]
    refine .bind (.part (.first rfl) (ih.eval operand scope m)) fun v m₁ _ => ?_
    exact .ofExcept fun _ => UnaryOp.kind_of_apply_error
  | binary op mark left right =>
    rw [Lexiscope.eval]
    refine .bind (.part (.first rfl) (ih.eval left scope m)) fun a m₁ hleft => ?_
    split
    · exact .pure a
    · next hopen =>
      refine .bind (.part (.right hleft hopen) (ih.eval right scope m₁)) fun b m₂ _ => ?_
      exact .ofExcept fun _ => BinaryOp.kind_of_apply_error
  | assign target value =>
    rw [Lexiscope.eval]
    refine .bind (.part (.first rfl) (ih.eval value scope m)) fun v m₁ _ => ?_
    exact .bind (.assign scope target v) fun _ _ _ => .pure v
  | call callee paren args =>
    rw [Lexiscope.eval]
    refine .bind (.part (.first rfl) (ih.eval callee scope m)) fun f m₁ hcallee => ?_
    refine .bind (.part (.arguments hcallee) (ih.evalAll args scope m₁)) fun vs m₂ hargs => ?_
    exact .part (.call hcallee hargs) (ih.call f vs paren m₂)

theorem evalAll_succ (es : List Expr) (scope : ScopeId) (m : Machine) :
    (Lexiscope.evalAll limit (fuel + 1) es scope).Blames
      (Reaches limit ⟨.evalAll es scope, m⟩) m := by
  cases es with
  | nil =>
    rw [Lexiscope.evalAll]
    exact .pure []
  | cons e rest =>
    rw [Lexiscope.evalAll]
    refine .bind (.part (.first rfl) (ih.eval e scope m)) fun v m₁ hfirst => ?_
    refine .bind (.part (.others hfirst) (ih.evalAll rest scope m₁)) fun vs m₂ _ => ?_
    exact .pure (v :: vs)

theorem call_succ (f : Value) (args : List Value) (paren : Token) (m : Machine) :
    (Lexiscope.call limit (fuel + 1) f args paren).Blames
      (Reaches limit ⟨.call f args paren, m⟩) m := by
  cases f with
  | function f closure =>
    rw [call_function_succ_eq]
    refine .bind (.gets _) ?_
    rintro depth m₁ ⟨⟩
    split
    · exact .fail paren (by rintro ⟨⟩)
    · next harity =>
      split
      · exact .fail paren (by rintro ⟨⟩)
      · next hroom =>
        refine .bind (.enter f closure args _) fun scope m₁ henter => ?_
        have hbegins : Begins limit ⟨.call (.function f closure) args paren, m⟩ _ :=
          .body (not_not.mp harity) (Nat.lt_of_not_le hroom) henter
        refine .bind (.inCall (.part hbegins (ih.execAll f.body .nil scope _))) fun flow _ _ => ?_
        exact .pure flow.callResult
  | builtin which =>
    rw [Lexiscope.call]
    exact which.call_blames args paren m
  | number _ | string _ | boolean _ | nil =>
    rw [Lexiscope.call]
    · exact .fail paren (by rintro ⟨⟩)
    all_goals simp

theorem exec_succ (s : Stmt) (scope : ScopeId) (m : Machine) :
    (Lexiscope.exec limit (fuel + 1) s scope).Blames (Reaches limit ⟨.exec s scope, m⟩) m := by
  cases s with
  | expression e =>
    rw [Lexiscope.exec]
    exact .bind (.part (.first rfl) (ih.eval e scope m)) fun v _ _ => .pure (Flow.normal v)
  | letVar name value =>
    cases value with
    | none =>
      rw [Lexiscope.exec]
      exact .bind (.define scope name.lexeme .nil) fun _ _ _ => .pure (Flow.normal .nil)
    | some e =>
      rw [Lexiscope.exec]
      refine .bind (.part (.first rfl) (ih.eval e scope m)) fun v m₁ _ => ?_
      exact .bind (.define scope name.lexeme v) fun _ _ _ => .pure (Flow.normal .nil)
  | block brace body =>
    rw [Lexiscope.exec]
    refine .bind (.newChild scope) fun inner m₁ hinner => ?_
    exact .part (.block hinner) (ih.execAll body .nil inner m₁)
  | ifThen word condition yes =>
    rw [Lexiscope.exec]
    refine .bind (.part (.first rfl) (ih.eval condition scope m)) fun v m₁ hcondition => ?_
    split
    · next htrue => exact .part (.branch hcondition htrue) (ih.exec yes scope m₁)
    · exact .pure (Flow.normal .nil)
  | ifThenElse word condition yes no =>
    rw [Lexiscope.exec]
    refine .bind (.part (.first rfl) (ih.eval condition scope m)) fun v m₁ hcondition => ?_
    have hbegins : Begins limit ⟨.exec (.ifThenElse word condition yes no) scope, m⟩ _ :=
      .either hcondition
    split
    · next htrue =>
      rw [if_pos htrue] at hbegins
      exact .part hbegins (ih.exec yes scope m₁)
    · next hfalse =>
      rw [if_neg hfalse] at hbegins
      exact .part hbegins (ih.exec no scope m₁)
  | whileLoop word condition body =>
    rw [Lexiscope.exec]
    exact .part (.first rfl) (ih.repeatWhile condition body scope m)
  | function label name params body =>
    rw [Lexiscope.exec]
    exact .bind (.define scope name.lexeme _) fun _ _ _ => .pure (Flow.normal .nil)
  | returnStmt word value =>
    cases value with
    | none =>
      rw [Lexiscope.exec]
      exact .pure (Flow.returned .nil)
    | some e =>
      rw [Lexiscope.exec]
      exact .bind (.part (.first rfl) (ih.eval e scope m)) fun v _ _ => .pure (Flow.returned v)

theorem execAll_succ (ss : List Stmt) (last : Value) (scope : ScopeId) (m : Machine) :
    (Lexiscope.execAll limit (fuel + 1) ss last scope).Blames
      (Reaches limit ⟨.execAll ss last scope, m⟩) m := by
  cases ss with
  | nil =>
    rw [Lexiscope.execAll]
    exact .pure (Flow.normal last)
  | cons s rest =>
    rw [Lexiscope.execAll]
    refine .bind (.part (.first rfl) (ih.exec s scope m)) fun flow m₁ hfirst => ?_
    cases flow with
    | normal v => exact .part (.next hfirst) (ih.execAll rest v scope m₁)
    | returned v => exact .pure (Flow.returned v)

theorem runTurn (body : Stmt) (inner : ScopeId) (m : Machine) :
    (Lexiscope.runTurn limit fuel body inner).Blames
      (Reaches limit ⟨Task.turn body inner, m⟩) m := by
  have hother := ih.exec body inner m
  cases body with
  | block brace statements => exact ih.execAll statements .nil inner m
  | _ => exact hother

theorem repeatWhile_succ (condition : Expr) (body : Stmt) (scope : ScopeId) (m : Machine) :
    (Lexiscope.repeatWhile limit (fuel + 1) condition body scope).Blames
      (Reaches limit ⟨.repeatWhile condition body scope, m⟩) m := by
  rw [repeatWhile_succ_eq]
  refine .bind (.part (.first rfl) (ih.eval condition scope m)) fun v m₁ hcondition => ?_
  split
  · next htrue =>
    refine .bind (.newChild scope) fun inner m₂ hinner => ?_
    refine .bind (.part (.turn hcondition htrue hinner) (ih.runTurn body inner m₂))
      fun flow m₃ hbody => ?_
    cases flow with
    | normal w =>
      exact .part (.again hcondition htrue hinner hbody) (ih.repeatWhile condition body scope m₃)
    | returned w => exact .pure (Flow.returned w)
  · exact .pure (Flow.normal .nil)

theorem succ : RunsBlame limit (fuel + 1) :=
  ⟨ih.eval_succ, ih.evalAll_succ, ih.call_succ, ih.exec_succ, ih.execAll_succ, ih.repeatWhile_succ⟩

end Step

/-- Every output error comes from a call of `print` that the run came to. -/
theorem all (limit fuel : Nat) : RunsBlame limit fuel := by
  induction fuel with
  | zero => exact zero limit
  | succ fuel ih => exact ih.succ

end RunsBlame

theorem Phrase.run_blames (phrase : Phrase) (limit fuel : Nat) (scope : ScopeId) (m : Machine) :
    (phrase.run limit fuel scope).Blames (Reaches limit (phrase.start scope m)) m := by
  cases phrase with
  | expression e => exact (RunsBlame.all limit fuel).eval e scope m
  | program p =>
    refine .bind (.modify _) ?_
    rintro _ m₁ ⟨⟩
    refine .bind ((RunsBlame.all limit fuel).execAll p.statements .nil scope _) fun flow _ _ => ?_
    cases flow with
    | normal v => exact .bind (.modify _) fun _ _ _ => .pure v
    | returned v => exact .pure v

-- ============================================================================
-- The way of the free run
-- ============================================================================

namespace Curb

variable {c : Curb} {α : Type}

/-- What the curbed run gets past, the free run gets past in the same way. -/
theorem InPace.passes {x y : EvalM α} (h : c.InPace x y) {m m' m₁ : Machine} {a : α}
    (hm : c.Machines m m') (hx : x m = some (.ok a, m₁)) :
    ∃ m₂, y m' = some (.ok a, m₂) ∧ c.Machines m₁ m₂ := by
  have houtcome := h.outcome hm
  rw [hx] at houtcome
  generalize hy : y m' = answer at houtcome
  cases houtcome with
  | together r hmachines => exact ⟨_, rfl, hmachines⟩

theorem InPace.enter (f : FunctionDef) (closure : ScopeId) (args : List Value) (depth : Nat) :
    c.InPace (Lexiscope.enter f closure args depth) (Lexiscope.enter f closure args depth) :=
  .bind (.newChild closure) fun scope => .bind (.bindParams scope f.params args) fun _ =>
    .bind (.note _) fun _ => .pure scope

theorem InPace.runTurn (fuel : Nat) (body : Stmt) (inner : ScopeId) :
    c.InPace (Lexiscope.runTurn c.tight fuel body inner)
      (Lexiscope.runTurn c.loose fuel body inner) := by
  have hother := (RunsInPace.all c fuel).exec body inner
  cases body with
  | block brace statements => exact (RunsInPace.all c fuel).execAll statements .nil inner
  | _ => exact hother

/-- The parts of the curbed run are parts of the free one, on machines that belong together. -/
theorem begins_of_tight {z z₁ : Moment} {m : Machine} (hm : c.Machines z.machine m)
    (h : Begins c.tight z z₁) :
    ∃ m₁, Begins c.loose ⟨z.task, m⟩ ⟨z₁.task, m₁⟩ ∧ c.Machines z₁.machine m₁ := by
  cases h with
  | first hpart => exact ⟨m, .first hpart, hm⟩
  | right hleft hopen =>
    obtain ⟨m₁, hleft', hm₁⟩ := ((RunsInPace.all c _).eval _ _).passes hm hleft
    exact ⟨m₁, .right hleft' hopen, hm₁⟩
  | arguments hcallee =>
    obtain ⟨m₁, hcallee', hm₁⟩ := ((RunsInPace.all c _).eval _ _).passes hm hcallee
    exact ⟨m₁, .arguments hcallee', hm₁⟩
  | call hcallee hargs =>
    obtain ⟨m₁, hcallee', hm₁⟩ := ((RunsInPace.all c _).eval _ _).passes hm hcallee
    obtain ⟨m₂, hargs', hm₂⟩ := ((RunsInPace.all c _).evalAll _ _).passes hm₁ hargs
    exact ⟨m₂, .call hcallee' hargs', hm₂⟩
  | others hfirst =>
    obtain ⟨m₁, hfirst', hm₁⟩ := ((RunsInPace.all c _).eval _ _).passes hm hfirst
    exact ⟨m₁, .others hfirst', hm₁⟩
  | body harity hroom henter =>
    have hcalls := hm.calls
    dsimp only at hcalls
    rw [hcalls] at hroom henter
    obtain ⟨m₁, henter', hm₁⟩ := (InPace.enter _ _ _ _).passes hm henter
    refine ⟨_, .body harity (Nat.lt_of_lt_of_le hroom c.tight_le) henter', ?_⟩
    exact ⟨hm₁.store, hm₁.sink, congrArg (· + 1) hm₁.calls, hm₁.journal⟩
  | block hinner =>
    obtain ⟨m₁, hinner', hm₁⟩ := (InPace.newChild _).passes hm hinner
    exact ⟨m₁, .block hinner', hm₁⟩
  | branch hcondition htrue =>
    obtain ⟨m₁, hcondition', hm₁⟩ := ((RunsInPace.all c _).eval _ _).passes hm hcondition
    exact ⟨m₁, .branch hcondition' htrue, hm₁⟩
  | either hcondition =>
    obtain ⟨m₁, hcondition', hm₁⟩ := ((RunsInPace.all c _).eval _ _).passes hm hcondition
    exact ⟨m₁, .either hcondition', hm₁⟩
  | next hfirst =>
    obtain ⟨m₁, hfirst', hm₁⟩ := ((RunsInPace.all c _).exec _ _).passes hm hfirst
    exact ⟨m₁, .next hfirst', hm₁⟩
  | turn hcondition htrue hinner =>
    obtain ⟨m₁, hcondition', hm₁⟩ := ((RunsInPace.all c _).eval _ _).passes hm hcondition
    obtain ⟨m₂, hinner', hm₂⟩ := (InPace.newChild _).passes hm₁ hinner
    exact ⟨m₂, .turn hcondition' htrue hinner', hm₂⟩
  | again hcondition htrue hinner hbody =>
    obtain ⟨m₁, hcondition', hm₁⟩ := ((RunsInPace.all c _).eval _ _).passes hm hcondition
    obtain ⟨m₂, hinner', hm₂⟩ := (InPace.newChild _).passes hm₁ hinner
    obtain ⟨m₃, hbody', hm₃⟩ := (InPace.runTurn _ _ _).passes hm₂ hbody
    exact ⟨m₃, .again hcondition' htrue hinner' hbody', hm₃⟩

/-- What the curbed run comes to, the free run comes to. -/
theorem reaches_of_tight {z z₁ : Moment} {m : Machine} (hm : c.Machines z.machine m)
    (h : Reaches c.tight z z₁) :
    ∃ m₁, Reaches c.loose ⟨z.task, m⟩ ⟨z₁.task, m₁⟩ ∧ c.Machines z₁.machine m₁ := by
  induction h with
  | refl => exact ⟨m, .refl _, hm⟩
  | tail _ hbegins ih =>
    obtain ⟨m₁, hreaches, hm₁⟩ := ih
    obtain ⟨m₂, hnext, hm₂⟩ := begins_of_tight hm₁ hbegins
    exact ⟨m₂, hreaches.tail hnext, hm₂⟩

end Curb

-- ============================================================================
-- Sinks
-- ============================================================================

/-- The sink as it would be if it took this many bytes in all. -/
def Sink.upTo (cap : Nat) (s : Sink) : Sink := ⟨s.bytes.extract 0 cap, some cap⟩

theorem extract_eq_self {bytes : ByteArray} {cap : Nat} (h : bytes.size ≤ cap) :
    bytes.extract 0 cap = bytes := by
  rw [← Nat.max_eq_left h, ByteArray.extract_zero_max_size]

theorem Sink.upTo_of_le {cap : Nat} {s : Sink} (h : s.bytes.size ≤ cap) :
    s.upTo cap = ⟨s.bytes, some cap⟩ := by
  rw [upTo, extract_eq_self h]

/-- A sink that takes this many bytes keeps the beginning of what one without a bound keeps, and
    refuses the first text that does not fit. -/
theorem Sink.write_upTo {cap : Nat} {s : Sink} (hfree : s.limit = none) (h : s.bytes.size ≤ cap)
    (text : String) :
    ((s.upTo cap).write text).1 = (s.write text).1.upTo cap ∧
      (((s.upTo cap).write text).2 = true ↔ (s.write text).1.bytes.size ≤ cap) := by
  obtain ⟨bytes, limit⟩ := s
  obtain rfl : limit = none := hfree
  rw [upTo_of_le h]
  dsimp only at h
  have hsize : (bytes ++ text.toUTF8).size = bytes.size + text.toUTF8.size := ByteArray.size_append
  show ((Sink.mk bytes (some cap)).writeBytes text.toUTF8).1 =
      upTo cap ⟨bytes ++ text.toUTF8, none⟩ ∧
    (((Sink.mk bytes (some cap)).writeBytes text.toUTF8).2 = true ↔
      (bytes ++ text.toUTF8).size ≤ cap)
  rw [writeBytes]
  split
  · next hfits =>
    have hle : (bytes ++ text.toUTF8).size ≤ cap := by omega
    exact ⟨(upTo_of_le (s := ⟨bytes ++ text.toUTF8, none⟩) hle).symm, fun _ => hle, fun _ => rfl⟩
  · next hfull =>
    have hlt : ¬ (bytes ++ text.toUTF8).size ≤ cap := by omega
    refine ⟨?_, fun h => absurd h Bool.false_ne_true, fun hle => absurd hle hlt⟩
    rw [upTo, ByteArray.extract_append, extract_eq_self h, Nat.zero_sub]

/-- What is beyond the bound makes no difference. -/
theorem Sink.GrowsTo.upTo {cap : Nat} {s s' : Sink} (h : s.GrowsTo s')
    (hfull : cap ≤ s.bytes.size) : s'.upTo cap = s.upTo cap := by
  obtain ⟨more, hmore⟩ := h.bytes
  rw [Sink.upTo, Sink.upTo, hmore, ByteArray.extract_append, Nat.sub_eq_zero_of_le hfull,
    Nat.zero_sub, ByteArray.extract_same, ByteArray.append_empty]

/-- The same run with a sink that takes this many bytes and with one that takes all of them. -/
def Curb.output (limit cap : Nat) : Curb where
  tight := limit
  loose := limit
  Paired s s' := s = s'.upTo cap ∧ s'.limit = none ∧ s'.bytes.size ≤ cap
  Journals := Eq
  Stops e := e.kind = .output
  Left s s' := s = s'.upTo cap ∧ cap < s'.bytes.size
  tight_le := Nat.le_refl limit
  tooDeep hne := absurd rfl hne
  write := by
    rintro _ s' ⟨rfl, hfree, hsize⟩ text
    have hgrows := Sink.GrowsTo.write s' text
    have htaken : (s'.write text).2 = true := by
      obtain ⟨bytes, limit⟩ := s'
      obtain rfl : limit = none := hfree
      rfl
    obtain ⟨hkept, htakes⟩ := Sink.write_upTo hfree hsize text
    by_cases hfits : (s'.write text).1.bytes.size ≤ cap
    · exact .inl ⟨(htakes.mpr hfits).trans htaken.symm, hkept, hgrows.limit.trans hfree, hfits⟩
    · have hrefused := Bool.eq_false_iff.mpr (mt htakes.mp hfits)
      exact .inr ⟨hrefused, fun _ => rfl, hkept, Nat.lt_of_not_le hfits⟩
  note := Journal.note_eq
  later := by
    rintro _ s' s'' ⟨rfl, hfull⟩ hgrows
    obtain ⟨more, hmore⟩ := hgrows.bytes
    refine ⟨(hgrows.upTo (Nat.le_of_lt hfull)).symm, ?_⟩
    rw [hmore, ByteArray.size_append]
    omega

/-- The machine with a sink that takes so many bytes more. -/
def Machine.bounded (m : Machine) (room : Nat) : Machine :=
  { m with sink := ⟨m.sink.bytes, some (m.sink.bytes.size + room)⟩ }

theorem Machine.bounded_paired {m : Machine} (hfree : m.sink.limit = none) (limit room : Nat) :
    (Curb.output limit (m.sink.bytes.size + room)).Machines (m.bounded room) m where
  store := rfl
  sink := ⟨(Sink.upTo_of_le (Nat.le_add_right _ _)).symm, hfree, Nat.le_add_right _ _⟩
  calls := rfl
  journal := rfl

-- ============================================================================
-- Runs with a bounded sink
-- ============================================================================

/-- A call is begun by a call expression, whose token it takes over. -/
theorem Begins.of_call {limit : Nat} {z : Moment} {f : Value} {values : List Value} {paren : Token}
    {m : Machine} (h : Begins limit z ⟨.call f values paren, m⟩) :
    ∃ callee args scope before, z = ⟨.eval (.call callee paren args) scope, before⟩ := by
  generalize htarget : Moment.mk (.call f values paren) m = target at h
  cases h with
  | @call callee _ args scope before =>
    cases htarget
    exact ⟨callee, args, scope, before, rfl⟩
  | first hpart =>
    cases htarget
    unfold Task.first? at hpart
    split at hpart <;> cases hpart
  | @turn _ body => cases body <;> cases htarget
  | right | arguments | others | body | block | branch | either | next | again => cases htarget

/-- If a phrase comes to a call, it comes to a call expression that begins it. -/
theorem Phrase.call_of_reaches {phrase : Phrase} {limit : Nat} {scope : ScopeId}
    {m before : Machine} {f : Value} {values : List Value} {paren : Token}
    (h : Reaches limit (phrase.start scope m) ⟨.call f values paren, before⟩) :
    ∃ callee args inner earlier,
      Reaches limit (phrase.start scope m) ⟨.eval (.call callee paren args) inner, earlier⟩ ∧
      Begins limit ⟨.eval (.call callee paren args) inner, earlier⟩
        ⟨.call f values paren, before⟩ := by
  rcases Relation.ReflTransGen.cases_tail h with hstart | ⟨z, hreaches, hbegins⟩
  · cases phrase with
    | program p => cases hstart
    | expression e => cases hstart
  · obtain ⟨callee, args, inner, earlier, rfl⟩ := hbegins.of_call
    exact ⟨callee, args, inner, earlier, hreaches, hbegins⟩

/-- A run only adds to the output, whatever it ends with. -/
theorem Phrase.Ends.growsTo {phrase : Phrase} {limit : Nat} {scope : ScopeId} {m m' : Machine}
    {r : Except RuntimeError Value} (h : phrase.Ends limit scope m r m') :
    m.sink.GrowsTo m'.sink := by
  obtain ⟨fuel, h⟩ := h
  exact (Curb.phrase_inPace (Curb.output limit 0) phrase fuel scope).grows.growsTo h

/-- On a sink without a bound, a call of `print` leaves its line behind what was there. -/
theorem bytes_of_print_precedes {limit : Nat} {values : List Value} {paren : Token} {m m' : Machine}
    (hfree : m.sink.limit = none)
    (h : Moment.Precedes limit ⟨.call (.builtin .print) values paren, m⟩ m') :
    ∃ later, m'.sink.bytes = m.sink.bytes ++ (Builtin.line values).toUTF8 ++ later := by
  obtain ⟨fuel, m₁, ⟨r, hcall⟩, hgrows⟩ := h
  obtain ⟨later, hlater⟩ := hgrows.bytes
  refine ⟨later, ?_⟩
  rw [hlater]
  congr 1
  cases fuel with
  | zero =>
    rw [call] at hcall
    cases hcall
  | succ fuel =>
    rw [call] at hcall
    obtain ⟨store, ⟨bytes, limit⟩, calls, journal⟩ := m
    obtain rfl : limit = none := hfree
    cases hcall
    rfl

/-- Where a run with a bounded sink ends with an output error, the free run comes to the call of
    `print` whose line goes past the bound. -/
theorem print_of_output_error {phrase : Phrase} {scope : ScopeId} {limit room : Nat}
    {m m₁ m₂ : Machine} {e : RuntimeError} {r : Except RuntimeError Value}
    (hfree : m.sink.limit = none) (hends : phrase.Ends limit scope m r m₂)
    (hbounded : phrase.Ends limit scope (m.bounded room) (.error e) m₁) (he : e.kind = .output) :
    ∃ values paren call earlier later,
      Reaches limit (phrase.start scope m) ⟨.call (.builtin .print) values paren, call⟩ ∧
      call.sink.bytes = m.sink.bytes ++ earlier ∧
      m₂.sink.bytes = m.sink.bytes ++ (earlier ++ (Builtin.line values).toUTF8 ++ later) ∧
      earlier.size ≤ room ∧ room < (earlier ++ (Builtin.line values).toUTF8).size ∧
      e = ⟨paren, .outputFailed Sink.fullMessage⟩ ∧ m₁.store = call.store := by
  obtain ⟨fuel, hrun⟩ := hbounded
  obtain ⟨values, paren, before, hreaches₁, hfails⟩ :=
    phrase.run_blames limit fuel scope (m.bounded room) hrun he
  -- The free run comes to the same call, with a machine that belongs to this one.
  have hstart : (Curb.output limit (m.sink.bytes.size + room)).Machines
      (phrase.start scope (m.bounded room)).machine (phrase.start scope m).machine := by
    obtain ⟨hstore, hsink, hcalls, hjournal⟩ := Machine.bounded_paired hfree limit room
    cases phrase with
    | expression e => exact ⟨hstore, hsink, hcalls, hjournal⟩
    | program p => exact ⟨hstore, hsink, rfl, hjournal⟩
  obtain ⟨call, hreaches, hcall⟩ := Curb.reaches_of_tight hstart hreaches₁
  obtain ⟨hkept, hcallfree, hcallsize⟩ := hcall.sink
  -- What is written before the call, by it, and behind it.
  have hearlier : (phrase.start scope m).machine.sink.GrowsTo call.sink := hreaches.grows
  obtain ⟨earlier, hearlier⟩ := hearlier.bytes
  have hearlier' : call.sink.bytes = m.sink.bytes ++ earlier := by
    cases phrase <;> exact hearlier
  obtain ⟨later, hlater⟩ := bytes_of_print_precedes hcallfree (hreaches.precedes hends.precedes)
  refine ⟨values, paren, call, earlier, later, hreaches, hearlier', ?_, ?_, ?_, hfails.error, ?_⟩
  · rw [hlater, hearlier', ByteArray.append_assoc, ByteArray.append_assoc, ByteArray.append_assoc]
  · rw [hearlier', ByteArray.size_append] at hcallsize
    omega
  · have hrefused := hfails.full
    rw [show before.sink = call.sink.upTo _ from hkept] at hrefused
    have htakes := (Sink.write_upTo hcallfree hcallsize (Builtin.line values)).2
    rw [hrefused] at htakes
    have hbytes : (call.sink.write (Builtin.line values)).1.bytes =
        m.sink.bytes ++ (earlier ++ (Builtin.line values).toUTF8) := by
      obtain ⟨store, ⟨bytes, limit⟩, calls, journal⟩ := call
      obtain rfl : limit = none := hcallfree
      obtain rfl : bytes = _ := hearlier'
      exact ByteArray.append_assoc
    rw [hbytes, ByteArray.size_append] at htakes
    have hover := mt htakes.mpr Bool.false_ne_true
    omega
  · exact hfails.store.trans hcall.store

/-- A bounded sink only truncates. Take a run that ends with a sink that takes everything. If what it
    writes fits, the run with the bounded sink ends with the same result and leaves the same machine.
    If it does not, the run comes to a call of `print` whose line goes past the bound. There the run
    with the bounded sink ends with an output error, at the parenthesis of the call and with the
    scopes as they are when the call begins, and it has written as much as there was room for. -/
theorem bounded_sink_truncates (phrase : Phrase) (scope : ScopeId) (limit room : Nat)
    {m m₂ : Machine} {r : Except RuntimeError Value} (hfree : m.sink.limit = none)
    (hends : phrase.Ends limit scope m r m₂) :
    ∃ written, m₂.sink.bytes = m.sink.bytes ++ written ∧
      (written.size ≤ room → phrase.Ends limit scope (m.bounded room) r
        { m₂ with sink := ⟨m₂.sink.bytes, some (m.sink.bytes.size + room)⟩ }) ∧
      (room < written.size →
        ∃ callee paren args inner before values call earlier later m₁,
          Reaches limit (phrase.start scope m) ⟨.eval (.call callee paren args) inner, before⟩ ∧
          Begins limit ⟨.eval (.call callee paren args) inner, before⟩
            ⟨.call (.builtin .print) values paren, call⟩ ∧
          call.sink.bytes = m.sink.bytes ++ earlier ∧
          written = earlier ++ (Builtin.line values).toUTF8 ++ later ∧
          earlier.size ≤ room ∧ room < (earlier ++ (Builtin.line values).toUTF8).size ∧
          phrase.Ends limit scope (m.bounded room)
            (.error ⟨paren, .outputFailed Sink.fullMessage⟩) m₁ ∧
          m₁.store = call.store ∧
          m₁.sink.bytes = m.sink.bytes ++ written.extract 0 room) := by
  have hpaired := Machine.bounded_paired hfree limit room
  obtain ⟨written, hwritten⟩ := hends.growsTo.bytes
  have hsize : m₂.sink.bytes.size = m.sink.bytes.size + written.size := by
    rw [hwritten, ByteArray.size_append]
  refine ⟨written, hwritten, fun hfits => ?_, fun hlong => ?_⟩
  · rcases Curb.ends_of_loose hpaired hends with ⟨m₁, hbounded, hsame⟩ | ⟨e, m₁, -, -, -, hfull⟩
    · obtain ⟨hkept, -, hle⟩ := hsame.sink
      rw [Sink.upTo_of_le hle] at hkept
      obtain ⟨store, sink, calls, journal⟩ := m₁
      obtain ⟨rfl, -, rfl, rfl⟩ := hsame
      obtain rfl : sink = _ := hkept
      exact hbounded
    · omega
  · rcases Curb.ends_of_loose hpaired hends with ⟨m₁, -, hsame⟩ | ⟨e, m₁, hbounded, hstops, hleft⟩
    · have hle := hsame.sink.2.2
      omega
    · obtain ⟨values, paren, call, earlier, later, hreaches, hearlier, hbytes, hroom, hpast, rfl,
        hstore⟩ := print_of_output_error hfree hends hbounded hstops
      obtain ⟨callee, args, inner, before, hexpression, hbegins⟩ := Phrase.call_of_reaches hreaches
      have hline := (ByteArray.append_right_inj _).mp (hwritten.symm.trans hbytes)
      have hkept : m₁.sink.bytes = m₂.sink.bytes.extract 0 (m.sink.bytes.size + room) :=
        congrArg Sink.bytes hleft.1
      refine ⟨callee, paren, args, inner, before, values, call, earlier, later, m₁, hexpression,
        hbegins, hearlier, hline, hroom, hpast, hbounded, hstore, ?_⟩
      rw [hkept, hwritten, ByteArray.extract_append, extract_eq_self (Nat.le_add_right _ room),
        Nat.zero_sub, Nat.add_sub_cancel_left]

/-- `fn f(x) { print(x); if (x) f(false); } f(true);` writes two lines. Where there is room for
    seven bytes, the second one is cut behind two of its letters, in the middle of two calls. -/
theorem bounded_sink_truncates_countingDown :
    ∃ r m₂ paren m₁, (Phrase.program countingDown).Ends 2 0 idleMachine r m₂ ∧
      m₂.sink.bytes = "true\nfalse\n".toUTF8 ∧
      (Phrase.program countingDown).Ends 2 0 (idleMachine.bounded 7)
        (.error ⟨paren, .outputFailed Sink.fullMessage⟩) m₁ ∧
      m₁.sink.bytes = "true\nfa".toUTF8 := by
  have houtput : (((Phrase.program countingDown).run 2 20 0 idleMachine).map fun answer =>
      answer.2.sink.bytes) = some "true\nfalse\n".toUTF8 := by decide +kernel
  obtain ⟨⟨r, m₂⟩, hrun, hbytes⟩ := Option.map_eq_some_iff.mp houtput
  obtain ⟨written, hwritten, -, hlong⟩ :=
    bounded_sink_truncates (.program countingDown) 0 2 7 (m := idleMachine) rfl ⟨20, hrun⟩
  obtain rfl : written = "true\nfalse\n".toUTF8 := by
    rw [← hbytes, hwritten]
    exact ByteArray.empty_append.symm
  obtain ⟨-, paren, -, -, -, -, -, -, -, m₁, -, -, -, -, -, -, hends, -, hkept⟩ :=
    hlong (by decide +kernel)
  refine ⟨r, m₂, paren, m₁, ⟨20, hrun⟩, hbytes, hends, ?_⟩
  rw [hkept]
  decide +kernel

end Lexiscope

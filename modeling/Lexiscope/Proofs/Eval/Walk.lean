/-
  Lexiscope.Proofs.Eval.Walk

  What holds of two runs side by side, proved once.

  Two runs go through programs that belong together, on stores that are related in
  some way. Whatever the relation is, the argument that it is kept goes through the
  clauses of the evaluator in the same order: what is bound belongs together because
  what was computed does, and what is computed belongs together because what is looked
  up does. A `Walk` has the relation, for each state of knowledge about the stores (a
  world, which only ever grows), and one rule for each step on the machine; then the
  relation holds of all functions of the evaluator (`Walk.along`). A property of one
  run is a walk that does not look at the second one.
-/
import Lexiscope.Proofs.Eval.Evaluator
import Lexiscope.Proofs.Eval.Sites
import Mathlib.Data.List.Forall2
import Mathlib.Order.Basic

namespace Lexiscope

/-- The names that a statement can bind in the scope that it runs in: those that it declares, or
    that one of its branches declares. -/
def Stmt.declared : Stmt → List String
  | .letVar name _ => [name.lexeme]
  | .function _ name _ _ => [name.lexeme]
  | .ifThen _ _ yes => yes.declared
  | .ifThenElse _ _ yes no => yes.declared ++ no.declared
  | .expression _ | .block _ _ | .whileLoop _ _ _ | .returnStmt _ _ => []

-- ============================================================================
-- Trees that belong together
-- ============================================================================

/-- Expressions of the same form, whose tokens and parts belong together. -/
inductive ExprPair (Marks : Role → Token → Token → Prop) (Exprs : Expr → Expr → Prop) :
    Expr → Expr → Prop where
  | number (x : Float) : ExprPair Marks Exprs (.number x) (.number x)
  | string (s : String) : ExprPair Marks Exprs (.string s) (.string s)
  | boolean (b : Bool) : ExprPair Marks Exprs (.boolean b) (.boolean b)
  | nil : ExprPair Marks Exprs .nil .nil
  | identifier {t u : Token} (hname : Marks .name t u) :
      ExprPair Marks Exprs (.identifier t) (.identifier u)
  | unary {op : UnaryOp} {t u : Token} {e e' : Expr} (hmark : Marks (.sign op) t u)
      (h : Exprs e e') : ExprPair Marks Exprs (.unary op t e) (.unary op u e')
  | binary {op : BinaryOp} {t u : Token} {l r l' r' : Expr} (hmark : Marks (.operator op) t u)
      (hleft : Exprs l l') (hright : Exprs r r') :
      ExprPair Marks Exprs (.binary op t l r) (.binary op u l' r')
  | assign {t u : Token} {v v' : Expr} (hname : Marks .name t u) (h : Exprs v v') :
      ExprPair Marks Exprs (.assign t v) (.assign u v')
  | call {f f' : Expr} {t u : Token} {args args' : List Expr} (hcallee : Exprs f f')
      (hparen : Marks .call t u) (hargs : List.Forall₂ Exprs args args') :
      ExprPair Marks Exprs (.call f t args) (.call f' u args')

/-- Statements of the same form, whose parts belong together. -/
inductive StmtPair (Exprs : Expr → Expr → Prop) (Stmts : Stmt → Stmt → Prop)
    (Defs : FunctionDef → FunctionDef → Prop) : Stmt → Stmt → Prop where
  | expression {e e' : Expr} (h : Exprs e e') :
      StmtPair Exprs Stmts Defs (.expression e) (.expression e')
  | letBare {t u : Token} (hname : t.lexeme = u.lexeme) :
      StmtPair Exprs Stmts Defs (.letVar t none) (.letVar u none)
  | letValue {t u : Token} {v v' : Expr} (hname : t.lexeme = u.lexeme) (h : Exprs v v') :
      StmtPair Exprs Stmts Defs (.letVar t (some v)) (.letVar u (some v'))
  | block {t u : Token} {body body' : List Stmt} (h : List.Forall₂ Stmts body body') :
      StmtPair Exprs Stmts Defs (.block t body) (.block u body')
  | ifThen {t u : Token} {c c' : Expr} {yes yes' : Stmt} (hcondition : Exprs c c')
      (hyes : Stmts yes yes') : StmtPair Exprs Stmts Defs (.ifThen t c yes) (.ifThen u c' yes')
  | ifThenElse {t u : Token} {c c' : Expr} {yes yes' no no' : Stmt} (hcondition : Exprs c c')
      (hyes : Stmts yes yes') (hno : Stmts no no') :
      StmtPair Exprs Stmts Defs (.ifThenElse t c yes no) (.ifThenElse u c' yes' no')
  | whileLoop {t u : Token} {c c' : Expr} {body body' : Stmt} (hcondition : Exprs c c')
      (hbody : Stmts body body') :
      StmtPair Exprs Stmts Defs (.whileLoop t c body) (.whileLoop u c' body')
  | function {label label' : Nat} {t u : Token} {params params' : List Token}
      {body body' : List Stmt} (hname : t.lexeme = u.lexeme)
      (h : Defs ⟨label, t, params, body⟩ ⟨label', u, params', body'⟩) :
      StmtPair Exprs Stmts Defs (.function label t params body) (.function label' u params' body')
  | returnBare {t u : Token} : StmtPair Exprs Stmts Defs (.returnStmt t none) (.returnStmt u none)
  | returnValue {t u : Token} {v v' : Expr} (h : Exprs v v') :
      StmtPair Exprs Stmts Defs (.returnStmt t (some v)) (.returnStmt u (some v'))

/-- Function definitions with the same names, whose bodies belong together. -/
structure DefPair (Stmts : Stmt → Stmt → Prop) (f g : FunctionDef) : Prop where
  name : f.name.lexeme = g.name.lexeme
  params : f.params.map Token.lexeme = g.params.map Token.lexeme
  body : List.Forall₂ Stmts f.body g.body

theorem DefPair.arity {Stmts : Stmt → Stmt → Prop} {f g : FunctionDef} (h : DefPair Stmts f g) :
    f.arity = g.arity := by
  have hlength := congrArg List.length h.params
  rwa [List.length_map, List.length_map] at hlength

/-- Which trees belong together, in the body of a function and outside of one. Trees that do are of
    the same form, and so are their parts. -/
structure Trees where
  Marks : Bool → Role → Token → Token → Prop
  Exprs : Bool → Expr → Expr → Prop
  Stmts : Bool → Stmt → Stmt → Prop
  Defs : FunctionDef → FunctionDef → Prop
  exprs : ∀ {inside e e'}, Exprs inside e e' → ExprPair (Marks inside) (Exprs inside) e e'
  stmts : ∀ {inside s s'}, Stmts inside s s' → StmtPair (Exprs inside) (Stmts inside) Defs s s'
  defs : ∀ {f g}, Defs f g → DefPair (Stmts true) f g

/-- In a row whose members all have the property, each of them belongs to itself. -/
theorem forall₂_self {α : Type} {P : α → Prop} {row : List α} (h : ∀ a ∈ row, P a) :
    List.Forall₂ (fun a b => P a ∧ a = b) row row :=
  (List.forall₂_and_left _ _).mpr ⟨h, List.forall₂_refl row⟩

/-- Every tree belongs to itself only. -/
def Trees.same : Trees where
  Marks _ _ := Eq
  Exprs _ := Eq
  Stmts _ := Eq
  Defs := Eq
  exprs := by
    rintro inside e _ rfl
    cases e with
    | call f t args => exact .call rfl rfl (List.forall₂_refl args)
    | _ => constructor <;> rfl
  stmts := by
    rintro inside s _ rfl
    cases s with
    | block t body => exact .block (List.forall₂_refl body)
    | letVar t value => cases value <;> constructor <;> rfl
    | returnStmt t value => cases value <;> constructor; rfl
    | _ => constructor <;> rfl
  defs := by
    rintro f _ rfl
    exact ⟨rfl, rfl, List.forall₂_refl f.body⟩

-- ============================================================================
-- Values that belong together
-- ============================================================================

/-- The same value, or functions that belong together and close over scopes that do. -/
inductive ValuePair (Defs : FunctionDef → FunctionDef → Prop) (Scopes : ScopeId → ScopeId → Prop) :
    Value → Value → Prop where
  | plain {v : Value} (h : ∀ f c, v ≠ .function f c) : ValuePair Defs Scopes v v
  | function {f g : FunctionDef} {a b : ScopeId} (hdef : Defs f g) (hscope : Scopes a b) :
      ValuePair Defs Scopes (.function f a) (.function g b)

/-- Statements end in the same way, with values that belong together. -/
inductive FlowPair (Values : Value → Value → Prop) : Flow → Flow → Prop where
  | normal {v v' : Value} (h : Values v v') : FlowPair Values (.normal v) (.normal v')
  | returned {v v' : Value} (h : Values v v') : FlowPair Values (.returned v) (.returned v')

theorem FlowPair.eq {x y : Flow} (h : FlowPair Eq x y) : x = y := by
  cases h with
  | normal h | returned h => rw [h]

theorem FlowPair.same (x : Flow) : FlowPair Eq x x := by
  cases x with
  | normal v => exact .normal rfl
  | returned v => exact .returned rfl

namespace ValuePair

variable {Defs : FunctionDef → FunctionDef → Prop} {Scopes Scopes' : ScopeId → ScopeId → Prop}
  {v v' : Value}

theorem mono (h : ValuePair Defs Scopes v v') (hle : ∀ a b, Scopes a b → Scopes' a b) :
    ValuePair Defs Scopes' v v' := by
  cases h with
  | plain h => exact .plain h
  | function hdef hscope => exact .function hdef (hle _ _ hscope)

theorem isTruthy (h : ValuePair Defs Scopes v v') : v.isTruthy = v'.isTruthy := by
  cases h with
  | plain _ | function _ _ => rfl

theorem settledBy (h : ValuePair Defs Scopes v v') (op : BinaryOp) :
    op.settledBy v = op.settledBy v' := by
  cases op with
  | or | and => rw [BinaryOp.settledBy, BinaryOp.settledBy, h.isTruthy]
  | _ => rfl

theorem text (h : ValuePair Defs Scopes v v')
    (hdefs : ∀ f g, Defs f g → f.name.lexeme = g.name.lexeme) : v.text = v'.text := by
  cases h with
  | plain _ => rfl
  | function hdef _ => rw [Value.text, Value.text, hdefs _ _ hdef]

theorem eq_iff : v = v' ↔ ValuePair Eq Eq v v' := by
  constructor
  · rintro rfl
    cases v with
    | function f c => exact .function rfl rfl
    | _ => exact .plain nofun
  · rintro (_ | ⟨rfl, rfl⟩)
    · rfl
    · rfl

end ValuePair

-- ============================================================================
-- Walks
-- ============================================================================

/-- The only world of a walk that has nothing to learn about the stores. -/
structure OneWorld

instance : Preorder OneWorld where
  le _ _ := True
  le_refl _ := trivial
  le_trans _ _ _ _ _ := trivial

/-- What is carried along two runs of programs that belong together: which scopes and values belong
    together, which names the first run may bind where, and what it means for two steps to stay
    together with results that do. A world stands for what is known about the stores, and what
    belongs together in it does so in all later ones. -/
structure Walk (World : Type) [Preorder World] extends Trees where
  /-- How many calls may be active at once in the first run. -/
  limit : Nat
  /-- How many calls may be active at once in the second run. -/
  limit' : Nat
  Scopes : World → ScopeId → ScopeId → Prop
  Values : World → Value → Value → Prop
  Binds : World → ScopeId → String → Prop
  Steps : {α : Type} → World → (World → α → α → Prop) → EvalM α → EvalM α → Prop
  scopes_mono : ∀ {w w' a b}, w ≤ w' → Scopes w a b → Scopes w' a b
  binds_mono : ∀ {w w' a x}, w ≤ w' → Binds w a x → Binds w' a x
  values_iff : ∀ {w v v'}, Values w v v' ↔ ValuePair Defs (Scopes w) v v'
  outOfFuel : ∀ {α : Type} w (A : World → α → α → Prop), Steps w A EvalM.outOfFuel EvalM.outOfFuel
  protected pure : ∀ {α : Type} {w} {A : World → α → α → Prop} {a b}, (∀ w', w ≤ w' → A w' a b) →
    Steps w A (pure a) (pure b)
  protected bind : ∀ {α β : Type} {w} {A : World → α → α → Prop} {B : World → β → β → Prop}
    {x y f g}, Steps w A x y → (∀ w', w ≤ w' → ∀ a b, A w' a b → Steps w' B (f a) (g b)) →
    Steps w B (x >>= f) (y >>= g)
  inCall : ∀ {w x y}, Steps w (fun w' => FlowPair (Values w')) x y →
    Steps w (fun w' => FlowPair (Values w')) (EvalM.inCall x) (EvalM.inCall y)
  activeCalls : ∀ w,
    Steps w (fun _ => Eq) (EvalM.gets Machine.activeCalls) (EvalM.gets Machine.activeCalls)
  note : ∀ {w} e, Steps w (fun _ _ _ => True) (EvalM.modify fun m => m.note e)
    (EvalM.modify fun m => m.note e)
  newChild : ∀ {w a b}, Scopes w a b →
    Steps w (fun w' c d => Scopes w' c d ∧ ∀ x, Binds w' c x) (EvalM.newChild a) (EvalM.newChild b)
  define : ∀ {w a b x v v'}, Scopes w a b → Binds w a x → Values w v v' →
    Steps w (fun _ _ _ => True) (EvalM.define a x v) (EvalM.define b x v')
  lookup : ∀ {w inside a b t u}, Scopes w a b → Marks inside .name t u →
    Steps w Values (EvalM.lookup a t) (EvalM.lookup b u)
  assign : ∀ {w inside a b t u v v'}, Scopes w a b → Marks inside .name t u → Values w v v' →
    Steps w (fun _ _ _ => True) (EvalM.assign a t v) (EvalM.assign b u v')
  write : ∀ {w inside t u} text, Marks inside .call t u →
    Steps w (fun _ _ _ => True) (EvalM.write t text) (EvalM.write u text)
  sign : ∀ {w inside op t u v v'}, Marks inside (.sign op) t u → Values w v v' →
    Steps w Values (EvalM.ofExcept (op.apply t v)) (EvalM.ofExcept (op.apply u v'))
  operator : ∀ {w inside op t u l l' r r'}, Marks inside (.operator op) t u → Values w l l' →
    Values w r r' →
    Steps w Values (EvalM.ofExcept (op.apply t l r)) (EvalM.ofExcept (op.apply u l' r'))
  notCallable : ∀ {w inside t u} {v : Value}, Marks inside .call t u → v.type ≠ .function →
    Steps w Values (EvalM.fail t (.notCallable v.type)) (EvalM.fail u (.notCallable v.type))
  wrongArity : ∀ {w inside t u} name {arity given}, Marks inside .call t u → given ≠ arity →
    Steps w Values (EvalM.fail t (.wrongArity name arity given))
      (EvalM.fail u (.wrongArity name arity given))
  tooDeep : ∀ {w inside t u} name depth {x y}, Marks inside .call t u → Steps w Values x y →
    Steps w Values (if limit ≤ depth then EvalM.fail t (.tooDeep limit name) else x)
      (if limit' ≤ depth then EvalM.fail u (.tooDeep limit' name) else y)

namespace Walk

variable {World : Type} [Preorder World] (W : Walk World)

/-- Rows of values that belong together. -/
def Rows (w : World) : List Value → List Value → Prop := List.Forall₂ (W.Values w)

/-- Ends of statements that belong together. -/
def Flows (w : World) : Flow → Flow → Prop := FlowPair (W.Values w)

variable {W} {w w' : World}

theorem values_plain {v : Value} (h : ∀ f c, v ≠ .function f c) : W.Values w v v :=
  W.values_iff.mpr (.plain h)

theorem values_nil : W.Values w .nil .nil := values_plain nofun

theorem values_mono (hw : w ≤ w') {v v' : Value} (h : W.Values w v v') : W.Values w' v v' :=
  W.values_iff.mpr ((W.values_iff.mp h).mono fun _ _ => W.scopes_mono hw)

theorem rows_mono (hw : w ≤ w') {vs vs' : List Value} (h : W.Rows w vs vs') : W.Rows w' vs vs' :=
  List.Forall₂.imp (fun _ _ => values_mono hw) h

theorem isTruthy_eq {v v' : Value} (h : W.Values w v v') : v.isTruthy = v'.isTruthy :=
  (W.values_iff.mp h).isTruthy

theorem callResult {x y : Flow} (h : W.Flows w x y) : W.Values w x.callResult y.callResult := by
  cases h with
  | normal _ => exact values_nil
  | returned h => exact h

theorem map_text {vs vs' : List Value} (h : W.Rows w vs vs') :
    vs.map Value.text = vs'.map Value.text := by
  induction h with
  | nil => rfl
  | cons hv _ ih =>
    have htext := (W.values_iff.mp hv).text fun f g hdef => (W.defs hdef).name
    rw [List.map_cons, List.map_cons, htext, ih]

theorem ite {α : Type} {A : World → α → α → Prop} {c c' : Bool} {x y x' y' : EvalM α} (hc : c = c')
    (hyes : W.Steps w A x x') (hno : W.Steps w A y y') :
    W.Steps w A (if c then x else y) (if c' then x' else y') := by
  subst hc
  split
  · exact hyes
  · exact hno

theorem bindParams {a b : ScopeId} {params params' : List Token} {vs vs' : List Value}
    (hab : W.Scopes w a b) (hbinds : ∀ x, W.Binds w a x)
    (hparams : params.map Token.lexeme = params'.map Token.lexeme) (hargs : W.Rows w vs vs') :
    W.Steps w (fun _ _ _ => True) (Lexiscope.bindParams a params vs)
      (Lexiscope.bindParams b params' vs') := by
  -- Both rows are walked together, and each name that is bound leaves the rest of them related.
  induction params generalizing params' vs vs' w with
  | nil =>
    obtain rfl : params' = [] := List.map_eq_nil_iff.mp hparams.symm
    exact W.pure fun _ _ => trivial
  | cons p params ih =>
    cases params' with
    | nil => exact nomatch hparams
    | cons p' params' =>
      obtain ⟨hname, hrest⟩ := List.cons.inj hparams
      cases hargs with
      | nil => exact W.pure fun _ _ => trivial
      | cons hv hvs =>
        rw [Lexiscope.bindParams, Lexiscope.bindParams, ← hname]
        refine W.bind (W.define hab (hbinds _) hv) fun w' hw _ _ _ => ?_
        exact ih (W.scopes_mono hw hab) (fun x => W.binds_mono hw (hbinds x)) hrest
          (rows_mono hw hvs)

theorem builtinCall (which : Builtin) {inside : Bool} {vs vs' : List Value} {t u : Token}
    (hargs : W.Rows w vs vs') (hparen : W.Marks inside .call t u) :
    W.Steps w W.Values (which.call vs t) (which.call vs' u) := by
  cases which with
  | print =>
    rw [Builtin.call, Builtin.call, map_text hargs]
    exact W.bind (W.write _ hparen) fun _ _ _ _ _ => W.pure fun _ _ => values_nil

-- ============================================================================
-- The evaluator
-- ============================================================================

/-- The functions of two evaluators stay together on what belongs together. -/
structure Along (W : Walk World) (E E' : Evaluator) : Prop where
  eval : ∀ (inside) {w e e' a b}, W.Exprs inside e e' → W.Scopes w a b →
    W.Steps w W.Values (E.eval e a) (E'.eval e' b)
  evalAll : ∀ (inside) {w es es' a b}, List.Forall₂ (W.Exprs inside) es es' → W.Scopes w a b →
    W.Steps w W.Rows (E.evalAll es a) (E'.evalAll es' b)
  call : ∀ (inside) {w f f' vs vs' t u}, W.Values w f f' → W.Rows w vs vs' →
    W.Marks inside .call t u → W.Steps w W.Values (E.call f vs t) (E'.call f' vs' u)
  exec : ∀ (inside) {w s s' a b}, W.Stmts inside s s' → W.Scopes w a b →
    (∀ x ∈ s.declared, W.Binds w a x) → W.Steps w W.Flows (E.exec s a) (E'.exec s' b)
  execAll : ∀ (inside) {w ss ss' v v' a b}, List.Forall₂ (W.Stmts inside) ss ss' → W.Values w v v' →
    W.Scopes w a b → (∀ x, W.Binds w a x) →
    W.Steps w W.Flows (E.execAll ss v a) (E'.execAll ss' v' b)
  repeatWhile : ∀ (inside) {w c c' s s' a b}, W.Exprs inside c c' → W.Stmts inside s s' →
    W.Scopes w a b → W.Steps w W.Flows (E.repeatWhile c s a) (E'.repeatWhile c' s' b)

/-- The body of a loop is run in the scope of a turn. -/
def Turns (W : Walk World) (turn turn' : Stmt → ScopeId → EvalM Flow) : Prop :=
  ∀ ⦃w inside s s' a b⦄, W.Stmts inside s s' → W.Scopes w a b →
    W.Steps w W.Flows (EvalM.newChild a >>= turn s) (EvalM.newChild b >>= turn' s')

namespace Along

variable {E E' : Evaluator} {a b : ScopeId} {inside : Bool}

section Step

variable (ih : W.Along E E')
include ih

/-- The turns of a loop stay together if the statements of a block stand directly in the scope. -/
theorem turns : W.Turns E.turn E'.turn := by
  intro w inside s s' a b hs hab
  refine W.bind (W.newChild hab) fun w' hw c d hcd => ?_
  have hother := ih.exec inside hs hcd.1 fun x _ => hcd.2 x
  cases W.stmts hs with
  | block h => exact ih.execAll inside h values_nil hcd.1 hcd.2
  | _ => exact hother

variable {turn turn' : Stmt → ScopeId → EvalM Flow}

theorem eval_next {e e' : Expr} (he : W.Exprs inside e e') (hab : W.Scopes w a b) :
    W.Steps w W.Values ((E.next W.limit turn).eval e a) ((E'.next W.limit' turn').eval e' b) := by
  cases W.exprs he with
  | number _ | string _ | boolean _ | nil => exact W.pure fun _ _ => values_plain nofun
  | identifier hname => exact W.lookup hab hname
  | unary hmark h =>
    refine W.bind (ih.eval inside h hab) fun w' hw v v' hv => ?_
    exact W.sign hmark hv
  | @binary op t u l r l' r' hmark hleft hright =>
    refine W.bind (ih.eval inside hleft hab) fun w' hw v v' hv => ?_
    refine ite ((W.values_iff.mp hv).settledBy op) (W.pure fun _ hw' => values_mono hw' hv) ?_
    refine W.bind (ih.eval inside hright (W.scopes_mono hw hab)) fun w'' hw' r r' hr => ?_
    exact W.operator hmark (values_mono hw' hv) hr
  | assign hname h =>
    refine W.bind (ih.eval inside h hab) fun w' hw v v' hv => ?_
    refine W.bind (W.assign (W.scopes_mono hw hab) hname hv) fun w'' hw' _ _ _ => ?_
    exact W.pure fun _ hle => values_mono (hw'.trans hle) hv
  | call hcallee hparen hargs =>
    refine W.bind (ih.eval inside hcallee hab) fun w' hw f f' hf => ?_
    refine W.bind (ih.evalAll inside hargs (W.scopes_mono hw hab)) fun w'' hw' vs vs' hvs => ?_
    exact ih.call inside (values_mono hw' hf) hvs hparen

theorem evalAll_next {es es' : List Expr} (hes : List.Forall₂ (W.Exprs inside) es es')
    (hab : W.Scopes w a b) :
    W.Steps w W.Rows ((E.next W.limit turn).evalAll es a)
      ((E'.next W.limit' turn').evalAll es' b) := by
  cases hes with
  | nil => exact W.pure fun _ _ => .nil
  | cons he hrest =>
    refine W.bind (ih.eval inside he hab) fun w' hw v v' hv => ?_
    refine W.bind (ih.evalAll inside hrest (W.scopes_mono hw hab)) fun w'' hw' vs vs' hvs => ?_
    exact W.pure fun _ hle => .cons (values_mono (hw'.trans hle) hv) (rows_mono hle hvs)

theorem call_next {f f' : Value} {vs vs' : List Value} {t u : Token} (hf : W.Values w f f')
    (hargs : W.Rows w vs vs') (hparen : W.Marks inside .call t u) :
    W.Steps w W.Values ((E.next W.limit turn).call f vs t)
      ((E'.next W.limit' turn').call f' vs' u) := by
  cases W.values_iff.mp hf with
  | @function f g c d hdef hscope =>
    have hpair := W.defs hdef
    have hlength : vs.length = vs'.length := List.Forall₂.length_eq hargs
    dsimp only [Evaluator.next]
    rw [hlength, hpair.arity, hpair.name]
    refine W.bind (W.activeCalls w) fun w₁ hw₁ depth _ hdepth => ?_
    subst hdepth
    by_cases harity : vs'.length ≠ g.arity
    · rw [if_pos harity, if_pos harity]
      exact W.wrongArity _ hparen harity
    rw [if_neg harity, if_neg harity]
    refine W.tooDeep _ _ hparen ?_
    refine W.bind (W.newChild (W.scopes_mono hw₁ hscope)) fun w₂ hw₂ a b hab => ?_
    refine W.bind (bindParams hab.1 hab.2 hpair.params (rows_mono (hw₁.trans hw₂) hargs))
      fun w₃ hw₃ _ _ _ => ?_
    refine W.bind (W.note _) fun w₄ hw₄ _ _ _ => ?_
    have hw : w₂ ≤ w₄ := hw₃.trans hw₄
    have hbody := ih.execAll true hpair.body values_nil (W.scopes_mono hw hab.1)
      fun x => W.binds_mono hw (hab.2 x)
    exact W.bind (W.inCall hbody) fun w₅ _ x y hflow =>
      W.pure fun _ hle => values_mono hle (callResult hflow)
  | plain hplain =>
    cases f with
    | function f c => exact absurd rfl (hplain f c)
    | builtin which => exact builtinCall which hargs hparen
    | number _ | string _ | boolean _ | nil => exact W.notCallable hparen nofun

theorem exec_next {s s' : Stmt} (hs : W.Stmts inside s s') (hab : W.Scopes w a b)
    (hbinds : ∀ x ∈ s.declared, W.Binds w a x) :
    W.Steps w W.Flows ((E.next W.limit turn).exec s a) ((E'.next W.limit' turn').exec s' b) := by
  have hnil : ∀ w, W.Steps w W.Flows (pure (Flow.normal .nil)) (pure (Flow.normal .nil)) :=
    fun _ => W.pure fun _ _ => .normal values_nil
  cases W.stmts hs with
  | expression h =>
    refine W.bind (ih.eval inside h hab) fun w' hw v v' hv => ?_
    exact W.pure fun _ hle => .normal (values_mono hle hv)
  | @letBare t u hname =>
    dsimp only [Evaluator.next]
    rw [← hname]
    exact W.bind (W.define hab (hbinds _ (List.mem_singleton_self _)) values_nil)
      fun w' _ _ _ _ => hnil w'
  | @letValue t u v v' hname h =>
    dsimp only [Evaluator.next]
    rw [← hname]
    refine W.bind (ih.eval inside h hab) fun w' hw v v' hv => ?_
    have hname' := W.binds_mono hw (hbinds _ (List.mem_singleton_self _))
    exact W.bind (W.define (W.scopes_mono hw hab) hname' hv) fun w'' _ _ _ _ => hnil w''
  | block h =>
    exact W.bind (W.newChild hab) fun w' _ c d hcd => ih.execAll inside h values_nil hcd.1 hcd.2
  | ifThen hcondition hyes =>
    refine W.bind (ih.eval inside hcondition hab) fun w' hw v v' hv => ?_
    refine ite (isTruthy_eq hv) (ih.exec inside hyes (W.scopes_mono hw hab) ?_) (hnil w')
    exact fun x hx => W.binds_mono hw (hbinds x hx)
  | ifThenElse hcondition hyes hno =>
    refine W.bind (ih.eval inside hcondition hab) fun w' hw v v' hv => ?_
    have hab' := W.scopes_mono hw hab
    refine ite (isTruthy_eq hv) (ih.exec inside hyes hab' ?_) (ih.exec inside hno hab' ?_)
    · exact fun x hx => W.binds_mono hw (hbinds x (List.mem_append_left _ hx))
    · exact fun x hx => W.binds_mono hw (hbinds x (List.mem_append_right _ hx))
  | whileLoop hcondition hbody => exact ih.repeatWhile inside hcondition hbody hab
  | function hname h =>
    dsimp only [Evaluator.next]
    rw [← hname]
    -- The new function closes over the scope that binds it, and these scopes belong together.
    have hvalue := W.values_iff.mpr (.function h hab)
    exact W.bind (W.define hab (hbinds _ (List.mem_singleton_self _)) hvalue)
      fun w' _ _ _ _ => hnil w'
  | returnBare => exact W.pure fun _ _ => .returned values_nil
  | returnValue h =>
    refine W.bind (ih.eval inside h hab) fun w' hw v v' hv => ?_
    exact W.pure fun _ hle => .returned (values_mono hle hv)

theorem execAll_next {ss ss' : List Stmt} {v v' : Value}
    (hss : List.Forall₂ (W.Stmts inside) ss ss') (hv : W.Values w v v') (hab : W.Scopes w a b)
    (hbinds : ∀ x, W.Binds w a x) :
    W.Steps w W.Flows ((E.next W.limit turn).execAll ss v a)
      ((E'.next W.limit' turn').execAll ss' v' b) := by
  cases hss with
  | nil => exact W.pure fun _ hle => .normal (values_mono hle hv)
  | cons hs hrest =>
    refine W.bind (ih.exec inside hs hab fun x _ => hbinds x) fun w' hw x y hflow => ?_
    cases hflow with
    | normal h =>
      exact ih.execAll inside hrest h (W.scopes_mono hw hab) fun x => W.binds_mono hw (hbinds x)
    | returned h => exact W.pure fun _ hle => .returned (values_mono hle h)

theorem repeatWhile_next (hturns : W.Turns turn turn') {c c' : Expr} {s s' : Stmt}
    (hc : W.Exprs inside c c') (hs : W.Stmts inside s s') (hab : W.Scopes w a b) :
    W.Steps w W.Flows ((E.next W.limit turn).repeatWhile c s a)
      ((E'.next W.limit' turn').repeatWhile c' s' b) := by
  refine W.bind (ih.eval inside hc hab) fun w₁ hw₁ v v' hv => ?_
  refine ite (isTruthy_eq hv) ?_ (W.pure fun _ _ => .normal values_nil)
  rw [← EvalM.bind_assoc, ← EvalM.bind_assoc]
  refine W.bind (hturns hs (W.scopes_mono hw₁ hab)) fun w₂ hw₂ x y hflow => ?_
  cases hflow with
  | normal _ => exact ih.repeatWhile inside hc hs (W.scopes_mono (hw₁.trans hw₂) hab)
  | returned h => exact W.pure fun _ hle => .returned (values_mono hle h)

/-- Evaluators that stay together do so with one unit of fuel more, if the turns of loops do. -/
theorem next (hturns : W.Turns turn turn') :
    W.Along (E.next W.limit turn) (E'.next W.limit' turn') :=
  ⟨fun _ => ih.eval_next, fun _ => ih.evalAll_next, fun _ => ih.call_next, fun _ => ih.exec_next,
    fun _ => ih.execAll_next, fun _ => ih.repeatWhile_next hturns⟩

end Step

/-- Where nothing can be run any more, two evaluators stay together. -/
theorem spent (h : ∀ {α : Type} {w} {A : World → α → α → Prop} (y : EvalM α),
    W.Steps w A EvalM.outOfFuel y) (E' : Evaluator) : W.Along .spent E' := by
  constructor <;> intros <;> exact h _

end Along

/-- The evaluator stays together with itself, whatever the fuel. -/
theorem along (W : Walk World) (fuel : Nat) :
    W.Along (.plain W.limit fuel) (.plain W.limit' fuel) := by
  induction fuel with
  | zero =>
    rw [Evaluator.plain_zero, Evaluator.plain_zero]
    constructor <;> intros <;> exact W.outOfFuel _ _
  | succ fuel ih =>
    rw [Evaluator.plain_succ, Evaluator.plain_succ]
    exact ih.next ih.turns

end Walk

-- ============================================================================
-- Runs of one program with the same values
-- ============================================================================

/-- A relation between steps of two runs of one program that always have the same scopes and values:
    it holds of the steps on the machine, and of sequences and calls if it holds of the parts. -/
structure Congruence where
  /-- How many calls may be active at once in the first run. -/
  limit : Nat
  /-- How many calls may be active at once in the second run. -/
  limit' : Nat
  Steps : {α : Type} → EvalM α → EvalM α → Prop
  outOfFuel : ∀ {α : Type}, Steps (EvalM.outOfFuel : EvalM α) EvalM.outOfFuel
  protected pure : ∀ {α : Type} (a : α), Steps (pure a) (pure a)
  fail : ∀ {α : Type} t f, Steps (EvalM.fail t f : EvalM α) (EvalM.fail t f)
  ofExcept : ∀ {α : Type} (r : Except RuntimeError α), Steps (EvalM.ofExcept r) (EvalM.ofExcept r)
  protected bind : ∀ {α β : Type} {x y : EvalM α} {f g : α → EvalM β}, Steps x y →
    (∀ a, Steps (f a) (g a)) → Steps (x >>= f) (y >>= g)
  inCall : ∀ {α : Type} {x y : EvalM α}, Steps x y → Steps (EvalM.inCall x) (EvalM.inCall y)
  activeCalls : Steps (EvalM.gets Machine.activeCalls) (EvalM.gets Machine.activeCalls)
  note : ∀ e, Steps (EvalM.modify fun m => m.note e) (EvalM.modify fun m => m.note e)
  newChild : ∀ a, Steps (EvalM.newChild a) (EvalM.newChild a)
  define : ∀ a x v, Steps (EvalM.define a x v) (EvalM.define a x v)
  lookup : ∀ a t, Steps (EvalM.lookup a t) (EvalM.lookup a t)
  assign : ∀ a t v, Steps (EvalM.assign a t v) (EvalM.assign a t v)
  write : ∀ t text, Steps (EvalM.write t text) (EvalM.write t text)
  tooDeep : ∀ {α : Type} t name depth {x y : EvalM α}, Steps x y →
    Steps (if limit ≤ depth then EvalM.fail t (.tooDeep limit name) else x)
      (if limit' ≤ depth then EvalM.fail t (.tooDeep limit' name) else y)

namespace Congruence

variable (K : Congruence)

/-- Whatever goes on from here in the same way does so in both runs. -/
def Continues {α : Type} (A : α → α → Prop) (x y : EvalM α) : Prop :=
  ∀ (β : Type) (f g : α → EvalM β), (∀ a b, A a b → K.Steps (f a) (g b)) →
    K.Steps (x >>= f) (y >>= g)

variable {K}

theorem Continues.of_steps {α : Type} {A : α → α → Prop} {x y : EvalM α} (h : K.Steps x y)
    (hA : ∀ a, A a a) : K.Continues A x y :=
  fun _ _ _ hfg => K.bind h fun a => hfg a a (hA a)

theorem Continues.steps {α : Type} {A : α → α → Prop} {x y : EvalM α} (h : K.Continues A x y)
    (hA : ∀ a b, A a b → a = b) : K.Steps x y := by
  rw [← EvalM.bind_pure x, ← EvalM.bind_pure y]
  refine h α pure pure fun a b hab => ?_
  obtain rfl := hA a b hab
  exact K.pure a

/-- Related values are the same ones here, so nothing has to be known of the stores. -/
def walk (K : Congruence) : Walk OneWorld where
  toTrees := .same
  limit := K.limit
  limit' := K.limit'
  Scopes _ := Eq
  Values _ := Eq
  Binds _ _ _ := True
  Steps _ A := K.Continues (A ⟨⟩)
  scopes_mono _ h := h
  binds_mono _ h := h
  values_iff := ValuePair.eq_iff
  outOfFuel _ _ _ _ _ _ := K.outOfFuel
  pure h _ _ _ hfg := hfg _ _ (h ⟨⟩ le_rfl)
  bind hxy hfg β f g h := by
    rw [EvalM.bind_assoc, EvalM.bind_assoc]
    exact hxy β _ _ fun a b hab => hfg ⟨⟩ le_rfl a b hab β f g h
  inCall h := Continues.of_steps (K.inCall (h.steps fun _ _ => FlowPair.eq)) FlowPair.same
  activeCalls _ := Continues.of_steps K.activeCalls fun _ => rfl
  note e := Continues.of_steps (K.note e) fun _ => trivial
  newChild := by
    rintro _ a _ rfl
    exact .of_steps (K.newChild a) fun _ => ⟨rfl, fun _ => trivial⟩
  define := by
    rintro _ a _ x v _ rfl - rfl
    exact .of_steps (K.define a x v) fun _ => trivial
  lookup := by
    rintro _ _ a _ t _ rfl rfl
    exact .of_steps (K.lookup a t) fun _ => rfl
  assign := by
    rintro _ _ a _ t _ v _ rfl rfl rfl
    exact .of_steps (K.assign a t v) fun _ => trivial
  write := by
    rintro _ _ t _ text rfl
    exact .of_steps (K.write t text) fun _ => trivial
  sign := by
    rintro _ _ op t _ v _ rfl rfl
    exact .of_steps (K.ofExcept _) fun _ => rfl
  operator := by
    rintro _ _ op t _ l _ r _ rfl rfl rfl
    exact .of_steps (K.ofExcept _) fun _ => rfl
  notCallable := by
    rintro _ _ t _ v rfl -
    exact .of_steps (K.fail t _) fun _ => rfl
  wrongArity := by
    rintro _ _ t _ name _ _ rfl -
    exact .of_steps (K.fail t _) fun _ => rfl
  tooDeep := by
    rintro _ _ t _ name depth x y rfl h
    exact .of_steps (K.tooDeep t name depth (h.steps fun _ _ hab => hab)) fun _ => rfl

/-- Two evaluators keep to the relation. -/
structure Respects (K : Congruence) (E E' : Evaluator) : Prop where
  eval : ∀ e scope, K.Steps (E.eval e scope) (E'.eval e scope)
  evalAll : ∀ es scope, K.Steps (E.evalAll es scope) (E'.evalAll es scope)
  call : ∀ f args paren, K.Steps (E.call f args paren) (E'.call f args paren)
  exec : ∀ s scope, K.Steps (E.exec s scope) (E'.exec s scope)
  execAll : ∀ ss last scope, K.Steps (E.execAll ss last scope) (E'.execAll ss last scope)
  repeatWhile : ∀ condition body scope,
    K.Steps (E.repeatWhile condition body scope) (E'.repeatWhile condition body scope)

theorem respects_of_along {E E' : Evaluator} (h : K.walk.Along E E') : K.Respects E E' := by
  have hrefl : ∀ {α : Type} (row : List α), List.Forall₂ Eq row row := List.forall₂_refl
  have hrows : ∀ vs vs' : List Value, List.Forall₂ Eq vs vs' → vs = vs' := by
    rw [List.forall₂_eq_eq_eq]
    exact fun _ _ hvs => hvs
  have hflow : ∀ x y : Flow, FlowPair Eq x y → x = y := fun _ _ => FlowPair.eq
  constructor
  · intro e scope
    exact (h.eval false (w := ⟨⟩) rfl rfl).steps fun _ _ hvs => hvs
  · intro es scope
    exact (h.evalAll false (w := ⟨⟩) (hrefl es) rfl).steps hrows
  · intro f args paren
    exact (h.call false (w := ⟨⟩) rfl (hrefl args) rfl).steps
      fun _ _ hvs => hvs
  · intro s scope
    exact (h.exec false (w := ⟨⟩) rfl rfl fun _ _ => trivial).steps hflow
  · intro ss last scope
    exact (h.execAll false (w := ⟨⟩) (hrefl ss) rfl rfl fun _ => trivial).steps hflow
  · intro condition body scope
    exact (h.repeatWhile false (w := ⟨⟩) rfl rfl rfl).steps hflow

end Congruence

end Lexiscope

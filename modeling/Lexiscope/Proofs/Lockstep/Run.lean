/-
  Lexiscope.Proofs.Lockstep.Run

  Programs that are alike run in lockstep.

  A step takes machines that are alike to answers that are alike: neither has an
  answer yet, or both end with values that are alike, or both fail with the same
  fault at paired tokens; and the machines are alike afterwards, with new scopes
  paired besides the old ones (`InStep`). The steps of the machine have this
  property and sequences inherit it; so it is a walk over the evaluator (`walk`).
-/
import Lexiscope.Proofs.Eval.Walk
import Lexiscope.Proofs.Lockstep.Store

namespace Lexiscope.Lockstep

-- ============================================================================
-- Machines and answers
-- ============================================================================

/-- Machines that no program can tell apart. What their journals say is not compared. -/
structure MachineAlike (T : Token → Token → Prop) (ρ : Scopes) (m m' : Machine) : Prop where
  stores : StoreAlike T ρ m.store m'.store
  sink : m.sink = m'.sink
  calls : m.activeCalls = m'.activeCalls

/-- The same fault at paired tokens. -/
structure ErrorAlike (T : Token → Token → Prop) (e e' : RuntimeError) : Prop where
  token : T e.token e'.token
  fault : e.fault = e'.fault

/-- Both results are values that are alike, or both are the same fault at paired tokens. -/
inductive ResultAlike (T : Token → Token → Prop) {α β : Type} (A : α → β → Prop) :
    Except RuntimeError α → Except RuntimeError β → Prop where
  | ok {a : α} {b : β} (h : A a b) : ResultAlike T A (.ok a) (.ok b)
  | error {e e' : RuntimeError} (h : ErrorAlike T e e') : ResultAlike T A (.error e) (.error e')

/-- Neither run has ended, or both have, alike, with at least the given scopes paired. -/
inductive AnswerAlike (T : Token → Token → Prop) (ρ : Scopes) {α β : Type}
    (A : Scopes → α → β → Prop) :
    Option (Except RuntimeError α × Machine) → Option (Except RuntimeError β × Machine) → Prop where
  | none : AnswerAlike T ρ A none none
  | some {ρ' : Scopes} {r : Except RuntimeError α} {r' : Except RuntimeError β} {m m' : Machine}
      (hρ : ρ ≤ ρ') (hresult : ResultAlike T (A ρ') r r') (hmachine : MachineAlike T ρ' m m') :
      AnswerAlike T ρ A (some (r, m)) (some (r', m'))

/-- On machines that are alike the steps have answers that are alike. What it means for values to
    be alike may depend on the scopes that are paired when they are compared. -/
def InStep (T : Token → Token → Prop) (ρ : Scopes) {α β : Type} (A : Scopes → α → β → Prop)
    (x : EvalM α) (y : EvalM β) : Prop :=
  ∀ ⦃m m'⦄, MachineAlike T ρ m m' → AnswerAlike T ρ A (x m) (y m')

variable {T : Token → Token → Prop} {ρ : Scopes}

-- ============================================================================
-- Sequences of steps
-- ============================================================================

namespace InStep

variable {α β γ δ : Type} {A : Scopes → α → β → Prop} {B : Scopes → γ → δ → Prop}

protected theorem pure {a : α} {b : β} (h : A ρ a b) :
    InStep T ρ A (pure a : EvalM α) (pure b : EvalM β) :=
  fun _ _ hm => .some le_rfl (.ok h) hm

theorem outOfFuel : InStep T ρ A EvalM.outOfFuel EvalM.outOfFuel :=
  fun _ _ _ => .none

theorem fail {t u : Token} {f g : Fault} (htoken : T t u) (hfault : f = g) :
    InStep T ρ A (EvalM.fail t f) (EvalM.fail u g) :=
  fun _ _ hm => .some le_rfl (.error ⟨htoken, hfault⟩) hm

/-- What one step of the two runs gives, the next one takes: in a world in which at least as many
    scopes are paired. -/
protected theorem bind {x : EvalM α} {y : EvalM β} {f : α → EvalM γ} {g : β → EvalM δ}
    (hxy : InStep T ρ A x y)
    (hfg : ∀ ρ', ρ ≤ ρ' → ∀ a b, A ρ' a b → InStep T ρ' B (f a) (g b)) :
    InStep T ρ B (x >>= f) (y >>= g) := by
  intro m m' hm
  show AnswerAlike T ρ B (EvalM.bind x f m) (EvalM.bind y g m')
  have hanswer := hxy hm
  unfold EvalM.bind
  generalize x m = r, y m' = r' at hanswer ⊢
  cases hanswer with
  | none => exact .none
  | some hρ hresult hmachine =>
    cases hresult with
    | error h => exact .some hρ (.error h) hmachine
    | ok h =>
      have hnext := hfg _ hρ _ _ h hmachine
      dsimp only
      generalize f _ _ = s, g _ _ = s' at hnext ⊢
      cases hnext with
      | none => exact .none
      | some hρ' hresult' hmachine' => exact .some (hρ.trans hρ') hresult' hmachine'

theorem mono {A' : Scopes → α → β → Prop} {x : EvalM α} {y : EvalM β} (h : InStep T ρ A x y)
    (hA : ∀ ρ' a b, A ρ' a b → A' ρ' a b) : InStep T ρ A' x y := by
  rw [← EvalM.bind_pure x, ← EvalM.bind_pure y]
  exact .bind h fun ρ' _ a b hab => .pure (hA ρ' a b hab)

theorem modify {f g : Machine → Machine}
    (h : ∀ ⦃m m'⦄, MachineAlike T ρ m m' → MachineAlike T ρ (f m) (g m')) :
    InStep T ρ (fun _ _ _ => True) (EvalM.modify f) (EvalM.modify g) :=
  fun _ _ hm => .some le_rfl (.ok trivial) (h hm)

/-- Journals are not compared. -/
theorem note {e e' : Event} :
    InStep T ρ (fun _ _ _ => True) (EvalM.modify fun m => m.note e)
      (EvalM.modify fun m => m.note e') :=
  modify fun _ _ hm => ⟨hm.stores, hm.sink, hm.calls⟩

theorem inCall {x : EvalM α} {y : EvalM β} (h : InStep T ρ A x y) :
    InStep T ρ A (EvalM.inCall x) (EvalM.inCall y) := by
  intro m m' hm
  have hcalls : m.activeCalls + 1 = m'.activeCalls + 1 := congrArg (· + 1) hm.calls
  have hanswer := @h { m with activeCalls := m.activeCalls + 1 }
    { m' with activeCalls := m'.activeCalls + 1 } ⟨hm.stores, hm.sink, hcalls⟩
  unfold EvalM.inCall
  generalize x _ = r, y _ = r' at hanswer ⊢
  cases hanswer with
  | none => exact .none
  | some hρ hresult hmachine =>
    exact .some hρ hresult ⟨hmachine.stores, hmachine.sink, congrArg (· - 1) hmachine.calls⟩

end InStep

-- ============================================================================
-- Steps on the machine
-- ============================================================================

namespace InStep

theorem activeCalls :
    InStep T ρ (fun _ => Eq) (EvalM.gets Machine.activeCalls) (EvalM.gets Machine.activeCalls) :=
  fun _ _ hm => .some le_rfl (.ok hm.calls) hm

/-- A result that needs no state may need that scopes are paired one to one. -/
theorem ofExcept {α β : Type} {A : Scopes → α → β → Prop} {r : Except RuntimeError α}
    {r' : Except RuntimeError β} (h : OneToOne ρ → ResultAlike T (A ρ) r r') :
    InStep T ρ A (EvalM.ofExcept r) (EvalM.ofExcept r') :=
  fun _ _ hm => .some le_rfl (h hm.stores.unique) hm

variable {a b : ScopeId} {t u : Token} {v w : Value}

theorem newChild (hab : ρ a b) :
    InStep T ρ (fun ρ' => ρ') (EvalM.newChild a) (EvalM.newChild b) :=
  fun m m' hm =>
    .some (le_extend ρ (m.store.child a).2 (m'.store.child b).2) (.ok (extend_self ρ _ _))
      ⟨hm.stores.child hab, hm.sink, hm.calls⟩

theorem define (hab : ρ a b) (x : String) (hvw : ValueAlike T ρ v w) :
    InStep T ρ (fun _ _ _ => True) (EvalM.define a x v) (EvalM.define b x w) :=
  fun _ _ hm => .some le_rfl (.ok trivial) ⟨hm.stores.define hab hvw, hm.sink, hm.calls⟩

theorem lookup (hab : ρ a b) (hname : SameName T t u) :
    InStep T ρ (ValueAlike T) (EvalM.lookup a t) (EvalM.lookup b u) := by
  intro m m' hm
  have hvalues := hm.stores.get? hab t.lexeme
  unfold EvalM.lookup
  rw [← hname.lexeme]
  generalize m.store.get? a t.lexeme = x, m'.store.get? b t.lexeme = y at hvalues ⊢
  cases hvalues with
  | none => exact .some le_rfl (.error ⟨hname.paired, rfl⟩) hm
  | some h => exact .some le_rfl (.ok h) hm

theorem assign (hab : ρ a b) (hname : SameName T t u) (hvw : ValueAlike T ρ v w) :
    InStep T ρ (fun _ _ _ => True) (EvalM.assign a t v) (EvalM.assign b u w) := by
  intro m m' hm
  have hscopes := hm.stores.nearest? hab t.lexeme
  unfold EvalM.assign
  rw [← hname.lexeme]
  dsimp only
  generalize m.store.nearest? a t.lexeme = x, m'.store.nearest? b t.lexeme = y at hscopes ⊢
  cases hscopes with
  | none => exact .some le_rfl (.error ⟨hname.paired, rfl⟩) hm
  | some hcd => exact .some le_rfl (.ok trivial) ⟨hm.stores.define hcd hvw, hm.sink, hm.calls⟩

theorem write (htoken : T t u) (text : String) :
    InStep T ρ (fun _ _ _ => True) (EvalM.write t text) (EvalM.write u text) := by
  intro m m' hm
  unfold EvalM.write
  dsimp only
  rw [← hm.sink]
  rcases m.sink.write text with ⟨sink, _ | _⟩
  · exact .some le_rfl (.error ⟨htoken, rfl⟩) ⟨hm.stores, rfl, hm.calls⟩
  · exact .some le_rfl (.ok trivial) ⟨hm.stores, rfl, hm.calls⟩

end InStep

-- ============================================================================
-- Operators
-- ============================================================================

section Operators

variable {t u : Token} {a b a' b' : Value}

theorem unaryApply_alike (op : UnaryOp) (hmark : T t u) (ha : ValueAlike T ρ a a') :
    ResultAlike T (ValueAlike T ρ) (op.apply t a) (op.apply u a') := by
  cases op with
  | negate =>
    cases ha with
    | number x => exact .ok (.number _)
    | _ => exact .error ⟨hmark, rfl⟩
  | not =>
    rw [UnaryOp.apply, UnaryOp.apply, ha.isTruthy]
    exact .ok (.boolean _)

theorem mismatch_alike (needed : Operands) (hmark : SameName T t u) (ha : ValueAlike T ρ a a')
    (hb : ValueAlike T ρ b b') :
    ResultAlike T (ValueAlike T ρ) (BinaryOp.mismatch t needed a b)
      (BinaryOp.mismatch u needed a' b') := by
  rw [BinaryOp.mismatch, BinaryOp.mismatch, hmark.lexeme, ha.type, hb.type]
  exact .error ⟨hmark.paired, rfl⟩

theorem arithmetic_alike (f : Float → Float → Float) (hmark : SameName T t u)
    (ha : ValueAlike T ρ a a') (hb : ValueAlike T ρ b b') :
    ResultAlike T (ValueAlike T ρ) (BinaryOp.arithmetic t f a b)
      (BinaryOp.arithmetic u f a' b') := by
  have hmismatch := mismatch_alike .numbers hmark ha hb
  cases ha with
  | number x =>
    cases hb with
    | number y => exact .ok (.number _)
    | _ => exact hmismatch
  | _ => exact hmismatch

theorem compare_alike (numbers : Float → Float → Bool) (strings : String → String → Bool)
    (hmark : SameName T t u) (ha : ValueAlike T ρ a a') (hb : ValueAlike T ρ b b') :
    ResultAlike T (ValueAlike T ρ) (BinaryOp.compare t numbers strings a b)
      (BinaryOp.compare u numbers strings a' b') := by
  have hmismatch := mismatch_alike .numbersOrStrings hmark ha hb
  cases ha with
  | number x =>
    cases hb with
    | number y => exact .ok (.boolean _)
    | _ => exact hmismatch
  | string s =>
    cases hb with
    | string r => exact .ok (.boolean _)
    | _ => exact hmismatch
  | _ => exact hmismatch

theorem add_alike (hmark : SameName T t u) (ha : ValueAlike T ρ a a')
    (hb : ValueAlike T ρ b b') :
    ResultAlike T (ValueAlike T ρ) (BinaryOp.add.apply t a b) (BinaryOp.add.apply u a' b') := by
  have hmismatch := mismatch_alike .numbersOrStrings hmark ha hb
  cases ha with
  | number x =>
    cases hb with
    | number y => exact .ok (.number _)
    | _ => exact hmismatch
  | string s =>
    cases hb with
    | string r => exact .ok (.string _)
    | _ => exact hmismatch
  | _ => exact hmismatch

theorem divide_alike (hmark : SameName T t u) (ha : ValueAlike T ρ a a')
    (hb : ValueAlike T ρ b b') :
    ResultAlike T (ValueAlike T ρ) (BinaryOp.divide.apply t a b)
      (BinaryOp.divide.apply u a' b') := by
  have hmismatch := mismatch_alike .numbers hmark ha hb
  cases ha with
  | number x =>
    cases hb with
    | number y =>
      show ResultAlike T (ValueAlike T ρ)
        (if y == 0 then .error ⟨t, .divisionByZero⟩ else .ok (.number (x / y)))
        (if y == 0 then .error ⟨u, .divisionByZero⟩ else .ok (.number (x / y)))
      split
      · exact .error ⟨hmark.paired, rfl⟩
      · exact .ok (.number _)
    | _ => exact hmismatch
  | _ => exact hmismatch

/-- Logical operators never fail, so nothing is said about how they are spelled. -/
theorem binaryApply_alike (op : BinaryOp) (hunique : OneToOne ρ) (hmark : T t u)
    (hlexeme : op ≠ .and → op ≠ .or → t.lexeme = u.lexeme) (ha : ValueAlike T ρ a a')
    (hb : ValueAlike T ρ b b') :
    ResultAlike T (ValueAlike T ρ) (op.apply t a b) (op.apply u a' b') := by
  cases op with
  | or =>
    rw [BinaryOp.apply, BinaryOp.apply, ha.isTruthy]
    split
    · exact .ok ha
    · exact .ok hb
  | and =>
    rw [BinaryOp.apply, BinaryOp.apply, ha.isTruthy]
    split
    · exact .ok hb
    · exact .ok ha
  | equal =>
    rw [BinaryOp.apply, BinaryOp.apply, ha.same hunique hb]
    exact .ok (.boolean _)
  | notEqual =>
    rw [BinaryOp.apply, BinaryOp.apply, bne, bne, ha.same hunique hb]
    exact .ok (.boolean _)
  | less | lessEqual | greater | greaterEqual =>
    exact compare_alike _ _ ⟨hmark, hlexeme (by decide) (by decide)⟩ ha hb
  | add => exact add_alike ⟨hmark, hlexeme (by decide) (by decide)⟩ ha hb
  | subtract | multiply => exact arithmetic_alike _ ⟨hmark, hlexeme (by decide) (by decide)⟩ ha hb
  | divide => exact divide_alike ⟨hmark, hlexeme (by decide) (by decide)⟩ ha hb

end Operators

-- ============================================================================
-- The evaluator
-- ============================================================================

theorem ValueAlike.pair_iff {v w : Value} :
    ValueAlike T ρ v w ↔ ValuePair (DefAlike T) ρ v w := by
  constructor
  · intro h
    cases h with
    | function hdef hscope => exact .function hdef hscope
    | _ => exact .plain nofun
  · rintro (hplain | ⟨hdef, hscope⟩)
    · cases v with
      | number x => exact .number x
      | string s => exact .string s
      | boolean b => exact .boolean b
      | nil => exact .nil
      | function f c => exact absurd rfl (hplain f c)
      | builtin b => exact .builtin b
    · exact .function hdef hscope

/-- A run sees the lexeme of a token that does this. -/
def Shows : Role → Prop
  | .name => True
  | .operator op => op ≠ .and ∧ op ≠ .or
  | .sign _ | .call => False

/-- Trees that are alike belong together. -/
def trees (T : Token → Token → Prop) : Trees where
  Marks _ role t u := T t u ∧ (Shows role → t.lexeme = u.lexeme)
  Exprs _ := ExprAlike T
  Stmts _ := StmtAlike T
  Defs := DefAlike T
  exprs h := by
    cases h with
    | number x => exact .number x
    | string s => exact .string s
    | boolean b => exact .boolean b
    | nil => exact .nil
    | identifier hname => exact .identifier ⟨hname.paired, fun _ => hname.lexeme⟩
    | unary hmark h => exact .unary ⟨hmark, nofun⟩ h
    | binary hmark hlexeme hleft hright =>
      exact .binary ⟨hmark, fun hshows => hlexeme hshows.1 hshows.2⟩ hleft hright
    | assign hname h => exact .assign ⟨hname.paired, fun _ => hname.lexeme⟩ h
    | call hcallee hparen hargs => exact .call hcallee ⟨hparen, nofun⟩ hargs
  stmts h := by
    cases h with
    | expression h => exact .expression h
    | letBare hname => exact .letBare hname
    | letValue hname h => exact .letValue hname h
    | block h => exact .block h
    | ifThen hcondition hyes => exact .ifThen hcondition hyes
    | ifThenElse hcondition hyes hno => exact .ifThenElse hcondition hyes hno
    | whileLoop hcondition hbody => exact .whileLoop hcondition hbody
    | function hname hparams hbody => exact .function hname ⟨rfl, hname, hparams, hbody⟩
    | returnBare => exact .returnBare
    | returnValue h => exact .returnValue h
  defs h := ⟨h.name, h.params, h.body⟩

/-- Programs that are alike are run from paired scopes. -/
def walk (T : Token → Token → Prop) (limit : Nat) : Walk Scopes where
  toTrees := trees T
  limit := limit
  limit' := limit
  Scopes ρ := ρ
  Values := ValueAlike T
  Binds _ _ _ := True
  Steps ρ A x y := InStep T ρ A x y
  scopes_mono hρ hab := hρ _ _ hab
  binds_mono _ h := h
  values_iff := ValueAlike.pair_iff
  outOfFuel _ _ := .outOfFuel
  pure h := .pure (h _ le_rfl)
  bind := .bind
  inCall := .inCall
  activeCalls _ := .activeCalls
  note _ := .note
  newChild hab := (InStep.newChild hab).mono fun _ _ _ hcd => ⟨hcd, fun _ => trivial⟩
  define hab _ hv := .define hab _ hv
  lookup hab hname := .lookup hab ⟨hname.1, hname.2 trivial⟩
  assign hab hname hv := .assign hab ⟨hname.1, hname.2 trivial⟩ hv
  write text hparen := .write hparen.1 text
  sign hmark hv := .ofExcept fun _ => unaryApply_alike _ hmark.1 hv
  operator hmark ha hb := .ofExcept fun hunique =>
    binaryApply_alike _ hunique hmark.1 (fun hand hor => hmark.2 ⟨hand, hor⟩) ha hb
  notCallable hparen _ := .fail hparen.1 rfl
  wrongArity _ _ _ hparen _ := .fail hparen.1 rfl
  tooDeep name depth _ _ hparen h := by
    split
    · exact .fail hparen.1 rfl
    · exact h

-- ============================================================================
-- Programs
-- ============================================================================

/-- Programs that are alike run in lockstep. -/
theorem programRun_inStep {p q : Program} (limit fuel : Nat) {a b : ScopeId}
    (h : List.Forall₂ (StmtAlike T) p.statements q.statements) (hab : ρ a b) :
    InStep T ρ (ValueAlike T) (p.run limit fuel a) (q.run limit fuel b) := by
  refine .bind (.modify fun _ _ hm => ⟨hm.stores, hm.sink, rfl⟩) fun ρ' hρ _ _ _ => ?_
  have halong := (walk T limit).along fuel
  refine .bind (halong.execAll false h Walk.values_nil (hρ _ _ hab) fun _ => trivial) ?_
  intro ρ₁ hρ₁ x y hflow
  cases hflow with
  | normal h => exact .bind .note fun ρ₂ hρ₂ _ _ _ => .pure (h.mono hρ₂)
  | returned h => exact .pure h

end Lexiscope.Lockstep

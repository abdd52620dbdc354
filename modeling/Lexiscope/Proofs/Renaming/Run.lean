/-
  Lexiscope.Proofs.Renaming.Run

  A program does the same in stores that are the same under a renaming.

  Two runs of one program, from paired scopes of such stores, go on in the same
  way: neither has ended yet, or both end with values that are the same under the
  renaming, or both with the same error. The stores are the same under the renaming
  afterwards, with the scopes that were made on the way paired, and have grown
  together (`InStep`). So a run does not depend on scopes without a partner, and
  does not change them. What one step of the machine does, a sequence of steps
  does, and so does the evaluator: being in step is a walk over it (`walk`).
-/
import Lexiscope.Proofs.Eval.Phrase
import Lexiscope.Proofs.Renaming.Store

namespace Lexiscope.Renaming

open Lockstep (Scopes OneToOne extend extend_self)

-- ============================================================================
-- Machines and answers
-- ============================================================================

/-- Machines whose stores are the same on paired scopes, and that are the same otherwise. -/
structure MachineMirror (ρ : Scopes) (m m' : Machine) : Prop where
  stores : Mirror ρ m.store m'.store
  sink : m.sink = m'.sink
  calls : m.activeCalls = m'.activeCalls
  journal : m.journal = m'.journal

/-- Results that are values which belong together, or the same error. -/
inductive ResultRenamed {α β : Type} (A : α → β → Prop) :
    Except RuntimeError α → Except RuntimeError β → Prop where
  | ok {a : α} {b : β} (h : A a b) : ResultRenamed A (.ok a) (.ok b)
  | error (e : RuntimeError) : ResultRenamed A (.error e) (.error e)

/-- Neither run from the two machines has ended, or both have with results that belong together, on
    machines that have grown together. -/
inductive Answer (ρ : Scopes) (m m' : Machine) {α β : Type} (A : Scopes → α → β → Prop) :
    Option (Except RuntimeError α × Machine) → Option (Except RuntimeError β × Machine) → Prop where
  | none : Answer ρ m m' A none none
  | some {ρ₁ : Scopes} {r : Except RuntimeError α} {r' : Except RuntimeError β}
      {m₁ m₁' : Machine} (hgrown : Grown ρ m.store m'.store ρ₁ m₁.store m₁'.store)
      (hresult : ResultRenamed (A ρ₁) r r') (hmachine : MachineMirror ρ₁ m₁ m₁') :
      Answer ρ m m' A (some (r, m₁)) (some (r', m₁'))

/-- On machines that are the same under the renaming, the steps have answers that belong
    together. -/
def InStep (ρ : Scopes) {α β : Type} (A : Scopes → α → β → Prop) (x : EvalM α) (y : EvalM β) :
    Prop :=
  ∀ ⦃m m'⦄, MachineMirror ρ m m' → Answer ρ m m' A (x m) (y m')

variable {ρ : Scopes}

-- ============================================================================
-- Sequences of steps
-- ============================================================================

namespace InStep

variable {α β γ δ : Type} {A : Scopes → α → β → Prop} {B : Scopes → γ → δ → Prop}

protected theorem pure {a : α} {b : β} (h : A ρ a b) :
    InStep ρ A (pure a : EvalM α) (pure b : EvalM β) :=
  fun m m' hm => .some (.refl ρ m.store m'.store) (.ok h) hm

theorem outOfFuel : InStep ρ A EvalM.outOfFuel EvalM.outOfFuel :=
  fun _ _ _ => .none

theorem fail (t : Token) {f g : Fault} (h : f = g) :
    InStep ρ A (EvalM.fail t f) (EvalM.fail t g) := by
  subst h
  exact fun m m' hm => .some (.refl ρ m.store m'.store) (.error ⟨t, f⟩) hm

/-- What one step of the two runs gives, the next one takes, with at least as many scopes paired. -/
protected theorem bind {x : EvalM α} {y : EvalM β} {f : α → EvalM γ} {g : β → EvalM δ}
    (hxy : InStep ρ A x y)
    (hfg : ∀ ρ₁, ρ ≤ ρ₁ → ∀ a b, A ρ₁ a b → InStep ρ₁ B (f a) (g b)) :
    InStep ρ B (x >>= f) (y >>= g) := by
  intro m m' hm
  show Answer ρ m m' B (EvalM.bind x f m) (EvalM.bind y g m')
  have hanswer := hxy hm
  unfold EvalM.bind
  generalize x m = r, y m' = r' at hanswer ⊢
  cases hanswer with
  | none => exact .none
  | some hgrown hresult hmachine =>
    cases hresult with
    | error e => exact .some hgrown (.error e) hmachine
    | ok h =>
      have hnext := hfg _ hgrown.le _ _ h hmachine
      dsimp only
      generalize f _ _ = s, g _ _ = s' at hnext ⊢
      cases hnext with
      | none => exact .none
      | some hgrown' hresult' hmachine' =>
        exact .some (hgrown.trans hgrown') hresult' hmachine'

theorem mono {A' : Scopes → α → β → Prop} {x : EvalM α} {y : EvalM β} (h : InStep ρ A x y)
    (hA : ∀ ρ₁ a b, A ρ₁ a b → A' ρ₁ a b) : InStep ρ A' x y := by
  rw [← EvalM.bind_pure x, ← EvalM.bind_pure y]
  exact .bind h fun ρ₁ _ a b hab => .pure (hA ρ₁ a b hab)

theorem inCall {x : EvalM α} {y : EvalM β} (h : InStep ρ A x y) :
    InStep ρ A (EvalM.inCall x) (EvalM.inCall y) := by
  intro m m' hm
  have hcalls : m.activeCalls + 1 = m'.activeCalls + 1 := congrArg (· + 1) hm.calls
  have hanswer := @h { m with activeCalls := m.activeCalls + 1 }
    { m' with activeCalls := m'.activeCalls + 1 } ⟨hm.stores, hm.sink, hcalls, hm.journal⟩
  unfold EvalM.inCall
  generalize x _ = r, y _ = r' at hanswer ⊢
  cases hanswer with
  | none => exact .none
  | some hgrown hresult hmachine =>
    refine .some hgrown hresult ⟨hmachine.stores, hmachine.sink, ?_, hmachine.journal⟩
    exact congrArg (· - 1) hmachine.calls

end InStep

-- ============================================================================
-- Steps on the machine
-- ============================================================================

namespace InStep

theorem activeCalls :
    InStep ρ (fun _ => Eq) (EvalM.gets Machine.activeCalls) (EvalM.gets Machine.activeCalls) :=
  fun m m' hm => .some (.refl ρ m.store m'.store) (.ok hm.calls) hm

theorem resetCalls : InStep ρ (fun _ _ _ => True)
    (EvalM.modify fun m => { m with activeCalls := 0 })
    (EvalM.modify fun m => { m with activeCalls := 0 }) :=
  fun m m' hm => .some (.refl ρ m.store m'.store) (.ok trivial)
    ⟨hm.stores, hm.sink, rfl, hm.journal⟩

theorem note {e e' : Event} (h : e = e') :
    InStep ρ (fun _ _ _ => True) (EvalM.modify fun m => m.note e)
      (EvalM.modify fun m => m.note e') := by
  subst h
  exact fun m m' hm => .some (.refl ρ m.store m'.store) (.ok trivial)
    ⟨hm.stores, hm.sink, hm.calls, congrArg (·.note e) hm.journal⟩

theorem ofExcept {α β : Type} {A : Scopes → α → β → Prop} {r : Except RuntimeError α}
    {r' : Except RuntimeError β} (h : OneToOne ρ → ResultRenamed (A ρ) r r') :
    InStep ρ A (EvalM.ofExcept r) (EvalM.ofExcept r') :=
  fun m m' hm => .some (.refl ρ m.store m'.store) (h hm.stores.unique) hm

variable {a b : ScopeId} {v w : Value}

theorem newChild (hab : ρ a b) :
    InStep ρ (fun ρ₁ => ρ₁) (EvalM.newChild a) (EvalM.newChild b) :=
  fun m m' hm => .some (.child ρ m.store m'.store a b) (.ok (extend_self ρ _ _))
    ⟨hm.stores.child hab, hm.sink, hm.calls, hm.journal⟩

theorem define (hab : ρ a b) (x : String) (hvw : Renamed ρ v w) :
    InStep ρ (fun _ _ _ => True) (EvalM.define a x v) (EvalM.define b x w) :=
  fun m m' hm => .some (.define m.store m'.store hab x v w) (.ok trivial)
    ⟨hm.stores.define hab hvw, hm.sink, hm.calls, hm.journal⟩

theorem lookup (hab : ρ a b) (name : Token) :
    InStep ρ Renamed (EvalM.lookup a name) (EvalM.lookup b name) := by
  intro m m' hm
  have hvalues := hm.stores.lookup hab name.lexeme
  unfold EvalM.lookup
  generalize m.store.get? a name.lexeme = x, m'.store.get? b name.lexeme = y at hvalues ⊢
  cases hvalues with
  | none => exact .some (.refl ρ m.store m'.store) (.error _) hm
  | some h => exact .some (.refl ρ m.store m'.store) (.ok h) hm

theorem assign (hab : ρ a b) (name : Token) (hvw : Renamed ρ v w) :
    InStep ρ (fun _ _ _ => True) (EvalM.assign a name v) (EvalM.assign b name w) := by
  intro m m' hm
  have hscopes := hm.stores.nearest? hab name.lexeme
  unfold EvalM.assign
  dsimp only
  generalize m.store.nearest? a name.lexeme = x, m'.store.nearest? b name.lexeme = y at hscopes ⊢
  cases hscopes with
  | none => exact .some (.refl ρ m.store m'.store) (.error _) hm
  | some hcd =>
    exact .some (.define m.store m'.store hcd name.lexeme v w) (.ok trivial)
      ⟨hm.stores.define hcd hvw, hm.sink, hm.calls, hm.journal⟩

theorem write (t : Token) {text text' : String} (h : text = text') :
    InStep ρ (fun _ _ _ => True) (EvalM.write t text) (EvalM.write t text') := by
  subst h
  intro m m' hm
  unfold EvalM.write
  dsimp only
  rw [← hm.sink]
  rcases m.sink.write text with ⟨sink, _ | _⟩
  · exact .some (.refl ρ m.store m'.store) (.error _) ⟨hm.stores, rfl, hm.calls, hm.journal⟩
  · exact .some (.refl ρ m.store m'.store) (.ok trivial) ⟨hm.stores, rfl, hm.calls, hm.journal⟩

end InStep

-- ============================================================================
-- Operators
-- ============================================================================

section Operators

variable {mark : Token} {a b a' b' : Value}

theorem unaryApply_renamed (op : UnaryOp) (mark : Token) (ha : Renamed ρ a a') :
    ResultRenamed (Renamed ρ) (op.apply mark a) (op.apply mark a') := by
  cases op with
  | not =>
    rw [UnaryOp.apply, UnaryOp.apply, ha.alike.isTruthy]
    exact .ok (.plain (by simp))
  | negate =>
    cases ha with
    | function f h => exact .error _
    | plain h =>
      cases a with
      | number x => exact .ok (.plain (by simp))
      | _ => exact .error _

/-- Where an operator is not a logical one, what it gives does not depend on the scopes of
    functions. -/
theorem binaryApply_eq {op : BinaryOp} (hor : op ≠ .or) (hand : op ≠ .and) (mark : Token)
    (hunique : OneToOne ρ) (ha : Renamed ρ a a') (hb : Renamed ρ b b') :
    op.apply mark a b = op.apply mark a' b' := by
  cases op with
  | or => exact absurd rfl hor
  | and => exact absurd rfl hand
  | equal => rw [BinaryOp.apply, BinaryOp.apply, ha.alike.same hunique hb.alike]
  | notEqual => rw [BinaryOp.apply, BinaryOp.apply, bne, bne, ha.alike.same hunique hb.alike]
  | _ =>
    cases ha with
    | function f _ => cases hb <;> rfl
    | plain _ =>
      cases hb with
      | plain _ => rfl
      | function g _ => cases a <;> rfl

theorem binaryApply_renamed (op : BinaryOp) (mark : Token) (hunique : OneToOne ρ)
    (ha : Renamed ρ a a') (hb : Renamed ρ b b') :
    ResultRenamed (Renamed ρ) (op.apply mark a b) (op.apply mark a' b') := by
  by_cases hor : op = .or
  · subst hor
    rw [BinaryOp.apply, BinaryOp.apply, ha.alike.isTruthy]
    split
    · exact .ok ha
    · exact .ok hb
  by_cases hand : op = .and
  · subst hand
    rw [BinaryOp.apply, BinaryOp.apply, ha.alike.isTruthy]
    split
    · exact .ok hb
    · exact .ok ha
  have hplain := BinaryOp.apply_ne_function hor hand mark a b
  rw [← binaryApply_eq hor hand mark hunique ha hb]
  generalize op.apply mark a b = r at hplain ⊢
  cases r with
  | error e => exact .error e
  | ok v => exact .ok (.plain fun f c hv => hplain f c (by rw [hv]))

end Operators

-- ============================================================================
-- The evaluator
-- ============================================================================

theorem Renamed.pair_iff {v w : Value} : Renamed ρ v w ↔ ValuePair Eq ρ v w := by
  constructor
  · rintro (hplain | ⟨f, hscope⟩)
    · exact .plain hplain
    · exact .function rfl hscope
  · rintro (hplain | ⟨rfl, hscope⟩)
    · exact .plain hplain
    · exact .function _ hscope

/-- The same program is run from paired scopes. -/
def walk (limit : Nat) : Walk Scopes where
  toTrees := .same
  limit := limit
  limit' := limit
  Scopes ρ := ρ
  Values := Renamed
  Binds _ _ _ := True
  Steps ρ A x y := InStep ρ A x y
  scopes_mono hρ hab := hρ _ _ hab
  binds_mono _ h := h
  values_iff := Renamed.pair_iff
  outOfFuel _ _ := .outOfFuel
  pure h := .pure (h _ le_rfl)
  bind := .bind
  inCall := .inCall
  activeCalls _ := .activeCalls
  note e := .note rfl
  newChild hab := (InStep.newChild hab).mono fun _ _ _ hcd => ⟨hcd, fun _ => trivial⟩
  define hab _ hv := .define hab _ hv
  lookup := by
    rintro ρ _ a b t _ hab rfl
    exact .lookup hab t
  assign := by
    rintro ρ _ a b t _ v w hab rfl hv
    exact .assign hab t hv
  write := by
    rintro ρ _ t _ text rfl
    exact .write t rfl
  sign := by
    rintro ρ _ op t _ v w rfl hv
    exact .ofExcept fun _ => unaryApply_renamed op t hv
  operator := by
    rintro ρ _ op t _ a a' b b' rfl ha hb
    exact .ofExcept fun hunique => binaryApply_renamed op t hunique ha hb
  notCallable := by
    rintro ρ _ t _ v rfl -
    exact .fail t rfl
  wrongArity := by
    rintro ρ _ t _ name arity given rfl -
    exact .fail t rfl
  tooDeep := by
    rintro ρ _ t _ name depth x y rfl h
    split
    · exact .fail t rfl
    · exact h

-- ============================================================================
-- Programs
-- ============================================================================

/-- A program does the same from paired scopes. -/
theorem programRun_inStep (p : Program) (limit fuel : Nat) {a b : ScopeId} (hab : ρ a b) :
    InStep ρ Renamed (p.run limit fuel a) (p.run limit fuel b) := by
  refine .bind .resetCalls fun ρ₁ hρ _ _ _ => ?_
  have hself : List.Forall₂ Eq p.statements p.statements := List.forall₂_refl _
  have halong := (walk limit).along fuel
  refine .bind (halong.execAll false hself Walk.values_nil (hρ _ _ hab) fun _ => trivial) ?_
  intro ρ₂ hρ₂ x y hflow
  cases hflow with
  | normal h =>
    exact .bind (.note (by rw [h.alike.echo])) fun ρ₃ hρ₃ _ _ _ => .pure (h.mono hρ₃)
  | returned h => exact .pure h

theorem phrase_inStep (phrase : Phrase) (limit fuel : Nat) {a b : ScopeId} (hab : ρ a b) :
    InStep ρ Renamed (phrase.run limit fuel a) (phrase.run limit fuel b) := by
  cases phrase with
  | program p => exact programRun_inStep p limit fuel hab
  | expression e => exact ((walk limit).along fuel).eval false rfl hab

section Ends

variable {phrase : Phrase} {limit : Nat} {a b : ScopeId} {m m' m₁ m₁' : Machine}
  {r r' : Except RuntimeError Value}

/-- From paired scopes a phrase ends in both runs or in neither. -/
theorem phrase_ends_iff (phrase : Phrase) (limit : Nat) (hm : MachineMirror ρ m m')
    (hab : ρ a b) :
    (∃ r m₁, phrase.Ends limit a m r m₁) ↔ ∃ r' m₁', phrase.Ends limit b m' r' m₁' := by
  constructor
  · rintro ⟨r, m₁, fuel, hrun⟩
    have hanswer := phrase_inStep phrase limit fuel hab hm
    rw [hrun] at hanswer
    generalize hrun' : phrase.run limit fuel b m' = answer at hanswer
    cases hanswer with
    | @some _ _ r' _ m₁' _ _ _ => exact ⟨r', m₁', fuel, hrun'⟩
  · rintro ⟨r', m₁', fuel, hrun'⟩
    have hanswer := phrase_inStep phrase limit fuel hab hm
    rw [hrun'] at hanswer
    generalize hrun : phrase.run limit fuel a m = answer at hanswer
    cases hanswer with
    | @some _ r _ m₁ _ _ _ _ => exact ⟨r, m₁, fuel, hrun⟩

/-- If a phrase ends from paired scopes, it does so with the same result under a renaming, and the
    stores have grown together. -/
theorem phrase_ends (hm : MachineMirror ρ m m') (hab : ρ a b)
    (h : phrase.Ends limit a m r m₁) (h' : phrase.Ends limit b m' r' m₁') :
    ∃ ρ₁, Grown ρ m.store m'.store ρ₁ m₁.store m₁'.store ∧ ResultRenamed (Renamed ρ₁) r r' ∧
      MachineMirror ρ₁ m₁ m₁' := by
  obtain ⟨fuel, hrun⟩ := h
  have hanswer := phrase_inStep phrase limit fuel hab hm
  rw [hrun] at hanswer
  generalize hrun' : phrase.run limit fuel b m' = answer at hanswer
  cases hanswer with
  | @some ρ₁ _ _ _ _ hgrown hresult hmachine =>
    obtain ⟨rfl, rfl⟩ := h'.unique ⟨fuel, hrun'⟩
    exact ⟨ρ₁, hgrown, hresult, hmachine⟩

end Ends

end Lexiscope.Renaming

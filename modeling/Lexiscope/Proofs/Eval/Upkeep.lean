/-
  Lexiscope.Proofs.Eval.Upkeep

  A run keeps the store well formed.

  A run makes scopes inside scopes that are there, and binds values that it was given or
  has computed. So what has to be known of each step is in which scopes its values live:
  a step that is given values of the first `n` scopes, on a store that has these, leaves
  a store that continues the one it found, and its result lives in that one
  (`EvalM.Upholds`). For the evaluator this is a walk that does not look at a second
  run (`upkeep`). An error leaves a store like any other; it has no value in it.
-/
import Lexiscope.Proofs.Eval.Phrase
import Lexiscope.Proofs.Eval.Sites
import Lexiscope.Proofs.Store.Upkeep
import Mathlib.Data.Nat.Basic

namespace Lexiscope

/-- The value that a statement ends with lives in the first `n` scopes. -/
def Flow.LivesIn (n : Nat) : Flow → Prop
  | .normal v => v.LivesIn n
  | .returned v => v.LivesIn n

-- ============================================================================
-- Steps
-- ============================================================================

/-- On a well-formed store with `n` scopes or more, the step leaves a store that continues it, and
    ends with an error or with a result that has the property for the number of scopes then. -/
def EvalM.Upholds {α : Type} (n : Nat) (A : Nat → α → Prop) (x : EvalM α) : Prop :=
  ∀ ⦃m r m'⦄, m.store.WellFormed → n ≤ m.store.scopes.size → x m = some (r, m') →
    m.store.Continues m'.store ∧ ∀ a, r = .ok a → A m'.store.scopes.size a

namespace EvalM.Upholds

variable {α β : Type} {n : Nat} {A : Nat → α → Prop} {B : Nat → β → Prop} {e : ScopeId}
  {v : Value}

theorem outOfFuel : (EvalM.outOfFuel : EvalM α).Upholds n A := by
  intro m r m' _ _ h
  cases h

protected theorem pure {a : α} (ha : ∀ k, n ≤ k → A k a) :
    (pure a : EvalM α).Upholds n A := by
  rintro m r m' hwf hn ⟨⟩
  refine ⟨.refl hwf, ?_⟩
  rintro b ⟨⟩
  exact ha _ hn

/-- A value that lives in the first scopes does so when there are more. -/
theorem value (hv : v.LivesIn n) : (pure v : EvalM Value).Upholds n Value.LivesIn :=
  .pure fun _ hle => hv.mono hle

theorem fail (t : Token) (f : Fault) : (EvalM.fail t f : EvalM α).Upholds n A := by
  rintro m r m' hwf hn ⟨⟩
  exact ⟨.refl hwf, nofun⟩

theorem ofExcept {r : Except RuntimeError α} (hr : ∀ a, r = .ok a → ∀ k, n ≤ k → A k a) :
    (EvalM.ofExcept r).Upholds n A := by
  rintro m r m' hwf hn ⟨⟩
  exact ⟨.refl hwf, fun a ha => hr a ha _ hn⟩

theorem gets (f : Machine → α) : (EvalM.gets f).Upholds n fun _ _ => True := by
  rintro m r m' hwf hn ⟨⟩
  exact ⟨.refl hwf, fun _ _ => trivial⟩

/-- A change of the machine that leaves the store alone. -/
theorem modify {f : Machine → Machine} (hf : ∀ m, (f m).store = m.store) :
    (EvalM.modify f).Upholds n fun _ _ => True := by
  rintro m r m' hwf hn ⟨⟩
  rw [hf]
  exact ⟨.refl hwf, fun _ _ => trivial⟩

theorem newChild (he : e < n) : (EvalM.newChild e).Upholds n fun k inner => inner < k := by
  rintro m r m' hwf hn ⟨⟩
  refine ⟨.child hwf (Nat.lt_of_lt_of_le he hn), ?_⟩
  rintro inner ⟨⟩
  exact Nat.lt_of_lt_of_eq (Nat.lt_succ_self _) (Store.size_push _ _).symm

theorem define (hv : v.LivesIn n) (e : ScopeId) (x : String) :
    (EvalM.define e x v).Upholds n fun _ _ => True := by
  rintro m r m' hwf hn ⟨⟩
  exact ⟨.define hwf (hv.mono hn), fun _ _ => trivial⟩

theorem lookup (e : ScopeId) (name : Token) : (EvalM.lookup e name).Upholds n Value.LivesIn := by
  intro m r m' hwf hn h
  unfold EvalM.lookup at h
  split at h
  · next v hv =>
    cases h
    refine ⟨.refl hwf, ?_⟩
    rintro w ⟨⟩
    exact hwf.get? hv
  · cases h
    refine ⟨.refl hwf, ?_⟩
    rintro w ⟨⟩

theorem assign (hv : v.LivesIn n) (e : ScopeId) (name : Token) :
    (EvalM.assign e name v).Upholds n fun _ _ => True := by
  intro m r m' hwf hn h
  unfold EvalM.assign at h
  dsimp only at h
  split at h
  · cases h
    exact ⟨.define hwf (hv.mono hn), fun _ _ => trivial⟩
  · cases h
    exact ⟨.refl hwf, nofun⟩

theorem write (t : Token) (text : String) :
    (EvalM.write t text).Upholds n fun _ _ => True := by
  intro m r m' hwf hn h
  unfold EvalM.write at h
  dsimp only at h
  split at h <;> (cases h; exact ⟨.refl hwf, fun _ _ => trivial⟩)

protected theorem bind {x : EvalM α} {f : α → EvalM β} (hx : x.Upholds n A)
    (hf : ∀ a k, n ≤ k → A k a → (f a).Upholds k B) : (x >>= f).Upholds n B := by
  intro m r m' hwf hn h
  have h' : EvalM.bind x f m = some (r, m') := h
  unfold EvalM.bind at h'
  split at h'
  · cases h'
  · next e m₁ hfirst =>
    cases h'
    exact ⟨(hx hwf hn hfirst).1, nofun⟩
  · next a m₁ hfirst =>
    obtain ⟨hcontinues, hresult⟩ := hx hwf hn hfirst
    have hn₁ := Nat.le_trans hn hcontinues.size
    obtain ⟨hcontinues', hresult'⟩ :=
      hf a _ hn₁ (hresult a rfl) hcontinues.wellFormed (Nat.le_refl _) h'
    exact ⟨hcontinues.trans hcontinues', hresult'⟩

theorem ite {c : Prop} [Decidable c] {x y : EvalM α} (hyes : x.Upholds n A)
    (hno : y.Upholds n A) : (if c then x else y).Upholds n A := by
  split
  · exact hyes
  · exact hno

theorem inCall {x : EvalM α} (hx : x.Upholds n A) : (EvalM.inCall x).Upholds n A := by
  intro m r m' hwf hn h
  unfold EvalM.inCall at h
  split at h
  · cases h
  · next r₁ m₁ hbody =>
    cases h
    obtain ⟨hcontinues, hresult⟩ :=
      @hx { m with activeCalls := m.activeCalls + 1 } _ _ hwf hn hbody
    exact ⟨hcontinues, hresult⟩

theorem mono {A' : Nat → α → Prop} {x : EvalM α} (hx : x.Upholds n A)
    (h : ∀ k a, A k a → A' k a) : x.Upholds n A' := by
  intro m r m' hwf hn hrun
  obtain ⟨hcontinues, hresult⟩ := hx hwf hn hrun
  exact ⟨hcontinues, fun a ha => h _ a (hresult a ha)⟩

end EvalM.Upholds

-- ============================================================================
-- Operators
-- ============================================================================

theorem BinaryOp.livesIn_of_apply {op : BinaryOp} {mark : Token} {a b w : Value} {n : Nat}
    (ha : a.LivesIn n) (hb : b.LivesIn n) (h : op.apply mark a b = .ok w) : w.LivesIn n := by
  rcases BinaryOp.eq_operand_of_apply h with rfl | rfl | hplain
  · exact ha
  · exact hb
  · exact .of_plain hplain n

-- ============================================================================
-- The evaluator
-- ============================================================================

theorem Value.LivesIn.pair_iff {n : Nat} {v v' : Value} :
    (v.LivesIn n ∧ v = v') ↔ ValuePair Eq (fun a b => a < n ∧ a = b) v v' := by
  constructor
  · rintro ⟨hv, rfl⟩
    cases v with
    | function f closure => exact .function rfl ⟨hv f closure rfl, rfl⟩
    | _ => exact .plain nofun
  · rintro (hplain | ⟨rfl, hscope, rfl⟩)
    · exact ⟨.of_plain hplain n, rfl⟩
    · refine ⟨?_, rfl⟩
      rintro _ _ ⟨⟩
      exact hscope

theorem Flow.LivesIn.of_pair {n : Nat} {x y : Flow}
    (h : FlowPair (fun v v' => v.LivesIn n ∧ v = v') x y) : x.LivesIn n := by
  cases h with
  | normal h | returned h => exact h.1

/-- Only the first run is looked at. What is known of its store is how many scopes it has. -/
def upkeep (limit : Nat) : Walk Nat where
  toTrees := .same
  limit := limit
  limit' := limit
  Scopes n a b := a < n ∧ a = b
  Values n v v' := v.LivesIn n ∧ v = v'
  Binds _ _ _ := True
  Steps n A x _ := x.Upholds n fun k a => ∃ b, A k a b
  scopes_mono hle h := ⟨Nat.lt_of_lt_of_le h.1 hle, h.2⟩
  binds_mono _ h := h
  values_iff := Value.LivesIn.pair_iff
  outOfFuel _ _ := .outOfFuel
  pure h := .pure fun k hk => ⟨_, h k hk⟩
  bind hx hf := .bind hx fun a k hk ⟨b, hab⟩ => hf k hk a b hab
  inCall h := .inCall h
  activeCalls _ := (EvalM.Upholds.gets _).mono fun _ depth _ => ⟨depth, rfl⟩
  note e :=
    (EvalM.Upholds.modify (f := fun m => m.note e) fun _ => rfl).mono fun _ _ _ => ⟨(), trivial⟩
  newChild h := (EvalM.Upholds.newChild h.1).mono fun _ c hc => ⟨c, ⟨hc, rfl⟩, fun _ => trivial⟩
  define _ _ hv := (EvalM.Upholds.define hv.1 _ _).mono fun _ _ _ => ⟨(), trivial⟩
  lookup _ _ := (EvalM.Upholds.lookup _ _).mono fun _ v hv => ⟨v, hv, rfl⟩
  assign _ _ hv := (EvalM.Upholds.assign hv.1 _ _).mono fun _ _ _ => ⟨(), trivial⟩
  write text _ := (EvalM.Upholds.write _ text).mono fun _ _ _ => ⟨(), trivial⟩
  sign _ _ := .ofExcept fun w hw k _ => ⟨w, .of_plain (UnaryOp.ne_function_of_apply hw) k, rfl⟩
  operator _ hl hr := .ofExcept fun w hw _ hle =>
    ⟨w, (BinaryOp.livesIn_of_apply hl.1 hr.1 hw).mono hle, rfl⟩
  notCallable _ _ := .fail _ _
  wrongArity _ _ _ _ _ := .fail _ _
  tooDeep _ _ _ _ _ h := .ite (.fail _ _) h

section Evaluator

variable {limit n : Nat} {scope : ScopeId}

theorem EvalM.Upholds.of_steps {α : Type} {A : Nat → α → α → Prop} {A' : Nat → α → Prop}
    {x y : EvalM α} (h : (upkeep limit).Steps n A x y) (hA : ∀ k a b, A k a b → A' k a) :
    x.Upholds n A' := by
  have hupholds : x.Upholds n fun k a => ∃ b, A k a b := h
  exact hupholds.mono fun k a ⟨b, hab⟩ => hA k a b hab

theorem eval_upholds (fuel : Nat) (hscope : scope < n) (e : Expr) :
    (eval limit fuel e scope).Upholds n Value.LivesIn := by
  have halong := (upkeep limit).along fuel
  exact .of_steps (halong.eval false rfl ⟨hscope, rfl⟩) fun _ _ _ hv => hv.1

theorem execAll_upholds (fuel : Nat) (hscope : scope < n) {last : Value} (hlast : last.LivesIn n)
    (ss : List Stmt) : (execAll limit fuel ss last scope).Upholds n Flow.LivesIn := by
  have halong := (upkeep limit).along fuel
  have hsame : List.Forall₂ Eq ss ss := List.forall₂_refl ss
  exact .of_steps (halong.execAll false hsame ⟨hlast, rfl⟩ ⟨hscope, rfl⟩ fun _ => trivial)
    fun _ _ _ => Flow.LivesIn.of_pair

end Evaluator

/-- Whatever a host has evaluated in a scope that is there, and however it ends: the store that is
    left continues the one before, and a value that is returned lives in it. -/
theorem Phrase.upholds (phrase : Phrase) (limit fuel : Nat) {scope : ScopeId} {n : Nat}
    (hscope : scope < n) : (phrase.run limit fuel scope).Upholds n Value.LivesIn := by
  cases phrase with
  | expression e => exact eval_upholds fuel hscope e
  | program p =>
    rw [Phrase.run, Program.run]
    refine .bind (.modify fun _ => rfl) fun _ k hk _ => ?_
    have hscope' := Nat.lt_of_lt_of_le hscope hk
    refine .bind (execAll_upholds fuel hscope' (.nil k) p.statements) fun flow k' _ hflow => ?_
    cases flow with
    | normal v => exact .bind (.modify fun _ => rfl) fun _ _ hle _ => .value (hflow.mono hle)
    | returned v => exact .value hflow

end Lexiscope

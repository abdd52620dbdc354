/-
  Lexiscope.Proofs.Braced.Run

  A run does not show whether the braces of a loop body make a scope.

  The evaluator and the one without the special case for braces are run from
  paired scopes of stores that differ in spare scopes only. The second one makes a
  spare scope in each turn of a loop, and needs more fuel there, but never more
  than twice as much. So there are two statements, one for each of the runs that
  may be cut off (`Cut`): the other one then has fuel enough, and where both runs
  end, they end alike (`InStep`). This is a walk over the two evaluators, which are
  the same but for the turns of loops. The induction is over the fuel of the second
  one, and for the turns it goes back by two.
-/
import Lexiscope.Proofs.Braced.Basic
import Lexiscope.Proofs.Braced.Store
import Lexiscope.Proofs.Eval.Reach
import Lexiscope.Proofs.Renaming.Run

namespace Lexiscope.Braced

open Lockstep (Scopes OneToOne extend_self le_extend)
open Renaming (Renamed ResultRenamed)

-- ============================================================================
-- Machines and answers
-- ============================================================================

/-- Machines whose stores differ in spare scopes only, and that are the same otherwise. -/
structure MachinePadded (ρ : Scopes) (m m' : Machine) : Prop where
  stores : Padded ρ m.store m'.store
  sink : m.sink = m'.sink
  calls : m.activeCalls = m'.activeCalls
  journal : m.journal = m'.journal

/-- Which of the two runs may be cut off for want of fuel. -/
inductive Cut where
  /-- The run of the evaluator. -/
  | plain
  /-- The run of the evaluator without the special case. -/
  | braced

/-- With these amounts of fuel, where no other run is cut off, this one is not either. -/
def Cut.Fuels : Cut → Nat → Nat → Prop
  | plain, fuel, fuel' => 2 * fuel ≤ fuel'
  | braced, fuel, fuel' => fuel' ≤ fuel

/-- The one run that may be is cut off, or both runs have ended with results that belong
    together. -/
inductive Answer (cut : Cut) (ρ : Scopes) {α β : Type} (A : Scopes → α → β → Prop) :
    Option (Except RuntimeError α × Machine) → Option (Except RuntimeError β × Machine) → Prop where
  | plain {y : Option (Except RuntimeError β × Machine)} (h : cut = .plain) :
      Answer cut ρ A none y
  | braced {x : Option (Except RuntimeError α × Machine)} (h : cut = .braced) :
      Answer cut ρ A x none
  | both {ρ₁ : Scopes} {r : Except RuntimeError α} {r' : Except RuntimeError β} {m m' : Machine}
      (hle : ρ ≤ ρ₁) (hresult : ResultRenamed (A ρ₁) r r') (hmachine : MachinePadded ρ₁ m m') :
      Answer cut ρ A (some (r, m)) (some (r', m'))

/-- On machines that differ in spare scopes only, the steps have answers that belong together. -/
def InStep (cut : Cut) (ρ : Scopes) {α β : Type} (A : Scopes → α → β → Prop) (x : EvalM α)
    (y : EvalM β) : Prop :=
  ∀ ⦃m m'⦄, MachinePadded ρ m m' → Answer cut ρ A (x m) (y m')

variable {cut : Cut} {ρ : Scopes}

-- ============================================================================
-- Sequences of steps
-- ============================================================================

namespace InStep

variable {α β γ δ : Type} {A : Scopes → α → β → Prop} {B : Scopes → γ → δ → Prop}

protected theorem pure {a : α} {b : β} (h : A ρ a b) :
    InStep cut ρ A (pure a : EvalM α) (pure b : EvalM β) :=
  fun _ _ hm => .both le_rfl (.ok h) hm

theorem outOfFuel : InStep cut ρ A EvalM.outOfFuel EvalM.outOfFuel := by
  cases cut with
  | plain => exact fun _ _ _ => .plain rfl
  | braced => exact fun _ _ _ => .braced rfl

theorem fail (t : Token) {f g : Fault} (h : f = g) :
    InStep cut ρ A (EvalM.fail t f) (EvalM.fail t g) := by
  subst h
  exact fun _ _ hm => .both le_rfl (.error ⟨t, f⟩) hm

/-- What one step of the two runs gives, the next one takes, with at least as many scopes paired. -/
protected theorem bind {x : EvalM α} {y : EvalM β} {f : α → EvalM γ} {g : β → EvalM δ}
    (hxy : InStep cut ρ A x y)
    (hfg : ∀ ρ₁, ρ ≤ ρ₁ → ∀ a b, A ρ₁ a b → InStep cut ρ₁ B (f a) (g b)) :
    InStep cut ρ B (x >>= f) (y >>= g) := by
  intro m m' hm
  show Answer cut ρ B (EvalM.bind x f m) (EvalM.bind y g m')
  have hanswer := hxy hm
  unfold EvalM.bind
  generalize x m = r, y m' = r' at hanswer ⊢
  cases hanswer with
  | plain h => exact .plain h
  | braced h => exact .braced h
  | both hle hresult hmachine =>
    cases hresult with
    | error e => exact .both hle (.error e) hmachine
    | ok h =>
      have hnext := hfg _ hle _ _ h hmachine
      dsimp only
      generalize f _ _ = s, g _ _ = s' at hnext ⊢
      cases hnext with
      | plain h => exact .plain h
      | braced h => exact .braced h
      | both hle' hresult' hmachine' => exact .both (hle.trans hle') hresult' hmachine'

theorem mono {A' : Scopes → α → β → Prop} {x : EvalM α} {y : EvalM β} (h : InStep cut ρ A x y)
    (hA : ∀ ρ₁ a b, A ρ₁ a b → A' ρ₁ a b) : InStep cut ρ A' x y := by
  rw [← EvalM.bind_pure x, ← EvalM.bind_pure y]
  exact .bind h fun ρ₁ _ a b hab => .pure (hA ρ₁ a b hab)

theorem inCall {x : EvalM α} {y : EvalM β} (h : InStep cut ρ A x y) :
    InStep cut ρ A (EvalM.inCall x) (EvalM.inCall y) := by
  intro m m' hm
  have hcalls : m.activeCalls + 1 = m'.activeCalls + 1 := congrArg (· + 1) hm.calls
  have hanswer := @h { m with activeCalls := m.activeCalls + 1 }
    { m' with activeCalls := m'.activeCalls + 1 } ⟨hm.stores, hm.sink, hcalls, hm.journal⟩
  unfold EvalM.inCall
  generalize x _ = r, y _ = r' at hanswer ⊢
  cases hanswer with
  | plain h => exact .plain h
  | braced h => exact .braced h
  | both hle hresult hmachine =>
    refine .both hle hresult ⟨hmachine.stores, hmachine.sink, ?_, hmachine.journal⟩
    exact congrArg (· - 1) hmachine.calls

end InStep

-- ============================================================================
-- Steps on the machine
-- ============================================================================

namespace InStep

theorem activeCalls :
    InStep cut ρ (fun _ => Eq) (EvalM.gets Machine.activeCalls) (EvalM.gets Machine.activeCalls) :=
  fun _ _ hm => .both le_rfl (.ok hm.calls) hm

theorem resetCalls : InStep cut ρ (fun _ _ _ => True)
    (EvalM.modify fun m => { m with activeCalls := 0 })
    (EvalM.modify fun m => { m with activeCalls := 0 }) :=
  fun _ _ hm => .both le_rfl (.ok trivial) ⟨hm.stores, hm.sink, rfl, hm.journal⟩

theorem note {e e' : Event} (h : e = e') :
    InStep cut ρ (fun _ _ _ => True) (EvalM.modify fun m => m.note e)
      (EvalM.modify fun m => m.note e') := by
  subst h
  exact fun _ _ hm => .both le_rfl (.ok trivial)
    ⟨hm.stores, hm.sink, hm.calls, congrArg (·.note e) hm.journal⟩

theorem ofExcept {α β : Type} {A : Scopes → α → β → Prop} {r : Except RuntimeError α}
    {r' : Except RuntimeError β} (h : OneToOne ρ → ResultRenamed (A ρ) r r') :
    InStep cut ρ A (EvalM.ofExcept r) (EvalM.ofExcept r') :=
  fun _ _ hm => .both le_rfl (h hm.stores.unique) hm

variable {a b : ScopeId} {v w : Value}

theorem newChild (hab : ρ a b) :
    InStep cut ρ (fun ρ₁ => ρ₁) (EvalM.newChild a) (EvalM.newChild b) :=
  fun _ _ hm => .both (le_extend ρ _ _) (.ok (extend_self ρ _ _))
    ⟨hm.stores.child (hm.stores.left hab) (.same hab), hm.sink, hm.calls, hm.journal⟩

/-- The scope in between is a spare one. -/
theorem newChild_inner (hab : ρ a b) :
    InStep cut ρ (fun ρ₁ => ρ₁) (EvalM.newChild a) (EvalM.newChild b >>= EvalM.newChild) := by
  intro m m' hm
  have hright : Padded ρ m.store (m'.store.child b).1 :=
    hm.stores.child_right (hm.stores.right hab)
  have haround : Around ρ (m'.store.child b).1 (some a) (some (m'.store.child b).2) :=
    .padded (hm.stores.spare_child b) (Store.parent?_push_self _ _) hab
  exact .both (le_extend ρ _ _) (.ok (extend_self ρ _ _))
    ⟨hright.child (hm.stores.left hab) haround, hm.sink, hm.calls, hm.journal⟩

theorem define (hab : ρ a b) (x : String) (hvw : Renamed ρ v w) :
    InStep cut ρ (fun _ _ _ => True) (EvalM.define a x v) (EvalM.define b x w) :=
  fun _ _ hm => .both le_rfl (.ok trivial)
    ⟨hm.stores.define hab hvw, hm.sink, hm.calls, hm.journal⟩

theorem lookup (hab : ρ a b) (name : Token) :
    InStep cut ρ Renamed (EvalM.lookup a name) (EvalM.lookup b name) := by
  intro m m' hm
  have hvalues := hm.stores.lookup hab name.lexeme
  unfold EvalM.lookup
  generalize m.store.get? a name.lexeme = x, m'.store.get? b name.lexeme = y at hvalues ⊢
  cases hvalues with
  | none => exact .both le_rfl (.error _) hm
  | some h => exact .both le_rfl (.ok h) hm

theorem assign (hab : ρ a b) (name : Token) (hvw : Renamed ρ v w) :
    InStep cut ρ (fun _ _ _ => True) (EvalM.assign a name v) (EvalM.assign b name w) := by
  intro m m' hm
  have hscopes := hm.stores.nearest? hab name.lexeme
  unfold EvalM.assign
  dsimp only
  generalize m.store.nearest? a name.lexeme = x, m'.store.nearest? b name.lexeme = y at hscopes ⊢
  cases hscopes with
  | none => exact .both le_rfl (.error _) hm
  | some hcd =>
    exact .both le_rfl (.ok trivial)
      ⟨hm.stores.define hcd hvw, hm.sink, hm.calls, hm.journal⟩

theorem write (t : Token) {text text' : String} (h : text = text') :
    InStep cut ρ (fun _ _ _ => True) (EvalM.write t text) (EvalM.write t text') := by
  subst h
  intro m m' hm
  unfold EvalM.write
  dsimp only
  rw [← hm.sink]
  rcases m.sink.write text with ⟨sink, _ | _⟩
  · exact .both le_rfl (.error _) ⟨hm.stores, rfl, hm.calls, hm.journal⟩
  · exact .both le_rfl (.ok trivial) ⟨hm.stores, rfl, hm.calls, hm.journal⟩

end InStep

-- ============================================================================
-- The evaluators
-- ============================================================================

/-- The evaluator without the special case. -/
def evaluator (limit fuel : Nat) : Evaluator where
  eval := Braced.eval limit fuel
  evalAll := Braced.evalAll limit fuel
  call := Braced.call limit fuel
  exec := Braced.exec limit fuel
  execAll := Braced.execAll limit fuel
  repeatWhile := Braced.repeatWhile limit fuel

theorem evaluator_zero (limit : Nat) : evaluator limit 0 = .spent := by
  unfold evaluator Evaluator.spent
  congr 1 <;> funext
  · rw [Braced.eval]
  · rw [Braced.evalAll]
  · rw [Braced.call]
  · rw [Braced.exec]
  · rw [Braced.execAll]
  · rw [Braced.repeatWhile]

/-- The clauses are those of the evaluator, but the body of a loop is run as the statement it is. -/
theorem evaluator_succ (limit fuel : Nat) :
    evaluator limit (fuel + 1) = (evaluator limit fuel).next limit (evaluator limit fuel).exec := by
  unfold evaluator Evaluator.next
  congr 1
  · funext e scope
    cases e <;> rw [Braced.eval]
  · funext es scope
    cases es <;> rw [Braced.evalAll]
  · funext f args paren
    cases f <;> rw [Braced.call] <;> simp
  · funext s scope
    cases s with
    | letVar name value | returnStmt word value => cases value <;> rw [Braced.exec]
    | _ => rw [Braced.exec]
  · funext ss last scope
    cases ss with
    | nil => rw [Braced.execAll]
    | cons s rest =>
      rewrite [Braced.execAll]
      rfl
  · funext condition body scope
    rewrite [Braced.repeatWhile]
    rfl

/-- The same program is run from paired scopes by the two evaluators. -/
def walk (cut : Cut) (limit : Nat) : Walk Scopes where
  toTrees := .same
  limit := limit
  limit' := limit
  Scopes ρ := ρ
  Values := Renamed
  Binds _ _ _ := True
  Steps ρ A x y := InStep cut ρ A x y
  scopes_mono hρ hab := hρ _ _ hab
  binds_mono _ h := h
  values_iff := Renaming.Renamed.pair_iff
  outOfFuel _ _ := .outOfFuel
  pure h := .pure (h _ le_rfl)
  bind := .bind
  inCall := .inCall
  activeCalls _ := .activeCalls
  note e := .note rfl
  newChild hab := (InStep.newChild hab).mono fun _ _ _ hcd => ⟨hcd, fun _ => trivial⟩
  define hab _ hv := .define hab _ hv
  lookup := by
    rintro ρ _ a b t _ hab rfl
    exact .lookup hab t
  assign := by
    rintro ρ _ a b t _ v w hab rfl hv
    exact .assign hab t hv
  write := by
    rintro ρ _ t _ text rfl
    exact .write t rfl
  sign := by
    rintro ρ _ op t _ v w rfl hv
    exact .ofExcept fun _ => Renaming.unaryApply_renamed op t hv
  operator := by
    rintro ρ _ op t _ a a' b b' rfl ha hb
    exact .ofExcept fun hunique => Renaming.binaryApply_renamed op t hunique ha hb
  notCallable := by
    rintro ρ _ t _ v rfl -
    exact .fail t rfl
  wrongArity := by
    rintro ρ _ t _ name arity given rfl -
    exact .fail t rfl
  tooDeep := by
    rintro ρ _ t _ name depth x y rfl h
    split
    · exact .fail t rfl
    · exact h

/-- With these amounts of fuel, the functions of the two evaluators do the same from paired
    scopes. -/
def RunsInStep (cut : Cut) (limit fuel fuel' : Nat) : Prop :=
  (walk cut limit).Along (.plain limit fuel) (evaluator limit fuel')

namespace RunsInStep

variable {limit fuel fuel' : Nat} {a b : ScopeId}

/-- One turn of a loop, in its new scope. The statements of a block are run with as much fuel as the
    block in the one run, and with less in the other, which makes a spare scope first. -/
theorem turns (ih : RunsInStep cut limit fuel fuel')
    (hblock : ∀ less, fuel' = less + 1 → RunsInStep cut limit fuel less)
    (hcut : fuel' = 0 → cut = .braced) :
    (walk cut limit).Turns (Evaluator.plain limit fuel).turn (Braced.exec limit fuel') := by
  rintro ρ inside body _ a b rfl hab
  have hother : InStep cut ρ (walk cut limit).Flows
      (EvalM.newChild a >>= Lexiscope.exec limit fuel body)
      (EvalM.newChild b >>= Braced.exec limit fuel' body) :=
    .bind (.newChild hab) fun _ _ _ _ hcd => ih.exec inside rfl hcd fun _ _ => trivial
  cases body with
  | block brace statements =>
    cases fuel' with
    | zero =>
      refine .bind (.newChild hab) fun _ _ _ _ _ => ?_
      rw [Braced.exec]
      exact fun _ _ _ => .braced (hcut rfl)
    | succ less =>
      have hinner : (EvalM.newChild b >>= Braced.exec limit (less + 1) (.block brace statements))
          = EvalM.newChild b >>= EvalM.newChild >>= Braced.execAll limit less statements .nil := by
        rw [EvalM.bind_assoc]
        congr 1
        funext inner
        rw [Braced.exec]
      have hself : List.Forall₂ Eq statements statements := List.forall₂_refl _
      rw [hinner]
      exact .bind (.newChild_inner hab) fun _ _ _ _ hcd =>
        (hblock less rfl).execAll inside hself Walk.values_nil hcd fun _ => trivial
  | _ => exact hother

theorem succ (ih : RunsInStep cut limit fuel fuel')
    (hblock : ∀ less, fuel' = less + 1 → RunsInStep cut limit fuel less)
    (hcut : fuel' = 0 → cut = .braced) : RunsInStep cut limit (fuel + 1) (fuel' + 1) := by
  rw [RunsInStep, Evaluator.plain_succ, evaluator_succ]
  exact Walk.Along.next ih (ih.turns hblock hcut)

/-- The two evaluators do the same from paired scopes. -/
theorem all (limit : Nat) (h : cut.Fuels fuel fuel') : RunsInStep cut limit fuel fuel' := by
  induction fuel' using Nat.strongRecOn generalizing fuel with
  | ind fuel' ih =>
    cases cut with
    | plain =>
      cases fuel with
      | zero =>
        rw [RunsInStep, Evaluator.plain_zero]
        exact .spent (fun _ _ _ _ => .plain rfl) _
      | succ fuel =>
        have hle : 2 * (fuel + 1) ≤ fuel' := h
        obtain ⟨more, rfl⟩ : ∃ more, fuel' = more + 2 := ⟨fuel' - 2, by omega⟩
        have hmore : 2 * fuel ≤ more := by omega
        refine .succ (ih (more + 1) (Nat.lt_succ_self _) (Nat.le_succ_of_le hmore)) ?_ (by simp)
        rintro less hless
        obtain rfl : more = less := Nat.succ.inj hless
        exact ih more (by omega) hmore
    | braced =>
      cases fuel' with
      | zero =>
        rw [RunsInStep, evaluator_zero]
        constructor <;> intros <;> exact fun _ _ _ => .braced rfl
      | succ fuel' =>
        obtain ⟨more, rfl⟩ : ∃ more, fuel = more + 1 :=
          Nat.exists_eq_add_one_of_ne_zero (Nat.ne_zero_of_lt h)
        have hmore : fuel' ≤ more := Nat.le_of_succ_le_succ h
        refine .succ (ih fuel' (Nat.lt_succ_self _) hmore) ?_ fun _ => rfl
        rintro less rfl
        exact ih less (by omega) (Nat.le_of_succ_le hmore)

end RunsInStep

-- ============================================================================
-- Programs
-- ============================================================================

variable {limit fuel fuel' : Nat} {a b : ScopeId}

theorem runProgram_inStep (p : Program) (limit : Nat) (h : cut.Fuels fuel fuel') (hab : ρ a b) :
    InStep cut ρ Renamed (p.run limit fuel a) (runProgram p limit fuel' b) := by
  refine .bind .resetCalls fun ρ₁ hρ _ _ _ => ?_
  have hself : List.Forall₂ Eq p.statements p.statements := List.forall₂_refl _
  have hruns := RunsInStep.all limit h
  refine .bind (hruns.execAll false hself Walk.values_nil (hρ _ _ hab) fun _ => trivial) ?_
  intro ρ₂ hρ₂ x y hflow
  cases hflow with
  | normal h =>
    exact .bind (.note (by rw [h.alike.echo])) fun ρ₃ hρ₃ _ _ _ => .pure (h.mono hρ₃)
  | returned h => exact .pure h

/-- A program or an expression does the same in the two evaluators. -/
theorem phrase_inStep (phrase : Phrase) (limit : Nat) (h : cut.Fuels fuel fuel') (hab : ρ a b) :
    InStep cut ρ Renamed (phrase.run limit fuel a) (run phrase limit fuel' b) := by
  cases phrase with
  | program p => exact runProgram_inStep p limit h hab
  | expression e => exact (RunsInStep.all limit h).eval false rfl hab

end Lexiscope.Braced

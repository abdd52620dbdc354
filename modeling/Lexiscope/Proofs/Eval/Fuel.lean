/-
  Lexiscope.Proofs.Eval.Fuel

  More fuel keeps every answer.

  A run that ends, with a value or with an error, ends in the same way when it
  is given more fuel. So whether a run ends at all, and how, does not depend on
  the fuel that someone happened to give it.
-/
import Lexiscope.Proofs.Eval.Walk
import Lexiscope.Session

namespace Lexiscope

-- ============================================================================
-- Answers that are kept
-- ============================================================================

/-- Every answer of the first step is one of the second. -/
def EvalM.Within {α : Type} (x y : EvalM α) : Prop :=
  ∀ m r, x m = some r → y m = some r

namespace EvalM.Within

variable {α β : Type}

protected theorem refl (x : EvalM α) : x.Within x := fun _ _ h => h

theorem outOfFuel (y : EvalM α) : EvalM.outOfFuel.Within y := fun _ _ h => nomatch h

theorem bind {x y : EvalM α} {f g : α → EvalM β} (hxy : x.Within y)
    (hfg : ∀ a, (f a).Within (g a)) : (x >>= f).Within (y >>= g) := by
  intro m r h
  show EvalM.bind y g m = some r
  have h' : EvalM.bind x f m = some r := h
  unfold EvalM.bind at h' ⊢
  cases hx : x m with
  | none =>
    rw [hx] at h'
    exact nomatch h'
  | some result =>
    rw [hx] at h'
    rw [hxy m result hx]
    obtain ⟨⟨e⟩ | ⟨a⟩, m'⟩ := result
    · exact h'
    · exact hfg a m' r h'

theorem ite {c : Prop} [Decidable c] {x y x' y' : EvalM α} (hyes : x.Within x')
    (hno : y.Within y') : (if c then x else y).Within (if c then x' else y') := by
  split
  · exact hyes
  · exact hno

theorem inCall {x y : EvalM α} (hxy : x.Within y) : (EvalM.inCall x).Within (EvalM.inCall y) := by
  intro m r h
  unfold EvalM.inCall at h ⊢
  cases hx : x { m with activeCalls := m.activeCalls + 1 } with
  | none =>
    rw [hx] at h
    exact nomatch h
  | some result =>
    rw [hx] at h
    rw [hxy _ result hx]
    exact h

end EvalM.Within

-- ============================================================================
-- The evaluator
-- ============================================================================

/-- With the second amount of fuel, every function of the evaluator gives all the answers that it
    gives with the first. -/
structure FuelKeeps (limit fuel more : Nat) : Prop where
  eval : ∀ e scope, (eval limit fuel e scope).Within (eval limit more e scope)
  evalAll : ∀ es scope, (evalAll limit fuel es scope).Within (evalAll limit more es scope)
  call : ∀ f args paren, (call limit fuel f args paren).Within (call limit more f args paren)
  exec : ∀ s scope, (exec limit fuel s scope).Within (exec limit more s scope)
  execAll : ∀ ss last scope,
    (execAll limit fuel ss last scope).Within (execAll limit more ss last scope)
  repeatWhile : ∀ condition body scope,
    (repeatWhile limit fuel condition body scope).Within
      (repeatWhile limit more condition body scope)

namespace FuelKeeps

variable {limit fuel more : Nat}

/-- Every answer is kept by a sequence of steps, and by a call, if it is by the parts. -/
def congruence (limit : Nat) : Congruence where
  limit := limit
  limit' := limit
  Steps := EvalM.Within
  outOfFuel := .refl _
  pure _ := .refl _
  fail _ _ := .refl _
  ofExcept _ := .refl _
  bind := .bind
  inCall := .inCall
  activeCalls := .refl _
  note _ := .refl _
  newChild _ := .refl _
  define _ _ _ := .refl _
  lookup _ _ := .refl _
  assign _ _ _ := .refl _
  write _ _ := .refl _
  tooDeep _ _ _ := .ite (.refl _)

theorem along_of_le (limit : Nat) (h : fuel ≤ more) :
    (congruence limit).walk.Along (.plain limit fuel) (.plain limit more) := by
  induction fuel generalizing more with
  | zero =>
    rw [Evaluator.plain_zero]
    exact .spent (fun y β f g _ => .outOfFuel (y >>= g)) _
  | succ fuel ih =>
    obtain ⟨k, rfl⟩ : ∃ k, more = k + 1 := ⟨more - 1, by omega⟩
    have hless := ih (Nat.le_of_succ_le_succ h)
    rw [Evaluator.plain_succ, Evaluator.plain_succ]
    exact hless.next hless.turns

/-- More fuel keeps every answer of the evaluator. -/
theorem of_le (limit : Nat) (h : fuel ≤ more) : FuelKeeps limit fuel more := by
  have hrespects := Congruence.respects_of_along (along_of_le limit h)
  exact ⟨hrespects.eval, hrespects.evalAll, hrespects.call, hrespects.exec, hrespects.execAll,
    hrespects.repeatWhile⟩

end FuelKeeps

-- ============================================================================
-- Programs and sessions
-- ============================================================================

theorem Program.run_within (p : Program) (limit : Nat) {fuel more : Nat} (h : fuel ≤ more)
    (scope : ScopeId) : (p.run limit fuel scope).Within (p.run limit more scope) := by
  refine .bind (.refl _) fun _ => ?_
  exact .bind ((FuelKeeps.of_le limit h).execAll p.statements .nil scope) fun _ => .refl _

namespace Session

theorem exec_mono {s s' : Session} {p : Program} {scope : ScopeId} {fuel more : Nat}
    {r : Except RuntimeError Value} (hle : fuel ≤ more)
    (h : s.exec p scope fuel = some (r, s')) : s.exec p scope more = some (r, s') := by
  unfold exec step at h ⊢
  cases hrun : p.run s.limits.calls fuel scope s.machine with
  | none =>
    rw [hrun] at h
    exact nomatch h
  | some result =>
    rw [hrun] at h
    rw [p.run_within s.limits.calls hle scope s.machine result hrun]
    exact h

theorem runIn_mono {s s' : Session} {source : String} {scope : ScopeId} {fuel more : Nat}
    {r : Except Error Value} (hle : fuel ≤ more)
    (h : s.runIn source scope fuel = some (r, s')) : s.runIn source scope more = some (r, s') := by
  unfold runIn at h ⊢
  rcases hload : s.load source with ⟨e | p, loaded⟩
  · rw [hload] at h
    exact h
  · rw [hload] at h
    dsimp only at h ⊢
    cases hexec : loaded.exec p scope fuel with
    | none =>
      rw [hexec] at h
      exact nomatch h
    | some result =>
      rw [hexec] at h
      rw [exec_mono hle hexec]
      exact h

/-- More fuel keeps the answer of a source unit. -/
theorem run_mono {s s' : Session} {unit source : String} {fuel more : Nat}
    {r : Except Diagnostic Value} (hle : fuel ≤ more)
    (h : s.run unit source fuel = some (r, s')) : s.run unit source more = some (r, s') := by
  unfold run at h ⊢
  cases hrun : (s.note (.running unit source.utf8ByteSize)).runIn source globals fuel with
  | none =>
    rw [hrun] at h
    exact nomatch h
  | some result =>
    rw [hrun] at h
    rw [runIn_mono hle hrun]
    exact h

/-- With enough fuel the source unit ends with this result and leaves this session. -/
def Ends (s : Session) (unit source : String) (r : Except Diagnostic Value) (s' : Session) : Prop :=
  ∃ fuel, s.run unit source fuel = some (r, s')

/-- Two runs that end do so with some common amount of fuel. -/
theorem Ends.common_fuel {s s' t t' : Session} {unit source unit' source' : String}
    {r r' : Except Diagnostic Value} (hs : s.Ends unit source r s')
    (ht : t.Ends unit' source' r' t') :
    ∃ fuel, s.run unit source fuel = some (r, s') ∧ t.run unit' source' fuel = some (r', t') := by
  obtain ⟨fuel, hs⟩ := hs
  obtain ⟨fuel', ht⟩ := ht
  exact ⟨max fuel fuel', run_mono (Nat.le_max_left fuel fuel') hs,
    run_mono (Nat.le_max_right fuel fuel') ht⟩

end Session

end Lexiscope

/-
  Lexiscope.Proofs.Eval.Phrase

  What a host can have evaluated, and how it ends.

  A program or a single expression is run in a scope (`Phrase`). It ends if some
  amount of fuel is enough, and then in one way only.
-/
import Lexiscope.Proofs.Eval.Fuel

namespace Lexiscope

/-- What a host can have evaluated in a scope. -/
inductive Phrase where
  | program (p : Program)
  | expression (e : Expr)

namespace Phrase

/-- The value of the phrase in a scope, with at most `limit` calls active at once. -/
def run (phrase : Phrase) (limit fuel : Nat) (scope : ScopeId) : EvalM Value :=
  match phrase with
  | program p => p.run limit fuel scope
  | expression e => eval limit fuel e scope

/-- With enough fuel the phrase ends with this result and leaves this machine. -/
def Ends (phrase : Phrase) (limit : Nat) (scope : ScopeId) (m : Machine)
    (r : Except RuntimeError Value) (m' : Machine) : Prop :=
  ∃ fuel, phrase.run limit fuel scope m = some (r, m')

theorem run_within (phrase : Phrase) (limit : Nat) {fuel more : Nat} (h : fuel ≤ more)
    (scope : ScopeId) : (phrase.run limit fuel scope).Within (phrase.run limit more scope) := by
  cases phrase with
  | program p => exact p.run_within limit h scope
  | expression e => exact (FuelKeeps.of_le limit h).eval e scope

/-- A phrase ends in one way only. -/
theorem Ends.unique {phrase : Phrase} {limit : Nat} {scope : ScopeId} {m m₁ m₂ : Machine}
    {r₁ r₂ : Except RuntimeError Value} (h₁ : phrase.Ends limit scope m r₁ m₁)
    (h₂ : phrase.Ends limit scope m r₂ m₂) : r₁ = r₂ ∧ m₁ = m₂ := by
  obtain ⟨fuel₁, h₁⟩ := h₁
  obtain ⟨fuel₂, h₂⟩ := h₂
  have hmore₁ := phrase.run_within limit (Nat.le_max_left fuel₁ fuel₂) scope m _ h₁
  have hmore₂ := phrase.run_within limit (Nat.le_max_right fuel₁ fuel₂) scope m _ h₂
  exact Prod.ext_iff.mp (Option.some.inj (hmore₁.symm.trans hmore₂))

end Phrase

end Lexiscope

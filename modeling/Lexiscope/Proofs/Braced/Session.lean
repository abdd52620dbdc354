/-
  Lexiscope.Proofs.Braced.Session

  The special case for the braces of a loop body cannot be observed.

  Phrases are run one after the other, each on the machine that the one before
  left, also after an error (`EndInTurn`). On machines that differ in spare scopes
  only, each of them ends for both evaluators or for neither, and leaves such
  machines again. So the rows of results look the same, and so does what was
  written. A closure made in the body of a loop keeps a spare scope, and this may
  be met by any phrase that comes later.
-/
import Lexiscope.Proofs.Braced.Run
import Lexiscope.Proofs.Curbed.Depth
import Lexiscope.Proofs.Lockstep.Session

namespace Lexiscope.Braced

open Lockstep (Scopes)
open Renaming (Renamed ResultRenamed)

-- ============================================================================
-- One phrase
-- ============================================================================

section Phrase

variable {ρ : Scopes} {phrase : Phrase} {limit : Nat} {a b : ScopeId} {m m' m₁ m₁' : Machine}
  {r r' : Except RuntimeError Value}

/-- Where the evaluator ends, so does the one without the special case. -/
theorem ends_of_plain (hm : MachinePadded ρ m m') (hab : ρ a b) (h : phrase.Ends limit a m r m₁) :
    ∃ ρ₁ r' m₁', Ends phrase limit b m' r' m₁' ∧ ρ ≤ ρ₁ ∧ ResultRenamed (Renamed ρ₁) r r' ∧
      MachinePadded ρ₁ m₁ m₁' := by
  obtain ⟨fuel, hrun⟩ := h
  have hfuels : Cut.plain.Fuels fuel (2 * fuel) := Nat.le_refl _
  have hanswer := phrase_inStep phrase limit hfuels hab hm
  rw [hrun] at hanswer
  generalize hrun' : run phrase limit (2 * fuel) b m' = answer at hanswer
  cases hanswer with
  | braced h => cases h
  | @both ρ₁ _ r' _ m₁' hle hresult hmachine =>
    exact ⟨ρ₁, r', m₁', ⟨2 * fuel, hrun'⟩, hle, hresult, hmachine⟩

/-- Where the evaluator without the special case ends, so does the other. -/
theorem ends_of_braced (hm : MachinePadded ρ m m') (hab : ρ a b)
    (h : Ends phrase limit b m' r' m₁') :
    ∃ ρ₁ r m₁, phrase.Ends limit a m r m₁ ∧ ρ ≤ ρ₁ ∧ ResultRenamed (Renamed ρ₁) r r' ∧
      MachinePadded ρ₁ m₁ m₁' := by
  obtain ⟨fuel, hrun'⟩ := h
  have hfuels : Cut.braced.Fuels fuel fuel := Nat.le_refl _
  have hanswer := phrase_inStep phrase limit hfuels hab hm
  rw [hrun'] at hanswer
  generalize hrun : phrase.run limit fuel a m = answer at hanswer
  cases hanswer with
  | plain h => cases h
  | @both ρ₁ r _ m₁ _ hle hresult hmachine =>
    exact ⟨ρ₁, r, m₁, ⟨fuel, hrun⟩, hle, hresult, hmachine⟩

/-- The same value but for scopes looks the same. -/
theorem looksLike_of_renamed {v w : Value} (h : Renamed ρ v w) : LooksLike v w :=
  ⟨h.alike.type, h.alike.text, h.alike.echo, h.alike.isTruthy⟩

theorem resultsLookAlike_of_renamed (h : ResultRenamed (Renamed ρ) r r') :
    ResultRenamed LooksLike r r' := by
  cases h with
  | ok h => exact .ok (looksLike_of_renamed h)
  | error e => exact .error e

end Phrase

-- ============================================================================
-- Phrases in turn
-- ============================================================================

/-- The phrases, each to be run in its scope, end one after the other with these results, each on
    the machine that the one before left, and leave this machine. -/
inductive EndInTurn
    (ends : Phrase → ScopeId → Machine → Except RuntimeError Value → Machine → Prop) :
    List (Phrase × ScopeId) → Machine → List (Except RuntimeError Value) → Machine → Prop where
  | nil (m : Machine) : EndInTurn ends [] m [] m
  | cons {phrase : Phrase} {scope : ScopeId} {m m₁ m₂ : Machine} {r : Except RuntimeError Value}
      {rest : List (Phrase × ScopeId)} {rs : List (Except RuntimeError Value)}
      (hfirst : ends phrase scope m r m₁) (hrest : EndInTurn ends rest m₁ rs m₂) :
      EndInTurn ends ((phrase, scope) :: rest) m (r :: rs) m₂

section Turns

variable {ρ : Scopes} {limit : Nat} {row : List (Phrase × ScopeId)} {m m' m₁ m₁' : Machine}
  {rs rs' : List (Except RuntimeError Value)}

theorem endInTurn_of_plain (hm : MachinePadded ρ m m') (hscopes : ∀ item ∈ row, ρ item.2 item.2)
    (h : EndInTurn (fun phrase => phrase.Ends limit) row m rs m₁) :
    ∃ rs' m₁', EndInTurn (fun phrase => Ends phrase limit) row m' rs' m₁' := by
  induction h generalizing ρ m' with
  | nil m => exact ⟨[], m', .nil m'⟩
  | cons hfirst _ ih =>
    rw [List.forall_mem_cons] at hscopes
    obtain ⟨ρ₁, r', m₁', hends, hle, -, hmachine⟩ := ends_of_plain hm hscopes.1 hfirst
    obtain ⟨rs', m₂', hrest⟩ := ih hmachine fun item hitem => hle _ _ (hscopes.2 item hitem)
    exact ⟨r' :: rs', m₂', .cons hends hrest⟩

/-- Where the phrases end without the special case, they end with it, and the results look the
    same. -/
theorem endInTurn_of_braced (hm : MachinePadded ρ m m') (hscopes : ∀ item ∈ row, ρ item.2 item.2)
    (h : EndInTurn (fun phrase => Ends phrase limit) row m' rs' m₁') :
    ∃ rs m₁, EndInTurn (fun phrase => phrase.Ends limit) row m rs m₁ ∧ m₁.sink = m₁'.sink ∧
      List.Forall₂ (ResultRenamed LooksLike) rs rs' := by
  induction h generalizing ρ m with
  | nil m' => exact ⟨[], m, .nil m, hm.sink, .nil⟩
  | cons hfirst _ ih =>
    rw [List.forall_mem_cons] at hscopes
    obtain ⟨ρ₁, r, m₁, hends, hle, hresult, hmachine⟩ := ends_of_braced hm hscopes.1 hfirst
    obtain ⟨rs, m₂, hrest, hsink, hresults⟩ :=
      ih hmachine fun item hitem => hle _ _ (hscopes.2 item hitem)
    have hlook := resultsLookAlike_of_renamed hresult
    exact ⟨r :: rs, m₂, .cons hends hrest, hsink, .cons hlook hresults⟩

theorem EndInTurn.unique (h : EndInTurn (fun phrase => phrase.Ends limit) row m rs m₁)
    (h' : EndInTurn (fun phrase => phrase.Ends limit) row m rs' m₁') : rs = rs' ∧ m₁ = m₁' := by
  induction h generalizing rs' m₁' with
  | nil m =>
    cases h'
    exact ⟨rfl, rfl⟩
  | cons hfirst _ ih =>
    cases h' with
    | cons hfirst' hrest' =>
      obtain ⟨rfl, rfl⟩ := hfirst.unique hfirst'
      obtain ⟨rfl, rfl⟩ := ih hrest'
      exact ⟨rfl, rfl⟩

end Turns

/-- Phrases that are run in scopes of a well-formed store, one after the other, all end for the
    evaluator if and only if they do for the one that gives the block of a loop body a scope of its
    own. Then the same has been written, and the results are the same errors, or values that look
    the same. -/
theorem braces_do_not_show {m : Machine} (hwf : m.store.WellFormed) (limit : Nat)
    {row : List (Phrase × ScopeId)} (hscopes : ∀ item ∈ row, item.2 < m.store.scopes.size) :
    ((∃ rs m₁, EndInTurn (fun phrase => phrase.Ends limit) row m rs m₁) ↔
      ∃ rs m₁, EndInTurn (fun phrase => Ends phrase limit) row m rs m₁) ∧
    ∀ rs m₁ rs' m₁', EndInTurn (fun phrase => phrase.Ends limit) row m rs m₁ →
      EndInTurn (fun phrase => Ends phrase limit) row m rs' m₁' →
      m₁.sink = m₁'.sink ∧ List.Forall₂ (ResultRenamed LooksLike) rs rs' := by
  have hm : MachinePadded (fun a b => a = b ∧ a < m.store.scopes.size) m m :=
    ⟨.self hwf, rfl, rfl, rfl⟩
  have hpaired : ∀ item ∈ row, item.2 = item.2 ∧ item.2 < m.store.scopes.size :=
    fun item hitem => ⟨rfl, hscopes item hitem⟩
  refine ⟨⟨?_, ?_⟩, fun rs m₁ rs' m₁' hplain hbraced => ?_⟩
  · rintro ⟨rs, m₁, hplain⟩
    exact endInTurn_of_plain hm hpaired hplain
  · rintro ⟨rs', m₁', hbraced⟩
    obtain ⟨rs, m₁, hplain, -⟩ := endInTurn_of_braced hm hpaired hbraced
    exact ⟨rs, m₁, hplain⟩
  · obtain ⟨rs₀, m₀, hplain₀, hsink, hresults⟩ := endInTurn_of_braced hm hpaired hbraced
    obtain ⟨rfl, rfl⟩ := hplain.unique hplain₀
    exact ⟨hsink, hresults⟩

section Witness

/-- `let n = true; let g; while (n) { fn f() { return n; } g = f; n = false; }` -/
def keepingLoop : Program :=
  ⟨[.letVar (looseName "n") (some (.boolean true)), .letVar (looseName "g") none,
    .whileLoop (looseName "while") (.identifier (looseName "n")) (.block (looseName "block")
      [.function 1 (looseName "f") []
        [.returnStmt (looseName "return") (some (.identifier (looseName "n")))],
       .expression (.assign (looseName "g") (.identifier (looseName "f"))),
       .expression (.assign (looseName "n") (.boolean false))])]⟩

/-- `g()` -/
def callOfKept : Expr := .call (.identifier (looseName "g")) (looseName "(") []

/-- The function that the loop leaves is called later. Without the special case there is one more
    scope between it and the global one. -/
theorem braces_do_not_show_keepingLoop :
    idleMachine.store.WellFormed ∧
      ∃ r r₁ m₁ r' r₁' m₁',
        EndInTurn (fun phrase => phrase.Ends 1)
          [(.program keepingLoop, 0), (.expression callOfKept, 0)] idleMachine [r, r₁] m₁ ∧
        EndInTurn (fun phrase => Ends phrase 1)
          [(.program keepingLoop, 0), (.expression callOfKept, 0)] idleMachine [r', r₁'] m₁' ∧
        m₁.store.scopes.size = 3 ∧ m₁'.store.scopes.size = 4 ∧ m₁.sink = m₁'.sink ∧
        List.Forall₂ (ResultRenamed LooksLike) [r, r₁] [r', r₁'] := by
  have hwf : idleMachine.store.WellFormed := Store.WellFormed.empty.newGlobal
  have hplain : (((Phrase.program keepingLoop).run 1 20 0 idleMachine).bind fun answer =>
      ((Phrase.expression callOfKept).run 1 20 0 answer.2).map fun answer =>
        answer.2.store.scopes.size) = some 3 := by decide +kernel
  have hbraced : ((run (.program keepingLoop) 1 20 0 idleMachine).bind fun answer =>
      (run (.expression callOfKept) 1 20 0 answer.2).map fun answer =>
        answer.2.store.scopes.size) = some 4 := by decide +kernel
  obtain ⟨⟨r, m⟩, hfirst, hrest⟩ := Option.bind_eq_some_iff.mp hplain
  obtain ⟨⟨r₁, m₁⟩, hsecond, hsize⟩ := Option.map_eq_some_iff.mp hrest
  obtain ⟨⟨r', m'⟩, hfirst', hrest'⟩ := Option.bind_eq_some_iff.mp hbraced
  obtain ⟨⟨r₁', m₁'⟩, hsecond', hsize'⟩ := Option.map_eq_some_iff.mp hrest'
  have hruns : EndInTurn (fun phrase => phrase.Ends 1)
      [(.program keepingLoop, 0), (.expression callOfKept, 0)] idleMachine [r, r₁] m₁ :=
    .cons ⟨20, hfirst⟩ (.cons ⟨20, hsecond⟩ (.nil m₁))
  have hruns' : EndInTurn (fun phrase => Ends phrase 1)
      [(.program keepingLoop, 0), (.expression callOfKept, 0)] idleMachine [r', r₁'] m₁' :=
    .cons ⟨20, hfirst'⟩ (.cons ⟨20, hsecond'⟩ (.nil m₁'))
  obtain ⟨hsink, hresults⟩ := (braces_do_not_show hwf 1 (by decide)).2 _ _ _ _ hruns hruns'
  exact ⟨hwf, r, r₁, m₁, r', r₁', m₁', hruns, hruns', hsize, hsize', hsink, hresults⟩

end Witness

end Lexiscope.Braced

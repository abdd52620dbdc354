/-
  Lexiscope.Proofs.Store.Upkeep

  What every operation on scopes keeps.

  A well-formed store stays one, no scope of it is lost, and none gets another parent
  (`Continues`). A new scope gets a parent that is there already, and a copy gets the
  bindings of the scope that is copied: its own functions then close over the copy, and
  the scopes of all others are older than the copy.
-/
import Lexiscope.Proofs.Store.WellFormed

namespace Lexiscope

/-- If the value is a function, it closes over one of the first `n` scopes. -/
def Value.LivesIn (n : Nat) (v : Value) : Prop := ∀ f c, v = .function f c → c < n

theorem Value.LivesIn.mono {v : Value} {n m : Nat} (h : v.LivesIn n) (hle : n ≤ m) : v.LivesIn m :=
  fun f c hv => Nat.lt_of_lt_of_le (h f c hv) hle

theorem Value.LivesIn.of_plain {v : Value} (h : ∀ f c, v ≠ .function f c) (n : Nat) : v.LivesIn n :=
  fun f c hv => absurd hv (h f c)

theorem Value.LivesIn.nil (n : Nat) : Value.nil.LivesIn n := .of_plain (by simp) n

namespace Store

variable {st st₁ st₂ : Store} {e s : ScopeId} {x : String} {v : Value}

theorem WellFormed.get? (h : st.WellFormed) (hv : st.get? e x = some v) :
    v.LivesIn st.scopes.size := by
  rintro f c rfl
  obtain ⟨s, -, hlocal⟩ := Option.bind_eq_some_iff.mp hv
  exact h.closures hlocal

/-- The second store is a well-formed one that has all scopes of the first, with the same parents. -/
structure Continues (st st₁ : Store) : Prop where
  wellFormed : st₁.WellFormed
  size : st.scopes.size ≤ st₁.scopes.size
  parents : ∀ ⦃e⦄, e < st.scopes.size → st₁.parent? e = st.parent? e

namespace Continues

protected theorem refl (h : st.WellFormed) : st.Continues st := ⟨h, Nat.le_refl _, fun _ _ => rfl⟩

theorem trans (h : st.Continues st₁) (h₁ : st₁.Continues st₂) : st.Continues st₂ where
  wellFormed := h₁.wellFormed
  size := Nat.le_trans h.size h₁.size
  parents _ he := (h₁.parents (Nat.lt_of_lt_of_le he h.size)).trans (h.parents he)

/-- A scope that is added changes none of the others. -/
theorem of_push {new : Scope} (h : (st.push new).1.WellFormed) : st.Continues (st.push new).1 where
  wellFormed := h
  size := by
    rw [size_push]
    exact Nat.le_succ _
  parents _ he := parent?_push_of_lt new he

theorem newGlobal (h : st.WellFormed) : st.Continues st.newGlobal.1 := of_push h.newGlobal

theorem newEmpty (h : st.WellFormed) : st.Continues st.newEmpty.1 := of_push h.newEmpty

theorem child (h : st.WellFormed) (he : e < st.scopes.size) : st.Continues (st.child e).1 :=
  of_push (h.child he)

theorem define (h : st.WellFormed) (hv : v.LivesIn st.scopes.size) :
    st.Continues (st.define e x v) where
  wellFormed := h.define hv
  size := Nat.le_of_eq (size_define st e x v).symm
  parents e' _ := parent?_define st e x v e'

/-- Nothing is known of the names of a scope that was cleared. -/
theorem scope?_clear_cases {t : Scope} (h : (st.clear e).scope? s = some t) :
    st.scope? s = some t ∨ t.bindings = [] := by
  by_cases hs : s = e
  · rw [hs, scope?_clear_self] at h
    obtain ⟨t', -, rfl⟩ := Option.map_eq_some_iff.mp h
    exact .inr rfl
  · rw [scope?_clear_of_ne hs] at h
    exact .inl h

theorem get?_of_bindings_eq_nil {t : Scope} (h : t.bindings = []) (x : String) :
    t.get? x = none := by
  rw [Scope.get?, h]
  rfl

theorem clear (h : st.WellFormed) : st.Continues (st.clear e) where
  size := Nat.le_of_eq (size_clear st e).symm
  parents e' _ := parent?_clear st e e'
  wellFormed := by
    refine ⟨h.ordered.clear, ?_, ?_⟩
    · intro e' y f c hv
      rw [size_clear]
      obtain ⟨b, hb, hvalue⟩ := Option.map_eq_some_iff.mp hv
      obtain ⟨t, ht, htb⟩ := Option.bind_eq_some_iff.mp hb
      obtain hold | hnil := scope?_clear_cases ht
      · refine h.closures (e := e') (x := y) (f := f) ?_
        rw [localValue?, hold, Option.bind_some, htb, Option.map_some, hvalue]
      · rw [get?_of_bindings_eq_nil hnil] at htb
        cases htb
    · intro e' t ht y f hy
      obtain hold | hnil := scope?_clear_cases ht
      · exact h.own hold y f hy
      · rw [get?_of_bindings_eq_nil hnil] at hy
        cases hy

/-- Scopes of one store are copied one after the other, each into the copy of the one before. -/
theorem copyAll (h : st.WellFormed) (es : List ScopeId) :
    st.Continues (st.copyAll es).1 ∧
      ∀ p, (st.copyAll es).2 = some p → p < (st.copyAll es).1.scopes.size := by
  induction es with
  | nil => exact ⟨.refl h, nofun⟩
  | cons e outer ih =>
    obtain ⟨hcontinues, hparent⟩ := ih
    have hwf : ((st.copyAll outer).1.push
        ⟨((st.scope? e).map Scope.bindings).getD [], (st.copyAll outer).2⟩).1.WellFormed := by
      refine hcontinues.wellFormed.push hparent fun x f c hx => ?_
      refine Nat.lt_of_lt_of_le (h.closures (e := e) (x := x) (f := f) ?_) hcontinues.size
      cases hscope : st.scope? e with
      | none =>
        rw [hscope] at hx
        cases hx
      | some t =>
        rw [hscope] at hx
        rw [localValue?, hscope, Option.bind_some]
        exact congrArg _ hx
    refine ⟨hcontinues.trans (of_push hwf), fun p hp => ?_⟩
    obtain rfl : (st.copyAll outer).1.scopes.size = p := Option.some.inj hp
    exact Nat.lt_of_lt_of_eq (Nat.lt_succ_self _) (size_push _ _).symm

theorem copy (h : st.WellFormed) : st.Continues (st.copy e).1 := (copyAll h (st.chain e)).1

end Continues

end Store

end Lexiscope

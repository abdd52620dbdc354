/-
  Lexiscope.Proofs.Store.WellFormed

  Well-formed stores, and what can be reached in them.

  In a well-formed store parents are older than their children, functions close
  over scopes that were made, and a function that is bound in the very scope it
  closes over is stored without that scope. From a scope one can go on to its
  parent and to the scopes of the functions that it binds (`Leads`); what can be
  reached in this way is all that a program in this scope can get hold of.
-/
import Lexiscope.Proofs.Store.Basic
import Mathlib.Logic.Relation

namespace Lexiscope

/-- No binding made for a value is one of a function with its own scope. -/
theorem Binding.ofValue_ne (e : ScopeId) (v : Value) (f : FunctionDef) :
    Binding.ofValue e v ≠ .value (.function f e) := by
  cases v with
  | function g c =>
    rw [ofValue]
    split
    · simp
    · next hne =>
      intro h
      obtain ⟨-, hc⟩ := Value.function.inj (Binding.value.inj h)
      exact hne hc
  | _ => simp [ofValue]

namespace Store

variable {st : Store} {a b e : ScopeId} {x : String} {v : Value}

-- ============================================================================
-- Well-formed stores
-- ============================================================================

/-- A store as operations on scopes leave it. -/
structure WellFormed (st : Store) : Prop where
  ordered : st.Ordered
  closures : ∀ ⦃e x f c⦄, st.localValue? e x = some (.function f c) → c < st.scopes.size
  own : ∀ ⦃e s⦄, st.scope? e = some s → ∀ x f, s.get? x ≠ some (.value (.function f e))

namespace WellFormed

theorem empty : Store.empty.WellFormed where
  ordered _ _ hp := absurd (lt_size_of_parent? hp) (Nat.not_lt_zero _)
  closures _ _ _ _ hv := by
    rw [localValue?, scope?_eq_none (Nat.zero_le _)] at hv
    cases hv
  own e s hs := by
    rw [scope?_eq_none (Nat.zero_le e)] at hs
    cases hs

/-- A new scope may bind own functions, and others only over scopes that are there already. -/
theorem push (h : st.WellFormed) {s : Scope} (hparent : ∀ q, s.parent = some q → q < st.scopes.size)
    (hbindings : ∀ x f c, s.get? x = some (.value (.function f c)) → c < st.scopes.size) :
    (st.push s).1.WellFormed where
  ordered := h.ordered.push hparent
  closures e x f c hv := by
    obtain ⟨b, hb, hvalue⟩ := Option.map_eq_some_iff.mp hv
    obtain ⟨t, ht, htb⟩ := Option.bind_eq_some_iff.mp hb
    rw [size_push]
    rcases scope?_push_cases ht with ⟨he, -⟩ | ⟨rfl, rfl⟩
    · rw [localValue?_push_of_lt s he] at hv
      exact Nat.lt_succ_of_lt (h.closures hv)
    · cases b with
      | value w =>
        obtain rfl : w = .function f c := hvalue
        exact Nat.lt_succ_of_lt (hbindings x f c htb)
      | own g =>
        obtain ⟨-, rfl⟩ := Value.function.inj hvalue
        exact Nat.lt_succ_self _
  own e t ht x f hx := by
    rcases scope?_push_cases ht with ⟨-, hold⟩ | ⟨rfl, rfl⟩
    · exact h.own hold x f hx
    · exact Nat.lt_irrefl _ (hbindings x f _ hx)

theorem newGlobal (h : st.WellFormed) : st.newGlobal.1.WellFormed := by
  refine h.push (by simp) fun x f c hx => ?_
  rw [Scope.get?, List.find?_map, Option.map_map, Option.map_eq_some_iff] at hx
  obtain ⟨b, -, hb⟩ := hx
  cases Binding.value.inj hb

theorem newEmpty (h : st.WellFormed) : st.newEmpty.1.WellFormed :=
  h.push (by simp) (by simp [Scope.get?])

theorem child (h : st.WellFormed) (he : e < st.scopes.size) : (st.child e).1.WellFormed := by
  refine h.push (fun q hq => ?_) (by simp [Scope.get?])
  obtain rfl : e = q := Option.some.inj hq
  exact he

theorem define (h : st.WellFormed) (hv : ∀ f c, v = .function f c → c < st.scopes.size) :
    (st.define e x v).WellFormed where
  ordered := h.ordered.define
  closures e' y f c hy := by
    rw [size_define]
    by_cases hself : e' = e ∧ y = x
    · obtain ⟨rfl, rfl⟩ := hself
      by_cases he : e' < st.scopes.size
      · rw [localValue?_define_self he] at hy
        exact hv f c (Option.some.inj hy)
      · rw [localValue?, scope?_eq_none (by rw [size_define]; exact Nat.le_of_not_lt he)] at hy
        cases hy
    · rw [localValue?_define_of_ne (not_and_or.mp hself)] at hy
      exact h.closures hy
  own e' t ht y f hy := by
    by_cases he : e' = e
    · subst he
      rw [scope?_define_self] at ht
      obtain ⟨s, hs, rfl⟩ := Option.map_eq_some_iff.mp ht
      rw [Scope.get?] at hy
      by_cases hxy : y = x
      · subst hxy
        rw [Scope.find?_insert_self] at hy
        exact Binding.ofValue_ne e' v f (Option.some.inj hy)
      · rw [Scope.find?_insert_of_ne hxy] at hy
        exact h.own hs y f hy
    · rw [scope?_define_of_ne he] at ht
      exact h.own ht y f hy

end WellFormed

-- ============================================================================
-- Reachable scopes
-- ============================================================================

/-- From scope `a` one can go on to scope `b`: it is the parent of `a`, or the scope of a function
    that `a` binds. -/
def Leads (st : Store) (a b : ScopeId) : Prop :=
  st.parent? a = some b ∨ ∃ x f, st.localValue? a x = some (.function f b)

/-- From scope `a` one can get to scope `b` in any number of steps. -/
def Reaches (st : Store) : ScopeId → ScopeId → Prop := Relation.ReflTransGen st.Leads

theorem Leads.lt_size (h : st.WellFormed) (hab : st.Leads a b) : b < st.scopes.size := by
  rcases hab with hp | ⟨x, f, hv⟩
  · exact Nat.lt_trans (h.ordered hp) (lt_size_of_parent? hp)
  · exact h.closures hv

theorem Reaches.lt_size (h : st.WellFormed) (ha : a < st.scopes.size) (hab : st.Reaches a b) :
    b < st.scopes.size := by
  cases hab with
  | refl => exact ha
  | tail _ hlast => exact hlast.lt_size h

end Store

end Lexiscope

/-
  Lexiscope.Proofs.Renaming.Store

  Stores that are the same under a renaming of scopes.

  Where two runs of one program number their scopes differently, a relation says
  which scope of the one stands for which of the other. Here nothing but scopes is
  renamed: values are the same, function values have the very same definition, and
  their scopes are paired (`Renamed`). Stores are the same on paired scopes
  (`Mirror`), and what two runs do to them is the same there and nothing elsewhere:
  new pairs are of new scopes, made at the same time, and scopes without a partner
  are left as they were (`Grown`).
-/
import Lexiscope.Proofs.Lockstep.Store
import Lexiscope.Proofs.Store.WellFormed

namespace Lexiscope.Renaming

open Lockstep

variable {ρ ρ₁ ρ₂ : Scopes} {st st₁ st₂ st' st₁' st₂' : Store} {a b : ScopeId} {x : String}
  {v w : Value}

-- ============================================================================
-- Values
-- ============================================================================

/-- The same value, except that a function may close over the scope that is paired with its own. -/
inductive Renamed (ρ : Scopes) : Value → Value → Prop where
  | plain {v : Value} (h : ∀ f c, v ≠ .function f c) : Renamed ρ v v
  | function (f : FunctionDef) {a b : ScopeId} (h : ρ a b) :
      Renamed ρ (.function f a) (.function f b)

namespace Renamed

theorem mono (hρ : ρ ≤ ρ₁) (h : Renamed ρ v w) : Renamed ρ₁ v w := by
  cases h with
  | plain h => exact .plain h
  | function f h => exact .function f (hρ _ _ h)

/-- A value is renamed to itself, if the scope of a function is. -/
theorem of_closure (h : ∀ f c, v = .function f c → ρ c c) : Renamed ρ v v := by
  cases v with
  | function f c => exact .function f (h f c rfl)
  | _ => exact .plain (by simp)

/-- Where scopes are paired with themselves only, nothing is renamed. -/
theorem eq (hρ : ∀ ⦃a b⦄, ρ a b → a = b) (h : Renamed ρ v w) : v = w := by
  cases h with
  | plain _ => rfl
  | function f h => rw [hρ h]

theorem alike (h : Renamed ρ v w) : ValueAlike Eq ρ v w := by
  cases h with
  | function f h => exact .function (defAlike_refl (fun _ => rfl) f) h
  | plain h =>
    cases v with
    | number x => exact .number x
    | string s => exact .string s
    | boolean b => exact .boolean b
    | nil => exact .nil
    | function f c => exact absurd rfl (h f c)
    | builtin b => exact .builtin b

end Renamed

-- ============================================================================
-- Stores
-- ============================================================================

/-- Stores that are the same on paired scopes. -/
structure Mirror (ρ : Scopes) (st st' : Store) : Prop extends StoreAlike Eq ρ st st' where
  renamed : ∀ ⦃a b⦄, ρ a b → ∀ x,
    Option.Rel (Renamed ρ) (st.localValue? a x) (st'.localValue? b x)

namespace Mirror

theorem of_renamed (hunique : OneToOne ρ) (hleft : ∀ ⦃a b⦄, ρ a b → a < st.scopes.size)
    (hright : ∀ ⦃a b⦄, ρ a b → b < st'.scopes.size)
    (hparents : ∀ ⦃a b⦄, ρ a b → Option.Rel ρ (st.parent? a) (st'.parent? b))
    (hrenamed : ∀ ⦃a b⦄, ρ a b → ∀ x,
      Option.Rel (Renamed ρ) (st.localValue? a x) (st'.localValue? b x))
    (hordered : st.Ordered) (hordered' : st'.Ordered) : Mirror ρ st st' where
  unique := hunique
  left := hleft
  right := hright
  parents := hparents
  values _ _ hab x := rel_mono (fun _ _ => Renamed.alike) (hrenamed hab x)
  ordered := hordered
  ordered' := hordered'
  renamed := hrenamed

/-- New scopes inside paired ones can be paired. -/
theorem child (h : Mirror ρ st st') (hab : ρ a b) :
    Mirror (extend ρ (st.child a).2 (st'.child b).2) (st.child a).1 (st'.child b).1 where
  toStoreAlike := h.toStoreAlike.child hab
  renamed := BindAlike.child h.renamed h.paired (fun _ _ => Renamed.mono (le_extend ρ _ _)) a b

/-- Binding a name in paired scopes to the same value. -/
theorem define (h : Mirror ρ st st') (hab : ρ a b) (hvw : Renamed ρ v w) :
    Mirror ρ (st.define a x v) (st'.define b x w) where
  toStoreAlike := h.toStoreAlike.define hab hvw.alike
  renamed := BindAlike.define h.renamed h.paired hab x hvw

/-- From paired scopes a name has the same value. -/
theorem lookup (h : Mirror ρ st st') (hab : ρ a b) (x : String) :
    Option.Rel (Renamed ρ) (st.get? a x) (st'.get? b x) :=
  BindAlike.get? h.renamed (h.nearest? hab x)

/-- What can be reached from paired scopes is paired. -/
theorem reaches (h : Mirror ρ st st') (hab : ρ a b) {c : ScopeId} (hac : st.Reaches a c) :
    ∃ d, ρ c d ∧ st'.Reaches b d := by
  induction hac with
  | refl => exact ⟨b, hab, .refl⟩
  | @tail c c' _ hlast ih =>
    obtain ⟨d, hcd, hbd⟩ := ih
    rcases hlast with hp | ⟨x, f, hv⟩
    · have hparents := h.parents hcd
      rw [hp] at hparents
      generalize hq : st'.parent? d = q at hparents
      cases hparents with
      | @some _ d' hpaired => exact ⟨d', hpaired, hbd.tail (.inl hq)⟩
    · have hvalues := h.renamed hcd x
      rw [hv] at hvalues
      generalize hw : st'.localValue? d x = w at hvalues
      cases hvalues with
      | some hvw =>
        cases hvw with
        | plain hplain => exact absurd rfl (hplain f c')
        | @function _ _ d' hpaired => exact ⟨d', hpaired, hbd.tail (.inr ⟨x, f, hw⟩)⟩

end Mirror

-- ============================================================================
-- Stores that grow together
-- ============================================================================

/-- From stores with paired scopes two others have come about, with more scopes paired. Equally many
    scopes were made on both sides, those made at the same time are paired, and scopes that were
    there without a partner have not changed. -/
structure Grown (ρ : Scopes) (st st' : Store) (ρ₁ : Scopes) (st₁ st₁' : Store) : Prop where
  le : ρ ≤ ρ₁
  sizes : ∃ k, st₁.scopes.size = st.scopes.size + k ∧ st₁'.scopes.size = st'.scopes.size + k
  fresh : ∀ ⦃a b⦄, ρ₁ a b → ρ a b ∨ ∃ k, st.scopes.size + k = a ∧ st'.scopes.size + k = b
  left : ∀ ⦃a⦄, a < st.scopes.size → (∀ b, ¬ ρ a b) → st₁.scope? a = st.scope? a
  right : ∀ ⦃b⦄, b < st'.scopes.size → (∀ a, ¬ ρ a b) → st₁'.scope? b = st'.scope? b

namespace Grown

protected theorem refl (ρ : Scopes) (st st' : Store) : Grown ρ st st' ρ st st' where
  le := le_rfl
  sizes := ⟨0, rfl, rfl⟩
  fresh _ _ h := .inl h
  left _ _ _ := rfl
  right _ _ _ := rfl

theorem trans (h : Grown ρ st st' ρ₁ st₁ st₁') (h' : Grown ρ₁ st₁ st₁' ρ₂ st₂ st₂') :
    Grown ρ st st' ρ₂ st₂ st₂' := by
  obtain ⟨k, hk, hk'⟩ := h.sizes
  obtain ⟨j, hj, hj'⟩ := h'.sizes
  constructor
  · exact h.le.trans h'.le
  · exact ⟨k + j, by omega, by omega⟩
  · intro a b hab
    rcases h'.fresh hab with hold | ⟨i, rfl, rfl⟩
    · exact h.fresh hold
    · exact .inr ⟨k + i, by omega, by omega⟩
  · intro a ha hfree
    rw [h'.left (by omega) fun b hab => ?_, h.left ha hfree]
    rcases h.fresh hab with hold | ⟨i, rfl, -⟩
    · exact hfree b hold
    · omega
  · intro b hb hfree
    rw [h'.right (by omega) fun a hab => ?_, h.right hb hfree]
    rcases h.fresh hab with hold | ⟨i, -, rfl⟩
    · exact hfree a hold
    · omega

theorem child (ρ : Scopes) (st st' : Store) (a b : ScopeId) :
    Grown ρ st st' (extend ρ (st.child a).2 (st'.child b).2) (st.child a).1 (st'.child b).1 where
  le := le_extend ρ _ _
  sizes := ⟨1, Store.size_push st _, Store.size_push st' _⟩
  fresh _ _ hcd := hcd.imp_right fun hnew => ⟨0, hnew.1.symm, hnew.2.symm⟩
  left _ hlt _ := Store.scope?_push_of_lt st _ hlt
  right _ hlt _ := Store.scope?_push_of_lt st' _ hlt

/-- Binding a name in a scope changes no other. -/
theorem define (st st' : Store) (hab : ρ a b) (x : String) (v w : Value) :
    Grown ρ st st' ρ (st.define a x v) (st'.define b x w) where
  le := le_rfl
  sizes := ⟨0, Store.size_define st a x v, Store.size_define st' b x w⟩
  fresh _ _ h := .inl h
  left c _ hfree := Store.scope?_define_of_ne fun hc => hfree b (by rw [hc]; exact hab)
  right d _ hfree := Store.scope?_define_of_ne fun hd => hfree a (by rw [hd]; exact hab)

end Grown

end Lexiscope.Renaming

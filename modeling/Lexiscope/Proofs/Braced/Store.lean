/-
  Lexiscope.Proofs.Braced.Store

  Stores that are the same but for scopes in between.

  The second store may have, around a scope, one more scope that binds nothing
  and stands for none of the first (`Spare`), with the partner of the parent
  around it (`Around`). Nothing is found in such a scope and nothing is assigned
  there, so from paired scopes names are found in paired scopes. Values are the
  same but for the numbers of scopes.
-/
import Lexiscope.Proofs.Renaming.Store

namespace Lexiscope.Braced

open Lockstep (Scopes OneToOne PairedScopes BindAlike extend le_extend)
open Renaming (Renamed)

variable {ρ ρ₁ : Scopes} {st st' : Store} {a b r : ScopeId} {x : String} {v w : Value}

-- ============================================================================
-- Scopes in between
-- ============================================================================

/-- A scope that binds nothing and has no partner. -/
structure Spare (ρ : Scopes) (st' : Store) (r : ScopeId) : Prop where
  lone : ∀ a, ¬ ρ a r
  empty : ∀ x, st'.localValue? r x = none

/-- What is around a scope and around its partner: nothing, or partners, perhaps with a spare scope
    before the second one. -/
inductive Around (ρ : Scopes) (st' : Store) : Option ScopeId → Option ScopeId → Prop where
  | root : Around ρ st' none none
  | same {p q : ScopeId} (h : ρ p q) : Around ρ st' (some p) (some q)
  | padded {p q r : ScopeId} (hspare : Spare ρ st' r) (hparent : st'.parent? r = some q)
      (h : ρ p q) : Around ρ st' (some p) (some r)

namespace Around

variable {p q : Option ScopeId}

theorem lt_size (h : Around ρ st' p (some b)) (hright : ∀ ⦃a b⦄, ρ a b → b < st'.scopes.size) :
    b < st'.scopes.size := by
  cases h with
  | same h => exact hright h
  | padded _ hparent _ => exact Store.lt_size_of_parent? hparent

/-- A scope that is still to be made can get a partner. -/
theorem extend (h : Around ρ st' p q) (hb : st'.scopes.size ≤ b) (a : ScopeId) :
    Around (Lockstep.extend ρ a b) st' p q := by
  cases h with
  | root => exact .root
  | same h => exact .same (.inl h)
  | padded hspare hparent h =>
    have hlt := Store.lt_size_of_parent? hparent
    refine .padded ⟨?_, hspare.empty⟩ hparent (.inl h)
    rintro c (hold | ⟨-, rfl⟩)
    · exact hspare.lone c hold
    · exact Nat.not_lt_of_le hb hlt

/-- A new scope on the second side changes nothing around others. -/
theorem push (h : Around ρ st' p q) (s : Scope) : Around ρ (st'.push s).1 p q := by
  cases h with
  | root => exact .root
  | same h => exact .same h
  | padded hspare hparent h =>
    have hlt := Store.lt_size_of_parent? hparent
    refine .padded ⟨hspare.lone, fun x => ?_⟩ ?_ h
    · rw [Store.localValue?_push_of_lt s hlt, hspare.empty]
    · rw [Store.parent?_push_of_lt s hlt, hparent]

/-- Neither does a name that is bound in a scope that has a partner. -/
theorem define (h : Around ρ st' p q) (hab : ρ a b) :
    Around ρ (st'.define b x w) p q := by
  cases h with
  | root => exact .root
  | same h => exact .same h
  | @padded p q r hspare hparent h =>
    have hne : r ≠ b := by
      rintro rfl
      exact hspare.lone a hab
    refine .padded ⟨hspare.lone, fun y => ?_⟩ ?_ h
    · rw [Store.localValue?_define_of_ne (.inl hne), hspare.empty]
    · rw [Store.parent?_define, hparent]

end Around

/-- Stores that are the same on paired scopes, but for spare scopes in between. -/
structure Padded (ρ : Scopes) (st st' : Store) : Prop where
  unique : OneToOne ρ
  left : ∀ ⦃a b⦄, ρ a b → a < st.scopes.size
  right : ∀ ⦃a b⦄, ρ a b → b < st'.scopes.size
  parents : ∀ ⦃a b⦄, ρ a b → Around ρ st' (st.parent? a) (st'.parent? b)
  renamed : ∀ ⦃a b⦄, ρ a b → ∀ x, Option.Rel (Renamed ρ) (st.localValue? a x) (st'.localValue? b x)
  ordered : st.Ordered
  ordered' : st'.Ordered

namespace Padded

theorem paired (h : Padded ρ st st') : PairedScopes ρ st st' := ⟨h.unique, h.left, h.right⟩

/-- A well-formed store is the same as itself. -/
theorem self (h : st.WellFormed) : Padded (fun a b => a = b ∧ a < st.scopes.size) st st where
  unique := by
    rintro a b a' b' ⟨rfl, -⟩ ⟨rfl, -⟩
    exact Iff.rfl
  left _ _ hab := hab.2
  right _ _ hab := hab.1 ▸ hab.2
  parents := by
    rintro a b ⟨rfl, ha⟩
    cases hp : st.parent? a with
    | none => exact .root
    | some p => exact .same ⟨rfl, Nat.lt_trans (h.ordered hp) ha⟩
  renamed := by
    rintro a b ⟨rfl, -⟩ x
    cases hv : st.localValue? a x with
    | none => exact .none
    | some v =>
      refine .some (.of_closure fun f c hc => ⟨rfl, h.closures (e := a) (x := x) (f := f) ?_⟩)
      rw [hv, hc]
  ordered := h.ordered
  ordered' := h.ordered

-- ============================================================================
-- New scopes
-- ============================================================================

/-- A new scope on the second side alone stays without a partner. -/
theorem child_right (h : Padded ρ st st') (hb : b < st'.scopes.size) :
    Padded ρ st (st'.child b).1 where
  unique := h.unique
  left := h.left
  right _ _ hcd := by
    rw [Store.child, Store.size_push]
    exact Nat.lt_succ_of_lt (h.right hcd)
  parents c d hcd := by
    rw [Store.child, Store.parent?_push_of_lt _ (h.right hcd)]
    exact (h.parents hcd).push _
  renamed c d hcd y := by
    rw [Store.child, Store.localValue?_push_of_lt _ (h.right hcd)]
    exact h.renamed hcd y
  ordered := h.ordered
  ordered' := h.ordered'.child hb

theorem spare_child (h : Padded ρ st st') (b : ScopeId) :
    Spare ρ (st'.child b).1 (st'.child b).2 where
  lone _ hab := Nat.lt_irrefl _ (h.right hab)
  empty := Store.localValue?_child_self st' b

/-- New scopes can be paired where the scopes around them go together. -/
theorem child (h : Padded ρ st st') (ha : a < st.scopes.size)
    (haround : Around ρ st' (some a) (some b)) :
    Padded (extend ρ (st.child a).2 (st'.child b).2) (st.child a).1 (st'.child b).1 where
  unique := (h.paired.child a b).unique
  left := (h.paired.child a b).left
  right := (h.paired.child a b).right
  parents := by
    rintro c d (hcd | ⟨rfl, rfl⟩)
    · rw [Store.child, Store.child, Store.parent?_push_of_lt _ (h.left hcd),
        Store.parent?_push_of_lt _ (h.right hcd)]
      exact ((h.parents hcd).extend (Nat.le_of_eq rfl) _).push _
    · rw [Store.child, Store.child, Store.parent?_push_self, Store.parent?_push_self]
      exact (haround.extend (Nat.le_of_eq rfl) _).push _
  renamed := BindAlike.child h.renamed h.paired (fun _ _ => Renamed.mono (le_extend ρ _ _)) a b
  ordered := h.ordered.child ha
  ordered' := h.ordered'.child (haround.lt_size h.right)

-- ============================================================================
-- Names
-- ============================================================================

/-- Binding a name in paired scopes to the same value. -/
theorem define (h : Padded ρ st st') (hab : ρ a b) (hvw : Renamed ρ v w) :
    Padded ρ (st.define a x v) (st'.define b x w) where
  unique := (h.paired.define a b x v w).unique
  left := (h.paired.define a b x v w).left
  right := (h.paired.define a b x v w).right
  parents c d hcd := by
    rw [Store.parent?_define, Store.parent?_define]
    exact (h.parents hcd).define hab
  renamed := BindAlike.define h.renamed h.paired hab x hvw
  ordered := h.ordered.define
  ordered' := h.ordered'.define

/-- From paired scopes a name is found in paired scopes, or in none. -/
theorem nearest? (h : Padded ρ st st') (hab : ρ a b) (x : String) :
    Option.Rel ρ (st.nearest? a x) (st'.nearest? b x) := by
  induction a using Nat.strongRecOn generalizing b with
  | ind a ih =>
    have hx' := (BindAlike.contains h.renamed hab x).symm
    cases hx : st.contains a x with
    | true =>
      rw [Store.nearest?_of_contains h.ordered (h.left hab) hx,
        Store.nearest?_of_contains h.ordered' (h.right hab) (hx'.trans hx)]
      exact .some hab
    | false =>
      rw [hx] at hx'
      have hparents := h.parents hab
      generalize hp : st.parent? a = p, hq : st'.parent? b = q at hparents
      cases hparents with
      | root =>
        rw [Store.nearest?_of_root (h.left hab) hp hx, Store.nearest?_of_root (h.right hab) hq hx']
        exact .none
      | @same p q hpq =>
        rw [Store.nearest?_of_parent h.ordered hp hx, Store.nearest?_of_parent h.ordered' hq hx']
        exact ih p (h.ordered hp) hpq
      | @padded p q r hspare hparent hpq =>
        -- The spare scope does not bind the name, so the search goes on from its parent.
        have hr : st'.contains r x = false := by
          rw [Store.contains_eq_isSome, hspare.empty, Option.isSome_none]
        rw [Store.nearest?_of_parent h.ordered hp hx, Store.nearest?_of_parent h.ordered' hq hx',
          Store.nearest?_of_parent h.ordered' hparent hr]
        exact ih p (h.ordered hp) hpq

/-- From paired scopes a name has the same value. -/
theorem lookup (h : Padded ρ st st') (hab : ρ a b) (x : String) :
    Option.Rel (Renamed ρ) (st.get? a x) (st'.get? b x) :=
  BindAlike.get? h.renamed (h.nearest? hab x)

end Padded

end Lexiscope.Braced

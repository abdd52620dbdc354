/-
  Lexiscope.Proofs.Lockstep.Store

  Values and stores that are alike.

  Two runs number their scopes on their own, so a relation says which scope of
  the one stands for which of the other. It pairs scopes one to one, the
  parents of paired scopes are paired, and their names have values that are
  alike (`StoreAlike`). Function values are alike when their definitions are and
  their scopes are paired; so two functions are equal in the one run just when
  they are in the other. Scopes that are not paired may hold anything.
-/
import Lexiscope.Proofs.Lockstep.Syntax
import Lexiscope.Proofs.Store.Basic
import Mathlib.Order.Basic

namespace Lexiscope.Lockstep

/-- Which scopes of two stores belong together. -/
abbrev Scopes := ScopeId → ScopeId → Prop

/-- No scope is paired with two others. -/
def OneToOne (ρ : Scopes) : Prop := ∀ ⦃a b a' b'⦄, ρ a b → ρ a' b' → (a = a' ↔ b = b')

-- ============================================================================
-- Values
-- ============================================================================

/-- Values that no program can tell apart. -/
inductive ValueAlike (T : Token → Token → Prop) (ρ : Scopes) : Value → Value → Prop where
  | number (x : Float) : ValueAlike T ρ (.number x) (.number x)
  | string (s : String) : ValueAlike T ρ (.string s) (.string s)
  | boolean (b : Bool) : ValueAlike T ρ (.boolean b) (.boolean b)
  | nil : ValueAlike T ρ .nil .nil
  | function {f g : FunctionDef} {a b : ScopeId} (hdef : DefAlike T f g) (hscope : ρ a b) :
      ValueAlike T ρ (.function f a) (.function g b)
  | builtin (b : Builtin) : ValueAlike T ρ (.builtin b) (.builtin b)

variable {T : Token → Token → Prop} {ρ ρ' : Scopes}

namespace ValueAlike

variable {v w v' w' : Value}

/-- Values stay alike when more scopes are paired. -/
theorem mono (hρ : ρ ≤ ρ') (h : ValueAlike T ρ v w) : ValueAlike T ρ' v w := by
  cases h with
  | number x => exact .number x
  | string s => exact .string s
  | boolean b => exact .boolean b
  | nil => exact .nil
  | function hdef hscope => exact .function hdef (hρ _ _ hscope)
  | builtin b => exact .builtin b

theorem type (h : ValueAlike T ρ v w) : v.type = w.type := by
  cases h <;> rfl

theorem isTruthy (h : ValueAlike T ρ v w) : v.isTruthy = w.isTruthy := by
  cases h <;> rfl

theorem text (h : ValueAlike T ρ v w) : v.text = w.text := by
  cases h with
  | function hdef hscope => rw [Value.text, Value.text, hdef.name]
  | _ => rfl

theorem echo (h : ValueAlike T ρ v w) : v.echo = w.echo := by
  cases h with
  | function hdef hscope => exact ValueAlike.text (.function hdef hscope)
  | _ => rfl

/-- Where scopes are paired one to one, the same values are equal. -/
theorem same (hunique : OneToOne ρ) (h : ValueAlike T ρ v w) (h' : ValueAlike T ρ v' w') :
    (v == v') = (w == w') := by
  show Value.same v v' = Value.same w w'
  cases h with
  | @function f g a b hdef hscope =>
    cases h' with
    | @function f' g' a' b' hdef' hscope' =>
      have hscopes : (a == a') = (b == b') := by
        rw [Bool.eq_iff_iff, beq_iff_eq, beq_iff_eq]
        exact hunique hscope hscope'
      rw [Value.same, Value.same, hdef.label, hdef'.label, hscopes]
    | _ => rfl
  | _ => cases h' <;> rfl

end ValueAlike

-- ============================================================================
-- Pairs of scopes
-- ============================================================================

theorem rel_mono {α β : Type} {A B : α → β → Prop} (hAB : ∀ ⦃a b⦄, A a b → B a b)
    {x : Option α} {y : Option β} (h : Option.Rel A x y) : Option.Rel B x y := by
  cases h with
  | none => exact .none
  | some h => exact .some (hAB h)

/-- The scopes that were paired, and one pair more. -/
def extend (ρ : Scopes) (a b : ScopeId) : Scopes := fun x y => ρ x y ∨ (x = a ∧ y = b)

theorem le_extend (ρ : Scopes) (a b : ScopeId) : ρ ≤ extend ρ a b := fun _ _ h => .inl h

theorem extend_self (ρ : Scopes) (a b : ScopeId) : extend ρ a b a b := .inr ⟨rfl, rfl⟩

variable {st st' : Store} {a b : ScopeId} {x : String} {v w : Value}

/-- Scopes of two stores are paired one to one. -/
structure PairedScopes (ρ : Scopes) (st st' : Store) : Prop where
  unique : OneToOne ρ
  left : ∀ ⦃a b⦄, ρ a b → a < st.scopes.size
  right : ∀ ⦃a b⦄, ρ a b → b < st'.scopes.size

namespace PairedScopes

/-- Scopes that are made at the same time can be paired. -/
theorem child (h : PairedScopes ρ st st') (a b : ScopeId) :
    PairedScopes (extend ρ (st.child a).2 (st'.child b).2) (st.child a).1 (st'.child b).1 where
  unique := by
    rintro c d c' d' (hcd | ⟨rfl, rfl⟩) (hcd' | ⟨rfl, rfl⟩)
    · exact h.unique hcd hcd'
    -- A scope that was there before has a smaller number than one that was just made.
    · exact iff_of_false (Nat.ne_of_lt (h.left hcd)) (Nat.ne_of_lt (h.right hcd))
    · exact iff_of_false (Nat.ne_of_gt (h.left hcd')) (Nat.ne_of_gt (h.right hcd'))
    · exact iff_of_true rfl rfl
  left := by
    rintro c d (hcd | ⟨rfl, rfl⟩)
    · rw [Store.child, Store.size_push]
      exact Nat.lt_succ_of_lt (h.left hcd)
    · rw [Store.child, Store.size_push]
      exact Nat.lt_succ_self _
  right := by
    rintro c d (hcd | ⟨rfl, rfl⟩)
    · rw [Store.child, Store.size_push]
      exact Nat.lt_succ_of_lt (h.right hcd)
    · rw [Store.child, Store.size_push]
      exact Nat.lt_succ_self _

theorem define (h : PairedScopes ρ st st') (a b : ScopeId) (x : String) (v w : Value) :
    PairedScopes ρ (st.define a x v) (st'.define b x w) where
  unique := h.unique
  left c d hcd := by
    rw [Store.size_define]
    exact h.left hcd
  right c d hcd := by
    rw [Store.size_define]
    exact h.right hcd

end PairedScopes

/-- Paired scopes bind the same names, to values that belong together. -/
def BindAlike (A : Value → Value → Prop) (ρ : Scopes) (st st' : Store) : Prop :=
  ∀ ⦃a b⦄, ρ a b → ∀ x, Option.Rel A (st.localValue? a x) (st'.localValue? b x)

namespace BindAlike

variable {A B : Value → Value → Prop}

/-- A new scope binds nothing. -/
theorem child (h : BindAlike A ρ st st') (hpaired : PairedScopes ρ st st')
    (hAB : ∀ ⦃v w⦄, A v w → B v w) (a b : ScopeId) :
    BindAlike B (extend ρ (st.child a).2 (st'.child b).2) (st.child a).1 (st'.child b).1 := by
  rintro c d (hcd | ⟨rfl, rfl⟩) y
  · rw [Store.child, Store.child, Store.localValue?_push_of_lt _ (hpaired.left hcd),
      Store.localValue?_push_of_lt _ (hpaired.right hcd)]
    exact rel_mono hAB (h hcd y)
  · rw [Store.localValue?_child_self, Store.localValue?_child_self]
    exact .none

theorem define (h : BindAlike A ρ st st') (hpaired : PairedScopes ρ st st') (hab : ρ a b)
    (x : String) (hvw : A v w) : BindAlike A ρ (st.define a x v) (st'.define b x w) := by
  intro c d hcd y
  by_cases hy : c = a ∧ y = x
  · obtain ⟨rfl, rfl⟩ := hy
    obtain rfl : d = b := (hpaired.unique hcd hab).mp rfl
    rw [Store.localValue?_define_self (hpaired.left hab),
      Store.localValue?_define_self (hpaired.right hab)]
    exact .some hvw
  · -- The pairing is one to one, so it is another scope or another name on both sides.
    have hleft : c ≠ a ∨ y ≠ x := not_and_or.mp hy
    have hright : d ≠ b ∨ y ≠ x :=
      hleft.imp_left fun hne hd => hne ((hpaired.unique hcd hab).mpr hd)
    rw [Store.localValue?_define_of_ne hleft, Store.localValue?_define_of_ne hright]
    exact h hcd y

theorem contains (h : BindAlike A ρ st st') (hab : ρ a b) (x : String) :
    st.contains a x = st'.contains b x := by
  have hvalues := h hab x
  rw [Store.contains_eq_isSome, Store.contains_eq_isSome]
  generalize st.localValue? a x = v, st'.localValue? b x = w at hvalues ⊢
  cases hvalues with
  | none => rfl
  | some _ => rfl

/-- A name that is found in paired scopes, or in none, has values that belong together. -/
theorem get? (h : BindAlike A ρ st st')
    (hnearest : Option.Rel ρ (st.nearest? a x) (st'.nearest? b x)) :
    Option.Rel A (st.get? a x) (st'.get? b x) := by
  rw [Store.get?, Store.get?]
  generalize st.nearest? a x = c, st'.nearest? b x = d at hnearest ⊢
  cases hnearest with
  | none => exact .none
  | some hcd => exact h hcd x

end BindAlike

-- ============================================================================
-- Stores
-- ============================================================================

/-- Stores whose paired scopes cannot be told apart. -/
structure StoreAlike (T : Token → Token → Prop) (ρ : Scopes) (st st' : Store) : Prop where
  unique : OneToOne ρ
  left : ∀ ⦃a b⦄, ρ a b → a < st.scopes.size
  right : ∀ ⦃a b⦄, ρ a b → b < st'.scopes.size
  parents : ∀ ⦃a b⦄, ρ a b → Option.Rel ρ (st.parent? a) (st'.parent? b)
  values : ∀ ⦃a b⦄, ρ a b → ∀ x,
    Option.Rel (ValueAlike T ρ) (st.localValue? a x) (st'.localValue? b x)
  ordered : st.Ordered
  ordered' : st'.Ordered

namespace StoreAlike

theorem paired (h : StoreAlike T ρ st st') : PairedScopes ρ st st' := ⟨h.unique, h.left, h.right⟩

/-- New scopes inside paired ones can be paired. -/
theorem child (h : StoreAlike T ρ st st') (hab : ρ a b) :
    StoreAlike T (extend ρ (st.child a).2 (st'.child b).2) (st.child a).1 (st'.child b).1 where
  unique := (h.paired.child a b).unique
  left := (h.paired.child a b).left
  right := (h.paired.child a b).right
  parents := by
    rintro c d (hcd | ⟨rfl, rfl⟩)
    · rw [Store.child, Store.child, Store.parent?_push_of_lt _ (h.left hcd),
        Store.parent?_push_of_lt _ (h.right hcd)]
      exact rel_mono (le_extend ρ _ _) (h.parents hcd)
    · rw [Store.child, Store.child, Store.parent?_push_self, Store.parent?_push_self]
      exact .some (.inl hab)
  values := BindAlike.child h.values h.paired (fun _ _ => ValueAlike.mono (le_extend ρ _ _)) a b
  ordered := h.ordered.child (h.left hab)
  ordered' := h.ordered'.child (h.right hab)

/-- Binding a name in paired scopes to values that are alike. -/
theorem define (h : StoreAlike T ρ st st') (hab : ρ a b) (hvw : ValueAlike T ρ v w) :
    StoreAlike T ρ (st.define a x v) (st'.define b x w) where
  unique := (h.paired.define a b x v w).unique
  left := (h.paired.define a b x v w).left
  right := (h.paired.define a b x v w).right
  parents := by
    intro c d hcd
    rw [Store.parent?_define, Store.parent?_define]
    exact h.parents hcd
  values := BindAlike.define h.values h.paired hab x hvw
  ordered := h.ordered.define
  ordered' := h.ordered'.define

/-- From paired scopes a name is found in paired scopes, or in none. -/
theorem nearest? (h : StoreAlike T ρ st st') (hab : ρ a b) (x : String) :
    Option.Rel ρ (st.nearest? a x) (st'.nearest? b x) := by
  induction a using Nat.strongRecOn generalizing b with
  | ind a ih =>
    have hcontains := BindAlike.contains h.values hab x
    cases hx : st.contains a x with
    | true =>
      rw [hx] at hcontains
      rw [Store.nearest?_of_contains h.ordered (h.left hab) hx,
        Store.nearest?_of_contains h.ordered' (h.right hab) hcontains.symm]
      exact .some hab
    | false =>
      rw [hx] at hcontains
      have hparents := h.parents hab
      generalize hp : st.parent? a = p, hq : st'.parent? b = q at hparents
      cases hparents with
      | none =>
        rw [Store.nearest?_of_root (h.left hab) hp hx,
          Store.nearest?_of_root (h.right hab) hq hcontains.symm]
        exact .none
      | @some p q hpq =>
        rw [Store.nearest?_of_parent h.ordered hp hx,
          Store.nearest?_of_parent h.ordered' hq hcontains.symm]
        exact ih p (h.ordered hp) hpq

/-- From paired scopes a name has values that are alike. -/
theorem get? (h : StoreAlike T ρ st st') (hab : ρ a b) (x : String) :
    Option.Rel (ValueAlike T ρ) (st.get? a x) (st'.get? b x) :=
  BindAlike.get? h.values (h.nearest? hab x)

end StoreAlike

end Lexiscope.Lockstep
